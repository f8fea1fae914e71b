import HtmlMarkdown.Proofs.Draft.QuoteMarks

/-!
# Setting blocks off

A block is set off in two ways: by quoted breaks, or by plain breaks behind an output whose quoted
tail has been taken back.  If the output is clean it has no live marks then.  A property of outputs
that both ways keep, and with them the writing of ink and spaces, is a `BlockInvariant`.  All tokens
keep it but line breaks, links and the ends of quotations, which have ways of their own
(`Draft.add_block`).
-/

namespace HtmlMarkdown

open Text

namespace Output

/-- What setting off blocks and writing text keep. -/
structure BlockInvariant (P : Output → Prop) : Prop where
  /-- Writing ink. -/
  ink {o : Output} {c : Char} (h : P o) (hc : isBlank c = false) : P (o.push c)
  /-- Writing a space. -/
  space {o : Output} (h : P o) : P (o.push ' ')
  /-- Taking back a quoted tail. -/
  strip {o : Output} (h : P o) : P o.stripQuoteTail
  /-- Plain breaks. -/
  plain {o : Output} {n : Nat} (h : P o) (hmarks : o.quoteMarks = []) (hpos : 0 < n) (hn : n ≤ 2)
    (keepSpace : Bool) : P (o.separate n false keepSpace)
  /-- Quoted breaks. -/
  quoted {o : Output} {n : Nat} (h : P o) (hpos : 0 < n) (hn : n ≤ 2) : P (o.separateQuoted n)

theorem BlockInvariant.append {P : Output → Prop} (hP : BlockInvariant P) {o : Output} (h : P o)
    {s : List Char} (hs : s.all (fun c => !isBlank c || c == ' ') = true) : P (o.append s) := by
  induction s generalizing o with
  | nil => exact h
  | cons c s ih =>
    rw [List.all_cons, Bool.and_eq_true, Bool.or_eq_true, Bool.not_eq_true', beq_iff_eq] at hs
    obtain ⟨hc | rfl, hs⟩ := hs
    · exact ih (hP.ink h hc) hs
    · exact ih (hP.space h) hs

end Output

namespace Draft

variable {P : Output → Prop} (hP : Output.BlockInvariant P) {mode : Mode} {d : Draft}

include hP

theorem markup_block (h : P d.output) {s : List Char}
    (hs : s.all (fun c => !isBlank c || c == ' ') = true) : P (d.markup mode s).output := by
  cases mode with
  | markdown => exact hP.append h hs
  | plain => exact h

theorem space_block (h : P d.output) : P d.space.output := by
  unfold space Output.pushSpace
  dsimp only
  split
  · exact h
  · exact hP.space h

theorem char_block (h : P d.output) {c : Char} (hc : isBlank c = false) :
    P (d.char mode c).output := by
  unfold char
  dsimp only
  split
  · exact hP.ink (markup_block hP h (by decide)) hc
  · exact hP.ink h hc

/-- Blocks are set off whether their breaks are quoted or not. -/
theorem separate_block (h : P d.output) (hclean : d.output.Clean) {n : Nat} (hpos : 0 < n)
    (hn : n ≤ 2) (quotable closing : Bool) : P (d.separate mode n quotable closing).output := by
  unfold separate
  dsimp only
  split
  · next hquoted =>
    rw [hquoted]
    exact hP.quoted h hpos hn
  · next hquoted =>
    rw [Bool.eq_false_iff.2 hquoted]
    exact hP.plain (hP.strip h) hclean.quoteMarks_stripQuoteTail hpos hn _

theorem openBlock_block (h : P d.output) (hclean : d.output.Clean) (e : Element) {s : Spacing}
    (hpos : 0 < s.lines) (hn : s.lines ≤ 2) : P (d.openBlock mode e s).output := by
  have hsep : P (separate mode s.lines s.quotable false ⟨d.output, d.context.openBlock e⟩).output :=
    separate_block (d := ⟨d.output, d.context.openBlock e⟩) hP h hclean hpos hn s.quotable false
  exact markup_block hP hsep (e.all_opener (by decide))

theorem rule_block (h : P d.output) (hclean : d.output.Clean) : P (d.rule mode).output := by
  have hsep : P (d.separate mode 1 true false).output :=
    separate_block hP h hclean (by decide) (by decide) true false
  cases mode with
  | plain => exact hsep
  | markdown =>
    have htext : P ((d.separate .markdown 1 true false).markup .markdown ruleText).output :=
      markup_block hP hsep (by decide)
    refine separate_block hP htext ?_ (by decide) (by decide) true true
    exact Output.clean_of_quoteMarks_eq_nil (Output.quoteMarks_append_ink (by decide) _ _)

/-- What can come of a token, if a property is kept by all that sets blocks off. -/
theorem add_block (h : P d.output) (hclean : d.output.Clean) (t : Token)
    (hchar : ∀ c, t = .char c → isBlank c = false)
    (hleave : t = .endTag .quotation → P d.leaveQuotation.output)
    (hbreak : ∀ ahead, t = .startTag .lineBreak ahead → P (d.lineBreak mode).output)
    (hlink : ∀ l, t = .link l → P (d.output.append l.markdown)) : P (d.add mode t).output := by
  refine add_rule (P := fun d => P d.output) t (fun c hc => char_block hP h (hchar c hc))
    (space_block hP h) h ?_ ?_ ?_ hleave (rule_block hP h hclean) hbreak hlink
  · exact fun e m hm => markup_block hP h (Element.all_marker (by decide) hm)
  · intro e s n ahead _ hs hn
    have hlines := Element.lines_of_spacing hs
    have hpos : 0 < n := by omega
    have hle : n ≤ 2 := by omega
    exact openBlock_block hP h hclean e hpos hle
  · intro e s _ hs _
    have hlines := Element.lines_of_spacing hs
    exact separate_block (d := { d with context := d.context.close s.container }) hP h hclean
      hlines.1 hlines.2 _ _

end Draft

end HtmlMarkdown
