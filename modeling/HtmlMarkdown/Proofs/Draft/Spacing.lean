import HtmlMarkdown.Proofs.Draft.Settled
import HtmlMarkdown.Proofs.Draft.Step

/-!
# White space behind a block

A mark never stands at the very end of an output, since a space is written with it (`Padded`).  So
wherever a block is set off, the output ends in white space (`endsInSpacing_separate`,
`endsInSpacing_leaveQuotation`), and the blanks of the page that follow leave no trace
(`addAll_blanks`).
-/

namespace HtmlMarkdown

open Text

namespace Output

variable {o : Output} {n : Nat}

/-- No mark stands at the end. -/
def Padded (o : Output) : Prop := o.glyphs.head? ≠ some .mark

theorem padded_empty : empty.Padded := by simp [Padded, empty]

theorem padded_push (o : Output) (c : Char) : (o.push c).Padded := by
  simp [Padded, push, pushGlyph]

theorem padded_of_endsInSpacing (h : o.endsInSpacing = true) : o.Padded := by
  intro hmark
  rw [endsInSpacing, hmark] at h
  cases h

theorem Padded.append (h : o.Padded) (s : List Char) : (o.append s).Padded := by
  induction s generalizing o with
  | nil => exact h
  | cons c s ih => exact ih (padded_push o c)

/-! ## Breaks at the end -/

theorem endsInSpacing_pushBreaks (h : o.endsInSpacing = true) (n : Nat) :
    (pushBreaks n o).endsInSpacing = true := by
  induction n generalizing o with
  | zero => exact h
  | succ n ih => exact ih rfl

theorem endsInSpacing_pushQuotedBreaks (h : o.endsInSpacing = true) (n : Nat) :
    (pushQuotedBreaks n o).endsInSpacing = true := by
  induction n generalizing o with
  | zero => exact h
  | succ n ih => exact ih rfl

/-- A space at the end does not hide the breaks before it. -/
theorem trailingBreaks_dropSpace (o : Output) (n : Nat) :
    o.dropSpace.trailingBreaks n = o.trailingBreaks n := by
  unfold dropSpace
  split
  · next gs h =>
    rw [trailingBreaks, trailingBreaks, h]
    rfl
  · rfl

/-- What ends in breaks ends in white space. -/
theorem endsInSpacing_of_breaksFrom (passMarks : Bool) (hpass : passMarks = true → o.Padded)
    (h : breaksFrom passMarks n 0 o.glyphs ≠ some 0) : o.endsInSpacing = true := by
  rcases o with ⟨gs⟩
  cases gs with
  | nil => rfl
  | cons g gs =>
    cases g with
    | mark =>
      cases passMarks with
      | true => exact absurd rfl (hpass rfl)
      | false => exact absurd rfl h
    | char c =>
      by_cases hc : (Glyph.char c).isSpacing = true
      · exact hc
      · exact absurd (breaksFrom_of_not_spacing (Bool.eq_false_iff.2 hc) passMarks n 0) h

/-! ## Separation -/

/-- Behind plain breaks the output ends in white space. -/
theorem endsInSpacing_separate (hn : 0 < n) (keepSpace : Bool) :
    (o.separate n false keepSpace).endsInSpacing = true := by
  have htrailing : (if keepSpace then o else o.dropSpace).trailingBreaks n = o.trailingBreaks n := by
    cases keepSpace with
    | true => rfl
    | false => exact trailingBreaks_dropSpace o n
  show (pushBreaks (n - o.trailingBreaks n) (if keepSpace then o else o.dropSpace)).endsInSpacing = true
  rw [← htrailing]
  generalize (if keepSpace then o else o.dropSpace) = p
  cases hmissing : n - p.trailingBreaks n with
  | succ k => exact endsInSpacing_pushBreaks rfl k
  | zero =>
    have hsome : breaksFrom false n 0 p.glyphs ≠ some 0 := by
      intro hzero
      rw [trailingBreaks, hzero] at hmissing
      exact absurd hmissing (Nat.ne_of_gt hn)
    exact endsInSpacing_of_breaksFrom false (by simp) hsome

theorem endsInSpacing_of_fresh (h : o.Padded) (hfresh : o.onFreshQuotedLine = true) :
    o.endsInSpacing = true := by
  rcases o with ⟨gs⟩
  cases gs with
  | nil => cases hfresh
  | cons g gs =>
    by_cases hg : g.isGap = true
    · exact Glyph.isSpacing_of_isGap hg
    · rw [onFreshQuotedLine, List.dropWhile_cons_of_neg hg, beq_iff_eq] at hfresh
      exact absurd hfresh h

/-- Behind quoted breaks the output ends in white space. -/
theorem endsInSpacing_separateQuoted (h : o.Padded) (hn : 0 < n) :
    (o.separateQuoted n).endsInSpacing = true := by
  have hstart : (if o.endsInFeed then o.pushMark else o).Padded := by
    split
    · exact padded_push _ _
    · exact h
  unfold separateQuoted
  generalize (if o.endsInFeed then o.pushMark else o) = p at hstart
  dsimp only
  split
  · split
    · next hfresh => exact endsInSpacing_of_fresh hstart hfresh
    · rfl
  · next existing hexisting =>
    cases hmissing : n - existing with
    | succ k => exact endsInSpacing_pushQuotedBreaks rfl k
    | zero =>
      have hpos : existing ≠ 0 := by
        rintro rfl
        exact absurd hmissing (Nat.ne_of_gt hn)
      have hsome : breaksFrom true n 0 p.glyphs ≠ some 0 := by
        intro hzero
        rw [trailingQuotedBreaks?, hzero] at hexisting
        exact hpos (Option.some.inj hexisting).symm
      rw [if_neg hpos]
      exact endsInSpacing_of_breaksFrom true (fun _ => hstart) hsome

end Output

namespace Draft

variable {mode : Mode} {d : Draft} {n : Nat}

theorem endsInSpacing_separate (h : d.output.Padded) (hn : 0 < n) (quotable closing : Bool) :
    (d.separate mode n quotable closing).output.endsInSpacing = true := by
  unfold separate
  dsimp only
  generalize (quotable && mode == .markdown && d.context.inQuotation) = quoted
  cases quoted with
  | true => exact Output.endsInSpacing_separateQuoted h hn
  | false => exact Output.endsInSpacing_separate hn _

/-- A quotation that is left ends in white space. -/
theorem endsInSpacing_leaveQuotation (d : Draft) : d.leaveQuotation.output.endsInSpacing = true := by
  unfold leaveQuotation
  dsimp only
  split
  · rfl
  · next hbreaks =>
    have hsome : Output.breaksFrom false 2 0 d.output.stripQuoteTail.glyphs ≠ some 0 := by
      intro hzero
      rw [Output.trailingBreaks, hzero] at hbreaks
      exact hbreaks (by decide)
    exact Output.endsInSpacing_of_breaksFrom false (by simp) hsome

theorem endsInSpacing_openBlock (h : d.output.Padded) (e : Element) {s : Spacing}
    (hs : 0 < s.lines) : (d.openBlock mode e s).output.endsInSpacing = true := by
  have hsep : ∀ ctx, ((⟨d.output, ctx⟩ : Draft).separate mode s.lines s.quotable
      false).output.endsInSpacing = true :=
    fun ctx => endsInSpacing_separate (d := ⟨d.output, ctx⟩) h hs _ _
  cases mode with
  | markdown => exact endsInSpacing_opener (hsep _) e
  | plain => exact hsep _

theorem endsInSpacing_closeBlock (h : d.output.Padded) {s : Spacing} (hs : 0 < s.lines) :
    (d.closeBlock mode s).output.endsInSpacing = true :=
  endsInSpacing_separate (d := ⟨d.output, d.context.close s.container⟩) h hs _ _

theorem endsInSpacing_rule (h : d.output.Padded) : (d.rule mode).output.endsInSpacing = true := by
  cases mode with
  | plain => exact endsInSpacing_separate h Nat.one_pos _ _
  | markdown =>
    exact endsInSpacing_separate (Output.padded_push _ '*') Nat.two_pos _ _

/-! ## Steps -/

theorem padded_markup (h : d.output.Padded) (s : List Char) : (d.markup mode s).output.Padded := by
  cases mode with
  | markdown => exact h.append s
  | plain => exact h

theorem padded_lineBreak (h : d.output.Padded) : (d.lineBreak mode).output.Padded := by
  unfold lineBreak
  split
  · exact Output.padded_push _ '\n'
  · split
    · split
      · exact h
      · exact Output.padded_push _ ' '
    · exact Output.padded_push _ '\n'

/-- No token leaves a mark at the end. -/
theorem padded_add (h : d.output.Padded) (t : Token) : (d.add mode t).output.Padded := by
  refine add_rule (P := fun e => e.output.Padded) t ?_ ?_ h ?_ ?_ ?_ ?_ ?_ ?_ ?_
  · intro c _
    exact Output.padded_push _ c
  · exact Output.padded_of_endsInSpacing (endsInSpacing_space d)
  · intro e m _
    exact padded_markup h m
  · intro e s n ahead _ hs hn
    have hpos : 0 < n := by
      rcases hn with ⟨-, rfl⟩ | rfl
      · exact Nat.one_pos
      · exact (Element.lines_of_spacing hs).1
    exact Output.padded_of_endsInSpacing (endsInSpacing_openBlock h e hpos)
  · intro e s _ hs _
    exact Output.padded_of_endsInSpacing
      (endsInSpacing_closeBlock h (Element.lines_of_spacing hs).1)
  · exact fun _ => Output.padded_of_endsInSpacing (endsInSpacing_leaveQuotation d)
  · exact Output.padded_of_endsInSpacing (endsInSpacing_rule h)
  · intro _ _
    exact padded_lineBreak h
  · intro l _
    exact h.append l.markdown

theorem padded_addAll (h : d.output.Padded) (ts : List Token) : (d.addAll mode ts).output.Padded :=
  addAll_rule (P := fun e => e.output.Padded) h fun _ t _ hd => padded_add hd t

/-- Behind white space, blanks leave no trace. -/
theorem addAll_blanks (h : d.output.endsInSpacing = true) {b : List Char}
    (hb : ∀ c ∈ b, isBlank c = true) : d.addAll mode (b.map Token.ofChar) = d := by
  induction b with
  | nil => rfl
  | cons c b ih =>
    rw [List.forall_mem_cons] at hb
    rw [List.map_cons, addAll_cons, Token.ofChar, if_pos hb.1]
    show d.space.addAll mode _ = d
    rw [space_of_endsInSpacing h, ih hb.2]

end Draft

end HtmlMarkdown
