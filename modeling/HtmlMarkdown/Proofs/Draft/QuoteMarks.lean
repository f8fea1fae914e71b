import HtmlMarkdown.Convert
import HtmlMarkdown.Proofs.Draft.Step
import HtmlMarkdown.Proofs.Output.QuoteMarks
import HtmlMarkdown.Proofs.Source.Reading
import Mathlib.Tactic.ByContra

/-!
# Marks stay in their quotation

While a page is written in Markdown, the draft stays `Orderly`: its output is clean, and outside
quotations it has no live mark.  In plain mode there are no live marks at all.  Both are kept by
each token (`Orderly.add`, `quoteMarks_add_plain`), therefore they hold at every place of every
page, and a page that ends outside quotations has no empty quoted line at its end.
-/

namespace HtmlMarkdown

open Text

namespace Draft

theorem quoteMarks_append_marker {e : Element} {m : List Char} (h : e.marker? = some m)
    (hm : m ≠ []) (o : Output) : (o.append m).quoteMarks = [] := by
  cases m with
  | nil => exact absurd rfl hm
  | cons c s =>
    refine Output.quoteMarks_append_ink ?_ o s
    cases e <;> simp [Element.marker?] at h <;> obtain ⟨rfl, -⟩ := h <;> decide

theorem quoteMarks_append_opener {e : Element} (he : e.opener ≠ []) (o : Output) :
    (o.append e.opener).quoteMarks = [] := by
  cases e with
  | heading rank => exact Output.quoteMarks_append_ink (c := '#') (by decide) o _
  | item => exact Output.quoteMarks_append_ink (by decide) o _
  | _ => exact absurd rfl he

/-! ## Markdown -/

/-- The live marks of a draft belong to the quotation in which it stands. -/
structure Orderly (d : Draft) : Prop where
  /-- The live marks can be taken back in one go. -/
  clean : d.output.Clean
  /-- Outside quotations there are none. -/
  outside : d.context.inQuotation = false → d.output.quoteMarks = []

theorem orderly_of_quoteMarks_eq_nil {d : Draft} (h : d.output.quoteMarks = []) : d.Orderly :=
  ⟨Output.clean_of_quoteMarks_eq_nil h, fun _ => h⟩

theorem orderly_empty : empty.Orderly := orderly_of_quoteMarks_eq_nil rfl

theorem Orderly.space {d : Draft} (h : d.Orderly) : d.space.Orderly :=
  ⟨h.clean.pushSpace, fun hc => (Output.quoteMarks_pushSpace d.output).trans (h.outside hc)⟩

theorem Orderly.markup {d : Draft} (h : d.Orderly) {s : List Char}
    (hs : s ≠ [] → (d.output.append s).quoteMarks = []) : (d.markup .markdown s).Orderly := by
  cases s with
  | nil => exact h
  | cons c s => exact orderly_of_quoteMarks_eq_nil (hs (by simp))

theorem quoteMarks_char {c : Char} (h : isBlank c = false) (mode : Mode) (d : Draft) :
    (d.char mode c).output.quoteMarks = [] :=
  Output.quoteMarks_push_ink h _

/-- Separation keeps the live marks in their quotation, whatever the context was before. -/
theorem Orderly.separate {d : Draft} (h : d.output.Clean) (n : Nat) (quotable closing : Bool) :
    (d.separate .markdown n quotable closing).Orderly := by
  -- Quoted breaks may leave marks, which then stand in the quotation; others take the marks back.
  cases hq : quotable && d.context.inQuotation with
  | true =>
    obtain ⟨rfl, hin⟩ := Bool.and_eq_true_iff.1 hq
    refine ⟨?_, fun hout => ?_⟩
    · simp only [Draft.separate, hin, Output.separate, beq_self_eq_true, Bool.and_self, if_true]
      exact h.separateQuoted n
    · exact absurd (hin.symm.trans hout) (by decide)
  | false =>
    apply orderly_of_quoteMarks_eq_nil
    rw [separate_of_not_quoted ((Bool.and_eq_false_iff.1 hq).imp id .inr)]
    exact Output.quoteMarks_separate_of_eq_nil h.quoteMarks_stripQuoteTail n _

theorem Orderly.openBlock {d : Draft} (h : d.Orderly) (e : Element) (s : Spacing) :
    (d.openBlock .markdown e s).Orderly :=
  (Orderly.separate (d := { d with context := d.context.openBlock e }) h.clean ..).markup
    fun he => quoteMarks_append_opener he _

theorem Orderly.rule {d : Draft} (h : d.Orderly) : (d.rule .markdown).Orderly := by
  have hsep : (d.separate .markdown 1 true false).Orderly := Orderly.separate h.clean 1 true false
  have htext : ((d.separate .markdown 1 true false).markup .markdown ruleText).Orderly :=
    hsep.markup fun _ => Output.quoteMarks_append_ink (by decide) _ _
  exact Orderly.separate htext.clean 2 true true

theorem Orderly.lineBreak {d : Draft} (h : d.Orderly) : (d.lineBreak .markdown).Orderly := by
  have hdrop := h.clean.dropSpace
  cases hin : d.context.inQuotation with
  | true =>
    cases hblank : d.output.endsInQuotedBlankLine with
    | true => simpa only [Draft.lineBreak, hin, hblank, if_true] using h
    | false =>
      simp only [Draft.lineBreak, hin, hblank, if_true, Bool.false_eq_true, if_false]
      refine ⟨hdrop.push_space.push_space.pushQuotedBreak, fun hout => ?_⟩
      exact absurd (hin.symm.trans hout) (by decide)
  | false =>
    simp only [Draft.lineBreak, hin, Bool.false_eq_true, if_false]
    have hnil : d.output.dropSpace.quoteMarks = [] :=
      (Output.quoteMarks_dropSpace d.output).trans (h.outside hin)
    exact orderly_of_quoteMarks_eq_nil <|
      Output.quoteMarks_append_of_eq_nil hnil [' ', ' ', '\r', '\n']

theorem quoteMarks_leaveQuotation {d : Draft} (h : d.output.Clean) :
    d.leaveQuotation.output.quoteMarks = [] := by
  have hstrip := h.quoteMarks_stripQuoteTail
  unfold leaveQuotation
  dsimp only
  split
  · apply Output.quoteMarks_append_of_eq_nil (s := ['\r', '\n'])
    exact (Output.quoteMarks_dropSpace _).trans hstrip
  · exact hstrip

theorem Orderly.add {d : Draft} (h : d.Orderly) {t : Token}
    (ht : ∀ c, t = .char c → isBlank c = false) : (d.add .markdown t).Orderly := by
  refine add_rule t ?_ h.space h ?_ ?_ ?_ ?_ h.rule (fun _ _ => h.lineBreak) ?_
  · exact fun c hc => orderly_of_quoteMarks_eq_nil (quoteMarks_char (ht c hc) .markdown d)
  · exact fun e m hm => h.markup fun hne => quoteMarks_append_marker hm hne _
  · exact fun e s n _ _ _ _ => h.openBlock e _
  · exact fun e s _ _ _ =>
      Orderly.separate (d := { d with context := d.context.close _ }) h.clean ..
  · exact fun _ => orderly_of_quoteMarks_eq_nil (quoteMarks_leaveQuotation h.clean)
  · exact fun l _ => orderly_of_quoteMarks_eq_nil (Output.quoteMarks_append_ink (by decide) _ _)

theorem Orderly.addAll {d : Draft} (h : d.Orderly) {ts : List Token}
    (hts : ∀ c, .char c ∈ ts → isBlank c = false) : (d.addAll .markdown ts).Orderly :=
  addAll_rule h fun _ _ ht hd => hd.add fun c hc => hts c (hc ▸ ht)

/-! ## Plain text -/

theorem quoteMarks_separate_plain {d : Draft} (h : d.output.quoteMarks = []) (n : Nat)
    (quotable closing : Bool) : (d.separate .plain n quotable closing).output.quoteMarks = [] := by
  have hclean := Output.clean_of_quoteMarks_eq_nil h
  rw [separate_of_not_quoted (.inr (.inl rfl))]
  exact Output.quoteMarks_separate_of_eq_nil hclean.quoteMarks_stripQuoteTail n _

/-- In plain mode no token writes a mark that could stay alive. -/
theorem quoteMarks_add_plain {d : Draft} (h : d.output.quoteMarks = []) {t : Token}
    (ht : ∀ c, t = .char c → isBlank c = false) : (d.add .plain t).output.quoteMarks = [] := by
  refine add_rule (P := fun d => d.output.quoteMarks = []) t ?_ ?_ h ?_ ?_ ?_ ?_ ?_ ?_ ?_
  · exact fun c hc => quoteMarks_char (ht c hc) .plain d
  · exact (Output.quoteMarks_pushSpace d.output).trans h
  · exact fun e m _ => h
  · exact fun e s n _ _ _ _ =>
      quoteMarks_separate_plain (d := { d with context := d.context.openBlock e }) h n _ _
  · exact fun e s _ _ _ =>
      quoteMarks_separate_plain (d := { d with context := d.context.close _ }) h s.lines _ _
  · exact fun _ => quoteMarks_leaveQuotation (Output.clean_of_quoteMarks_eq_nil h)
  · exact quoteMarks_separate_plain h 1 true false
  · exact fun _ _ => Output.quoteMarks_append_of_eq_nil (s := ['\r', '\n'])
      ((Output.quoteMarks_dropSpace d.output).trans h)
  · exact fun l _ => Output.quoteMarks_append_ink (by decide) _ _

/-! ## Whole pages -/

theorem orderly_of_isPrefix {page : List Char} {ts : List Token}
    (h : ts <+: tokens .markdown page) : (empty.addAll .markdown ts).Orderly :=
  orderly_empty.addAll fun _ hc => not_blank_of_mem_tokens (h.subset hc)

theorem quoteMarks_of_isPrefix_plain {page : List Char} {ts : List Token}
    (h : ts <+: tokens .plain page) : (empty.addAll .plain ts).output.quoteMarks = [] := by
  apply addAll_rule (P := fun d => d.output.quoteMarks = []) rfl
  intro d t ht hd
  apply quoteMarks_add_plain hd
  rintro c rfl
  exact not_blank_of_mem_tokens (h.subset ht)

end Draft

/--
At each place of a page the live marks belong to a quotation, where they stand on the last line; in
plain mode there are none.  Outside quotations there is therefore no mark among the blanks at the
end of the output, and a page that ends outside quotations does not end in an empty quoted line.
-/
theorem quoteMarks_stay_in_quotation (page : List Char) :
    (∀ ts, ts <+: tokens .plain page → (Draft.empty.addAll .plain ts).output.quoteMarks = []) ∧
    (∀ ts d, ts <+: tokens .markdown page → d = Draft.empty.addAll .markdown ts →
      (d.output.quoteMarks ≠ [] →
        d.context.container = some .quotation ∧ d.output.onFreshQuotedLine = true) ∧
      (d.context.container ≠ some .quotation → .mark ∉ d.output.tail)) ∧
    (∀ d, d = Draft.empty.addAll .markdown (tokens .markdown page) →
      (convertTokens .markdown page).getLast? = d.output.lastGlyph?.map Glyph.toChar ∧
      (d.context.container ≠ some .quotation → d.output.lastGlyph? ≠ some .mark)) := by
  have outside : ∀ d : Draft, d.Orderly → d.context.container ≠ some .quotation →
      d.output.quoteMarks = [] := fun d hd hc => hd.outside (beq_eq_false_iff_ne.2 hc)
  refine ⟨fun ts => Draft.quoteMarks_of_isPrefix_plain, ?_, ?_⟩
  · rintro ts d hts rfl
    have horderly := Draft.orderly_of_isPrefix hts
    refine ⟨fun hne => ⟨?_, horderly.clean.fresh hne⟩, fun hc => ?_⟩
    · by_contra hc
      exact hne (outside _ horderly hc)
    · exact (Output.quoteMarks_eq_nil_iff _).1 (outside _ horderly hc)
  · rintro d rfl
    have horderly := Draft.orderly_of_isPrefix (List.prefix_refl (tokens .markdown page))
    exact ⟨Output.getLast?_finish _, fun hc => Output.lastGlyph?_ne_mark (outside _ horderly hc)⟩

end HtmlMarkdown
