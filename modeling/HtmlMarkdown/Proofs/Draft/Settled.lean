import HtmlMarkdown.Proofs.Draft.Prose
import HtmlMarkdown.Proofs.Draft.SetOff
import HtmlMarkdown.Proofs.Draft.Step
import HtmlMarkdown.Proofs.Output.Finish
import HtmlMarkdown.Proofs.Text.Lines

/-!
# Between blocks

A draft is `Settled` where a block has been closed: it has a number of breaks behind a text that
ends with ink.  The next block `Opens` behind the breaks that are missing.  Running text in between
leads from one to the other (`Opens.textBlock`), whatever was written before.
-/

namespace HtmlMarkdown.Draft

open Text Output

variable {quoted : Bool} {n : Nat} {t : List Char} {d : Draft}

/-- The draft has `n` breaks behind the text `t`, which ends with ink. -/
structure Settled (quoted : Bool) (n : Nat) (t : List Char) (d : Draft) : Prop where
  /-- What has been written. -/
  glyphs : ∃ c gs, isBlank c = false ∧ d.output.glyphs = breaks quoted n ++ .char c :: gs ∧
    written (.char c :: gs) = t
  /-- Whether the draft stands in a quotation. -/
  place : d.context.inQuotation = quoted

/-- A block with `n` breaks around it starts behind the text `t`. -/
structure Opens (quoted : Bool) (n : Nat) (t : List Char) (d : Draft) : Prop where
  /-- Behind the breaks nothing is written for white space. -/
  spacing : (d.output.setOff quoted n).endsInSpacing = true
  /-- Blocks that ask for fewer breaks write no more of them. -/
  stable : ∀ m, 0 < m → m ≤ n →
    (d.output.setOff quoted n).setOff quoted m = d.output.setOff quoted n
  /-- What has been written. -/
  text : written (d.output.setOff quoted n).glyphs = t
  /-- Whether the draft stands in a quotation. -/
  place : d.context.inQuotation = quoted

/-! ## Settled drafts -/

theorem Settled.output_eq (h : d.Settled quoted n t) :
    ∃ c gs, isBlank c = false ∧ d.output = ⟨breaks quoted n ++ .char c :: gs⟩ ∧
      written (.char c :: gs) = t := by
  obtain ⟨c, gs, hc, hgs, ht⟩ := h.glyphs
  exact ⟨c, gs, hc, congrArg Output.mk hgs, ht⟩

theorem endsInSpacing_breaks (quoted : Bool) (hn : 0 < n) (gs : List Glyph) :
    (⟨breaks quoted n ++ gs⟩ : Output).endsInSpacing = true := by
  cases n with
  | zero => cases hn
  | succ n => cases quoted <;> rfl

theorem Settled.endsInSpacing (h : d.Settled quoted n t) (hn : 0 < n) :
    d.output.endsInSpacing = true := by
  obtain ⟨c, gs, -, hout, -⟩ := h.output_eq
  rw [hout]
  exact endsInSpacing_breaks quoted hn _

/-- Behind a settled text a block writes the breaks that are missing. -/
theorem Settled.opens {k : Nat} (h : d.Settled quoted k t) (hn : 0 < n) :
    d.Opens quoted n (t ++ written (breaks quoted (max n k))) := by
  obtain ⟨c, gs, hc, hout, ht⟩ := h.output_eq
  have hset : d.output.setOff quoted n = ⟨breaks quoted (max n k) ++ .char c :: gs⟩ := by
    rw [hout, setOff_breaks hc hn]
  refine ⟨?_, fun m hm hmn => ?_, ?_, h.place⟩
  · rw [hset]
    exact endsInSpacing_breaks quoted (by omega) _
  · have hmax : max m (max n k) = max n k := by omega
    rw [hset, setOff_breaks hc hm, hmax]
  · rw [hset, written_append, ht]

theorem Settled.separate {k : Nat} (h : d.Settled quoted k t) (hn : 0 < n) {quotable : Bool}
    (hq : quotable = true ∨ quoted = false) (closing : Bool) :
    (d.separate .markdown n quotable closing).Settled quoted (max n k) t := by
  obtain ⟨c, gs, hc, hout, ht⟩ := h.output_eq
  rw [separate_eq (by rw [h.place]; exact hq), h.place, hout, setOff_breaks hc hn]
  exact ⟨⟨c, gs, hc, rfl, ht⟩, h.place⟩

/-- A space behind a text gives way to the breaks. -/
theorem Settled.separate_space (h : d.Settled quoted 0 t) (n : Nat) {quotable : Bool}
    (hq : quotable = true ∨ quoted = false) (closing : Bool) :
    (d.space.separate .markdown n quotable closing).Settled quoted n t := by
  obtain ⟨c, gs, hc, hout, ht⟩ := h.output_eq
  have hspace : d.space.output = ⟨.char ' ' :: .char c :: gs⟩ := by
    have hink : (⟨.char c :: gs⟩ : Output).endsInSpacing = false :=
      Glyph.isSpacing_of_not_blank hc
    show d.output.pushSpace = _
    rw [hout]
    show pushSpace ⟨.char c :: gs⟩ = _
    rw [pushSpace, hink]
    rfl
  have hplace : d.space.context.inQuotation = quoted := h.place
  rw [separate_eq (by rw [hplace]; exact hq), hplace, hspace, setOff_space hc]
  exact ⟨⟨c, gs, hc, rfl, ht⟩, hplace⟩

theorem settled_markup (hplace : d.context.inQuotation = quoted) {s : List Char} (h : Inked s) :
    (d.markup .markdown s).Settled quoted 0 (written d.output.glyphs ++ s) := by
  obtain ⟨c, gs, hc, happend⟩ := exists_glyphs_append h d.output
  exact ⟨⟨c, gs, hc, happend, happend ▸ written_output_append d.output s⟩, hplace⟩

/-! ## Blocks of running text -/

/-- Closing a block without blocks in it sets off what comes next. -/
theorem closeBlock_eq {s : Spacing} (hc : s.container = false) (d : Draft) :
    d.closeBlock .markdown s =
      ({ d with context := d.context.close false } : Draft).separate .markdown s.lines
        s.quotable true := by
  rw [closeBlock, hc]

/-- Running text and the end of its block. -/
theorem settled_prose (hspacing : d.output.endsInSpacing = true)
    (hplace : d.context.inQuotation = quoted) {text : List Char} (htext : words text ≠ [])
    {s : Spacing} (hc : s.container = false) (hlines : 0 < s.lines)
    (hq : s.quotable = true ∨ quoted = false) :
    ((d.addAll .markdown (text.map Token.ofChar)).closeBlock .markdown s).Settled quoted s.lines
      (written d.output.glyphs ++ prose text) := by
  have hink := settled_markup hplace (inked_prose htext)
  have hleaf : Settled quoted 0 (written d.output.glyphs ++ prose text)
      { d.markup .markdown (prose text) with context := d.context.close false } :=
    ⟨hink.glyphs, hplace⟩
  rw [closeBlock_eq hc]
  rcases addAll_prose hspacing text with hread | hread
  · have hsettled := hleaf.separate hlines hq true
    rw [Nat.max_zero] at hsettled
    rw [hread]
    exact hsettled
  · rw [hread]
    exact hleaf.separate_space s.lines hq true

theorem endsInSpacing_opener (h : d.output.endsInSpacing = true) (e : Element) :
    (d.markup .markdown e.opener).output.endsInSpacing = true := by
  cases e with
  | heading rank =>
    show (d.output.append (List.replicate (rank + 1) '#' ++ [' '])).endsInSpacing = true
    rw [append, List.foldl_append]
    rfl
  | item => rfl
  | _ => exact h

theorem inQuotation_openBlock {e : Element} {s : Spacing} (hs : e.spacing? = some s)
    (hc : s.container = false) (ctx : Context) :
    (ctx.openBlock e).inQuotation = ctx.inQuotation := by
  cases e <;> first | rfl | (cases hs; cases hc)

/-- The start of a block of running text. -/
theorem Opens.startTag_eq {e : Element} {s : Spacing} (hs : e.spacing? = some s)
    (hc : s.container = false) (hq : s.quotable = true ∨ quoted = false)
    (h : d.Opens quoted s.lines t) :
    d.startTag .markdown e false =
      (⟨d.output.setOff quoted s.lines, d.context.openBlock e⟩ : Draft).markup .markdown
        e.opener := by
  have hplace : (d.context.openBlock e).inQuotation = quoted := by
    rw [inQuotation_openBlock hs hc, h.place]
  have hsep : ({ d with context := d.context.openBlock e } : Draft).separate .markdown s.lines
      s.quotable false = ⟨d.output.setOff quoted s.lines, d.context.openBlock e⟩ := by
    rw [separate_eq (by rw [hplace]; exact hq), hplace]
  rw [startTag_of_spacing hs, openBlock, hsep]

/-- A block of running text. -/
theorem Opens.textBlock {e : Element} {s : Spacing} (hs : e.spacing? = some s)
    (hc : s.container = false) (hq : s.quotable = true ∨ quoted = false)
    (h : d.Opens quoted s.lines t) {text : List Char}
    (htext : words text ≠ []) :
    (d.addAll .markdown (.startTag e false :: (text.map Token.ofChar ++ [.endTag e]))).Settled
      quoted s.lines (t ++ (e.opener ++ prose text)) := by
  have hlines : 0 < s.lines := by cases e <;> cases hs <;> decide
  have he : e ≠ .quotation := by
    rintro rfl
    cases hs
    cases hc
  have hopen := h.startTag_eq hs hc hq
  have hspacing : (d.startTag .markdown e false).output.endsInSpacing = true := by
    rw [hopen]
    exact endsInSpacing_opener h.spacing e
  have hstart : (d.startTag .markdown e false).context.inQuotation = quoted := by
    rw [hopen]
    exact (inQuotation_openBlock hs hc d.context).trans h.place
  -- Behind its opener the block is written as running text wherever it stands.
  have htext' := settled_prose hspacing hstart htext hc hlines hq
  have hwritten : written (d.startTag .markdown e false).output.glyphs = t ++ e.opener := by
    rw [hopen, ← h.text]
    exact written_output_append _ _
  rw [hwritten, List.append_assoc] at htext'
  rw [addAll_cons, addAll_append]
  show Settled _ _ _ (endTag .markdown e _)
  rw [endTag_of_spacing hs he]
  exact htext'

theorem Opens.rule (h : d.Opens quoted 1 t) (ahead : Bool) :
    (d.startTag .markdown .rule ahead).Settled quoted 2 (t ++ ruleText) := by
  have hopen : d.separate .markdown 1 true false = ⟨d.output.setOff quoted 1, d.context⟩ := by
    rw [separate_eq (.inl rfl), h.place]
  have htext : ((d.separate .markdown 1 true false).markup .markdown ruleText).Settled quoted 0
      (t ++ ruleText) := by
    have hink : Inked ruleText := ⟨by decide, by decide⟩
    rw [hopen, ← h.text]
    exact settled_markup (d := ⟨d.output.setOff quoted 1, d.context⟩) h.place hink
  exact htext.separate (n := 2) (by decide) (.inl rfl) true

/-! ## Quotations -/

/-- The start of a page is the start of any block. -/
theorem opens_start (h : d.output = .empty) (hplace : d.context.inQuotation = false) (n : Nat) :
    d.Opens false n [] := by
  have hstart : ∀ m, setOff false m .empty = .empty := by
    intro m
    show pushBreaks (m - m) .empty = .empty
    rw [Nat.sub_self]
    rfl
  refine ⟨?_, fun m _ _ => ?_, ?_, hplace⟩
  · rw [h, hstart]
    rfl
  · rw [h, hstart, hstart]
  · rw [h, hstart]
    rfl

theorem startTag_quotation (d : Draft) (ahead : Bool) :
    d.startTag .markdown .quotation ahead =
      ⟨d.output.setOff true (if ahead then 1 else 2), d.context.openBlock .quotation⟩ := by
  cases ahead <;> rfl

/-- A quotation at the start of a page. -/
theorem opens_quotation_start (h : d.output = .empty) (ahead : Bool) {m : Nat} (h₁ : 0 < m)
    (h₂ : m ≤ 2) :
    (d.startTag .markdown .quotation ahead).Opens true m (newLine ++ ['>', ' ']) := by
  have hset : ∀ k, 0 < k → k ≤ 2 → setOff true k ⟨breaks true 1⟩ = ⟨breaks true 1⟩ := by
    intro k hk hk'
    obtain rfl | rfl : k = 1 ∨ k = 2 := by omega
    · rfl
    · rfl
  have hout : (d.startTag .markdown .quotation ahead).output = ⟨breaks true 1⟩ := by
    rw [startTag_quotation, h]
    cases ahead <;> rfl
  refine ⟨?_, fun k hk hkm => ?_, ?_, rfl⟩
  · rw [hout, hset m h₁ h₂]
    rfl
  · rw [hout, hset m h₁ h₂, hset k hk (by omega)]
  · rw [hout, hset m h₁ h₂]
    rfl

/-- A quotation behind two plain breaks. -/
theorem Settled.opens_quotation (h : d.Settled false 2 t) (ahead : Bool) {m : Nat} (h₁ : 0 < m)
    (h₂ : m ≤ 2) :
    (d.startTag .markdown .quotation ahead).Opens true m (t ++ (newLine ++ newLine ++ ['>', ' '])) := by
  obtain ⟨c, gs, hc, hglyphs, ht⟩ := h.output_eq
  have hset : ∀ k, 0 < k → k ≤ 2 →
      setOff true k ⟨.char ' ' :: .mark :: (breaks false 2 ++ .char c :: gs)⟩ =
        ⟨.char ' ' :: .mark :: (breaks false 2 ++ .char c :: gs)⟩ := by
    intro k hk hk'
    have hnone : k - 2 = 0 := by omega
    rw [setOff_mark hc hk (by decide), hnone]
    rfl
  have hout : (d.startTag .markdown .quotation ahead).output =
      ⟨.char ' ' :: .mark :: (breaks false 2 ++ .char c :: gs)⟩ := by
    rw [startTag_quotation, hglyphs]
    cases ahead with
    | true => exact setOff_feed (n := 1) (k := 2) hc (by decide) (by decide)
    | false => exact setOff_feed (n := 2) (k := 2) hc (by decide) (by decide)
  refine ⟨?_, fun k hk hkm => ?_, ?_, rfl⟩
  · rw [hout, hset m h₁ h₂]
    rfl
  · rw [hout, hset m h₁ h₂, hset k hk (by omega)]
  · rw [hout, hset m h₁ h₂, ← ht]
    show written (_ :: _ :: _) = _
    rw [written_cons, written_cons, written_append, List.append_assoc, List.append_assoc]
    rfl

/-- A quotation behind the one break that another quotation leaves. -/
theorem Settled.settled_quotation (h : d.Settled false 1 t) (ahead : Bool) :
    (d.startTag .markdown .quotation ahead).Settled true (if ahead then 1 else 2) t := by
  obtain ⟨c, gs, hc, hout, ht⟩ := h.output_eq
  rw [startTag_quotation, hout]
  cases ahead with
  | true =>
    rw [setOff_feed (n := if true then 1 else 2) hc (by decide) (by decide)]
    exact ⟨⟨c, gs, hc, rfl, ht⟩, rfl⟩
  | false =>
    rw [setOff_feed (n := if false then 1 else 2) hc (by decide) (by decide)]
    exact ⟨⟨c, gs, hc, rfl, ht⟩, rfl⟩

theorem Settled.endsInSpacing_quotation {k : Nat} (h : d.Settled false k t) (hk : 0 < k)
    (ahead : Bool) : (d.startTag .markdown .quotation ahead).output.endsInSpacing = true := by
  obtain ⟨c, gs, hc, hout, -⟩ := h.output_eq
  have hlines : 0 < if ahead then 1 else 2 := by cases ahead <;> decide
  rw [startTag_quotation, hout, setOff_feed hc hlines hk]
  cases (if ahead then 1 else 2) - k <;> rfl

theorem Settled.leaveQuotation (h : d.Settled true n t) : d.leaveQuotation.Settled false 1 t := by
  obtain ⟨⟨gs⟩, ctx⟩ := d
  obtain ⟨c, gs, hc, rfl, ht⟩ := h.glyphs
  rw [leaveQuotation_breaks hc]
  exact ⟨⟨c, gs, hc, rfl, ht⟩, rfl⟩

end HtmlMarkdown.Draft
