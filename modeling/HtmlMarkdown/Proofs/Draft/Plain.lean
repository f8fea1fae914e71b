import HtmlMarkdown.Proofs.Draft.Ink
import HtmlMarkdown.Proofs.Output.Merge
import Mathlib.Data.List.Chain

/-!
# Drafts of plain text

Without markup a page is ink, single spaces and whole line breaks, and which of them may stand
behind which is said by `Follows`.  Everything that is written keeps this (`Plain`), in whatever
order spaces and breaks are asked for.  A space in front of a break is taken back, except where a
block of a quotation is closed; if there is no quotation, no line ends with a space.
-/

namespace HtmlMarkdown

open Text

/--
Whether `d` may stand right behind `c` in plain text; with `tight`, no line ends with a space.
-/
structure Follows (tight : Prop) (c d : Char) : Prop where
  /-- No space stands behind white space. -/
  space : d = ' ' → isBlank c = false
  /-- A carriage return and a line feed stand together. -/
  whole : c = '\r' ↔ d = '\n'
  /-- No break stands behind a space. -/
  flush : tight → d = '\r' → c ≠ ' '

theorem follows_ink {tight : Prop} {c d : Char} (hc : c ≠ '\r') (hd : isBlank d = false) :
    Follows tight c d where
  space := by
    rintro rfl
    cases hd
  whole := by
    refine ⟨fun h => absurd h hc, ?_⟩
    rintro rfl
    cases hd
  flush _ := by
    rintro rfl
    cases hd

theorem Glyph.eq_char {g : Glyph} {c : Char} (h : g.toChar = c) (hc : c ≠ '>') : g = .char c := by
  cases g with
  | mark => exact absurd h.symm hc
  | char d => exact congrArg char h

namespace Output

variable {tight : Prop} {o : Output}

/-- What holds of the output of a page without markup. -/
structure Plain (tight : Prop) (o : Output) : Prop where
  /-- There is ink, and there are spaces and the characters of line breaks. -/
  glyph : ∀ g ∈ o.glyphs, ∃ c, g = .char c ∧ (isBlank c = true → c = ' ' ∨ c = '\r' ∨ c = '\n')
  /-- Each of them may stand behind the one before it. -/
  chain : o.glyphs.IsChain fun g h => Follows tight h.toChar g.toChar
  /-- No line break is half written. -/
  whole : o.glyphs.head? ≠ some (.char '\r')

theorem plain_empty : empty.Plain tight where
  glyph _ hg := by cases hg
  chain := .nil
  whole := by decide

theorem Plain.unmarked (h : o.Plain tight) : .mark ∉ o.glyphs := by
  intro hmem
  obtain ⟨c, hc, -⟩ := h.glyph _ hmem
  cases hc

theorem Plain.toChar_ne (h : o.Plain tight) {g : Glyph} (hg : g ∈ o.glyphs.head?) :
    g.toChar ≠ '\r' := by
  intro hc
  rw [Glyph.eq_char hc (by decide)] at hg
  exact h.whole hg

theorem Plain.push (h : o.Plain tight) {c : Char}
    (hc : isBlank c = true → c = ' ' ∨ c = '\n')
    (hfollows : ∀ g ∈ o.glyphs.head?, Follows tight g.toChar c) : (o.push c).Plain tight where
  glyph := List.forall_mem_cons.2 ⟨⟨c, rfl, fun hblank => (hc hblank).imp_right .inr⟩, h.glyph⟩
  chain := List.isChain_cons.2 ⟨hfollows, h.chain⟩
  whole := by
    intro hreturn
    obtain rfl : c = '\r' := by simpa [Output.push, pushGlyph] using hreturn
    simpa using hc (by decide)

theorem Plain.push_ink (h : o.Plain tight) {c : Char} (hc : isBlank c = false) :
    (o.push c).Plain tight :=
  h.push (by simp [hc]) fun _ hg => follows_ink (h.toChar_ne hg) hc

theorem Plain.not_blank (h : o.Plain tight) {g : Glyph} (hg : g ∈ o.glyphs)
    (hspacing : g.isSpacing = false) : isBlank g.toChar = false := by
  obtain ⟨c, rfl, hc⟩ := h.glyph g hg
  apply Bool.eq_false_iff.2
  intro hblank
  rcases hc hblank with rfl | rfl | rfl <;> cases hspacing

/-! ## Spaces -/

theorem Plain.pushSpace (h : o.Plain tight) : o.pushSpace.Plain tight := by
  unfold Output.pushSpace
  split
  · exact h
  · next hend =>
    refine h.push (by simp) fun g hg => ?_
    have hspacing : g.isSpacing = false := by
      rw [endsInSpacing, Option.mem_def.1 hg] at hend
      exact Bool.eq_false_iff.2 hend
    exact ⟨fun _ => h.not_blank (List.mem_of_mem_head? hg) hspacing,
      ⟨fun hreturn => absurd hreturn (h.toChar_ne hg), by simp⟩, by simp⟩

theorem Plain.tail {g : Glyph} {gs : List Glyph} (h : Plain tight ⟨g :: gs⟩)
    (hg : g ≠ .char '\n') : Plain tight ⟨gs⟩ where
  glyph k hk := h.glyph k (List.mem_cons_of_mem g hk)
  chain := h.chain.tail
  whole := by
    intro hreturn
    apply hg
    have hfollows := (List.isChain_cons.1 h.chain).1 _ hreturn
    exact Glyph.eq_char (hfollows.whole.1 rfl) (by decide)

theorem Plain.dropSpace (h : o.Plain tight) : o.dropSpace.Plain tight := by
  rcases o with ⟨gs⟩
  unfold Output.dropSpace
  split
  · next hs hgs =>
    obtain rfl : gs = .char ' ' :: hs := hgs
    exact h.tail (by decide)
  · exact h

/-- One space stands at the end at most. -/
theorem Plain.head?_dropSpace (h : o.Plain tight) :
    o.dropSpace.glyphs.head? ≠ some (.char ' ') := by
  rcases o with ⟨gs⟩
  intro hspace
  unfold Output.dropSpace at hspace
  split at hspace
  · next hs hgs =>
    obtain rfl : gs = .char ' ' :: hs := hgs
    have hfollows := (List.isChain_cons.1 h.chain).1 _ hspace
    cases hfollows.space rfl
  · next hno =>
    obtain ⟨hs, hgs⟩ := List.head?_eq_some_iff.1 hspace
    exact hno hs hgs

theorem Plain.dropSpace_dropSpace (h : o.Plain tight) : o.dropSpace.dropSpace = o.dropSpace := by
  apply Output.dropSpace_dropSpace
  intro gs hgs
  have hchain := h.chain
  rw [hgs] at hchain
  cases (List.isChain_cons_cons.1 hchain).1.space rfl

/-! ## Breaks -/

theorem Plain.pushBreak (h : o.Plain tight)
    (hspace : tight → o.glyphs.head? ≠ some (.char ' ')) : o.pushBreak.Plain tight := by
  have hreturn : ∀ g ∈ o.glyphs.head?, Follows tight g.toChar '\r' := by
    intro g hg
    refine ⟨by simp, ⟨fun hr => absurd hr (h.toChar_ne hg), by simp⟩, fun ht _ hs => ?_⟩
    rw [Glyph.eq_char hs (by decide)] at hg
    exact hspace ht hg
  refine ⟨?_, List.isChain_cons_cons.2 ⟨?_, List.isChain_cons.2 ⟨hreturn, h.chain⟩⟩, ?_⟩
  · refine List.forall_mem_cons.2 ⟨⟨'\n', rfl, by simp⟩, List.forall_mem_cons.2 ⟨?_, h.glyph⟩⟩
    exact ⟨'\r', rfl, by simp⟩
  · exact ⟨by simp [Glyph.toChar], by simp [Glyph.toChar], by simp [Glyph.toChar]⟩
  · simp [Output.pushBreak, Output.push, pushGlyph]

theorem Plain.pushBreaks (h : o.Plain tight)
    (hspace : tight → o.glyphs.head? ≠ some (.char ' ')) (n : Nat) :
    (Output.pushBreaks n o).Plain tight := by
  induction n generalizing o with
  | zero => exact h
  | succ n ih => exact ih (h.pushBreak hspace) (by simp [Output.pushBreak, Output.push, pushGlyph])

theorem Plain.separate (h : o.Plain tight) (n : Nat) {keepSpace : Bool}
    (hkeep : tight → keepSpace = false) : (o.separate n false keepSpace).Plain tight := by
  show (Output.pushBreaks _ (if keepSpace then o else o.dropSpace)).Plain tight
  by_cases hk : keepSpace = true
  · rw [if_pos hk]
    refine h.pushBreaks (fun ht => ?_) _
    rw [hkeep ht] at hk
    cases hk
  · rw [if_neg hk]
    exact h.dropSpace.pushBreaks (fun _ => h.head?_dropSpace) _

theorem not_fresh_of_unmarked (h : .mark ∉ o.glyphs) : o.onFreshQuotedLine = false := by
  apply beq_eq_false_iff_ne.2
  intro hmark
  exact h ((List.dropWhile_suffix _).subset (List.mem_of_mem_head? hmark))

/-- There is no empty quoted line to be taken back. -/
theorem Plain.stripQuoteTail_eq (h : o.Plain tight) : o.stripQuoteTail = o :=
  stripQuoteTail_of_not_fresh (not_fresh_of_unmarked h.unmarked)

end Output

namespace Draft

variable {tight : Prop} {d : Draft}

/-- What holds of the draft of a page without markup. -/
structure Plain (tight : Prop) (d : Draft) : Prop where
  /-- Its output is plain. -/
  output : d.output.Plain tight
  /-- No block of a quotation is closed where lines do not end with a space. -/
  outside : tight → d.context.inQuotation = false

theorem plain_empty : empty.Plain tight := ⟨Output.plain_empty, fun _ => rfl⟩

theorem Plain.separate (h : d.Plain tight) (n : Nat) (quotable closing : Bool) :
    (d.separate .plain n quotable closing).Plain tight := by
  rw [separate_of_not_quoted (.inr (.inl rfl)), h.output.stripQuoteTail_eq]
  refine ⟨h.output.separate n fun ht => ?_, h.outside⟩
  rw [h.outside ht, Bool.and_false]

theorem Plain.leaveQuotation (h : d.Plain tight) : d.leaveQuotation.Plain tight := by
  refine ⟨?_, fun _ => rfl⟩
  unfold Draft.leaveQuotation
  dsimp only
  rw [h.output.stripQuoteTail_eq]
  split
  · exact h.output.dropSpace.pushBreak fun _ => h.output.head?_dropSpace
  · exact h.output

/-- A token keeps the page plain, and only the start of a quotation makes room for spaces. -/
theorem Plain.add (h : d.Plain tight) {t : Token} (hchar : ∀ c, t = .char c → isBlank c = false)
    (hlink : ∀ l, t ≠ .link l) (hquotation : tight → ∀ ahead, t ≠ .startTag .quotation ahead) :
    (d.add .plain t).Plain tight := by
  refine add_rule t ?_ ⟨h.output.pushSpace, h.outside⟩ h (fun _ _ _ => h) ?_ ?_
    (fun _ => h.leaveQuotation) (h.separate 1 true false) ?_ (fun l hl => absurd hl (hlink l))
  · intro c hc
    have hpush : ({ d with output := d.output.push c } : Draft).Plain tight :=
      ⟨h.output.push_ink (hchar c hc), h.outside⟩
    unfold char
    dsimp only
    split <;> exact hpush
  · intro e s n ahead ht _ _
    refine Plain.separate (d := { d with context := d.context.openBlock e })
      ⟨h.output, fun hi => ?_⟩ n s.quotable false
    exact Context.inQuotation_openBlock (fun he => hquotation hi ahead (he ▸ ht)) (h.outside hi)
  · intro e s _ _ _
    refine Plain.separate (d := { d with context := d.context.close s.container })
      ⟨h.output, fun hi => ?_⟩ s.lines s.quotable true
    cases s.container with
    | true => rfl
    | false => exact h.outside hi
  · exact fun _ _ =>
      ⟨h.output.dropSpace.pushBreak fun _ => h.output.head?_dropSpace, h.outside⟩

end Draft

end HtmlMarkdown
