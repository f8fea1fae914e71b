import HtmlMarkdown.Output.Separation
import HtmlMarkdown.Proofs.Output.Finish

/-!
# Live marks

A quotation mark is *live* while no ink stands behind it: it starts a line that may still turn out
to be empty, and only such marks are taken back when the quotation is left.  `Output.quoteMarks`
lists the places of the live marks in the text written.

An output is `Clean` if its live marks can be taken back in one go: they all lie among the glyphs
that `stripQuoteTail` removes, and if there are any then the last one stands on the last line.
Every operation of the output keeps this, and `stripQuoteTail` leaves a clean output without live
marks.
-/

namespace HtmlMarkdown

open Text

namespace Output

/-- The byte offsets of the marks without ink behind them; the glyphs come newest first. -/
def liveMarks : List Glyph → List Nat
  | [] => []
  | .mark :: gs => liveMarks gs ++ [byteSize (contents ⟨gs⟩)]
  | .char c :: gs => if isBlank c then liveMarks gs else []

/-- The byte offsets of the live marks, in order. -/
def quoteMarks (o : Output) : List Nat := liveMarks o.glyphs

/-- The live marks can be taken back in one go. -/
structure Clean (o : Output) : Prop where
  /-- No live mark stands in front of the glyphs that may be taken back. -/
  settled : liveMarks (o.glyphs.dropWhile Glyph.isRemovable) = []
  /-- A live mark stands on the last line. -/
  fresh : o.quoteMarks ≠ [] → o.onFreshQuotedLine = true

/-! ## The glyph written last -/

theorem liveMarks_blank {c : Char} (h : isBlank c = true) (gs : List Glyph) :
    liveMarks (.char c :: gs) = liveMarks gs := by
  simp [liveMarks, h]

theorem liveMarks_ink {c : Char} (h : isBlank c = false) (gs : List Glyph) :
    liveMarks (.char c :: gs) = [] := by
  simp [liveMarks, h]

theorem liveMarks_mark_ne_nil (gs : List Glyph) : liveMarks (.mark :: gs) ≠ [] := by
  simp [liveMarks]

/-- Without live marks, nothing comes to light when glyphs are taken back. -/
theorem liveMarks_dropWhile_removable {gs : List Glyph} (h : liveMarks gs = []) :
    liveMarks (gs.dropWhile Glyph.isRemovable) = [] := by
  induction gs with
  | nil => exact h
  | cons g gs ih =>
    by_cases hg : g.isRemovable = true
    · rw [List.dropWhile_cons_of_pos hg]
      cases g with
      | mark => exact absurd h (liveMarks_mark_ne_nil gs)
      | char c => exact ih (liveMarks_blank (Glyph.isBlank_of_isSpacing hg) gs ▸ h)
    · rwa [List.dropWhile_cons_of_neg hg]

theorem clean_of_quoteMarks_eq_nil {o : Output} (h : o.quoteMarks = []) : o.Clean :=
  ⟨liveMarks_dropWhile_removable h, fun hne => absurd h hne⟩

/-- Without live marks, no empty quoted line stands at the end. -/
theorem not_fresh_of_quoteMarks_eq_nil {o : Output} (h : o.quoteMarks = []) :
    o.onFreshQuotedLine = false := by
  unfold quoteMarks at h
  unfold onFreshQuotedLine
  generalize o.glyphs = gs at h
  induction gs with
  | nil => rfl
  | cons g gs ih =>
    cases g with
    | mark => exact absurd h (liveMarks_mark_ne_nil gs)
    | char c =>
      rw [List.dropWhile_cons]
      split
      · next hgap =>
        have hblank := Glyph.isBlank_of_isSpacing (Glyph.isSpacing_of_isGap hgap)
        exact ih ((liveMarks_blank hblank gs).symm.trans h)
      · rfl

/-! ## Writing -/

theorem quoteMarks_push_ink {c : Char} (h : isBlank c = false) (o : Output) :
    (o.push c).quoteMarks = [] :=
  liveMarks_ink h o.glyphs

theorem quoteMarks_push_blank {c : Char} (h : isBlank c = true) (o : Output) :
    (o.push c).quoteMarks = o.quoteMarks :=
  liveMarks_blank h o.glyphs

theorem quoteMarks_push_of_eq_nil {o : Output} (h : o.quoteMarks = []) (c : Char) :
    (o.push c).quoteMarks = [] := by
  by_cases hc : isBlank c = true
  · rw [quoteMarks_push_blank hc, h]
  · exact quoteMarks_push_ink (Bool.eq_false_iff.2 hc) o

theorem quoteMarks_append_of_eq_nil {o : Output} (h : o.quoteMarks = []) (s : List Char) :
    (o.append s).quoteMarks = [] := by
  induction s generalizing o with
  | nil => exact h
  | cons c s ih => exact ih (quoteMarks_push_of_eq_nil h c)

theorem quoteMarks_append_ink {c : Char} (h : isBlank c = false) (o : Output) (s : List Char) :
    (o.append (c :: s)).quoteMarks = [] :=
  quoteMarks_append_of_eq_nil (quoteMarks_push_ink h o) s

theorem quoteMarks_pushBreaks_of_eq_nil {o : Output} (h : o.quoteMarks = []) (n : Nat) :
    (pushBreaks n o).quoteMarks = [] := by
  induction n generalizing o with
  | zero => exact h
  | succ n ih => exact ih (quoteMarks_push_of_eq_nil (quoteMarks_push_of_eq_nil h '\r') '\n')

theorem quoteMarks_dropSpace (o : Output) : o.dropSpace.quoteMarks = o.quoteMarks := by
  unfold dropSpace
  split
  · next gs h =>
    show liveMarks gs = liveMarks o.glyphs
    rw [h, liveMarks_blank (by decide)]
  · rfl

theorem Clean.push_space {o : Output} (h : o.Clean) : (o.push ' ').Clean := by
  refine ⟨?_, fun hne => ?_⟩
  · show liveMarks (List.dropWhile Glyph.isRemovable (.char ' ' :: o.glyphs)) = []
    rw [List.dropWhile_cons_of_pos (by decide)]
    exact h.settled
  · rw [quoteMarks_push_blank (by decide)] at hne
    have hfresh := h.fresh hne
    show (((Glyph.char ' ' :: o.glyphs).dropWhile Glyph.isGap).head? == some Glyph.mark) = true
    rwa [List.dropWhile_cons_of_pos (by decide)]

theorem Clean.pushSpace {o : Output} (h : o.Clean) : o.pushSpace.Clean := by
  unfold Output.pushSpace
  split
  · exact h
  · exact h.push_space

theorem quoteMarks_pushSpace (o : Output) : o.pushSpace.quoteMarks = o.quoteMarks := by
  unfold pushSpace
  split
  · rfl
  · exact quoteMarks_push_blank (by decide) o

theorem Clean.dropSpace {o : Output} (h : o.Clean) : o.dropSpace.Clean := by
  unfold Output.dropSpace
  split
  · next gs hgs =>
    have hset := h.settled
    have hfresh := h.fresh
    simp only [quoteMarks, onFreshQuotedLine, hgs] at hset hfresh
    rw [List.dropWhile_cons_of_pos (by decide)] at hset hfresh
    rw [liveMarks_blank (by decide)] at hfresh
    exact ⟨hset, hfresh⟩
  · exact h

theorem Clean.pushMark {o : Output} (h : liveMarks (o.glyphs.dropWhile Glyph.isRemovable) = []) :
    o.pushMark.Clean := by
  refine ⟨?_, fun _ => rfl⟩
  show liveMarks (List.dropWhile Glyph.isRemovable (.char ' ' :: .mark :: o.glyphs)) = []
  rwa [List.dropWhile_cons_of_pos (by decide), List.dropWhile_cons_of_pos (by decide)]

theorem Clean.pushQuotedBreak {o : Output} (h : o.Clean) : o.pushQuotedBreak.Clean := by
  apply Clean.pushMark
  show liveMarks (List.dropWhile Glyph.isRemovable (.char '\n' :: .char '\r' :: o.glyphs)) = []
  rw [List.dropWhile_cons_of_pos (by decide), List.dropWhile_cons_of_pos (by decide)]
  exact h.settled

theorem Clean.pushQuotedBreaks {o : Output} (h : o.Clean) (n : Nat) :
    (Output.pushQuotedBreaks n o).Clean := by
  induction n generalizing o with
  | zero => exact h
  | succ n ih => exact ih h.pushQuotedBreak

/-! ## Separation -/

/-- Taking back the quoted tail of a clean output takes back all live marks. -/
theorem Clean.quoteMarks_stripQuoteTail {o : Output} (h : o.Clean) :
    o.stripQuoteTail.quoteMarks = [] := by
  unfold stripQuoteTail
  split
  · exact h.settled
  · next hfresh =>
    exact Decidable.byContradiction fun hne => hfresh (h.fresh hne)

theorem Clean.separateQuoted {o : Output} (h : o.Clean) (n : Nat) :
    (o.separateQuoted n).Clean := by
  have hstart : (if o.endsInFeed then o.pushMark else o).Clean := by
    split
    · exact Clean.pushMark h.settled
    · exact h
  unfold Output.separateQuoted
  generalize (if o.endsInFeed then o.pushMark else o) = p at hstart
  dsimp only
  split
  · split
    · exact hstart
    · exact hstart.pushQuotedBreak
  · apply Clean.pushQuotedBreaks
    split
    · exact hstart.dropSpace
    · exact hstart

theorem quoteMarks_separate_of_eq_nil {o : Output} (h : o.quoteMarks = []) (n : Nat)
    (keepSpace : Bool) : (o.separate n false keepSpace).quoteMarks = [] := by
  apply quoteMarks_pushBreaks_of_eq_nil
  split
  · exact h
  · rw [quoteMarks_dropSpace, h]

/-! ## The end of the text -/

/-- The blanks and marks that the output ends with, newest first. -/
def tail (o : Output) : List Glyph := o.glyphs.takeWhile fun g => g == .mark || isBlank g.toChar

theorem quoteMarks_eq_nil_iff (o : Output) : o.quoteMarks = [] ↔ .mark ∉ o.tail := by
  unfold quoteMarks tail
  generalize o.glyphs = gs
  induction gs with
  | nil => simp [liveMarks]
  | cons g gs ih =>
    cases g with
    | mark => simp [liveMarks]
    | char c =>
      by_cases hc : isBlank c = true
      · rw [liveMarks_blank hc, ih, List.takeWhile_cons_of_pos (by simpa [Glyph.toChar] using hc)]
        simp
      · rw [liveMarks_ink (Bool.eq_false_iff.2 hc),
          List.takeWhile_cons_of_neg (by simpa [Glyph.toChar] using hc)]
        simp

/-- Without live marks the finished text does not end with a mark. -/
theorem lastGlyph?_ne_mark {o : Output} (h : o.quoteMarks = []) : o.lastGlyph? ≠ some .mark := by
  unfold quoteMarks at h
  unfold lastGlyph?
  generalize o.glyphs = gs at h
  induction gs with
  | nil => simp
  | cons g gs ih =>
    cases g with
    | mark => exact absurd h (liveMarks_mark_ne_nil gs)
    | char c =>
      rw [List.dropWhile_cons]
      split
      · next hc => exact ih ((liveMarks_blank hc gs).symm.trans h)
      · simp

end Output

end HtmlMarkdown
