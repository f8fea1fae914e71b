import HtmlMarkdown.Output.Separation
import HtmlMarkdown.Proofs.Output.Finish

/-!
# Ink

The ink of an output is what has been written into it and can be seen: the characters that are not
blank, without the marks.  Writing adds to the ink, and nothing ever takes ink back, since
`dropSpace` and `stripQuoteTail` remove blanks and marks only.

The finished text shows the ink and the marks, so its visible characters give the ink once some `>`
are erased (`erased_finish`), and they are the ink where no mark has been written
(`visible_finish_of_unmarked`).
-/

namespace HtmlMarkdown

open Text

/-- What a glyph adds to the ink. -/
def Glyph.ink? : Glyph → Option Char
  | char c => if isBlank c then none else some c
  | mark => none

theorem Glyph.ink?_blank {c : Char} (h : isBlank c = true) : (char c).ink? = none := if_pos h

theorem Glyph.ink?_ink {c : Char} (h : isBlank c = false) : (char c).ink? = some c :=
  if_neg (Bool.eq_false_iff.1 h)

theorem Glyph.ink?_removable {g : Glyph} (h : g.isRemovable = true) : g.ink? = none := by
  cases g with
  | mark => rfl
  | char c => exact ink?_blank (isBlank_of_isSpacing h)

/-- `t` is what remains of `s` when some occurrences of `c` are erased, and nothing else. -/
inductive Erased (c : Char) : List Char → List Char → Prop
  | nil : Erased c [] []
  | keep (d : Char) {s t : List Char} : Erased c s t → Erased c (d :: s) (d :: t)
  | erase {s t : List Char} : Erased c s t → Erased c (c :: s) t

theorem erased_visible (gs : List Glyph) :
    Erased '>' (visible (gs.map Glyph.toChar)) (gs.filterMap Glyph.ink?) := by
  induction gs with
  | nil => exact .nil
  | cons g gs ih =>
    cases g with
    | mark =>
      rw [List.map_cons, Glyph.toChar, visible_cons_ink (by decide)]
      exact .erase ih
    | char c =>
      by_cases hc : isBlank c = true
      · rw [List.map_cons, Glyph.toChar, visible_cons_blank hc,
          List.filterMap_cons_none (Glyph.ink?_blank hc)]
        exact ih
      · have hc : isBlank c = false := Bool.eq_false_iff.2 hc
        rw [List.map_cons, Glyph.toChar, visible_cons_ink hc,
          List.filterMap_cons_some (Glyph.ink?_ink hc)]
        exact .keep c ih

theorem visible_of_unmarked {gs : List Glyph} (h : .mark ∉ gs) :
    visible (gs.map Glyph.toChar) = gs.filterMap Glyph.ink? := by
  induction gs with
  | nil => rfl
  | cons g gs ih =>
    rw [List.mem_cons, not_or] at h
    cases g with
    | mark => exact absurd rfl h.1
    | char c =>
      by_cases hc : isBlank c = true
      · rw [List.map_cons, Glyph.toChar, visible_cons_blank hc,
          List.filterMap_cons_none (Glyph.ink?_blank hc), ih h.2]
      · have hc : isBlank c = false := Bool.eq_false_iff.2 hc
        rw [List.map_cons, Glyph.toChar, visible_cons_ink hc,
          List.filterMap_cons_some (Glyph.ink?_ink hc), ih h.2]

namespace Output

/-- The characters written that are not blank, in order. -/
def ink (o : Output) : List Char := o.glyphs.reverse.filterMap Glyph.ink?

theorem erased_finish (o : Output) : Erased '>' (visible o.finish) o.ink := by
  rw [visible_finish]
  exact erased_visible _

theorem visible_finish_of_unmarked {o : Output} (h : .mark ∉ o.glyphs) :
    visible o.finish = o.ink := by
  rw [visible_finish]
  exact visible_of_unmarked (by rwa [List.mem_reverse])

/-! ## Writing -/

theorem ink_pushGlyph (o : Output) (g : Glyph) :
    (o.pushGlyph g).ink = o.ink ++ [g].filterMap Glyph.ink? := by
  rw [ink, pushGlyph, List.reverse_cons, List.filterMap_append]
  rfl

@[simp] theorem ink_push (o : Output) (c : Char) : (o.push c).ink = o.ink ++ visible [c] := by
  rw [push, ink_pushGlyph]
  by_cases hc : isBlank c = true <;> simp [Glyph.ink?, visible, hc]

@[simp] theorem ink_append (o : Output) (s : List Char) :
    (o.append s).ink = o.ink ++ visible s := by
  induction s generalizing o with
  | nil => simp [append]
  | cons c s ih =>
    show ((o.push c).append s).ink = _
    rw [ih, ink_push, List.append_assoc, ← visible_append, List.singleton_append]

@[simp] theorem ink_pushMark (o : Output) : o.pushMark.ink = o.ink := by
  rw [pushMark, ink_push, ink_pushGlyph]
  simp [Glyph.ink?, visible, isBlank]

@[simp] theorem ink_pushBreak (o : Output) : o.pushBreak.ink = o.ink := by
  simp [pushBreak, visible, isBlank]

@[simp] theorem ink_pushQuotedBreak (o : Output) : o.pushQuotedBreak.ink = o.ink := by
  rw [pushQuotedBreak, ink_pushMark, ink_pushBreak]

@[simp] theorem ink_pushBreaks (n : Nat) (o : Output) : (pushBreaks n o).ink = o.ink := by
  induction n generalizing o with
  | zero => rfl
  | succ n ih => rw [pushBreaks, ih, ink_pushBreak]

@[simp] theorem ink_pushQuotedBreaks (n : Nat) (o : Output) :
    (pushQuotedBreaks n o).ink = o.ink := by
  induction n generalizing o with
  | zero => rfl
  | succ n ih => rw [pushQuotedBreaks, ih, ink_pushQuotedBreak]

@[simp] theorem ink_pushSpace (o : Output) : o.pushSpace.ink = o.ink := by
  unfold pushSpace
  split
  · rfl
  · simp [visible, isBlank]

/-! ## Taking back -/

theorem ink_cons_removable {g : Glyph} (h : g.isRemovable = true) (gs : List Glyph) :
    (⟨g :: gs⟩ : Output).ink = (⟨gs⟩ : Output).ink := by
  have hpush := ink_pushGlyph ⟨gs⟩ g
  rw [List.filterMap_cons_none (Glyph.ink?_removable h), List.filterMap_nil,
    List.append_nil] at hpush
  exact hpush

theorem ink_dropWhile_removable (gs : List Glyph) :
    (⟨gs.dropWhile Glyph.isRemovable⟩ : Output).ink = (⟨gs⟩ : Output).ink := by
  induction gs with
  | nil => rfl
  | cons g gs ih =>
    by_cases hg : g.isRemovable = true
    · rw [List.dropWhile_cons_of_pos hg, ih, ink_cons_removable hg]
    · rw [List.dropWhile_cons_of_neg hg]

@[simp] theorem ink_dropSpace (o : Output) : o.dropSpace.ink = o.ink := by
  rcases o with ⟨gs⟩
  unfold dropSpace
  split
  · next hs h =>
    rw [show gs = .char ' ' :: hs from h, ink_cons_removable (by decide)]
  · rfl

@[simp] theorem ink_stripQuoteTail (o : Output) : o.stripQuoteTail.ink = o.ink := by
  unfold stripQuoteTail
  split
  · exact ink_dropWhile_removable o.glyphs
  · rfl

@[simp] theorem ink_separateQuoted (o : Output) (n : Nat) : (o.separateQuoted n).ink = o.ink := by
  have hstart : (if o.endsInFeed then o.pushMark else o).ink = o.ink := by
    split
    · exact ink_pushMark o
    · rfl
  unfold separateQuoted
  generalize (if o.endsInFeed then o.pushMark else o) = p at hstart
  rw [← hstart]
  dsimp only
  split
  · split
    · rfl
    · exact ink_pushQuotedBreak p
  · rw [ink_pushQuotedBreaks]
    split
    · exact ink_dropSpace p
    · rfl

@[simp] theorem ink_separate (o : Output) (n : Nat) (quoted keepSpace : Bool) :
    (o.separate n quoted keepSpace).ink = o.ink := by
  unfold separate
  split
  · exact ink_separateQuoted o n
  · rw [ink_pushBreaks]
    split
    · rfl
    · exact ink_dropSpace o

/-! ## Outputs without marks -/

theorem unmarked_append {o : Output} (h : .mark ∉ o.glyphs) (s : List Char) :
    .mark ∉ (o.append s).glyphs := by
  induction s generalizing o with
  | nil => exact h
  | cons c s ih =>
    apply @ih (o.push c)
    rw [push, pushGlyph, List.mem_cons, not_or]
    exact ⟨by simp, h⟩

theorem unmarked_pushBreaks {o : Output} (h : .mark ∉ o.glyphs) (n : Nat) :
    .mark ∉ (pushBreaks n o).glyphs := by
  induction n generalizing o with
  | zero => exact h
  | succ n ih => exact ih (unmarked_append h ['\r', '\n'])

theorem unmarked_pushSpace {o : Output} (h : .mark ∉ o.glyphs) : .mark ∉ o.pushSpace.glyphs := by
  unfold pushSpace
  split
  · exact h
  · exact unmarked_append h [' ']

theorem unmarked_dropSpace {o : Output} (h : .mark ∉ o.glyphs) : .mark ∉ o.dropSpace.glyphs := by
  unfold dropSpace
  split
  · next gs hgs =>
    rw [hgs, List.mem_cons, not_or] at h
    exact h.2
  · exact h

theorem unmarked_stripQuoteTail {o : Output} (h : .mark ∉ o.glyphs) :
    .mark ∉ o.stripQuoteTail.glyphs := by
  unfold stripQuoteTail
  split
  · exact fun hmem => h ((List.dropWhile_suffix _).subset hmem)
  · exact h

theorem unmarked_separate {o : Output} (h : .mark ∉ o.glyphs) (n : Nat) (keepSpace : Bool) :
    .mark ∉ (o.separate n false keepSpace).glyphs := by
  apply unmarked_pushBreaks
  split
  · exact h
  · exact unmarked_dropSpace h

end Output

end HtmlMarkdown
