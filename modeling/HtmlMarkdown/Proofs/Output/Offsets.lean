import HtmlMarkdown.Proofs.Output.Stretch

/-!
# The offsets of live marks

The offsets of the live marks ascend (`pairwise_liveMarks`), and each lies in front of what has been
written since.  Behind glyphs `gs`, blanks and marks leave the live marks of `gs` alone and add
offsets from the end of `gs` on (`exists_liveMarks_append`); so the live marks of `gs` are those
that cutting the text at its end would keep (`filter_liveMarks`).
-/

namespace HtmlMarkdown.Output

open Text

/-- The size of what has been written, with the space at the start. -/
def extent (gs : List Glyph) : Nat := byteSize (contents ⟨gs⟩)

variable {gs pre : List Glyph}

theorem contents_cons (g : Glyph) (gs : List Glyph) :
    contents ⟨g :: gs⟩ = contents ⟨gs⟩ ++ [g.toChar] :=
  contents_pushGlyph ⟨gs⟩ g

theorem extent_cons (g : Glyph) (gs : List Glyph) :
    extent (g :: gs) = extent gs + g.toChar.utf8Size := by
  rw [extent, contents_cons, byteSize_append]
  rfl

theorem extent_lt_cons (g : Glyph) (gs : List Glyph) : extent gs < extent (g :: gs) := by
  have hpos := Char.utf8Size_pos g.toChar
  rw [extent_cons]
  omega

theorem extent_le_append (pre gs : List Glyph) : extent gs ≤ extent (pre ++ gs) := by
  induction pre with
  | nil => exact Nat.le_refl _
  | cons g pre ih => exact Nat.le_of_lt (Nat.lt_of_le_of_lt ih (extent_lt_cons g _))

theorem extent_pos (gs : List Glyph) : 0 < extent gs := by
  have hspace : (' ' : Char).utf8Size = 1 := by decide
  rw [extent, contents, byteSize, hspace]
  omega

theorem lt_extent_of_mem_liveMarks {i : Nat} (h : i ∈ liveMarks gs) : i < extent gs := by
  induction gs with
  | nil => cases h
  | cons g gs ih =>
    have hlt := extent_lt_cons g gs
    cases g with
    | mark =>
      rw [liveMarks, List.mem_append, List.mem_singleton] at h
      rcases h with h | rfl
      · exact Nat.lt_trans (ih h) hlt
      · exact hlt
    | char c =>
      rw [liveMarks] at h
      split at h
      · exact Nat.lt_trans (ih h) hlt
      · cases h

theorem pairwise_liveMarks (gs : List Glyph) : (liveMarks gs).Pairwise (· < ·) := by
  induction gs with
  | nil => exact .nil
  | cons g gs ih =>
    cases g with
    | mark =>
      rw [liveMarks, List.pairwise_append]
      refine ⟨ih, List.pairwise_singleton .., fun i hi j hj => ?_⟩
      rw [List.mem_singleton.1 hj]
      exact lt_extent_of_mem_liveMarks hi
    | char c =>
      rw [liveMarks]
      split
      · exact ih
      · exact .nil

/-- Blanks and marks add live marks, and only behind what has been written before. -/
theorem exists_liveMarks_append (h : ∀ g ∈ pre, g.isVacant = true) (gs : List Glyph) :
    ∃ later, liveMarks (pre ++ gs) = liveMarks gs ++ later ∧ ∀ i ∈ later, extent gs ≤ i := by
  induction pre with
  | nil => exact ⟨[], (List.append_nil _).symm, by simp⟩
  | cons g pre ih =>
    rw [List.forall_mem_cons] at h
    obtain ⟨later, hlater, hle⟩ := ih h.2
    cases g with
    | mark =>
      refine ⟨later ++ [extent (pre ++ gs)], ?_, ?_⟩
      · rw [List.cons_append, liveMarks, hlater, List.append_assoc]
        rfl
      · intro i hi
        rcases List.mem_append.1 hi with hi | hi
        · exact hle i hi
        · exact List.mem_singleton.1 hi ▸ extent_le_append pre gs
    | char c =>
      exact ⟨later, (liveMarks_blank h.1 _).trans hlater, hle⟩

/-- What blanks and marks add does not matter for the offsets before them. -/
theorem mem_liveMarks_append (h : ∀ g ∈ pre, g.isVacant = true) {i : Nat} (hi : i < extent gs) :
    i ∈ liveMarks (pre ++ gs) ↔ i ∈ liveMarks gs := by
  obtain ⟨later, hlater, hle⟩ := exists_liveMarks_append h gs
  rw [hlater, List.mem_append, or_iff_left]
  intro hmem
  exact absurd (hle i hmem) (Nat.not_le_of_lt hi)

theorem mem_quoteMarks_of_mark {o : Output} (ho : o.glyphs = pre ++ .mark :: gs)
    (hpre : ∀ g ∈ pre, g.isVacant = true) : extent gs ∈ o.quoteMarks := by
  rw [quoteMarks, ho, mem_liveMarks_append hpre (extent_lt_cons .mark gs)]
  exact List.mem_append_right _ (List.mem_singleton_self _)

theorem not_mem_quoteMarks_of_char {o : Output} {c : Char} {i : Nat}
    (ho : o.glyphs = pre ++ .char c :: gs) (hpre : ∀ g ∈ pre, g.isVacant = true)
    (hle : extent gs ≤ i) (hlt : i < extent (.char c :: gs)) : i ∉ o.quoteMarks := by
  rw [quoteMarks, ho, mem_liveMarks_append hpre hlt, liveMarks]
  split
  · exact fun h => absurd (lt_extent_of_mem_liveMarks h) (Nat.not_lt_of_le hle)
  · exact List.not_mem_nil

/-- Cutting the text in front of blanks and marks keeps the live marks before them. -/
theorem filter_liveMarks (h : ∀ g ∈ pre, g.isVacant = true) (gs : List Glyph) :
    (liveMarks (pre ++ gs)).filter (· < extent gs) = liveMarks gs := by
  obtain ⟨later, hlater, hle⟩ := exists_liveMarks_append h gs
  have hkeep : (liveMarks gs).filter (· < extent gs) = liveMarks gs := by
    apply List.filter_eq_self.2
    intro i hi
    exact decide_eq_true (lt_extent_of_mem_liveMarks hi)
  have hdrop : later.filter (· < extent gs) = [] := by
    apply List.filter_eq_nil_iff.2
    intro i hi
    simpa using hle i hi
  rw [hlater, List.filter_append, hkeep, hdrop, List.append_nil]

end HtmlMarkdown.Output
