import HtmlMarkdown.Proofs.Text.Trim

/-!
# Words

A word is a text of ink (`ink_of_mem_words`), and a text has words if it has ink.  The words of a
text come one character at a time: a blank in front makes no difference (`collapse_cons_blank`), and
a character in front belongs to the word behind it (`collapse_cons_ink`) or is a word of its own
(`collapse_cons_cons_blank`).
-/

namespace HtmlMarkdown.Text

theorem collapse_cons_blank {c : Char} (h : isBlank c = true) (s : List Char) :
    collapse (c :: s) = collapse s := by
  rw [collapse, words_cons_of_blank h, collapse]

theorem words_ne_nil_of_mem {c : Char} {s : List Char} (hmem : c ∈ s) (h : isBlank c = false) :
    words s ≠ [] := by
  intro hnil
  have hblank := (words_eq_nil_iff s).1 hnil c hmem
  rw [h] at hblank
  cases hblank

theorem collapse_cons_ink {c d : Char} (hc : isBlank c = false) (hd : isBlank d = false)
    (s : List Char) : collapse (c :: d :: s) = c :: collapse (d :: s) := by
  have hcons : words (c :: d :: s) = extendFirst c (words (d :: s)) := by
    rw [words]
    simp [hc, hd]
  have hne : words (d :: s) ≠ [] := words_ne_nil_of_mem (List.mem_cons_self ..) hd
  obtain ⟨w, ws, hw⟩ := List.exists_cons_of_ne_nil hne
  rw [collapse, collapse, hcons, hw]
  cases ws with
  | nil => rw [extendFirst, List.intercalate_singleton, List.intercalate_singleton]
  | cons v ws =>
    rw [extendFirst, List.intercalate_cons_cons, List.intercalate_cons_cons]
    rfl

theorem collapse_cons_cons_blank {c d : Char} (hc : isBlank c = false) (hd : isBlank d = true)
    (s : List Char) :
    collapse (c :: d :: s) = if words s = [] then [c] else c :: ' ' :: collapse s := by
  have hcons : words (c :: d :: s) = [c] :: words s := by
    rw [words, words_cons_of_blank hd]
    simp [hc, hd]
  rw [collapse, hcons]
  cases hw : words s with
  | nil => rfl
  | cons w ws =>
    rw [List.intercalate_cons_cons, collapse, hw]
    rfl

theorem ink_of_mem_words {s w : List Char} (h : w ∈ words s) :
    w ≠ [] ∧ ∀ c ∈ w, isBlank c = false := by
  induction s generalizing w with
  | nil => cases h
  | cons c s ih =>
    rw [words] at h
    split at h
    · exact ih h
    · next hc =>
      have hc : isBlank c = false := Bool.eq_false_iff.2 hc
      split at h
      · rcases List.mem_cons.1 h with rfl | h
        · exact ⟨by simp, by simpa using hc⟩
        · exact ih h
      · cases hw : words s with
        | nil =>
          rw [hw] at h
          cases List.mem_singleton.1 h
          exact ⟨by simp, by simpa using hc⟩
        | cons v vs =>
          rw [hw] at h ih
          rcases List.mem_cons.1 h with rfl | h
          · have hv := (ih (List.mem_cons_self ..)).2
            exact ⟨by simp, by simpa using ⟨hc, hv⟩⟩
          · exact ih (List.mem_cons_of_mem v h)

/-- The words of a text are its visible characters. -/
theorem flatten_words (s : List Char) : (words s).flatten = visible s := by
  have hfirst : ∀ (c : Char) ws, (extendFirst c ws).flatten = c :: ws.flatten := by
    intro c ws
    cases ws <;> rfl
  induction s with
  | nil => rfl
  | cons c s ih =>
    by_cases hc : isBlank c = true
    · rw [words_cons_of_blank hc, visible_cons_blank hc, ih]
    · rw [words, if_neg hc, visible_cons_ink (Bool.eq_false_iff.2 hc), ← ih]
      split
      · rfl
      · exact hfirst c _

/-! ## Blanks at the ends -/

theorem words_dropWhile_blank (s : List Char) : words (s.dropWhile isBlank) = words s := by
  induction s with
  | nil => rfl
  | cons c s ih =>
    by_cases hc : isBlank c = true
    · rw [List.dropWhile_cons_of_pos hc, ih, words_cons_of_blank hc]
    · rw [List.dropWhile_cons_of_neg hc]

theorem words_append_blank {b : List Char} (hb : ∀ c ∈ b, isBlank c = true) (s : List Char) :
    words (s ++ b) = words s := by
  induction s with
  | nil => exact (words_eq_nil_iff b).2 hb
  | cons c s ih =>
    have hhead : (s ++ b).head?.all isBlank = s.head?.all isBlank := by
      cases s with
      | nil =>
        cases b with
        | nil => rfl
        | cons d b => exact hb d (List.mem_cons_self ..)
      | cons d s => rfl
    rw [List.cons_append, words, words, ih, hhead]

theorem words_blank_append {b : List Char} (hb : ∀ c ∈ b, isBlank c = true) (s : List Char) :
    words (b ++ s) = words s := by
  rw [← words_dropWhile_blank, dropWhile_blank_append hb, words_dropWhile_blank]

theorem words_trim (s : List Char) : words (trim s) = words s := by
  obtain ⟨a, b, hsplit, ha, hb⟩ := exists_append_trim s
  rw [← words_append_blank hb (trim s), ← words_blank_append ha (trim s ++ b), ← hsplit]

theorem collapse_trim (s : List Char) : collapse (trim s) = collapse s := by
  rw [collapse, words_trim, collapse]

theorem trim_eq_nil_iff (s : List Char) : trim s = [] ↔ words s = [] := by
  constructor
  · intro h
    rw [← words_trim, h]
    rfl
  · intro h
    rw [trim, skipBlanks, List.dropWhile_eq_nil_iff.2 ((words_eq_nil_iff s).1 h)]
    rfl

/-! ## Words written with other characters -/

theorem collapse_ink_append {w : List Char} (hw : ∀ c ∈ w, isBlank c = false) {d : Char}
    (hd : isBlank d = false) (s : List Char) : collapse (w ++ d :: s) = w ++ collapse (d :: s) := by
  induction w with
  | nil => rfl
  | cons c w ih =>
    rw [List.forall_mem_cons] at hw
    have ih := ih hw.2
    cases w with
    | nil => exact collapse_cons_ink hw.1 hd s
    | cons e w =>
      have he := hw.2 e (List.mem_cons_self ..)
      exact (collapse_cons_ink hw.1 he _).trans (congrArg (c :: ·) ih)

theorem collapse_word_append {w : List Char} (hne : w ≠ []) (hw : ∀ c ∈ w, isBlank c = false)
    {d : Char} (hd : isBlank d = true) (s : List Char) :
    collapse (w ++ d :: s) = if words s = [] then w else w ++ ' ' :: collapse s := by
  obtain ⟨v, c, rfl, hc⟩ := (inked_of_ink hne hw).exists_eq_append
  have hv : ∀ c ∈ v, isBlank c = false := fun e he => hw e (List.mem_append_left [c] he)
  rw [List.append_assoc, List.singleton_append, collapse_ink_append hv hc,
    collapse_cons_cons_blank hc hd]
  split
  · rfl
  · rw [List.append_assoc]
    rfl

theorem collapse_of_ink {w : List Char} (hw : ∀ c ∈ w, isBlank c = false) : collapse w = w := by
  by_cases hne : w = []
  · rw [hne]
    rfl
  · obtain ⟨v, c, rfl, hc⟩ := (inked_of_ink hne hw).exists_eq_append
    have hv : ∀ c ∈ v, isBlank c = false := fun e he => hw e (List.mem_append_left [c] he)
    have hone : words [c] = [[c]] := by simp [words, hc]
    rw [collapse_ink_append hv hc, collapse, hone, List.intercalate_singleton]

/-! ## Words on one line -/

theorem inked_collapse {s : List Char} (h : words s ≠ []) : Inked (collapse s) := by
  apply inked_intercalate _ h
  intro w hw
  exact inked_of_ink (ink_of_mem_words hw).1 (ink_of_mem_words hw).2

theorem trim_collapse (s : List Char) : trim (collapse s) = collapse s := by
  by_cases h : words s = []
  · rw [collapse, h]
    rfl
  · have htrim := trim_between_blanks (a := []) (b := []) (by simp) (by simp) (inked_collapse h)
    simpa using htrim

/-- The words of a text with one space in between have its visible characters. -/
theorem visible_collapse (s : List Char) : visible (collapse s) = visible s := by
  induction s with
  | nil => rfl
  | cons c s ih =>
    by_cases hc : isBlank c = true
    · rw [collapse_cons_blank hc, visible_cons_blank hc, ih]
    · have hc : isBlank c = false := Bool.eq_false_iff.2 hc
      cases s with
      | nil => rw [collapse_of_ink (by simpa using hc)]
      | cons d s =>
        by_cases hd : isBlank d = true
        · rw [collapse_cons_blank hd] at ih
          rw [collapse_cons_cons_blank hc hd, visible_cons_ink hc, ← ih]
          split
          · next hs => rw [collapse, hs, visible_cons_ink hc]; rfl
          · rw [visible_cons_ink hc, visible_cons_blank (by decide)]
        · rw [collapse_cons_ink hc (Bool.eq_false_iff.2 hd), visible_cons_ink hc, ih,
            visible_cons_ink hc]

theorem mem_collapse_of_ink {s : List Char} {c : Char} (hmem : c ∈ s) (hc : isBlank c = false) :
    c ∈ collapse s := by
  have hvisible : c ∈ visible (collapse s) := by
    rw [visible_collapse]
    exact List.mem_filter.2 ⟨hmem, by rw [hc]; rfl⟩
  exact (List.mem_filter.1 hvisible).1

/-- Nothing but spaces is written between the words of a text. -/
theorem mem_of_mem_collapse {s : List Char} {c : Char} (h : c ∈ collapse s) : c = ' ' ∨ c ∈ s := by
  rcases mem_intercalate h with hsep | ⟨w, hw, hc⟩
  · exact .inl (List.mem_singleton.1 hsep)
  · have hvisible := List.mem_flatten_of_mem hw hc
    rw [flatten_words] at hvisible
    exact .inr (List.mem_filter.1 hvisible).1

theorem space_or_ink_of_mem_collapse {s : List Char} {c : Char} (h : c ∈ collapse s) :
    c = ' ' ∨ isBlank c = false := by
  rcases mem_intercalate h with hsep | ⟨w, hw, hc⟩
  · exact .inl (List.mem_singleton.1 hsep)
  · exact .inr ((ink_of_mem_words hw).2 c hc)

theorem feed_not_mem_collapse (s : List Char) : '\n' ∉ collapse s := fun hmem =>
  absurd (space_or_ink_of_mem_collapse hmem) (by decide)

end HtmlMarkdown.Text
