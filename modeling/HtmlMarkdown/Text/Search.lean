/-!
# Searching a text

Searches give back the two sides of the place they find, so that no index is needed afterwards.
`cut?` parts a text at the first occurrence of a character, `after?` reads a given word from the
start of a text, and `locate?` parts a text in front of the first occurrence of a word.  The last
two compare letters by a relation of the caller's choice, either equality or equality up to case.
-/

namespace HtmlMarkdown.Text

/-! ## Characters -/

/-- The text before and the text after the first `c`. -/
def cut? (c : Char) : List Char → Option (List Char × List Char)
  | [] => none
  | d :: s => if d == c then some ([], s) else (cut? c s).map fun (a, b) => (d :: a, b)

theorem cut?_cons_self (c : Char) (s : List Char) : cut? c (c :: s) = some ([], s) := by
  simp [cut?]

theorem cut?_cons_of_ne {c d : Char} (h : d ≠ c) (s : List Char) :
    cut? c (d :: s) = (cut? c s).map fun (a, b) => (d :: a, b) := by
  simp [cut?, h]

theorem cut?_append {c : Char} {a : List Char} (h : c ∉ a) (b : List Char) :
    cut? c (a ++ c :: b) = some (a, b) := by
  induction a with
  | nil => simp [cut?]
  | cons d a ih =>
    simp only [List.mem_cons, not_or] at h
    simp [cut?_cons_of_ne (Ne.symm h.1), ih h.2]

theorem eq_of_cut? {c : Char} {s a b : List Char} (h : cut? c s = some (a, b)) :
    s = a ++ c :: b ∧ c ∉ a := by
  induction s generalizing a with
  | nil => simp [cut?] at h
  | cons d s ih =>
    by_cases hd : d = c
    · subst hd
      simp only [cut?_cons_self, Option.some.injEq, Prod.mk.injEq] at h
      obtain ⟨rfl, rfl⟩ := h
      simp
    · rw [cut?_cons_of_ne hd] at h
      obtain ⟨⟨x, y⟩, hx, hy⟩ := Option.map_eq_some_iff.1 h
      simp only [Prod.mk.injEq] at hy
      obtain ⟨rfl, rfl⟩ := hy
      obtain ⟨rfl, hc⟩ := ih hx
      simp [hc, Ne.symm hd]

theorem cut?_eq_some_iff {c : Char} {s a b : List Char} :
    cut? c s = some (a, b) ↔ s = a ++ c :: b ∧ c ∉ a :=
  ⟨eq_of_cut?, fun ⟨hs, ha⟩ => hs ▸ cut?_append ha b⟩

theorem cut?_eq_none_iff {c : Char} {s : List Char} : cut? c s = none ↔ c ∉ s := by
  induction s with
  | nil => simp [cut?]
  | cons d s ih =>
    by_cases h : d = c
    · simp [h, cut?_cons_self]
    · simp [cut?_cons_of_ne h, ih, Ne.symm h]

theorem suffix_of_cut? {c : Char} {s a b : List Char} (h : cut? c s = some (a, b)) :
    c :: b <:+ s :=
  ⟨a, (cut?_eq_some_iff.1 h).1.symm⟩

theorem length_of_cut? {c : Char} {s a b : List Char} (h : cut? c s = some (a, b)) :
    b.length < s.length :=
  (suffix_of_cut? h).length_le

/-! ## Words -/

/-- What follows `word` at the start of a text, if the text starts with it. -/
def after? (same : Char → Char → Bool) : List Char → List Char → Option (List Char)
  | [], s => some s
  | _ :: _, [] => none
  | w :: word, c :: s => if same w c then after? same word s else none

/-- The text before the first occurrence of `word` and the text from there on. -/
def locate? (same : Char → Char → Bool) (word : List Char) :
    List Char → Option (List Char × List Char)
  | [] => none
  | c :: s =>
    if (after? same word (c :: s)).isSome then some ([], c :: s)
    else (locate? same word s).map fun (a, b) => (c :: a, b)

theorem suffix_of_after? {same : Char → Char → Bool} {word s r : List Char}
    (h : after? same word s = some r) : r <:+ s := by
  fun_induction after? same word s with
  | case1 s => exact Option.some.inj h ▸ List.suffix_refl s
  | case2 => simp at h
  | case3 _ _ c _ _ ih => exact (ih h).trans (List.suffix_cons c _)
  | case4 => simp at h

theorem length_of_after? {same : Char → Char → Bool} {word s r : List Char}
    (h : after? same word s = some r) : s.length = word.length + r.length := by
  fun_induction after? same word s with
  | case1 => simp_all
  | case2 => simp at h
  | case3 _ _ _ _ _ ih => simp only [List.length_cons, ih h]; omega
  | case4 => simp at h

theorem append_of_locate? {same : Char → Char → Bool} {word s a b : List Char}
    (h : locate? same word s = some (a, b)) : s = a ++ b := by
  induction s generalizing a with
  | nil => simp [locate?] at h
  | cons c s ih =>
    simp only [locate?] at h
    split at h
    · simp_all
    · obtain ⟨⟨x, y⟩, hx, hy⟩ := Option.map_eq_some_iff.1 h
      simp only [Prod.mk.injEq] at hy
      obtain ⟨rfl, rfl⟩ := hy
      simp [← ih hx]

theorem suffix_of_locate? {same : Char → Char → Bool} {word s a b : List Char}
    (h : locate? same word s = some (a, b)) : b <:+ s :=
  ⟨a, (append_of_locate? h).symm⟩

/-- The place that `locate?` finds starts with the word. -/
theorem after?_of_locate? {same : Char → Char → Bool} {word s a b : List Char}
    (h : locate? same word s = some (a, b)) : (after? same word b).isSome := by
  induction s generalizing a with
  | nil => simp [locate?] at h
  | cons c s ih =>
    simp only [locate?] at h
    split at h
    · simp_all
    · obtain ⟨⟨x, y⟩, hx, hy⟩ := Option.map_eq_some_iff.1 h
      simp only [Prod.mk.injEq] at hy
      obtain ⟨rfl, rfl⟩ := hy
      exact ih hx

/-! ## Suffixes -/

theorem suffix_of_length_lt {c : Char} {s rest : List Char} (h : rest <:+ c :: s)
    (hlen : rest.length < (c :: s).length) : rest <:+ s := by
  rcases List.suffix_cons_iff.1 h with rfl | h
  · exact absurd hlen (Nat.lt_irrefl _)
  · exact h

end HtmlMarkdown.Text
