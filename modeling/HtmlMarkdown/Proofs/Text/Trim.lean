import HtmlMarkdown.Proofs.Text.Runs
import HtmlMarkdown.Text.Blank

/-!
# Trimmed texts

`trim` takes away blanks only: the visible characters of a text stay (`visible_trim`), and a text
that starts and ends with ink comes back from between blanks (`trim_between_blanks`).
-/

namespace HtmlMarkdown.Text

theorem ne_feed_of_ink {c : Char} (h : isBlank c = false) : c ≠ '\n' := by
  rintro rfl
  cases h

/-- The characters of a text that are not blank. -/
def visible (s : List Char) : List Char := s.filter (!isBlank ·)

@[simp] theorem visible_nil : visible [] = [] := rfl

@[simp] theorem visible_append (s t : List Char) : visible (s ++ t) = visible s ++ visible t :=
  List.filter_append s t

theorem visible_cons_blank {c : Char} (h : isBlank c = true) (s : List Char) :
    visible (c :: s) = visible s := by
  simp [visible, h]

theorem visible_cons_ink {c : Char} (h : isBlank c = false) (s : List Char) :
    visible (c :: s) = c :: visible s := by
  simp [visible, h]

theorem visible_reverse (s : List Char) : visible s.reverse = (visible s).reverse :=
  List.filter_reverse

theorem visible_dropWhile_blank (s : List Char) : visible (s.dropWhile isBlank) = visible s := by
  induction s with
  | nil => rfl
  | cons c s ih =>
    by_cases h : isBlank c = true
    · rw [List.dropWhile_cons_of_pos h, visible_cons_blank h, ih]
    · rw [List.dropWhile_cons_of_neg h]

theorem visible_trim (s : List Char) : visible (trim s) = visible s := by
  rw [trim, dropEndWhile, skipBlanks, visible_reverse, visible_dropWhile_blank, visible_reverse,
    List.reverse_reverse, visible_dropWhile_blank]

theorem exists_append_trim (s : List Char) : ∃ a b, s = a ++ (trim s ++ b) ∧
    (∀ c ∈ a, isBlank c = true) ∧ ∀ c ∈ b, isBlank c = true := by
  refine ⟨s.takeWhile isBlank, ((skipBlanks s).reverse.takeWhile isBlank).reverse, ?_,
    fun _ hc => List.mem_takeWhile_imp hc,
    fun _ hc => List.mem_takeWhile_imp (List.mem_reverse.1 hc)⟩
  have htrim : trim s ++ ((skipBlanks s).reverse.takeWhile isBlank).reverse = skipBlanks s := by
    rw [trim, dropEndWhile, ← List.reverse_append, List.takeWhile_append_dropWhile,
      List.reverse_reverse]
  rw [htrim, skipBlanks, List.takeWhile_append_dropWhile]

/-! ## Both ends -/

theorem dropWhile_blank_append {a : List Char} (h : ∀ c ∈ a, isBlank c = true) (s : List Char) :
    (a ++ s).dropWhile isBlank = s.dropWhile isBlank := by
  induction a with
  | nil => rfl
  | cons c a ih =>
    rw [List.cons_append, List.dropWhile_cons_of_pos (h c (List.mem_cons_self ..))]
    exact ih fun d hd => h d (List.mem_cons_of_mem c hd)

theorem dropWhile_blank_of_head {s : List Char} (h : s.head?.all (!isBlank ·) = true) :
    s.dropWhile isBlank = s := by
  cases s with
  | nil => rfl
  | cons c s => exact List.dropWhile_cons_of_neg (by simpa using h)

theorem dropWhile_blank_append_of_head {s : List Char} (h : s.head?.all (!isBlank ·) = true)
    (a : List Char) : (a ++ s).dropWhile isBlank = a.dropWhile isBlank ++ s := by
  rw [List.dropWhile_append]
  split
  · next hnil => rw [List.isEmpty_iff.1 hnil, dropWhile_blank_of_head h, List.nil_append]
  · rfl

/-- A text that starts and ends with ink. -/
structure Inked (s : List Char) : Prop where
  /-- The first character is not blank. -/
  head : s.head?.any (!isBlank ·) = true
  /-- The last character is not blank. -/
  last : s.getLast?.any (!isBlank ·) = true

/-- Trimming does not reach beyond ink. -/
theorem trim_around_ink {s : List Char} (h : Inked s) (a b : List Char) :
    trim (a ++ s ++ b) = skipBlanks a ++ s ++ dropEndWhile isBlank b := by
  have hhead : (s ++ b).head?.all (!isBlank ·) = true := by
    have := h.head
    cases s with
    | nil => cases this
    | cons c s => simpa using this
  have hlast : (skipBlanks a ++ s).reverse.head?.all (!isBlank ·) = true := by
    have := h.last
    rcases List.eq_nil_or_concat s with rfl | ⟨t, c, rfl⟩
    · cases this
    · simpa using this
  have hfront : skipBlanks (a ++ s ++ b) = skipBlanks a ++ s ++ b := by
    rw [skipBlanks, List.append_assoc, dropWhile_blank_append_of_head hhead, List.append_assoc,
      skipBlanks]
  rw [trim, hfront, dropEndWhile, List.reverse_append, dropWhile_blank_append_of_head hlast,
    List.reverse_append, List.reverse_reverse, dropEndWhile]

/-- A text that starts and ends with ink is what trimming leaves of it between blanks. -/
theorem trim_between_blanks {a s b : List Char} (ha : ∀ c ∈ a, isBlank c = true)
    (hb : ∀ c ∈ b, isBlank c = true) (h : Inked s) : trim (a ++ s ++ b) = s := by
  have hfront : skipBlanks a = [] := List.dropWhile_eq_nil_iff.2 ha
  have hback : dropEndWhile isBlank b = [] := by
    rw [dropEndWhile, List.dropWhile_eq_nil_iff.2 fun c hc => hb c (List.mem_reverse.1 hc)]
    rfl
  rw [trim_around_ink h, hfront, hback, List.nil_append, List.append_nil]

/-- The last character of a trimmed text is the last one that is not blank. -/
theorem getLast?_trim (s : List Char) :
    (trim s).getLast? = (s.reverse.dropWhile isBlank).head? := by
  have hsplit : s.takeWhile isBlank ++ s.dropWhile isBlank = s := List.takeWhile_append_dropWhile
  have hfront : (s.takeWhile isBlank).reverse.dropWhile isBlank = [] := by
    apply List.dropWhile_eq_nil_iff.2
    intro c hc
    exact List.mem_takeWhile_imp (List.mem_reverse.1 hc)
  conv => rhs; rw [← hsplit, List.reverse_append, List.dropWhile_append, hfront]
  rw [trim, skipBlanks, dropEndWhile, List.getLast?_reverse]
  split
  · next h => rw [List.isEmpty_iff.1 h]
  · next h =>
    obtain ⟨c, t, hct⟩ := List.exists_cons_of_ne_nil (mt List.isEmpty_iff.2 h)
    rw [hct, List.cons_append, List.head?_cons, List.head?_cons]

theorem getLast?_trim_not_blank (s : List Char) : (trim s).getLast?.all (!isBlank ·) = true := by
  rw [getLast?_trim]
  exact head?_dropWhile isBlank s.reverse

theorem head?_trim_not_blank (s : List Char) : (trim s).head?.all (!isBlank ·) = true := by
  have hpre : trim s <+: s.dropWhile isBlank :=
    List.reverse_suffix.1 (by
      rw [trim, dropEndWhile, List.reverse_reverse]
      exact List.dropWhile_suffix isBlank)
  obtain ⟨b, hb⟩ := hpre
  have hhead := head?_dropWhile isBlank s
  cases h : trim s with
  | nil => rfl
  | cons c t =>
    rw [← hb, h] at hhead
    simpa using hhead

/-! ## Texts between ink -/

theorem Inked.ne_nil {s : List Char} (h : Inked s) : s ≠ [] := by
  rintro rfl
  cases h.head

theorem Inked.exists_eq_append {s : List Char} (h : Inked s) :
    ∃ t c, s = t ++ [c] ∧ isBlank c = false := by
  rcases List.eq_nil_or_concat s with rfl | ⟨t, c, rfl⟩
  · exact absurd rfl h.ne_nil
  · exact ⟨t, c, List.concat_eq_append, by simpa using h.last⟩

theorem inked_of_ink {s : List Char} (hne : s ≠ []) (h : ∀ c ∈ s, isBlank c = false) :
    Inked s := by
  constructor
  · cases s with
    | nil => exact absurd rfl hne
    | cons c s => simp [h c (List.mem_cons_self ..)]
  · rcases List.eq_nil_or_concat s with rfl | ⟨t, c, rfl⟩
    · exact absurd rfl hne
    · simp [h c (by simp)]

theorem Inked.append {s t : List Char} (hs : Inked s) (ht : Inked t) (m : List Char) :
    Inked (s ++ m ++ t) := by
  obtain ⟨c, u, rfl⟩ := List.exists_cons_of_ne_nil hs.ne_nil
  obtain ⟨v, d, rfl, hd⟩ := ht.exists_eq_append
  refine ⟨hs.head, ?_⟩
  rw [← List.append_assoc, List.getLast?_concat]
  simp [hd]

theorem inked_intercalate (sep : List Char) {ws : List (List Char)} (hne : ws ≠ [])
    (h : ∀ w ∈ ws, Inked w) : Inked (sep.intercalate ws) := by
  induction ws with
  | nil => exact absurd rfl hne
  | cons w ws ih =>
    have hw := h w (List.mem_cons_self ..)
    cases ws with
    | nil => rwa [List.intercalate_singleton]
    | cons v ws =>
      rw [List.intercalate_cons_cons]
      exact hw.append (ih (by simp) fun u hu => h u (List.mem_cons_of_mem w hu)) sep

theorem mem_intercalate {c : Char} {sep : List Char} {ws : List (List Char)}
    (h : c ∈ sep.intercalate ws) : c ∈ sep ∨ ∃ w ∈ ws, c ∈ w := by
  induction ws with
  | nil => cases h
  | cons w ws ih =>
    cases ws with
    | nil =>
      rw [List.intercalate_singleton] at h
      exact .inr ⟨w, List.mem_cons_self .., h⟩
    | cons v ws =>
      rw [List.intercalate_cons_cons, List.mem_append, List.mem_append] at h
      rcases h with (h | h) | h
      · exact .inr ⟨w, List.mem_cons_self .., h⟩
      · exact .inl h
      · exact (ih h).imp id fun ⟨u, hu, hc⟩ => ⟨u, List.mem_cons_of_mem w hu, hc⟩

end HtmlMarkdown.Text
