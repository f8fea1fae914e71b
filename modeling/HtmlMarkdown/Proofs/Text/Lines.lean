import HtmlMarkdown.Proofs.Text.Trim

/-!
# Quoted lines

`lines` parts a text at its line breaks, each a carriage return with a line feed, and `quoteLines`
writes `> ` in front of every line.
-/

namespace HtmlMarkdown.Text

/-- A line break. -/
def newLine : List Char := ['\r', '\n']

/-- The lines of a text, of which there is at least one. -/
def lines : List Char → List (List Char)
  | [] => [[]]
  | '\r' :: '\n' :: s => [] :: lines s
  | c :: s => extendFirst c (lines s)

/-- A text with `> ` in front of every line. -/
def quoteLines (s : List Char) : List Char :=
  newLine.intercalate ((lines s).map (['>', ' '] ++ ·))

/-! ## Lines -/

theorem extendFirst_eq_append (c : Char) {ls : List (List Char)} (h : ls ≠ [])
    (ms : List (List Char)) : extendFirst c (ls ++ ms) = extendFirst c ls ++ ms := by
  cases ls with
  | nil => exact absurd rfl h
  | cons l ls => rfl

theorem lines_ne_nil (s : List Char) : lines s ≠ [] := by
  fun_cases lines s with
  | case1 => simp
  | case2 s => simp
  | case3 c s _ => cases lines s <;> simp [extendFirst]

theorem lines_cons {c : Char} {s : List Char} (h : c = '\r' → s.head? ≠ some '\n') :
    lines (c :: s) = extendFirst c (lines s) := by
  rw [lines]
  rintro t rfl rfl
  exact h rfl rfl

/-- A line break parts the lines before it from those behind it. -/
theorem lines_append (s t : List Char) : lines (s ++ newLine ++ t) = lines s ++ lines t := by
  fun_induction lines s with
  | case1 => rfl
  | case2 s ih =>
    show [] :: lines (s ++ newLine ++ t) = _
    rw [ih]
    rfl
  | case3 c s hbreak ih =>
    have hhead : c = '\r' → (s ++ newLine ++ t).head? ≠ some '\n' := by
      intro hc
      cases s with
      | nil => simp [newLine]
      | cons d s =>
        intro hd
        rw [List.cons_append, List.cons_append, List.head?_cons, Option.some.injEq] at hd
        exact hbreak s hc (by rw [hd])
    rw [List.cons_append, List.cons_append, lines_cons hhead, ih,
      extendFirst_eq_append c (lines_ne_nil s)]

theorem lines_of_not_mem {s : List Char} (h : '\n' ∉ s) : lines s = [s] := by
  induction s with
  | nil => rfl
  | cons c s ih =>
    rw [List.mem_cons, not_or] at h
    have hhead : c = '\r' → s.head? ≠ some '\n' := fun _ hs => h.2 (List.mem_of_mem_head? hs)
    rw [lines_cons hhead, ih h.2]
    rfl

/-- A character that is no line feed goes on with the last line. -/
theorem exists_lines_snoc (s : List Char) {c : Char} (h : c ≠ '\n') :
    ∃ ls l, lines s = ls ++ [l] ∧ lines (s ++ [c]) = ls ++ [l ++ [c]] := by
  fun_induction lines s with
  | case1 => exact ⟨[], [], rfl, lines_of_not_mem (by simpa using Ne.symm h)⟩
  | case2 s ih =>
    obtain ⟨ls, l, hs, hsc⟩ := ih
    refine ⟨[] :: ls, l, by rw [hs, List.cons_append], ?_⟩
    show [] :: lines (s ++ [c]) = _
    rw [hsc, List.cons_append]
  | case3 d s hbreak ih =>
    obtain ⟨ls, l, hs, hsc⟩ := ih
    have hhead : d = '\r' → (s ++ [c]).head? ≠ some '\n' := by
      intro hd
      cases s with
      | nil => simpa using h
      | cons e s =>
        intro he
        rw [List.cons_append, List.head?_cons, Option.some.injEq] at he
        exact hbreak s hd (by rw [he])
    rw [List.cons_append, lines_cons hhead, hs, hsc]
    cases ls with
    | nil => exact ⟨[], d :: l, rfl, rfl⟩
    | cons m ls => exact ⟨(d :: m) :: ls, l, rfl, rfl⟩

/-! ## Quoting -/

theorem intercalate_append (sep : List Char) {ls ms : List (List Char)} (hl : ls ≠ [])
    (hm : ms ≠ []) :
    sep.intercalate (ls ++ ms) = sep.intercalate ls ++ sep ++ sep.intercalate ms := by
  obtain ⟨m, ms, rfl⟩ := List.exists_cons_of_ne_nil hm
  induction ls with
  | nil => exact absurd rfl hl
  | cons l ls ih =>
    cases ls with
    | nil => rw [List.singleton_append, List.intercalate_cons_cons, List.intercalate_singleton]
    | cons l' ls =>
      rw [List.cons_append, List.cons_append, List.intercalate_cons_cons, ← List.cons_append,
        ih (by simp), List.intercalate_cons_cons]
      simp only [List.append_assoc]

theorem intercalate_cons (sep l : List Char) (ls : List (List Char)) :
    sep.intercalate (l :: ls) = l ++ ls.flatMap (sep ++ ·) := by
  induction ls generalizing l with
  | nil => simp
  | cons m ls ih => rw [List.intercalate_cons_cons, ih, List.flatMap_cons, List.append_assoc,
      List.append_assoc]

/-- A text is its lines with line breaks in between. -/
theorem intercalate_lines (s : List Char) : newLine.intercalate (lines s) = s := by
  fun_induction lines s with
  | case1 => rfl
  | case2 s ih =>
    obtain ⟨l, ls, hs⟩ := List.exists_cons_of_ne_nil (lines_ne_nil s)
    rw [hs, List.intercalate_cons_cons, ← hs, ih]
    rfl
  | case3 c s _ ih =>
    obtain ⟨l, ls, hs⟩ := List.exists_cons_of_ne_nil (lines_ne_nil s)
    rw [hs] at ih ⊢
    rw [intercalate_cons] at ih
    rw [extendFirst, intercalate_cons, List.cons_append, ih]

/-- Around a line stand line breaks or the ends of the text. -/
theorem exists_of_mem_lines {s l : List Char} (h : l ∈ lines s) :
    ∃ a b, s = a ++ l ++ b ∧ (a = [] ∨ newLine <:+ a) ∧ (b = [] ∨ newLine <+: b) := by
  obtain ⟨ls, ms, hsplit⟩ := List.append_of_mem h
  have hs := intercalate_lines s
  have hstop : ms.flatMap (newLine ++ ·) = [] ∨ newLine <+: ms.flatMap (newLine ++ ·) := by
    cases ms with
    | nil => exact .inl rfl
    | cons m ms => exact .inr ⟨m ++ ms.flatMap (newLine ++ ·), by simp⟩
  by_cases hls : ls = []
  · refine ⟨[], ms.flatMap (newLine ++ ·), ?_, .inl rfl, hstop⟩
    rw [← hs, hsplit, hls, List.nil_append, intercalate_cons, List.nil_append]
  · refine ⟨newLine.intercalate ls ++ newLine, ms.flatMap (newLine ++ ·), ?_,
      .inr (List.suffix_append ..), hstop⟩
    rw [← hs, hsplit, intercalate_append _ hls (by simp), intercalate_cons, List.append_assoc _ l]

/-- There is no line break inside a line. -/
theorem not_newLine_of_mem_lines {s l : List Char} (h : l ∈ lines s) : ¬ newLine <:+: l := by
  fun_induction lines s generalizing l with
  | case1 =>
    obtain rfl := List.mem_singleton.1 h
    simp [newLine]
  | case2 s ih =>
    rcases List.mem_cons.1 h with rfl | h
    · simp [newLine]
    · exact ih h
  | case3 c s hbreak ih =>
    obtain ⟨m, ms, hs⟩ := List.exists_cons_of_ne_nil (lines_ne_nil s)
    rw [hs, extendFirst] at h
    rcases List.mem_cons.1 h with rfl | h
    · intro hinfix
      rcases List.infix_cons_iff.1 hinfix with hpre | hinfix
      · obtain ⟨t, ht⟩ := hpre
        obtain ⟨rfl, rfl⟩ := List.cons.inj ht
        have hjoin := intercalate_lines s
        rw [hs, intercalate_cons] at hjoin
        exact hbreak _ rfl hjoin.symm
      · exact ih (hs ▸ List.mem_cons_self ..) hinfix
    · exact ih (hs ▸ List.mem_cons_of_mem m h)

theorem quoteLines_of_not_mem {s : List Char} (h : '\n' ∉ s) : quoteLines s = ['>', ' '] ++ s := by
  rw [quoteLines, lines_of_not_mem h, List.map_singleton, List.intercalate_singleton]

theorem head_quoteLines (s : List Char) : (quoteLines s).head? = some '>' := by
  obtain ⟨l, ls, hs⟩ := List.exists_cons_of_ne_nil (lines_ne_nil s)
  rw [quoteLines, hs]
  cases ls with
  | nil => rfl
  | cons m ls =>
    rw [List.map_cons, List.map_cons, List.intercalate_cons_cons]
    rfl

theorem quoteLines_append (s t : List Char) :
    quoteLines (s ++ newLine ++ t) = quoteLines s ++ newLine ++ quoteLines t := by
  have hne : ∀ u, (lines u).map (['>', ' '] ++ ·) ≠ [] := fun u => by simpa using lines_ne_nil u
  rw [quoteLines, lines_append, List.map_append, intercalate_append _ (hne s) (hne t)]
  rfl

/-- Texts on one line each, with empty lines in between. -/
theorem quoteLines_intercalate {m : List Char} {ms : List (List Char)}
    (h : ∀ l ∈ m :: ms, '\n' ∉ l) :
    quoteLines ((newLine ++ newLine).intercalate (m :: ms)) =
      ['>', ' '] ++ m ++ ms.flatMap fun l => newLine ++ ['>', ' '] ++ newLine ++ ['>', ' '] ++ l := by
  induction ms generalizing m with
  | nil =>
    rw [List.intercalate_singleton, quoteLines_of_not_mem (h m (List.mem_cons_self ..))]
    exact (List.append_nil _).symm
  | cons l ms ih =>
    have hm := quoteLines_of_not_mem (h m (List.mem_cons_self ..))
    have hassoc : m ++ (newLine ++ newLine) ++ (newLine ++ newLine).intercalate (l :: ms) =
        m ++ newLine ++ [] ++ newLine ++ (newLine ++ newLine).intercalate (l :: ms) := by simp
    rw [List.intercalate_cons_cons, hassoc, quoteLines_append, quoteLines_append, hm,
      ih fun k hk => h k (List.mem_cons_of_mem m hk), quoteLines_of_not_mem (by simp)]
    simp

theorem quoteLines_snoc (s : List Char) {c : Char} (h : c ≠ '\n') :
    quoteLines (s ++ [c]) = quoteLines s ++ [c] := by
  obtain ⟨ls, l, hs, hsc⟩ := exists_lines_snoc s h
  rw [quoteLines, quoteLines, hs, hsc]
  cases ls with
  | nil => simp
  | cons m ls =>
    rw [List.map_append, List.map_append, intercalate_append _ (by simp) (by simp),
      intercalate_append _ (by simp) (by simp)]
    simp

theorem Inked.quoteLines {s : List Char} (h : Inked s) : Inked (quoteLines s) := by
  obtain ⟨t, c, rfl, hc⟩ := h.exists_eq_append
  constructor
  · rw [head_quoteLines]
    decide
  · simp [quoteLines_snoc t (ne_feed_of_ink hc), hc]

end HtmlMarkdown.Text
