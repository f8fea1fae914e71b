import HtmlMarkdown.Proofs.Inline

/-!
# Active markers

Markdown takes a marker as itself if an odd number of backslashes stands right before it; otherwise
the marker is active.  Text gets one backslash in front of each marker, and nothing in front of the
backslashes that it has itself.  So no marker of a page of text is active exactly if an even number
of backslashes stands before each marker of the text (`markers_inactive_iff`).

Both sides are read off by one scan (`markersBehind`), which counts backslashes anew behind any
other character.  Writing backslashes makes odd what was even (`markersBehind_escape`), and what is
done to blanks makes no difference (`markersBehind_collapse`).
-/

namespace HtmlMarkdown

open Text

/-- The number of backslashes at the end of a text. -/
def backslashes (s : List Char) : Nat := (s.reverse.takeWhile (· == '\\')).length

/-- The characters that may be active; the last one is the grave accent. -/
def markers : List Char := ['*', '_', '\x60']

/-- Each marker is taken as itself. -/
def Inactive (s : List Char) : Prop :=
  ∀ a c b, s = a ++ c :: b → c ∈ markers → backslashes a % 2 = 1

/-- The backslashes before each marker are even in number. -/
def EvenBefore (s : List Char) : Prop :=
  ∀ a c b, s = a ++ c :: b → c ∈ markers → backslashes a % 2 = 0

theorem isSpecial_iff {c : Char} : Draft.isSpecial c = true ↔ c ∈ markers := by
  simp [Draft.isSpecial, markers, or_assoc]

theorem backslashes_concat (s : List Char) (c : Char) :
    backslashes (s ++ [c]) = if c == '\\' then backslashes s + 1 else 0 := by
  rw [backslashes, List.reverse_append, List.reverse_singleton, List.singleton_append,
    List.takeWhile_cons]
  split <;> rfl

/-! ## Counting -/

/--
Whether `r` is the remainder modulo two of the number of backslashes right before each marker of a
text, where `n` backslashes stand before the text.
-/
def markersBehind (r : Nat) (n : Nat) : List Char → Bool
  | [] => true
  | c :: s =>
    (!Draft.isSpecial c || n % 2 == r) && markersBehind r (if c == '\\' then n + 1 else 0) s

variable {r : Nat}

theorem markersBehind_cons (c : Char) (n : Nat) (s : List Char) :
    markersBehind r n (c :: s) =
      ((!Draft.isSpecial c || n % 2 == r) &&
        markersBehind r (if c == '\\' then n + 1 else 0) s) :=
  rfl

theorem markersBehind_cons_ordinary {c : Char} (h : Draft.isSpecial c = false) (hc : c ≠ '\\')
    (n : Nat) (s : List Char) : markersBehind r n (c :: s) = markersBehind r 0 s := by
  rw [markersBehind, h, beq_eq_false_iff_ne.2 hc]
  rfl

theorem markersBehind_cons_blank {c : Char} (h : isBlank c = true) (n : Nat) (s : List Char) :
    markersBehind r n (c :: s) = markersBehind r 0 s := by
  apply markersBehind_cons_ordinary (isSpecial_of_isBlank h)
  rintro rfl
  cases h

/-- The scan looks at the backslashes before each marker. -/
theorem markersBehind_iff (u s : List Char) :
    markersBehind r (backslashes u) s = true ↔
      ∀ a c b, s = a ++ c :: b → c ∈ markers → backslashes (u ++ a) % 2 = r := by
  induction s generalizing u with
  | nil => simp [markersBehind]
  | cons d s ih =>
    rw [markersBehind, ← backslashes_concat, Bool.and_eq_true, ih, Bool.or_eq_true,
      Bool.not_eq_true', beq_iff_eq]
    constructor
    · rintro ⟨hhead, htail⟩ a c b hs hc
      cases a with
      | nil =>
        obtain ⟨rfl, -⟩ := List.cons.inj hs
        rw [List.append_nil]
        exact hhead.resolve_left (by rw [isSpecial_iff.2 hc]; decide)
      | cons e a =>
        obtain ⟨rfl, rfl⟩ := List.cons.inj hs
        simpa using htail a c b rfl hc
    · intro h
      refine ⟨?_, fun a c b hs hc => ?_⟩
      · cases hd : Draft.isSpecial d with
        | false => exact .inl rfl
        | true => exact .inr (by simpa using h [] d s rfl (isSpecial_iff.1 hd))
      · rw [List.append_assoc, List.singleton_append]
        exact h (d :: a) c b (congrArg (d :: ·) hs) hc

theorem inactive_iff (s : List Char) : Inactive s ↔ markersBehind 1 0 s = true :=
  (markersBehind_iff [] s).symm

theorem evenBefore_iff (s : List Char) : EvenBefore s ↔ markersBehind 0 0 s = true :=
  (markersBehind_iff [] s).symm

/-! ## Backslashes written -/

/-- A backslash in front of each marker makes odd what was even. -/
theorem markersBehind_escape (n : Nat) (s : List Char) :
    markersBehind 1 n (escape s) = markersBehind 0 n s := by
  induction s generalizing n with
  | nil => rfl
  | cons c s ih =>
    rw [escape_cons, escape_singleton]
    by_cases hc : Draft.isSpecial c = true
    · have hne : c ≠ '\\' := by
        rintro rfl
        cases hc
      have hparity : ((n + 1) % 2 == 1) = (n % 2 == 0) := by
        rw [Bool.eq_iff_iff, beq_iff_eq, beq_iff_eq]
        omega
      rw [if_pos hc]
      show markersBehind 1 (n + 1) (c :: escape s) = _
      rw [markersBehind_cons c, markersBehind_cons c, hparity, beq_eq_false_iff_ne.2 hne]
      exact congrArg (_ && ·) (ih 0)
    · rw [if_neg hc]
      show markersBehind 1 n (c :: escape s) = _
      rw [markersBehind_cons c, markersBehind_cons c, ih, Bool.eq_false_iff.2 hc]
      rfl

/-! ## Blanks -/

/-- The words of a text have the same backslashes before their markers, wherever it starts. -/
theorem markersBehind_collapse_and (s : List Char) :
    markersBehind r 0 (collapse s) = markersBehind r 0 s ∧
      ∀ (c : Char) (n : Nat), isBlank c = false →
        markersBehind r n (collapse (c :: s)) = markersBehind r n (c :: s) := by
  -- Behind a blank the count is zero, and behind a character it is not known; a text leads from
  -- one kind of place to the other, so both are proved in one induction.
  induction s with
  | nil =>
    refine ⟨rfl, fun c n hc => ?_⟩
    rw [collapse_of_ink (by simpa using hc)]
  | cons e s ih =>
    by_cases he : isBlank e = true
    · refine ⟨?_, fun c n hc => ?_⟩
      · rw [collapse_cons_blank he, markersBehind_cons_blank he, ih.1]
      · rw [collapse_cons_cons_blank hc he]
        split
        · next hs =>
          have hnil : collapse s = [] := by
            rw [collapse, hs]
            rfl
          have hrest : markersBehind r 0 s = true := by
            rw [← ih.1, hnil]
            rfl
          rw [markersBehind_cons c, markersBehind_cons c, markersBehind_cons_blank he, hrest]
          rfl
        · rw [markersBehind_cons c, markersBehind_cons c, markersBehind_cons_blank he,
            markersBehind_cons_blank (by decide), ih.1]
    · have he : isBlank e = false := Bool.eq_false_iff.2 he
      refine ⟨ih.2 e 0 he, fun c n hc => ?_⟩
      rw [collapse_cons_ink hc he, markersBehind_cons c, markersBehind_cons c, ih.2 e _ he]

theorem markersBehind_collapse (s : List Char) :
    markersBehind r 0 (collapse s) = markersBehind r 0 s :=
  (markersBehind_collapse_and s).1

/-! ## Pages of text -/

theorem convert_text {s : List Char} (h : '<' ∉ s) :
    (convert {} (String.ofList s)).toList = collapse (escape s) :=
  (toList_convert rfl rfl s).trans (convertTokens_text .markdown h)

/--
No marker of a converted text is active exactly if the backslashes before each marker of the text
are even in number.
-/
theorem markers_inactive_iff {s : List Char} (h : '<' ∉ s) :
    Inactive (convert {} (String.ofList s)).toList ↔ EvenBefore s := by
  rw [convert_text h, inactive_iff, evenBefore_iff, markersBehind_collapse, markersBehind_escape]

/-- A marker behind one backslash comes out behind two of them. -/
theorem markers_inactive_oneBackslash :
    '<' ∉ "\\*".toList ∧ convert {} "\\*" = "\\\\*" ∧ ¬ Inactive "\\\\*".toList := by
  rw [inactive_iff]
  decide +kernel

/-- A marker behind two backslashes comes out behind three of them. -/
theorem markers_inactive_twoBackslashes :
    '<' ∉ " a\\\\*\\ \n_".toList ∧ EvenBefore " a\\\\*\\ \n_".toList ∧
      Inactive (convert {} (String.ofList " a\\\\*\\ \n_".toList)).toList := by
  have hopen : '<' ∉ " a\\\\*\\ \n_".toList := by decide
  have heven : EvenBefore " a\\\\*\\ \n_".toList := (evenBefore_iff _).2 (by decide)
  exact ⟨hopen, heven, (markers_inactive_iff hopen).2 heven⟩

end HtmlMarkdown
