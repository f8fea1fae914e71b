import HtmlMarkdown.Element
import HtmlMarkdown.Proofs.Text.Occurrence
import HtmlMarkdown.Proofs.Text.Runs
import HtmlMarkdown.Tag.Name

/-!
# Tags as they are spelled

A `SpelledTag` is what stands between the `<` or `</` of a tag and its `>`.  Scanning reads the tag
back (`scan_inner`), finds no name where no tag is spelled (`scan_nameless`), and does not come to
an end without a `>` (`scan_eq_unclosed`).
-/

namespace HtmlMarkdown

open Text TagName

/-- A tag as a page spells it. -/
structure SpelledTag where
  /-- The name, in any letter case. -/
  name : List Char
  /-- The text from the name to the `>`. -/
  rest : List Char
  name_start : name.head?.any isNameStart = true
  name_chars : ∀ c ∈ name, isNameChar c = true
  rest_start : ∀ c ∈ rest.head?, c = '/' ∨ isBlank c = true
  rest_open : '>' ∉ rest

/-! ## Tags with little behind their name -/

theorem SpelledTag.rest_start_nil : ∀ c ∈ ([] : List Char).head?, c = '/' ∨ isBlank c = true := by
  simp

theorem SpelledTag.rest_start_space (s : List Char) :
    ∀ c ∈ (' ' :: s).head?, c = '/' ∨ isBlank c = true := by
  simp [isBlank]

theorem SpelledTag.rest_open_nil : '>' ∉ ([] : List Char) := List.not_mem_nil

/-- A tag that has nothing but a name. -/
def bareTag (name : List Char)
    (h : (name.head?.any TagName.isNameStart && name.all TagName.isNameChar) = true) :
    SpelledTag where
  name := name
  rest := []
  name_start := (Bool.and_eq_true_iff.1 h).1
  name_chars := List.all_eq_true.1 (Bool.and_eq_true_iff.1 h).2
  rest_start := SpelledTag.rest_start_nil
  rest_open := SpelledTag.rest_open_nil

/-- Blanks between two tags or inside one. -/
structure Gap where
  /-- The blanks. -/
  text : List Char
  blank : ∀ c ∈ text, isBlank c = true

theorem isBlank_of_mem_spaces (n : Nat) : ∀ c ∈ List.replicate n ' ', isBlank c = true := by
  intro c hc
  rw [List.eq_of_mem_replicate hc]
  rfl

/-- Blanks that are spaces. -/
def Gap.spaces (n : Nat) : Gap := ⟨List.replicate n ' ', isBlank_of_mem_spaces n⟩

/-! ## Scanning -/

namespace TagName

theorem isNameChar_of_isBlank {c : Char} (h : isBlank c = true) : isNameChar c = false := by
  rcases eq_of_isBlank h with rfl | rfl | rfl | rfl | rfl <;> decide

theorem toLower_eq_self_or_isAlpha (c : Char) : c.toLower = c ∨ c.isAlpha = true := by
  unfold Char.toLower
  split
  · next h =>
    have hupper : c.isUpper = true := decide_eq_true h
    right
    show (c.isUpper || c.isLower) = true
    rw [hupper, Bool.true_or]
  · left
    rfl

theorem isNameStart_of_toLower {c : Char} (h : isNameStart c.toLower = true) :
    isNameStart c = true := by
  rcases toLower_eq_self_or_isAlpha c with heq | halpha
  · rwa [heq] at h
  · exact halpha

theorem isNameChar_of_toLower {c : Char} (h : isNameChar c.toLower = true) :
    isNameChar c = true := by
  rcases toLower_eq_self_or_isAlpha c with heq | halpha
  · rwa [heq] at h
  · show ((c.isAlpha || c.isDigit) || c == ':') = true
    rw [halpha, Bool.true_or, Bool.true_or]

theorem not_mem_of_nameChars {c : Char} (hc : isNameChar c = false) {s : List Char}
    (h : ∀ d ∈ s, isNameChar d = true) : c ∉ s := by
  intro hmem
  rw [h c hmem] at hc
  cases hc

theorem scan_run_close {run : List Char} (hrun : ∀ c ∈ run, isNameChar c = true)
    (after : List Char) : scan (run ++ '>' :: after) = ofRun run after := by
  unfold scan
  rw [takeWhile_append_of_head hrun rfl, dropWhile_append_of_head hrun rfl]
  rfl

/-- A run of name characters before another character. -/
theorem scan_run_rest {run r : List Char} (hrun : ∀ c ∈ run, isNameChar c = true) {c : Char}
    (hc : isNameChar c = false) (hgt : c ≠ '>') (hr : '>' ∉ r) (after : List Char) :
    scan (run ++ c :: (r ++ '>' :: after)) =
      if c == '/' || isBlank c then ofRun run after else .nameless after := by
  have hhead : (c :: (r ++ '>' :: after)).head?.all (!isNameChar ·) = true := congrArg (!·) hc
  unfold scan
  rw [takeWhile_append_of_head hrun hhead, dropWhile_append_of_head hrun hhead]
  dsimp only
  split
  · next h => cases h
  · next h =>
    cases h
    exact absurd rfl hgt
  · next h =>
    cases h
    rw [cut?_append hr]

theorem scan_eq_unclosed {s : List Char} (h : '>' ∉ s) : scan s = .unclosed := by
  have hsub : ∀ c ∈ s.dropWhile isNameChar, c ∈ s := (List.dropWhile_suffix isNameChar).subset
  unfold scan
  generalize s.dropWhile isNameChar = u at hsub
  dsimp only
  split
  · rfl
  · exact absurd (hsub '>' (List.mem_cons_self ..)) h
  · next c rest _ =>
    rw [cut?_eq_none_iff.2 fun hmem => h (hsub '>' (List.mem_cons_of_mem c hmem))]

end TagName

/-! ## Spelled tags -/

namespace SpelledTag

/-- The text between the brackets, behind the `/` of an end tag. -/
def inner (t : SpelledTag) : List Char := t.name ++ t.rest

/-- The element that the tag belongs to. -/
def element (t : SpelledTag) : Element := .ofName (lower t.name)

theorem not_mem_inner (t : SpelledTag) : '>' ∉ t.inner := by
  rw [inner, List.mem_append, not_or]
  exact ⟨not_mem_of_nameChars (by decide) t.name_chars, t.rest_open⟩

theorem exists_inner_eq_cons (t : SpelledTag) : ∃ c s, t.inner = c :: s ∧ isNameStart c = true := by
  have hstart := t.name_start
  unfold inner
  cases hname : t.name with
  | nil =>
    rw [hname] at hstart
    cases hstart
  | cons c s =>
    rw [hname] at hstart
    exact ⟨c, s ++ t.rest, rfl, hstart⟩

theorem rest_head (t : SpelledTag) {c : Char} {s : List Char} (h : t.rest = c :: s) :
    (c == '/' || isBlank c) = true ∧ isNameChar c = false ∧ c ≠ '>' := by
  have hc := t.rest_start c (by rw [h]; rfl)
  refine ⟨by simpa using hc, ?_, ?_⟩
  · rcases hc with rfl | hb
    · decide
    · exact isNameChar_of_isBlank hb
  · rintro rfl
    exact t.rest_open (h ▸ List.mem_cons_self ..)

/-- Scanning a spelled tag gives its name, and the text after its `>`. -/
theorem scan_inner (t : SpelledTag) (s : List Char) :
    scan (t.inner ++ '>' :: s) = .named (lower t.name) s := by
  have hrun : ofRun t.name s = .named (lower t.name) s := if_pos t.name_start
  unfold inner
  rw [List.append_assoc]
  cases hrest : t.rest with
  | nil => rw [List.nil_append, scan_run_close t.name_chars, hrun]
  | cons c r =>
    obtain ⟨hend, hname, hgt⟩ := t.rest_head hrest
    have hopen : '>' ∉ r := fun hmem => t.rest_open (hrest ▸ List.mem_cons_of_mem c hmem)
    rw [List.cons_append, scan_run_rest t.name_chars hname hgt hopen, if_pos hend, hrun]

end SpelledTag

/-! ## Constructs without a name -/

/-- No tag and no declaration is spelled between the brackets. -/
def Nameless (s : List Char) : Prop :=
  s.head? ≠ some '!' ∧ ∀ t : SpelledTag, s ≠ t.inner ∧ s ≠ '/' :: t.inner

/-- Where no tag is spelled, scanning finds no name. -/
theorem TagName.scan_nameless {s : List Char} (hopen : '>' ∉ s) (h : ∀ t : SpelledTag, s ≠ t.inner)
    (u : List Char) : scan (s ++ '>' :: u) = .nameless u := by
  obtain ⟨run, rest, rfl, hchars, hhead⟩ := exists_run isNameChar s
  have hrest : '>' ∉ rest := fun hmem => hopen (List.mem_append_right run hmem)
  -- A run that starts like a name and ends like one would be a tag.
  have hrun : (∀ c ∈ rest.head?, c = '/' ∨ isBlank c = true) → ofRun run u = .nameless u := by
    intro hend
    unfold ofRun
    split
    · next hstart => exact absurd rfl (h ⟨run, rest, hstart, hchars, hend, hrest⟩)
    · rfl
  rw [List.append_assoc]
  cases rest with
  | nil =>
    rw [List.nil_append, scan_run_close hchars]
    exact hrun (by simp)
  | cons c r =>
    rw [List.mem_cons, not_or] at hrest
    have hname : isNameChar c = false := by simpa using hhead
    rw [List.cons_append, scan_run_rest hchars hname (Ne.symm hrest.1) hrest.2]
    split
    · next hend => exact hrun (by simpa using hend)
    · rfl

/-- Where no name starts, the rest of the tag is skipped. -/
theorem TagName.scan_of_not_start {s : List Char} (h : s.head?.any isNameStart = false) :
    scan s = match cut? '>' s with
      | none => .unclosed
      | some (_, after) => .nameless after := by
  cases hcut : cut? '>' s with
  | none => exact scan_eq_unclosed (cut?_eq_none_iff.1 hcut)
  | some xy =>
    obtain ⟨x, y⟩ := xy
    obtain ⟨rfl, hx⟩ := eq_of_cut? hcut
    refine scan_nameless hx (fun t ht => ?_) y
    obtain ⟨c, r, hc, hstart⟩ := t.exists_inner_eq_cons
    rw [ht, hc, List.cons_append, List.head?_cons, Option.any_some, hstart] at h
    cases h

end HtmlMarkdown
