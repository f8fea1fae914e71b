/-!
# Blanks, letter case and words

A text is a list of characters.  A *blank* is one of the five ASCII characters that HTML counts as
white space.  `skipBlanks` and `trim` remove blanks from the ends of a text, `words` gives the
blank-free runs of a text and `collapse` writes them with one space in between.  `sameLetter`
compares characters up to ASCII case, and `byteSize` measures a text in bytes of its UTF-8 form.
-/

namespace HtmlMarkdown.Text

/-- The blanks are tab, line feed, form feed, carriage return and space. -/
def isBlank (c : Char) : Bool :=
  c == ' ' || c == '\n' || c == '\r' || c == '\t' || c == '\x0c'

theorem eq_of_isBlank {c : Char} (h : isBlank c = true) :
    c = ' ' ∨ c = '\n' ∨ c = '\r' ∨ c = '\t' ∨ c = '\x0c' := by
  simpa [isBlank, or_assoc] using h

/-- Two characters that differ at most in ASCII case. -/
def sameLetter (c d : Char) : Bool := c.toLower == d.toLower

/-- A text with its ASCII letters in lower case. -/
def lower (s : List Char) : List Char := s.map Char.toLower

/-- The number of bytes of the UTF-8 form of a text. -/
def byteSize : List Char → Nat
  | [] => 0
  | c :: s => c.utf8Size + byteSize s

theorem byteSize_append (s t : List Char) : byteSize (s ++ t) = byteSize s + byteSize t := by
  induction s with
  | nil => simp [byteSize]
  | cons c s ih => simp [byteSize, ih, Nat.add_assoc]

/-! ## Ends of a text -/

/-- A text without the blanks it starts with. -/
def skipBlanks (s : List Char) : List Char := s.dropWhile isBlank

/-- A text without the last characters that satisfy `p`. -/
def dropEndWhile (p : Char → Bool) (s : List Char) : List Char := (s.reverse.dropWhile p).reverse

/-- A text without the blanks at both ends. -/
def trim (s : List Char) : List Char := dropEndWhile isBlank (skipBlanks s)

theorem length_skipBlanks_le (s : List Char) : (skipBlanks s).length ≤ s.length :=
  (List.dropWhile_suffix isBlank).length_le

@[simp] theorem skipBlanks_nil : skipBlanks [] = [] := rfl

theorem skipBlanks_cons_of_blank {c : Char} (h : isBlank c = true) (s : List Char) :
    skipBlanks (c :: s) = skipBlanks s := by
  simp [skipBlanks, h]

theorem skipBlanks_cons_of_not_blank {c : Char} (h : isBlank c = false) (s : List Char) :
    skipBlanks (c :: s) = c :: s := by
  simp [skipBlanks, h]

/-! ## Words -/

/-- Puts a character in front of the first word. -/
def extendFirst (c : Char) : List (List Char) → List (List Char)
  | [] => [[c]]
  | w :: ws => (c :: w) :: ws

/-- The maximal blank-free runs of a text, in order. -/
def words : List Char → List (List Char)
  | [] => []
  | c :: s =>
    if isBlank c then words s
    else if s.head?.all isBlank then [c] :: words s
    else extendFirst c (words s)

/-- The words of a text with one space between neighbours. -/
def collapse (s : List Char) : List Char := [' '].intercalate (words s)

theorem words_cons_of_blank {c : Char} (h : isBlank c = true) (s : List Char) :
    words (c :: s) = words s := by
  simp [words, h]

theorem words_eq_nil_iff (s : List Char) : words s = [] ↔ ∀ c ∈ s, isBlank c = true := by
  induction s with
  | nil => simp [words]
  | cons c s ih =>
    by_cases h : isBlank c = true
    · simp [words, h, ih]
    · have hne : words (c :: s) ≠ [] := by
        cases hw : words s <;> by_cases hs : s.head?.all isBlank = true <;>
          simp [words, h, hs, hw, extendFirst]
      simp [hne, h]

end HtmlMarkdown.Text
