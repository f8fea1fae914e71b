import HtmlMarkdown.Text.Blank

/-!
# White space

`isWhiteSpace` is the `White_Space` property of the Unicode standard.  It holds of every blank, and
of more: of the vertical tab, the next-line character, no-break space and the typographic spaces.
-/

namespace HtmlMarkdown.Text

/-- The `White_Space` property. -/
def isWhiteSpace (c : Char) : Bool :=
  let n := c.toNat
  (0x9 ≤ n && n ≤ 0xD) || n == 0x20 || n == 0x85 || n == 0xA0 || n == 0x1680 ||
    (0x2000 ≤ n && n ≤ 0x200A) || n == 0x2028 || n == 0x2029 || n == 0x202F || n == 0x205F ||
    n == 0x3000

/-- A text without the white space at both ends. -/
def trimWhiteSpace (s : List Char) : List Char :=
  dropEndWhile isWhiteSpace (s.dropWhile isWhiteSpace)

theorem isWhiteSpace_of_isBlank {c : Char} (h : isBlank c = true) : isWhiteSpace c = true := by
  rcases eq_of_isBlank h with rfl | rfl | rfl | rfl | rfl <;> decide

end HtmlMarkdown.Text
