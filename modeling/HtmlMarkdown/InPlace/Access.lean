import HtmlMarkdown.Text.Blank
import HtmlMarkdown.Text.Utf8

/-!
# Access to a stored text

A text is stored as the bytes of its UTF-8 form, and a place in it is an offset in bytes.  Not every
offset is one: it has to lie within the text and between two characters.  `splitAt?` cuts a text at
an offset and `slice?` takes what stands between two offsets; both are `none` if an offset is not
good, as are `bs[i]?` and `sub?` for offsets beyond the bytes.

A loop that moves an offset over bytes looks at each byte before it passes it (`skipWhile?`).
-/

namespace HtmlMarkdown.InPlace

open Text

/-- The text before and the text after a byte offset. -/
def splitAt? : Nat → List Char → Option (List Char × List Char)
  | 0, s => some ([], s)
  | _ + 1, [] => none
  | n + 1, c :: s =>
    if c.utf8Size ≤ n + 1 then (splitAt? (n + 1 - c.utf8Size) s).map fun (a, b) => (c :: a, b)
    else none

/-- The text between two byte offsets. -/
def slice? (s : List Char) (start stop : Nat) : Option (List Char) :=
  if start ≤ stop then do
    let (_, rest) ← splitAt? start s
    let (inner, _) ← splitAt? (stop - start) rest
    return inner
  else none

/-- The bytes between two offsets. -/
def sub? (bs : List UInt8) (start stop : Nat) : Option (List UInt8) :=
  if start ≤ stop ∧ stop ≤ bs.length then some ((bs.drop start).take (stop - start)) else none

/-- The character with the number of a byte. -/
def asChar (b : UInt8) : Char := Char.ofNat b.toNat

/-- The offset of the first byte from `i` on that does not satisfy `p`, up to `stop`. -/
def skipWhile? (p : Char → Bool) (bs : List UInt8) (stop i : Nat) : Option Nat :=
  if i < stop then do
    let b ← bs[i]?
    if p (asChar b) then skipWhile? p bs stop (i + 1) else return i
  else return i
termination_by stop - i

end HtmlMarkdown.InPlace
