import HtmlMarkdown.Link
import HtmlMarkdown.Tag.Declaration
import HtmlMarkdown.Tag.Name

/-!
# Offsets

The readers of this library give back the rest of the text.  Here they are asked for the same
answers as offsets in bytes.  Bytes need not be well-formed text for this: every delimiter is an
ASCII character, so each byte may be taken for the character with its number (`view`).
-/

namespace HtmlMarkdown.Offset

open Text

/-- The characters with the numbers of the bytes. -/
def view (bs : List UInt8) : List Char := bs.map fun b => Char.ofNat b.toNat

/-- The view of the bytes from an offset on. -/
def viewFrom (bs : List UInt8) (start : Nat) : List Char := (view bs).drop start

@[simp] theorem length_view (bs : List UInt8) : (view bs).length = bs.length := by
  simp [view]

/-! ## Tags -/

/-- The rest of a tag, with the offset of the `>` that ends it. -/
inductive TagEnd where
  /-- The tag has the lower-case name `name`. -/
  | named (name : List Char) (close : Nat)
  /-- The tag has no name. -/
  | nameless (close : Nat)
  /-- The bytes end inside the tag. -/
  | unclosed
  deriving DecidableEq, Repr

/-- Scans the rest of a tag whose name starts at an offset. -/
def scanTag (bs : List UInt8) (start : Nat) : TagEnd :=
  match TagName.scan (viewFrom bs start) with
  | .named name after => .named name (bs.length - (after.length + 1))
  | .nameless after => .nameless (bs.length - (after.length + 1))
  | .unclosed => .unclosed

/-- The offset just past the declaration that starts at an offset. -/
def declarationEnd? (bs : List UInt8) (start : Nat) : Option Nat :=
  (Declaration.after? (viewFrom bs start)).map fun rest => bs.length - rest.length

/-! ## Searches -/

/-- The offset of the first byte `b` from an offset on. -/
def findByte? (b : UInt8) (bs : List UInt8) (start : Nat) : Option Nat :=
  (cut? (Char.ofNat b.toNat) (viewFrom bs start)).map fun (before, _) => start + before.length

/-- The offset of the first occurrence of `word` from an offset on; an empty word does not occur. -/
def find? (same : Char → Char → Bool) (word bs : List UInt8) (start : Nat) : Option Nat :=
  if word.isEmpty then none
  else
    (locate? same (view word) (viewFrom bs start)).map fun (before, _) => start + before.length

/-- The first occurrence of `word`, letter for letter. -/
def findExact? (word bs : List UInt8) (start : Nat) : Option Nat := find? (· == ·) word bs start

/-- The first occurrence of `word` in any ASCII letter case. -/
def findAnyCase? (word bs : List UInt8) (start : Nat) : Option Nat := find? sameLetter word bs start

/-- The offset of the first byte that is no blank, from an offset on. -/
def skipBlanks (bs : List UInt8) (start : Nat) : Nat :=
  start + ((viewFrom bs start).takeWhile isBlank).length

/-! ## Links -/

/-- A text without the characters that start in its first `n` bytes. -/
def dropBytes (n : Nat) : List Char → List Char
  | [] => []
  | c :: s => if n = 0 then c :: s else dropBytes (n - c.utf8Size) s

/-- The link that starts at an offset of a text, and the offset just past it. -/
def linkAt? (s : List Char) (start : Nat) : Option (Link × Nat) :=
  (Link.read? (dropBytes start s)).map fun (l, rest) => (l, byteSize s - byteSize rest)

end HtmlMarkdown.Offset
