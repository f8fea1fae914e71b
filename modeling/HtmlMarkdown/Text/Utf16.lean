/-!
# UTF-16

`Utf16.decode?` reads pairs of bytes as code units, in either byte order, and code units as
characters.  It refuses an odd number of bytes and surrogates that do not come in pairs.
-/

namespace HtmlMarkdown.Utf16

/-- The order of the two bytes of a code unit. -/
inductive ByteOrder where
  | littleEndian
  | bigEndian
  deriving DecidableEq, Repr

/-- The code unit of two bytes. -/
def unit (order : ByteOrder) (a b : UInt8) : Nat :=
  match order with
  | .littleEndian => b.toNat * 256 + a.toNat
  | .bigEndian => a.toNat * 256 + b.toNat

/-- The code units of an even number of bytes. -/
def units? (order : ByteOrder) : List UInt8 → Option (List Nat)
  | [] => some []
  | [_] => none
  | a :: b :: bs => (units? order bs).map (unit order a b :: ·)

/-- Whether a code unit is the first of a surrogate pair. -/
def isHighSurrogate (u : Nat) : Bool := 0xD800 ≤ u && u < 0xDC00

/-- Whether a code unit is the second of a surrogate pair. -/
def isLowSurrogate (u : Nat) : Bool := 0xDC00 ≤ u && u < 0xE000

/-- The characters of a sequence of code units. -/
def ofUnits? : List Nat → Option (List Char)
  | [] => some []
  | u :: us =>
    if isHighSurrogate u then
      match us with
      | v :: us =>
        if isLowSurrogate v then
          (ofUnits? us).map (Char.ofNat (0x10000 + (u - 0xD800) * 0x400 + (v - 0xDC00)) :: ·)
        else none
      | [] => none
    else if isLowSurrogate u then none
    else (ofUnits? us).map (Char.ofNat u :: ·)

/-- The text of well-formed bytes. -/
def decode? (order : ByteOrder) (bs : List UInt8) : Option (List Char) :=
  (units? order bs).bind ofUnits?

end HtmlMarkdown.Utf16
