/-!
# UTF-8

`pieces` reads bytes as a sequence of characters and faulty stretches.  A faulty stretch is a
maximal one that starts like a character: it ends in front of the byte that rules the character
out, or is that one byte, or is cut off by the end of the input.  Two readings rest on it:
`decode` refuses the first faulty stretch and says where it is, `decodeLossy` puts a replacement
character in its place.  `encode` is the way back.
-/

namespace HtmlMarkdown.Utf8

/-- The bytes of a text. -/
def encode (s : List Char) : List UInt8 := s.flatMap String.utf8EncodeChar

/-- A character, or a stretch of bytes that is none. -/
inductive Piece where
  /-- A well-formed character. -/
  | char (c : Char)
  /-- A stretch of `size` bytes that the next byte rules out. -/
  | malformed (size : Nat)
  /-- The start of a character that the end of the input cuts off. -/
  | truncated
  deriving DecidableEq, Repr

/--
Reads the last `n` bytes of a character, of which `seen` bytes with value `value` have been read.
The next byte has to lie between `low` and `high`, and those after it between `0x80` and `0xBF`.
-/
def readTail : (n low high seen value : Nat) → List UInt8 → Piece × List UInt8
  | 0, _, _, _, value, bs => (.char (Char.ofNat value), bs)
  | _ + 1, _, _, _, _, [] => (.truncated, [])
  | n + 1, low, high, seen, value, b :: bs =>
    if low ≤ b.toNat ∧ b.toNat ≤ high then
      readTail n 0x80 0xBF (seen + 1) (value * 64 + b.toNat % 64) bs
    else (.malformed seen, b :: bs)

/-- What the first byte of a character of several bytes says about the others. -/
structure Lead where
  /-- The number of bytes that follow. -/
  count : Nat
  /-- The least value of the next byte. -/
  low : Nat
  /-- The greatest value of the next byte. -/
  high : Nat
  /-- The part of the character that the first byte holds. -/
  value : Nat
  deriving DecidableEq, Repr

/-- Reads a first byte; there are none below `0xC2` and none above `0xF4`. -/
def lead? (n : Nat) : Option Lead :=
  if n < 0xC2 then none
  else if n < 0xE0 then some ⟨1, 0x80, 0xBF, n % 32⟩
  else if n = 0xE0 then some ⟨2, 0xA0, 0xBF, 0⟩
  else if n = 0xED then some ⟨2, 0x80, 0x9F, 13⟩
  else if n < 0xF0 then some ⟨2, 0x80, 0xBF, n % 16⟩
  else if n = 0xF0 then some ⟨3, 0x90, 0xBF, 0⟩
  else if n < 0xF4 then some ⟨3, 0x80, 0xBF, n % 8⟩
  else if n = 0xF4 then some ⟨3, 0x80, 0x8F, 4⟩
  else none

/-- Reads the piece that starts with the byte `b`. -/
def readPiece (b : UInt8) (bs : List UInt8) : Piece × List UInt8 :=
  if b.toNat < 0x80 then (.char (Char.ofNat b.toNat), bs)
  else
    match lead? b.toNat with
    | some l => readTail l.count l.low l.high 1 l.value bs
    | none => (.malformed 1, bs)

theorem length_readTail_le (n low high seen value : Nat) (bs : List UInt8) :
    (readTail n low high seen value bs).2.length ≤ bs.length := by
  fun_induction readTail n low high seen value bs with
  | case1 | case2 | case4 => simp
  | case3 _ _ _ _ _ _ _ _ ih => exact Nat.le_trans ih (Nat.le_succ _)

theorem length_readPiece_le (b : UInt8) (bs : List UInt8) :
    (readPiece b bs).2.length ≤ bs.length := by
  unfold readPiece
  split
  · exact Nat.le_refl _
  · split
    · exact length_readTail_le ..
    · exact Nat.le_refl _

/-- The characters and the faulty stretches of the input, in order. -/
def pieces : List UInt8 → List Piece
  | [] => []
  | b :: bs => (readPiece b bs).1 :: pieces (readPiece b bs).2
termination_by bs => bs.length
decreasing_by exact Nat.lt_succ_of_le (length_readPiece_le b bs)

/-! ## Decoding -/

/-- The first faulty stretch of an input. -/
structure Fault where
  /-- The number of well-formed bytes before it. -/
  position : Nat
  /-- Its length, or none if the end of the input cuts it off. -/
  size? : Option Nat
  deriving DecidableEq, Repr

/-- A fault in words. -/
def Fault.message (f : Fault) : String :=
  match f.size? with
  | some n => s!"invalid utf-8 sequence of {n} bytes from index {f.position}"
  | none => s!"incomplete utf-8 byte sequence from index {f.position}"

/-- The text of the pieces, the first of which starts at byte `position`. -/
def textOf (position : Nat) : List Piece → Except Fault (List Char)
  | [] => .ok []
  | .char c :: ps => (textOf (position + c.utf8Size) ps).map (c :: ·)
  | .malformed n :: _ => .error ⟨position, some n⟩
  | .truncated :: _ => .error ⟨position, none⟩

/-- The text of well-formed bytes. -/
def decode (bs : List UInt8) : Except Fault (List Char) := textOf 0 (pieces bs)

/-- The character of a piece, a replacement character for a faulty one. -/
def Piece.toChar : Piece → Char
  | .char c => c
  | _ => '\uFFFD'

/-- The text of any bytes, with a replacement character for each faulty stretch. -/
def decodeLossy (bs : List UInt8) : List Char := (pieces bs).map Piece.toChar

end HtmlMarkdown.Utf8
