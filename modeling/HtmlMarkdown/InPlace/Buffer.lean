import HtmlMarkdown.InPlace.Access
import HtmlMarkdown.Output.Separation

/-!
# The output in place

An `Output` is a sequence of glyphs.  A `Buffer` is the same as it is stored: the text written, with
the space at the start, and the byte offsets of the marks that have no ink behind them.  Operations
look at the last bytes, and `stripQuoteTail?` cuts the text at offsets until no empty quoted line is
left at its end.

The result is `none` if an access fails: an index or a cut that is not good, or a search among
offsets that do not ascend.
-/

namespace HtmlMarkdown

/-- The text written, with the offsets of its live marks. -/
structure Buffer where
  /-- The text, with the space at the start. -/
  text : List Char
  /-- The byte offsets of the marks that have no ink behind them. -/
  marks : List Nat
  deriving DecidableEq, Repr

namespace Buffer

open Text InPlace

/-- The start of a page. -/
def start : Buffer := ⟨[' '], []⟩

/-- The bytes of the text. -/
def bytes (b : Buffer) : List UInt8 := Utf8.encode b.text

/-- The finished text. -/
def finish (b : Buffer) : List Char := trim b.text

/-! ## Writing -/

/-- Writes a text that comes from outside, and forgets the marks if it has ink. -/
def append (b : Buffer) (s : List Char) : Buffer :=
  ⟨b.text ++ s, if s.all isBlank then b.marks else []⟩

/-- Writes a character that comes from outside. -/
def push (b : Buffer) (c : Char) : Buffer := ⟨b.text ++ [c], if isBlank c then b.marks else []⟩

/-- Writes a line break. -/
def pushBreak (b : Buffer) : Buffer := { b with text := b.text ++ ['\r', '\n'] }

/-- Writes a mark and notes its offset. -/
def pushMark (b : Buffer) : Buffer := ⟨b.text ++ ['>', ' '], b.marks ++ [byteSize b.text]⟩

/-- Writes a line break and starts a quoted line. -/
def pushQuotedBreak (b : Buffer) : Buffer := b.pushBreak.pushMark

/-- Writes `n` line breaks. -/
def pushBreaks : Nat → Buffer → Buffer
  | 0, b => b
  | n + 1, b => pushBreaks n b.pushBreak

/-- Writes `n` line breaks, each of which starts a quoted line. -/
def pushQuotedBreaks : Nat → Buffer → Buffer
  | 0, b => b
  | n + 1, b => pushQuotedBreaks n b.pushQuotedBreak

/-! ## The last bytes -/

/-- Whether a character is a space or a tab. -/
def isGap (c : Char) : Bool := (Glyph.char c).isGap

/-- Whether a character is a space, a tab, or of a line break. -/
def isSpacing (c : Char) : Bool := (Glyph.char c).isSpacing

/-- Whether the text ends in white space. -/
def endsInSpacing (b : Buffer) : Bool := b.bytes.getLast?.all fun c => isSpacing (asChar c)

/-- Writes a space unless the text ends in white space. -/
def pushSpace (b : Buffer) : Buffer :=
  if b.endsInSpacing then b else { b with text := b.text ++ [' '] }

/-- Takes back one space, but not the one at the start. -/
def dropSpace (b : Buffer) : Buffer :=
  if 1 < byteSize b.text ∧ b.text.getLast? = some ' ' then { b with text := b.text.dropLast } else b

/-- Whether a mark is noted at an offset; the offsets have to ascend. -/
def isMark? (b : Buffer) (i : Nat) : Option Bool :=
  if b.marks.Pairwise (· < ·) then some (b.marks.contains i) else none

/-- The line feeds at the end, counted from `count` on and up to `limit`; the last byte is first. -/
def breaksFrom (limit count : Nat) : List UInt8 → Nat
  | [] => limit
  | c :: bs =>
    if asChar c == '\n' then
      if limit ≤ count + 1 then count + 1 else breaksFrom limit (count + 1) bs
    else if isSpacing (asChar c) then breaksFrom limit count bs
    else count

/-- The line breaks at the end, up to `limit`; the start of the page counts as `limit` breaks. -/
def trailingBreaks (b : Buffer) (limit : Nat) : Nat := breaksFrom limit 0 b.bytes.reverse

/-- The same among the first `i` bytes, where noted marks are white space. -/
def quotedBreaksFrom? (b : Buffer) (limit : Nat) (count : Nat) : Nat → Option (Option Nat)
  | 0 => return none
  | i + 1 => do
    let c ← b.bytes[i]?
    if asChar c == '\n' then
      if limit ≤ count + 1 then return some (count + 1)
      else b.quotedBreaksFrom? limit (count + 1) i
    else if isSpacing (asChar c) then b.quotedBreaksFrom? limit count i
    else if asChar c == '>' then
      if ← b.isMark? i then b.quotedBreaksFrom? limit count i else return some count
    else return some count

/-- The line breaks at the end, up to `limit`, quoted or not; none at the start of the page. -/
def trailingQuotedBreaks? (b : Buffer) (limit : Nat) : Option (Option Nat) :=
  b.quotedBreaksFrom? limit 0 b.bytes.length

/-- The size of the text without the gap at its end. -/
def trimmedSize (b : Buffer) : Nat := byteSize (dropEndWhile isGap b.text)

/-- Whether the last line has a mark and nothing behind it. -/
def onFreshQuotedLine? (b : Buffer) : Option Bool :=
  if 0 < b.trimmedSize then b.isMark? (b.trimmedSize - 1) else return false

/-- Whether the last line of a quotation is empty, or nothing but marks has been written. -/
def endsInQuotedBlankLine? (b : Buffer) : Option Bool := do
  let breaks ← b.trailingQuotedBreaks? 2
  return breaks.all (2 ≤ ·)

/-! ## Separation -/

/-- Writes the quoted breaks that are missing. -/
def separateQuoted? (b : Buffer) (required : Nat) : Option Buffer := do
  let b := if b.text.getLast? = some '\n' then b.pushMark else b
  match ← b.trailingQuotedBreaks? required with
  | none => if ← b.onFreshQuotedLine? then return b else return b.pushQuotedBreak
  | some existing =>
    return pushQuotedBreaks (required - existing) (if existing = 0 then b.dropSpace else b)

/-- Writes the breaks that are missing, after taking back a space unless it is to be kept. -/
def separate? (b : Buffer) (required : Nat) (quoted keepSpace : Bool) : Option Buffer :=
  if quoted then b.separateQuoted? required
  else
    let existing := b.trailingBreaks required
    return pushBreaks (required - existing) (if keepSpace then b else b.dropSpace)

/-- Keeps the first `n` bytes and the marks among them. -/
def truncate? (b : Buffer) (n : Nat) : Option Buffer := do
  let (kept, _) ← splitAt? n b.text
  return ⟨kept, b.marks.filter (· < n)⟩

/-- Takes back the empty quoted lines at the end one by one, with the white space before each. -/
def stripQuoteTail? (b : Buffer) : Option Buffer := do
  if ← b.onFreshQuotedLine? then
    let (before, _) ← splitAt? (b.trimmedSize - 1) b.text
    let b ← b.truncate? (max 1 (byteSize (dropEndWhile isSpacing before)))
    b |>.stripQuoteTail?
  else return b
partial_fixpoint

/-! ## Operations in any order -/

/-- The operations of a buffer. -/
inductive Op where
  /-- Writes a text that comes from outside. -/
  | append (s : List Char)
  /-- Writes a character that comes from outside. -/
  | push (c : Char)
  /-- Writes a line break and starts a quoted line. -/
  | quotedBreak
  /-- Writes a mark. -/
  | mark
  /-- Writes a space unless the text ends in white space. -/
  | space
  /-- Takes back one space. -/
  | dropSpace
  /-- Writes the breaks that are missing. -/
  | separate (required : Nat) (quoted keepSpace : Bool)
  /-- Takes back the empty quoted lines at the end. -/
  | stripQuoteTail
  deriving DecidableEq, Repr

/-- Performs an operation. -/
def Op.apply? (b : Buffer) : Op → Option Buffer
  | append s => return b.append s
  | push c => return b.push c
  | quotedBreak => return b.pushQuotedBreak
  | mark => return b.pushMark
  | space => return b.pushSpace
  | dropSpace => return b.dropSpace
  | separate required quoted keepSpace => b.separate? required quoted keepSpace
  | stripQuoteTail => b.stripQuoteTail?

end Buffer

end HtmlMarkdown
