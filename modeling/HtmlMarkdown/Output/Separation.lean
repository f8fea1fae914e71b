import HtmlMarkdown.Output.Basic

/-!
# Separation

A block asks for a number of line breaks between itself and what stands before it.  `separate`
counts the breaks that the output ends with and writes those that are missing, so that requests do
not add up.  The start of the page counts as separated.

In a quotation the breaks start quoted lines, and a line with nothing but marks counts as empty.
`stripQuoteTail` takes back such lines at the end when the quotation is left; it never takes back
more than marks and white space.
-/

namespace HtmlMarkdown

namespace Output

/-! ## Breaks at the end -/

/--
The line feeds after the last character that is not white space, counted from `count` on and up to
`limit`; none if there is no such character.  Marks are white space if `passMarks` holds.
-/
def breaksFrom (passMarks : Bool) (limit count : Nat) : List Glyph → Option Nat
  | [] => none
  | .mark :: gs => if passMarks then breaksFrom passMarks limit count gs else some count
  | .char c :: gs =>
    if c == '\n' then
      if limit ≤ count + 1 then some (count + 1) else breaksFrom passMarks limit (count + 1) gs
    else if (Glyph.char c).isSpacing then breaksFrom passMarks limit count gs
    else some count

/-- The line breaks at the end, up to `limit`; the start of the page counts as `limit` breaks. -/
def trailingBreaks (o : Output) (limit : Nat) : Nat :=
  (breaksFrom false limit 0 o.glyphs).getD limit

/-- The line breaks at the end, up to `limit`, quoted or not; none at the start of the page. -/
def trailingQuotedBreaks? (o : Output) (limit : Nat) : Option Nat :=
  breaksFrom true limit 0 o.glyphs

/-- Whether the last line has a mark and nothing behind it. -/
def onFreshQuotedLine (o : Output) : Bool := (o.glyphs.dropWhile Glyph.isGap).head? == some .mark

/-- Whether the last line of a quotation is empty, or nothing but marks has been written. -/
def endsInQuotedBlankLine (o : Output) : Bool := (o.trailingQuotedBreaks? 2).all (2 ≤ ·)

/-! ## Separation -/

/-- Writes the quoted breaks that are missing. -/
def separateQuoted (o : Output) (required : Nat) : Output :=
  let o := if o.endsInFeed then o.pushMark else o
  match o.trailingQuotedBreaks? required with
  | none => if o.onFreshQuotedLine then o else o.pushQuotedBreak
  | some existing =>
    pushQuotedBreaks (required - existing) (if existing = 0 then o.dropSpace else o)

/-- Writes the breaks that are missing, after taking back a space unless it is to be kept. -/
def separate (o : Output) (required : Nat) (quoted keepSpace : Bool) : Output :=
  if quoted then o.separateQuoted required
  else pushBreaks (required - o.trailingBreaks required) (if keepSpace then o else o.dropSpace)

/-! ## Leaving a quotation -/

/-- Takes back the empty quoted lines at the end, and the white space before them. -/
def stripQuoteTail (o : Output) : Output :=
  if o.onFreshQuotedLine then ⟨o.glyphs.dropWhile Glyph.isRemovable⟩ else o

end Output

end HtmlMarkdown
