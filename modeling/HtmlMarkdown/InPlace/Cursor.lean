import HtmlMarkdown.Draft
import HtmlMarkdown.InPlace.Buffer
import HtmlMarkdown.InPlace.Tag

/-!
# Converting in place

A conversion in place keeps a `Cursor`: the offset that it has reached in the stored text, the
buffer that it writes to, and the context.  `Cursor.step?` is one round of its loop.  A round reads
one construct at the offset, or a run of text, writes it and moves the offset behind it; where a
block is set off, the offset is moved behind the blanks that follow as well.

There are two reasons for a round to come to no cursor.  Either the loop ends, because the text does
or because it ends inside a construct; then the result is `some none`.  Or an access fails; then it
is `none`.
-/

namespace HtmlMarkdown

open Text Utf8 InPlace

/-- A conversion in place, as far as it has come. -/
structure Cursor where
  /-- The offset of what is read next. -/
  pos : Nat
  /-- What has been written. -/
  output : Buffer
  /-- The blocks around the place reached. -/
  context : Context
  deriving DecidableEq, Repr

namespace Cursor

/-- The start of a page. -/
def start : Cursor := ⟨0, .start, .start⟩

variable (mode : Mode) (s : List Char)

/-! ## Text -/

/-- Writes a text in Markdown, and nothing in plain mode. -/
def markup (text : List Char) (c : Cursor) : Cursor :=
  match mode with
  | .markdown => { c with output := c.output.append text }
  | .plain => c

/-- Writes a space unless the output ends in white space. -/
def space (c : Cursor) : Cursor := { c with output := c.output.pushSpace }

/-- Whether a character ends a run of text. -/
def isStop (c : Char) : Bool :=
  c == '<' || isBlank c || (mode == .markdown && Draft.isSpecial c)

/-- Copies the run of text at the offset. -/
def copyText? (c : Cursor) : Option Cursor := do
  let bs := encode s
  let stop ← skipWhile? (!isStop mode ·) bs bs.length c.pos
  let text ← slice? s c.pos stop
  return { c with pos := stop, output := c.output.append text }

/-! ## Breaks -/

/-- Moves the offset behind blanks. -/
def skipBlanks? (c : Cursor) : Option Cursor := do
  let bs := encode s
  let pos ← skipWhile? isBlank bs bs.length c.pos
  return { c with pos := pos }

/-- Sets off a block, and moves the offset behind the blanks that follow. -/
def separate? (lines : Nat) (quotable closing : Bool) (c : Cursor) : Option Cursor := do
  let inQuotation := c.context.inQuotation
  let quoted := quotable && mode == .markdown && inQuotation
  let output ← if quoted then some c.output else c.output.stripQuoteTail?
  let output ← output.separate? lines quoted (closing && inQuotation)
  skipBlanks? s { c with output := output }

/-- Breaks the line. -/
def lineBreak? (c : Cursor) : Option Cursor :=
  match mode with
  | .plain => return { c with output := c.output.dropSpace.append ['\r', '\n'] }
  | .markdown => do
    let inQuotation := c.context.inQuotation
    let blankLine ← if inQuotation then c.output.endsInQuotedBlankLine? else some false
    if blankLine then return c
    let output := c.output.dropSpace.append [' ', ' ', '\r', '\n']
    return { c with output := if inQuotation then output.pushMark else output }

/-- Ends a quotation, and moves the offset behind the blanks that follow. -/
def leaveQuotation? (c : Cursor) : Option Cursor := do
  let output ← c.output.stripQuoteTail?
  let output :=
    if output.trailingBreaks 2 < 2 then output.dropSpace.append ['\r', '\n'] else output
  skipBlanks? s { c with output := output, context := c.context.close true }

/-! ## Tags -/

/-- Whether blanks and then the start tag of a block with quotable breaks follow the offset. -/
def quotableAhead? (c : Cursor) : Option Bool := do
  let bs := encode s
  let start ← skipWhile? isBlank bs bs.length c.pos
  if (bs[start]?).map asChar != some '<' then return false
  let some close := Offset.findByte? (byteOf '>') bs start | return false
  let text ← slice? s start (close + 1)
  match ← parse? .whole text with
  | .ok tag => return (Element.ofName tag.name).spacing?.any (·.quotable)
  | .error _ => return false

/-- Writes the link that starts at an offset, or leaves a space. -/
def openAnchor? (tagStart : Nat) (c : Cursor) : Option Cursor := do
  match ← linkAt? s tagStart with
  | some (l, stop) => return { c with output := c.output.append l.markdown, pos := stop }
  | none => return c.space

/-- Starts a block. -/
def openBlock? (e : Element) (b : Spacing) (c : Cursor) : Option Cursor := do
  let c ← separate? mode s b.lines b.quotable false { c with context := c.context.openBlock e }
  return c.markup mode e.opener

/-- Ends a block. -/
def closeBlock? (b : Spacing) (c : Cursor) : Option Cursor :=
  separate? mode s b.lines b.quotable true { c with context := c.context.close b.container }

/-- Writes a rule, which in plain mode is a line break. -/
def rule? (c : Cursor) : Option Cursor := do
  let c ← separate? mode s 1 true false c
  match mode with
  | .plain => return c
  | .markdown => separate? mode s 2 true true (c.markup mode Draft.ruleText)

/-- Moves the offset behind an element without text. -/
def skipRawText (kind : RawText) (c : Cursor) : Cursor :=
  { c with pos := rawTextEnd kind (encode s) c.pos }.space

/-- Writes the start tag that starts at an offset. -/
def startTag? (e : Element) (tagStart : Nat) (c : Cursor) : Option Cursor :=
  match e.marker?, e.spacing? with
  | some marker, _ =>
    match e, mode with
    | .anchor, .markdown => openAnchor? s tagStart c
    | _, _ => return c.markup mode marker
  | none, some b => do
    let ahead ← if e = .quotation then quotableAhead? s c else some false
    openBlock? mode s e (if ahead then { b with lines := 1 } else b) c
  | none, none =>
    match e with
    | .rule => rule? mode s c
    | .lineBreak => lineBreak? mode c
    | .raw kind => return c.skipRawText s kind
    | _ => return c.space

/-- Writes an end tag. -/
def endTag? (e : Element) (c : Cursor) : Option Cursor :=
  match e.marker?, e.spacing? with
  | some marker, _ =>
    match e, mode with
    | .anchor, .markdown => return c.space
    | _, _ => return c.markup mode marker
  | none, some b =>
    match e with
    | .quotation => leaveQuotation? s c
    | _ => closeBlock? mode s b c
  | none, none => return c.space

/-! ## The loop -/

/-- Whether a tag name can start at an offset. -/
def startsName? (bs : List UInt8) (i : Nat) : Option Bool := do
  if bs.length ≤ i then return false
  return TagName.isNameStart (asChar (← bs[i]?))

/-- Reads the tag at the offset, whose name would start at `nameStart`. -/
def tag? (closing : Bool) (nameStart : Nat) (c : Cursor) : Option (Option Cursor) := do
  let bs := encode s
  if !(← startsName? bs nameStart) then
    return (Offset.findByte? (byteOf '>') bs c.pos).map fun close => { c with pos := close + 1 }
  match ← scanTag? bs nameStart with
  | .unclosed => return none
  | .nameless close => return some { c with pos := close + 1 }
  | .named name close =>
    let e := Element.ofName name
    if closing then return some (← endTag? mode s e { c with pos := close + 1 })
    else return some (← startTag? mode s e c.pos { c with pos := close + 1 })

/-- Reads the construct in brackets at the offset. -/
def bracket? (c : Cursor) : Option (Option Cursor) := do
  let bs := encode s
  if bs.length - c.pos - 1 < 2 then return none
  let next := asChar (← bs[c.pos + 1]?)
  if next == '!' then
    return (← declarationEnd? bs c.pos).map fun stop => { c with pos := stop }
  if next == '/' then tag? mode s true (c.pos + 2) c else tag? mode s false (c.pos + 1) c

/-- One round of the loop. -/
def step? (c : Cursor) : Option (Option Cursor) := do
  let bs := encode s
  if bs.length ≤ c.pos then return none
  let b := asChar (← bs[c.pos]?)
  if b == '<' then bracket? mode s c
  else if isBlank b then return some { c.space with pos := c.pos + 1 }
  else if mode == .markdown && Draft.isSpecial b then
    return some { c with pos := c.pos + 1, output := (c.output.push '\\').push b }
  else return some (← copyText? mode s c)

/-- Runs the loop to its end, and gives back what has been written. -/
def run? (c : Cursor) : Option Buffer := do
  match ← step? mode s c with
  | none => return c.output
  | some c => c |>.run?
partial_fixpoint

end Cursor

end HtmlMarkdown
