import HtmlMarkdown.Context
import HtmlMarkdown.Output.Separation
import HtmlMarkdown.Token

/-!
# Drafts

A draft is a page as far as it is written: its output and the blocks around the place reached.
`Draft.add` writes one token to it, so that the finished page is a fold over the tokens of a text.

In plain mode the blocks are set off in the same way, but nothing is written that stands for markup,
and there are no quoted lines.
-/

namespace HtmlMarkdown

/-- A page that is being written. -/
structure Draft where
  /-- What has been written. -/
  output : Output
  /-- The blocks around the place reached. -/
  context : Context
  deriving DecidableEq, Repr

namespace Draft

/-- The start of a page. -/
def empty : Draft := ⟨.empty, .start⟩

/-! ## Text -/

/-- Writes a text in Markdown, and nothing in plain mode. -/
def markup (mode : Mode) (s : List Char) (d : Draft) : Draft :=
  match mode with
  | .markdown => { d with output := d.output.append s }
  | .plain => d

/-- Writes a space unless the output ends in white space. -/
def space (d : Draft) : Draft := { d with output := d.output.pushSpace }

/-- The characters that have a meaning in Markdown; the last one is the grave accent. -/
def isSpecial (c : Char) : Bool := c == '*' || c == '_' || c == '\x60'

/-- Writes a character of the page, after a backslash where it has a meaning in Markdown. -/
def char (mode : Mode) (c : Char) (d : Draft) : Draft :=
  let d := if isSpecial c then d.markup mode ['\\'] else d
  { d with output := d.output.push c }

/-! ## Breaks -/

/--
Sets off a block.  Quotable breaks in a quotation are quoted in Markdown; all others end the quoted
lines.  A space at the end is kept when a block of a quotation is closed.
-/
def separate (mode : Mode) (lines : Nat) (quotable closing : Bool) (d : Draft) : Draft :=
  let inQuotation := d.context.inQuotation
  let quoted := quotable && mode == .markdown && inQuotation
  let output := if quoted then d.output else d.output.stripQuoteTail
  { d with output := output.separate lines quoted (closing && inQuotation) }

/--
Breaks the line.  In Markdown two spaces come before the break, and in a quotation a mark comes
after it; a break in an empty quoted line is left out.
-/
def lineBreak (mode : Mode) (d : Draft) : Draft :=
  match mode with
  | .plain => { d with output := d.output.dropSpace.pushBreak }
  | .markdown =>
    if d.context.inQuotation then
      if d.output.endsInQuotedBlankLine then d
      else { d with output := (d.output.dropSpace.append [' ', ' ']).pushQuotedBreak }
    else { d with output := (d.output.dropSpace.append [' ', ' ']).pushBreak }

/-- Ends a quotation, with one line break unless two are there. -/
def leaveQuotation (d : Draft) : Draft :=
  let output := d.output.stripQuoteTail
  { context := d.context.close true
    output := if output.trailingBreaks 2 < 2 then output.dropSpace.pushBreak else output }

/-! ## Tags -/

/-- The text of a rule. -/
def ruleText : List Char := ['*', ' ', '*', ' ', '*']

/-- Writes a tag of an element inside a line; an anchor that is no link leaves a space. -/
def inline (mode : Mode) (e : Element) (marker : List Char) (d : Draft) : Draft :=
  match e, mode with
  | .anchor, .markdown => d.space
  | _, _ => d.markup mode marker

/-- Starts a block. -/
def openBlock (mode : Mode) (e : Element) (s : Spacing) (d : Draft) : Draft :=
  { d with context := d.context.openBlock e }
    |>.separate mode s.lines s.quotable false
    |>.markup mode e.opener

/-- Ends a block. -/
def closeBlock (mode : Mode) (s : Spacing) (d : Draft) : Draft :=
  { d with context := d.context.close s.container }.separate mode s.lines s.quotable true

/-- Writes a rule, which in plain mode is a line break. -/
def rule (mode : Mode) (d : Draft) : Draft :=
  match mode with
  | .plain => d.separate mode 1 true false
  | .markdown =>
    d.separate mode 1 true false
      |>.markup mode ruleText
      |>.separate mode 2 true true

/-- Writes a start tag; with `ahead`, a block inside asks for the second break. -/
def startTag (mode : Mode) (e : Element) (ahead : Bool) (d : Draft) : Draft :=
  match e.marker?, e.spacing? with
  | some marker, _ => d.inline mode e marker
  | none, some s => d.openBlock mode e (if ahead then { s with lines := 1 } else s)
  | none, none =>
    match e with
    | .rule => d.rule mode
    | .lineBreak => d.lineBreak mode
    | _ => d.space

/-- Writes an end tag. -/
def endTag (mode : Mode) (e : Element) (d : Draft) : Draft :=
  match e.marker?, e.spacing? with
  | some marker, _ => d.inline mode e marker
  | none, some s =>
    match e with
    | .quotation => d.leaveQuotation
    | _ => d.closeBlock mode s
  | none, none => d.space

/-! ## Tokens -/

/-- Writes a token. -/
def add (mode : Mode) (d : Draft) : Token → Draft
  | .char c => d.char mode c
  | .blank | .rawText _ => d.space
  | .declaration | .nameless => d
  | .startTag e ahead => d.startTag mode e ahead
  | .endTag e => d.endTag mode e
  | .link l => { d with output := d.output.append l.markdown }

/-- The page of a sequence of tokens, written on from `d`. -/
def addAll (mode : Mode) (d : Draft) (ts : List Token) : Draft := ts.foldl (add mode) d

@[simp] theorem addAll_nil (mode : Mode) (d : Draft) : d.addAll mode [] = d := rfl

@[simp] theorem addAll_cons (mode : Mode) (d : Draft) (t : Token) (ts : List Token) :
    d.addAll mode (t :: ts) = (d.add mode t).addAll mode ts := rfl

theorem addAll_append (mode : Mode) (d : Draft) (ts us : List Token) :
    d.addAll mode (ts ++ us) = (d.addAll mode ts).addAll mode us := by
  simp [addAll, List.foldl_append]

end Draft

/-- The finished page of a sequence of tokens. -/
def render (mode : Mode) (ts : List Token) : List Char := (Draft.empty.addAll mode ts).output.finish

end HtmlMarkdown
