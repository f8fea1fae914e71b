import HtmlMarkdown.Element
import HtmlMarkdown.Link

/-!
# Tokens

A page is a sequence of tokens.  What is visible is a character or a blank; what is marked up is the
start or the end of an element, a link, or an element whose content is no text.  Declarations and
constructs without a name are tokens too, although they leave no trace.
-/

namespace HtmlMarkdown

/-- What a page is written in. -/
inductive Mode where
  /-- Markdown. -/
  | markdown
  /-- Text without markup. -/
  | plain
  deriving DecidableEq, Repr

/-- A piece of a page. -/
inductive Token where
  /-- A character that is not blank. -/
  | char (c : Char)
  /-- A blank. -/
  | blank
  /-- A comment or another declaration. -/
  | declaration
  /-- A construct in brackets that has no name. -/
  | nameless
  /-- A start tag; `ahead` says of a quotation that a block with quotable breaks starts it. -/
  | startTag (e : Element) (ahead : Bool)
  /-- An end tag. -/
  | endTag (e : Element)
  /-- A link. -/
  | link (l : Link)
  /-- An element without text, from its start tag to its end tag. -/
  | rawText (kind : RawText)
  deriving DecidableEq, Repr

/-- The token of a character outside brackets. -/
def Token.ofChar (c : Char) : Token := if Text.isBlank c then .blank else .char c

end HtmlMarkdown
