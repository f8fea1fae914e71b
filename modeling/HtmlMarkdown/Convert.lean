import HtmlMarkdown.Charset
import HtmlMarkdown.Draft
import HtmlMarkdown.Probe
import HtmlMarkdown.Reference
import HtmlMarkdown.Token.Lexer

/-!
# Conversion

`convert` turns a page into Markdown or into text without markup, and `convertBytes` does so for the
bytes of a page.  Both come down to `convertTokens`, which renders the tokens of a text.

Character references may be replaced before the page is read, and once more afterwards.  A page
without tags may be given back as it is, but for the blanks around it; its references are then not
replaced a second time.
-/

namespace HtmlMarkdown

/-- How a page is converted. -/
structure Options where
  /-- Whether to write text without markup instead of Markdown. -/
  plainText : Bool := false
  /-- Whether to replace character references before and after the conversion. -/
  decodeReferences : Bool := false
  /-- Whether to give back pages without tags as they are. -/
  keepTagless : Bool := false
  deriving DecidableEq, Repr

/-- The mode that the options ask for. -/
def Options.mode (o : Options) : Mode := if o.plainText then .plain else .markdown

/-- The tokens of a text, rendered. -/
def convertTokens (mode : Mode) (s : List Char) : List Char := render mode (tokens mode s)

/-- A text with its references replaced if the options ask for it. -/
def Options.decode (o : Options) (s : List Char) : List Char :=
  if o.decodeReferences then Reference.decode s else s

/-- The conversion of a text. -/
def convertText (o : Options) (s : List Char) : List Char :=
  let s := o.decode s
  if o.keepTagless && !containsTags s then Text.trim s else o.decode (convertTokens o.mode s)

/-- The conversion of a page. -/
def convert (o : Options) (page : String) : String := String.ofList (convertText o page.toList)

/-- Where no reference is replaced, a conversion renders the tokens of the page. -/
theorem convert_eq {o : Options} (hdecode : o.decodeReferences = false)
    (hkeep : o.keepTagless = false) (page : String) :
    convert o page = String.ofList (convertTokens o.mode page.toList) := by
  simp [convert, convertText, Options.decode, hdecode, hkeep]

theorem toList_convert {o : Options} (hdecode : o.decodeReferences = false)
    (hkeep : o.keepTagless = false) (s : List Char) :
    (convert o (String.ofList s)).toList = convertTokens o.mode s := by
  rw [convert_eq hdecode hkeep, String.toList_ofList, String.toList_ofList]

/--
The conversion of the bytes of a page, whose charset is detected first.  Without a `reader`, only
ASCII is read of East Asian pages.
-/
def convertBytes (o : Options) (contentType : Option String) (page : List UInt8)
    (reader : EastAsian.Reader := .ascii) : Except ConversionError String :=
  if page.isEmpty then .error .emptyInput
  else
    let charset := Charset.detect (contentType.map String.toList) page
    (Charset.decode page charset reader).map fun text => String.ofList (convertText o text)

end HtmlMarkdown
