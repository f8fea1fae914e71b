import HtmlMarkdown.Charset.Encoding
import HtmlMarkdown.Charset.Meta
import HtmlMarkdown.Error
import HtmlMarkdown.Text.Uppercase

/-!
# Charsets

A charset is the name of an encoding as it is found in the wild.  `Charset.detect` finds the
charset of a page: the content type that came with the page has the first say, then the page
itself, and UTF-8 is the answer if neither names one.  `Charset.decode` reads a page in a charset.
-/

namespace HtmlMarkdown.Charset

/-- The charset of pages that name none. -/
def default : List Char := "UTF-8".toList

/-- A charset in capitals. -/
def normalize (charset : List Char) : List Char := Text.upper charset

/-- The charset that the content type or the page itself names. -/
def named? (contentType : Option (List Char)) (page : List UInt8) : Option (List Char) :=
  match contentType.bind ContentType.charset? with
  | some charset => some charset
  | none => Meta.charset? page

/-- The charset of a page, in capitals. -/
def detect (contentType : Option (List Char)) (page : List UInt8) : List Char :=
  match named? contentType page with
  | some charset => normalize charset
  | none => default

/-- Whether a charset is UTF-8 under its own name. -/
def isDefault (charset : List Char) : Bool := Text.lower charset == Text.lower default

/-- The text of a page in a charset.  Without a `reader`, only ASCII is read of East Asian pages. -/
def decode (page : List UInt8) (charset : List Char)
    (reader : EastAsian.Reader := .ascii) : Except ConversionError (List Char) :=
  if isDefault charset then
    match Utf8.decode page with
    | .ok text => .ok text
    | .error fault => .error (.invalidUtf8 fault charset)
  else
    match Encoding.ofLabel? charset with
    | none => .error (.unsupportedCharset charset)
    | some encoding =>
      match encoding.decode? reader page with
      | some text => .ok text
      | none => .error (.malformedBytes charset)

end HtmlMarkdown.Charset
