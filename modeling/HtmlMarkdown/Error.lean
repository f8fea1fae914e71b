import HtmlMarkdown.Text.Utf8

/-!
# Conversion errors

The reasons why bytes cannot be converted.  Texts can always be converted.
-/

namespace HtmlMarkdown

/-- Why bytes cannot be converted. -/
inductive ConversionError where
  /-- There are no bytes. -/
  | emptyInput
  /-- The bytes are not UTF-8, which was asked for under the name `charset`. -/
  | invalidUtf8 (fault : Utf8.Fault) (charset : List Char)
  /-- No encoding has the label `charset`. -/
  | unsupportedCharset (charset : List Char)
  /-- The bytes are ill-formed in the encoding with the label `charset`. -/
  | malformedBytes (charset : List Char)
  deriving DecidableEq, Repr

/-- The kinds of conversion errors. -/
inductive ErrorKind where
  /-- The bytes cannot be decoded. -/
  | encoding
  /-- The input is not acceptable. -/
  | input
  deriving DecidableEq, Repr

/-- The number of a kind. -/
def ErrorKind.code : ErrorKind → Nat
  | .encoding => 2
  | .input => 5

namespace ConversionError

/-- The kind of an error. -/
def kind : ConversionError → ErrorKind
  | emptyInput => .input
  | _ => .encoding

/-- The cause of an error in words. -/
def cause : ConversionError → String
  | emptyInput => "HTML input is empty"
  | invalidUtf8 fault charset =>
    let name := String.ofList charset
    s!"Invalid UTF-8 at byte position {fault.position}: {fault.message} " ++
      s!"(detected charset: {name})"
  | unsupportedCharset charset =>
    let name := String.ofList charset
    s!"Unsupported charset '{name}'"
  | malformedBytes charset =>
    let name := String.ofList charset
    s!"Invalid byte sequence for charset '{name}'"

/-- An error in words. -/
def message (e : ConversionError) : String :=
  match e.kind with
  | .encoding => "Encoding error: " ++ e.cause
  | .input => "Invalid input: " ++ e.cause

end ConversionError

end HtmlMarkdown
