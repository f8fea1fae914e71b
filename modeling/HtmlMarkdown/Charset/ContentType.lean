import HtmlMarkdown.Text.Search
import HtmlMarkdown.Text.WhiteSpace

/-!
# The charset of a content type

`ContentType.charset?` finds the charset in a text such as `text/html; charset="utf-8"`.  It looks
for the word `charset`, an equals sign and a value; white space may stand around the sign and a
quotation mark before the value.  The first place where all of this follows each other counts.
-/

namespace HtmlMarkdown.ContentType

open Text

/-- The word before the equals sign. -/
def keyword : List Char := "charset".toList

/-- Whether `c` is the small letter `w` up to case; the long s is a letter s. -/
def sameFolded (w c : Char) : Bool := w == c.toLower || (w == 's' && c == 'ſ')

/-- The characters of a value. -/
def isValueChar (c : Char) : Bool :=
  !(c == '"' || c == '\'' || c == ';' || c == ',' || isWhiteSpace c)

/-- A text without the quotation mark that it starts with, if it does. -/
def dropQuote : List Char → List Char
  | '"' :: s => s
  | '\'' :: s => s
  | s => s

/-- The charset that a text names at its start. -/
def leading? (s : List Char) : Option (List Char) :=
  match after? sameFolded keyword s with
  | none => none
  | some t =>
    match t.dropWhile isWhiteSpace with
    | '=' :: u =>
      let value := (dropQuote (u.dropWhile isWhiteSpace)).takeWhile isValueChar
      if value.isEmpty then none else some value
    | _ => none

/-- The first charset that a text names. -/
def charset? : List Char → Option (List Char)
  | [] => none
  | c :: s =>
    match leading? (c :: s) with
    | some value => some value
    | none => charset? s

end HtmlMarkdown.ContentType
