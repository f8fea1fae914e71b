import HtmlMarkdown.Tag.Attributes
import HtmlMarkdown.Text.Blank

/-!
# Tags

A `Tag` is a start tag that has been read on its own: its name, whether it closes itself, and its
attributes.  A `TagError` is the first fault of a text that is no tag.
-/

namespace HtmlMarkdown

/-- A start tag. -/
structure Tag where
  /-- The name, in lower case. -/
  name : List Char
  /-- Whether the tag ends with `/>`. -/
  selfClosing : Bool
  /-- The attributes, by names in lower case. -/
  attributes : Attributes
  deriving DecidableEq

/-- The value of an attribute, whose name may be given in any letter case. -/
def Tag.attribute? (t : Tag) (name : List Char) : Option (List Char) :=
  t.attributes.get? (Text.lower name)

/-- The faults of a text that is no tag. -/
inductive TagError where
  /-- The text has fewer than three bytes. -/
  | tooShort
  /-- The text does not start with `<`. -/
  | missingOpenBracket
  /-- No `>` ends the tag. -/
  | missingCloseBracket
  /-- No name follows the `<`. -/
  | emptyName
  /-- The name starts with, or runs into, a character that no name has. -/
  | invalidName
  /-- A value has an opening quote only. -/
  | unterminatedValue
  deriving DecidableEq, Repr

/-- A fault in words. -/
def TagError.message : TagError → String
  | .tooShort => "Tag is too short"
  | .missingOpenBracket => "Tag does not start with '<'"
  | .missingCloseBracket => "Tag has no terminating '>'"
  | .emptyName => "Tag name is empty"
  | .invalidName => "Tag name is invalid"
  | .unterminatedValue => "Quoted attribute value is not terminated"

end HtmlMarkdown
