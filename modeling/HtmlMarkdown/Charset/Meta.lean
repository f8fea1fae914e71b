import HtmlMarkdown.Charset.ContentType
import HtmlMarkdown.Tag.Parser
import HtmlMarkdown.Text.Utf8

/-!
# The charset of a page

A page may declare its charset in a `meta` tag near its start: in the attribute `charset`, or in the
content type that it gives in place of a header.  `Meta.charset?` gives the charset of the first tag
that declares one.
-/

namespace HtmlMarkdown.Meta

open Text

/-- The number of bytes in which a declaration is looked for. -/
def searchLimit : Nat := 1024

/-- The charset of the attribute `charset`, unless it is blank. -/
def charsetAttribute? (t : Tag) : Option (List Char) :=
  match t.attribute? "charset".toList with
  | none => none
  | some value =>
    let value := trimWhiteSpace value
    if value.isEmpty then none else some value

/-- Whether a tag stands for a content type header. -/
def givesContentType (t : Tag) : Bool :=
  (t.attribute? "http-equiv".toList).any fun value => lower value == "content-type".toList

/-- The charset that a tag declares. -/
def declared? (t : Tag) : Option (List Char) :=
  match charsetAttribute? t with
  | some charset => some charset
  | none =>
    if givesContentType t then (t.attribute? "content".toList).bind ContentType.charset? else none

/-- The charset that a text declares as a tag. -/
def ofTag? (s : List Char) : Option (List Char) :=
  match Tag.parse .whole s with
  | .ok t => if t.name == "meta".toList then declared? t else none
  | .error _ => none

/-- The first charset that a tag of a text declares; a tag without an end is the last one. -/
def charsetOfText? (s : List Char) : Option (List Char) :=
  match _ : locate? sameLetter "<meta".toList s with
  | none => none
  | some (_, start) =>
    match _ : cut? '>' start with
    | none => none
    | some (tag, rest) =>
      match ofTag? (tag ++ ['>']) with
      | some charset => some charset
      | none => charsetOfText? rest
termination_by s.length
decreasing_by
  have h₁ := congrArg List.length (append_of_locate? ‹locate? _ _ _ = _›)
  have h₂ := length_of_cut? ‹cut? _ _ = _›
  simp at h₁
  omega

/-- The charset that a page declares near its start. -/
def charset? (page : List UInt8) : Option (List Char) :=
  charsetOfText? (Utf8.decodeLossy (page.take searchLimit))

end HtmlMarkdown.Meta
