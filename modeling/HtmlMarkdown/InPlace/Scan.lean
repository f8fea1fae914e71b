import HtmlMarkdown.Element
import HtmlMarkdown.InPlace.Access
import HtmlMarkdown.Offset

/-!
# Reading in place

The readers of constructs in brackets, on a stored text: each starts at an offset and gives back the
offset that it has reached.  Searches look at bytes one after the other and cannot fail
(`Offset.findByte?`, `Offset.findExact?`, `Offset.findAnyCase?`).  All other access is checked, and
the result is `none` if it fails; that nothing is found is a result of its own.
-/

namespace HtmlMarkdown.InPlace

open Text Utf8 TagName Offset

/-- The byte of an ASCII character. -/
def byteOf (c : Char) : UInt8 := c.val.toUInt8

/-! ## Tag names -/

/-- A run of bytes is a name if it is not empty and starts like one. -/
def finishName? (bs : List UInt8) (start stop close : Nat) : Option TagEnd :=
  if stop = start then return .nameless close
  else do
    let first ← bs[start]?
    if isNameStart (asChar first) then
      let name ← sub? bs start stop
      return .named (lower (name.map asChar)) close
    else return .nameless close

/-- Scans the rest of a tag, from its name to its `>`. -/
def scanTag? (bs : List UInt8) (start : Nat) : Option TagEnd := do
  let stop ← skipWhile? isNameChar bs bs.length start
  if bs.length ≤ stop then return .unclosed
  let b ← bs[stop]?
  if asChar b == '>' then finishName? bs start stop stop
  else
    match findByte? (byteOf '>') bs stop with
    | none => return .unclosed
    | some close =>
      if asChar b == '/' || isBlank (asChar b) then finishName? bs start stop close
      else return .nameless close

/-! ## Declarations and elements without text -/

/-- The offset just past the declaration that starts at an offset. -/
def declarationEnd? (bs : List UInt8) (start : Nat) : Option (Option Nat) := do
  let rest ← sub? bs start bs.length
  if (after? (· == ·) "<!--".toList (rest.map asChar)).isSome then
    return (findExact? (encode "-->".toList) bs (start + 4)).map (· + 3)
  else return (findByte? (byteOf '>') bs start).map (· + 1)

/-- The offset just past the content of an element without text. -/
def rawTextEnd (kind : RawText) (bs : List UInt8) (start : Nat) : Nat :=
  match findAnyCase? (encode (['<', '/'] ++ kind.name)) bs start with
  | none => bs.length
  | some i =>
    match findByte? (byteOf '>') bs i with
    | none => bs.length
    | some close => close + 1

/-! ## Links -/

/-- Whether the end tag of a link stands at an offset. -/
def endsLink (bs : List UInt8) (close : Nat) : Bool :=
  (sub? bs close (close + 4)).any fun candidate =>
    (after? sameLetter "</a>".toList (candidate.map asChar)).isSome

/-- The target that the start tag between two offsets names between double quotes. -/
def targetAt? (s : List Char) (start openEnd : Nat) : Option (Option (List Char)) := do
  let bs := encode s
  let tag ← sub? bs 0 openEnd
  let some i := findExact? (encode "href=\"".toList) tag start | return none
  let some targetEnd := findByte? (byteOf '"') bs (i + 6) | return none
  if openEnd ≤ targetEnd then return none
  return some (← slice? s (i + 6) targetEnd)

/-- The link whose start tag stands between two offsets, and the offset just past the link. -/
def linkFrom? (s : List Char) (start openEnd : Nat) : Option (Option (Link × Nat)) := do
  let bs := encode s
  let some close := findByte? (byteOf '<') bs (openEnd + 1) | return none
  let text := trim (← slice? s (openEnd + 1) close)
  if text.isEmpty then return none
  if !endsLink bs close then return none
  let some target := ← targetAt? s start openEnd | return none
  return some (⟨collapse text, target⟩, close + 4)

/-- The link that starts at an offset, and the offset just past it. -/
def linkAt? (s : List Char) (start : Nat) : Option (Option (Link × Nat)) := do
  let some openEnd := findByte? (byteOf '>') (encode s) start | return none
  if openEnd < start + 3 then return none
  linkFrom? s start openEnd

end HtmlMarkdown.InPlace
