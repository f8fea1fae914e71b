import HtmlMarkdown.InPlace.Scan
import HtmlMarkdown.Tag.Parser

/-!
# Reading a tag in place

`parse?` reads a tag on its own like `Tag.parse`, with offsets into the text that it is given.  The
loop over the attributes (`Attributes.extend?`) moves an offset up to `stop`, where the attributes
end, but looks for the end of a quoted value in the whole text.  The result is `none` if an access
fails.  `attribute?` looks up a value in two steps, the second of them in lower case.
-/

namespace HtmlMarkdown

open Text Utf8 TagName Offset

namespace InPlace

/-! ## Attributes -/

/-- Reads the value behind a `=`, and gives back the offset reached. -/
def value? (text : List Char) (stop pos : Nat) : Option (Except TagError (List Char × Nat)) := do
  let bs := encode text
  let pos ← skipWhile? isBlank bs stop pos
  if stop ≤ pos then return .ok ([], pos)
  let b ← bs[pos]?
  if Tag.isQuote (asChar b) then
    match (findByte? b bs (pos + 1)).filter (· < bs.length - 1) with
    | none => return .error .unterminatedValue
    | some close => return .ok (← slice? text (pos + 1) close, close + 1)
  else
    let last ← skipWhile? (!isBlank ·) bs stop pos
    return .ok (← slice? text pos last, last)

/-- The offset of the `=` behind a name, past blanks, or else the offset of the end of the name. -/
def equals? (bs : List UInt8) (stop pos : Nat) : Option Nat := do
  if stop ≤ pos then return pos
  if isBlank (asChar (← bs[pos]?)) then
    let after ← skipWhile? isBlank bs stop pos
    if stop ≤ after then return pos
    return if asChar (← bs[after]?) == '=' then after else pos
  else return pos

/-- Whether there is a `=` at an offset in front of `stop`. -/
def isEquals? (bs : List UInt8) (stop pos : Nat) : Option Bool := do
  if stop ≤ pos then return false
  return asChar (← bs[pos]?) == '='

end InPlace

open InPlace

/-- Reads the attributes from an offset on into those read before. -/
def Attributes.extend? (text : List Char) (stop pos : Nat) (as : Attributes) :
    Option (Except TagError Attributes) := do
  let bs := encode text
  let pos ← skipWhile? isBlank bs stop pos
  if stop ≤ pos then return .ok as
  let nameEnd ← skipWhile? Tag.isAttributeChar bs stop pos
  if nameEnd = pos then
    -- What cannot start a name is passed over, as a whole character.
    let (_, rest) ← splitAt? pos text
    as |>.extend? text stop (pos + (rest.head?.map Char.utf8Size).getD 1)
  else
    let name := lower (← slice? text pos nameEnd)
    let i ← equals? bs stop nameEnd
    if ← isEquals? bs stop i then
      match ← value? text stop (i + 1) with
      | .error e => return .error e
      | .ok (value, pos) => as.insert (name, value) |>.extend? text stop pos
    else as.insert (name, []) |>.extend? text stop i
partial_fixpoint

namespace InPlace

/-! ## Tags -/

/-- The offset of the `>` that ends a tag. -/
def tagEnd? (extent : Tag.Extent) (bs : List UInt8) : Option (Option Nat) :=
  match extent with
  | .whole => do
    let last ← bs[bs.length - 1]?
    return if asChar last == '>' then some (bs.length - 1) else none
  | .leading => return findByte? (byteOf '>') bs 1

/-- Whether a `/` stands in front of the end of a tag, behind its first byte. -/
def selfClosing? (bs : List UInt8) (stop : Nat) : Option Bool := do
  if stop ≤ 1 then return false
  return asChar (← bs[stop - 1]?) == '/'

/-- Whether a name that ends at an offset runs into something else than a blank. -/
def runsOn? (bs : List UInt8) (stop pos : Nat) : Option Bool := do
  if stop ≤ pos then return false
  return !isBlank (asChar (← bs[pos]?))

/-- Reads the name and the attributes of a tag, which end in front of `stop`. -/
def interior? (text : List Char) (selfClosing : Bool) (stop : Nat) :
    Option (Except TagError Tag) := do
  let bs := encode text
  let nameEnd ← skipWhile? isNameChar bs stop 1
  if nameEnd = 1 then return .error .emptyName
  if !isNameStart (asChar (← bs[1]?)) then return .error .invalidName
  if ← runsOn? bs stop nameEnd then return .error .invalidName
  let name := lower (← slice? text 1 nameEnd)
  return (← Attributes.extend? text stop nameEnd .empty).map fun as => ⟨name, selfClosing, as⟩

/-- Reads the tag that a text starts with. -/
def parse? (extent : Tag.Extent) (text : List Char) : Option (Except TagError Tag) := do
  let bs := encode text
  if bs.length < 3 then return .error .tooShort
  if asChar (← bs[0]?) != '<' then return .error .missingOpenBracket
  let some close := ← tagEnd? extent bs | return .error .missingCloseBracket
  let selfClosing ← selfClosing? bs close
  interior? text selfClosing (if selfClosing then close - 1 else close)

/-- The value of an attribute: that of the name as it is given or, failing that, in lower case. -/
def attribute? (tag : Tag) (name : List Char) : Option (List Char) :=
  (tag.attributes.get? name).or (tag.attributes.get? (lower name))

end InPlace

end HtmlMarkdown
