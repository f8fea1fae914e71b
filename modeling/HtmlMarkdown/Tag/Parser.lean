import HtmlMarkdown.Tag.Basic
import HtmlMarkdown.Tag.Name
import HtmlMarkdown.Text.Search

/-!
# Reading a tag on its own

`Tag.parse` reads a start tag from the beginning of a text.  The tag is either the whole text or
reaches to the first `>`.  Between the name and the end stand the attributes, read by
`readAttributes`: `name="value"`, `name='value'`, `name=value` or the bare `name`, whose value is
empty.  What fits none of these forms is passed over character by character.

A quoted value that is still open at the end of the tag is looked for further on, in the rest of
the text; it has to be closed before the last character of the text.
-/

namespace HtmlMarkdown

namespace Tag

open Text TagName

/-- The characters of an attribute name. -/
def isAttributeChar (c : Char) : Bool :=
  c.isAlphanum || c == '-' || c == '_' || c == ':' || c == '.'

theorem isAttributeChar_of_isBlank {c : Char} (h : isBlank c = true) :
    isAttributeChar c = false := by
  rcases eq_of_isBlank h with rfl | rfl | rfl | rfl | rfl <;> decide

/-- The quotation marks of values. -/
def isQuote (c : Char) : Bool := c == '"' || c == '\''

/--
Reads a value up to `quote` from the attributes `s` or, failing that, from the text `beyond` them,
and gives back the attributes that are left.
-/
def readQuoted (quote : Char) (s beyond : List Char) :
    Except TagError (List Char × List Char) :=
  match cut? quote s with
  | some (value, rest) => .ok (value, rest)
  | none =>
    match cut? quote beyond.dropLast with
    | some (value, _) => .ok (s ++ value, [])
    | none => .error .unterminatedValue

/-- Reads the value that follows a `=`, and gives back the attributes that are left. -/
def readValue (s beyond : List Char) : Except TagError (List Char × List Char) :=
  match skipBlanks s with
  | [] => .ok ([], [])
  | c :: rest =>
    if isQuote c then readQuoted c rest beyond
    else .ok ((c :: rest).takeWhile (!isBlank ·), (c :: rest).dropWhile (!isBlank ·))

theorem length_readQuoted_le {quote : Char} {s beyond v rest : List Char}
    (h : readQuoted quote s beyond = .ok (v, rest)) : rest.length ≤ s.length := by
  unfold readQuoted at h
  split at h
  · next hcut =>
    simp only [Except.ok.injEq, Prod.mk.injEq] at h
    obtain ⟨-, rfl⟩ := h
    exact Nat.le_of_lt (length_of_cut? hcut)
  · split at h
    · simp only [Except.ok.injEq, Prod.mk.injEq] at h
      obtain ⟨-, rfl⟩ := h
      simp
    · simp at h

theorem length_readValue_le {s beyond v rest : List Char} (h : readValue s beyond = .ok (v, rest)) :
    rest.length ≤ s.length := by
  have hskip := length_skipBlanks_le s
  unfold readValue at h
  split at h
  · simp only [Except.ok.injEq, Prod.mk.injEq] at h
    obtain ⟨-, rfl⟩ := h
    simp
  · next c t ht =>
    rw [ht] at hskip
    split at h
    · have := length_readQuoted_le h
      simp at hskip
      omega
    · simp only [Except.ok.injEq, Prod.mk.injEq] at h
      obtain ⟨-, rfl⟩ := h
      exact Nat.le_trans (List.dropWhile_suffix _).length_le hskip

theorem readValue_error {s beyond : List Char} {e : TagError}
    (h : readValue s beyond = .error e) : e = .unterminatedValue := by
  unfold readValue at h
  split at h
  · cases h
  · split at h
    · unfold readQuoted at h
      split at h
      · cases h
      · split at h
        · cases h
        · exact (Except.error.inj h).symm
    · cases h

/-- Reads the attributes of a tag, with `beyond` the text from the end of the attributes on. -/
def readAttributes (beyond : List Char) : List Char → Except TagError (List Attribute)
  | [] => .ok []
  | c :: rest =>
    if isAttributeChar c then
      let name := lower (c :: rest.takeWhile isAttributeChar)
      let tail := rest.dropWhile isAttributeChar
      match _ : skipBlanks tail with
      | '=' :: t =>
        match _ : readValue t beyond with
        | .ok (v, left) => (readAttributes beyond left).map ((name, v) :: ·)
        | .error e => .error e
      | _ => (readAttributes beyond tail).map ((name, []) :: ·)
    else readAttributes beyond rest
termination_by s => s.length
decreasing_by
  all_goals
    have htail : (rest.dropWhile isAttributeChar).length ≤ rest.length :=
      (List.dropWhile_suffix _).length_le
    simp only [List.length_cons]
  · have hskip := length_skipBlanks_le (rest.dropWhile isAttributeChar)
    rw [‹skipBlanks _ = _›, List.length_cons] at hskip
    have hval := length_readValue_le ‹readValue _ _ = _›
    omega
  · omega
  · omega

/-- Attributes are refused for an open value only. -/
theorem readAttributes_error {beyond s : List Char} {e : TagError}
    (h : readAttributes beyond s = .error e) : e = .unterminatedValue := by
  have error_of_map {a : Attribute} {x : Except TagError (List Attribute)}
      (hx : x.map (a :: ·) = .error e) : x = .error e := by
    cases x with
    | error _ => exact congrArg Except.error (Except.error.inj hx)
    | ok _ => cases hx
  fun_induction readAttributes beyond s with
  | case1 => cases h
  | case2 c rest hc name tail t ht v left hv ih => exact ih (error_of_map h)
  | case3 c rest hc tail t ht e' hv =>
    obtain rfl := Except.error.inj h
    exact readValue_error hv
  | case4 c rest hc name tail hno ih => exact ih (error_of_map h)
  | case5 c rest hc ih => exact ih h

/-- How far a tag reaches in the text that it starts. -/
inductive Extent where
  /-- The tag is the whole text. -/
  | whole
  /-- The tag ends at the first `>`. -/
  | leading
  deriving DecidableEq, Repr

/--
The text between the brackets of a tag, and the text from the closing bracket on; `s` is the text
after the opening bracket.
-/
def interior? : Extent → List Char → Option (List Char × List Char)
  | .whole, s => if s.getLast? == some '>' then some (s.dropLast, ['>']) else none
  | .leading, s => (cut? '>' s).map fun (inner, after) => (inner, '>' :: after)

/-- Reads the text between the brackets, with `beyond` the text from the closing bracket on. -/
def ofInterior (inner beyond : List Char) : Except TagError Tag :=
  let selfClosing := inner.getLast? == some '/'
  let inner := if selfClosing then inner.dropLast else inner
  let beyond := if selfClosing then '/' :: beyond else beyond
  let name := inner.takeWhile isNameChar
  let rest := inner.dropWhile isNameChar
  if name.isEmpty then .error .emptyName
  else if !name.head?.any isNameStart then .error .invalidName
  else if !rest.head?.all isBlank then .error .invalidName
  else (readAttributes beyond rest).map fun as => ⟨lower name, selfClosing, Attributes.ofList as⟩

/-- Reads the tag that a text starts with. -/
def parse (extent : Extent) (text : List Char) : Except TagError Tag :=
  if byteSize text < 3 then .error .tooShort
  else
    match text with
    | '<' :: s =>
      match interior? extent s with
      | some (inner, beyond) => ofInterior inner beyond
      | none => .error .missingCloseBracket
    | _ => .error .missingOpenBracket

end Tag

end HtmlMarkdown
