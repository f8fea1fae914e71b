import HtmlMarkdown.Reference.Names
import HtmlMarkdown.Text.Number

/-!
# Character references

`Reference.decode` replaces the character references of a text by the characters that they stand
for.  A reference is `&`, a body and `;`, where the body is a name, `#` with decimal digits, or
`#x` with hexadecimal digits.  What has another form, or stands for no character, stays as it is,
and what a reference stands for is not read again.
-/

namespace HtmlMarkdown.Reference

open Text

/-- Whether a number may stand for a character: control characters other than blanks may not. -/
def isReferable (n : Nat) : Bool :=
  n.isValidChar && (0x20 ≤ n || n == 0x9 || n == 0xA || n == 0xC || n == 0xD)

/-- The character of a numeric reference. -/
def character? (base : Nat) (digits : List Char) : Option Char :=
  match number? base digits with
  | some n => if isReferable n then some (Char.ofNat n) else none
  | none => none

/-- What the body of a reference stands for. -/
def expand? : List Char → Option (List Char)
  | '#' :: 'x' :: digits | '#' :: 'X' :: digits => (character? 16 digits).map ([·])
  | '#' :: digits => (character? 10 digits).map ([·])
  | name => (named? (String.ofList name)).map (·.map Char.ofNat)

/-- The text before and after the first `;`, unless a `&` or the end comes first. -/
def body? : List Char → Option (List Char × List Char)
  | [] => none
  | c :: s =>
    if c == ';' then some ([], s)
    else if c == '&' then none
    else (body? s).map fun (body, rest) => (c :: body, rest)

theorem length_of_body? {s body rest : List Char} (h : body? s = some (body, rest)) :
    rest.length < s.length := by
  induction s generalizing body with
  | nil => simp [body?] at h
  | cons c s ih =>
    unfold body? at h
    split at h
    · cases h
      simp
    · split at h
      · simp at h
      · obtain ⟨⟨b, r⟩, hb, he⟩ := Option.map_eq_some_iff.1 h
        cases he
        exact Nat.lt_succ_of_lt (ih hb)

/-- A text with its references replaced. -/
def decode : List Char → List Char
  | [] => []
  | c :: s =>
    if c == '&' then
      match _ : body? s with
      | some (body, rest) => (expand? body).getD ('&' :: body ++ [';']) ++ decode rest
      | none => c :: decode s
    else c :: decode s
termination_by s => s.length
decreasing_by
  · exact Nat.lt_succ_of_lt (length_of_body? ‹_›)
  · simp
  · simp

theorem decode_nil : decode [] = [] := by rw [decode]

theorem decode_cons_of_ne {c : Char} (h : c ≠ '&') (s : List Char) :
    decode (c :: s) = c :: decode s := by
  rw [decode]
  simp [h]

theorem decode_of_not_mem {s : List Char} (h : '&' ∉ s) : decode s = s := by
  induction s with
  | nil => exact decode_nil
  | cons c s ih =>
    simp only [List.mem_cons, not_or] at h
    rw [decode_cons_of_ne (Ne.symm h.1), ih h.2]

end HtmlMarkdown.Reference
