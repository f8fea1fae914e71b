/-!
# Numbers in a text

`number?` reads a text that consists of digits, in base ten or sixteen, and nothing else: no sign,
no blank, and not the empty text.
-/

namespace HtmlMarkdown.Text

/-- The value of a digit, in either letter case. -/
def digitValue? (c : Char) : Option Nat :=
  let n := c.toNat
  if '0'.toNat ≤ n ∧ n ≤ '9'.toNat then some (n - '0'.toNat)
  else if 'a'.toNat ≤ n ∧ n ≤ 'f'.toNat then some (n - 'a'.toNat + 10)
  else if 'A'.toNat ≤ n ∧ n ≤ 'F'.toNat then some (n - 'A'.toNat + 10)
  else none

/-- The number whose first digits have the value `value` and whose other digits are given. -/
def numberFrom? (base value : Nat) : List Char → Option Nat
  | [] => some value
  | c :: s =>
    match digitValue? c with
    | some d => if d < base then numberFrom? base (value * base + d) s else none
    | none => none

/-- The number that the digits of a text denote. -/
def number? (base : Nat) (s : List Char) : Option Nat :=
  if s.isEmpty then none else numberFrom? base 0 s

end HtmlMarkdown.Text
