/-!
# Elements

The elements that a conversion tells apart.  `Element.ofName` finds the element of a lower-case tag
name; all names without a meaning of their own give `other`.  Three tables say how an element is
written: `marker?` for the elements inside a line, `spacing?` for those that stand on lines of their
own, and `opener` for what a block starts with.
-/

namespace HtmlMarkdown

/-- The elements whose content is no text. -/
inductive RawText where
  | script
  | style
  | noscript
  deriving DecidableEq, Repr

/-- The name of an element without text. -/
def RawText.name : RawText → List Char
  | .script => "script".toList
  | .style => "style".toList
  | .noscript => "noscript".toList

/-- The elements of a page. -/
inductive Element where
  | strong
  | emphasis
  | underline
  | span
  | anchor
  | paragraph
  | division
  /-- The heading of level `rank + 1`. -/
  | heading (rank : Fin 6)
  | bulletList
  | numberedList
  | preformatted
  | quotation
  | item
  | rule
  | lineBreak
  | raw (kind : RawText)
  | other
  deriving DecidableEq, Repr

namespace Element

/-- The elements by name. -/
def named : List (String × Element) := [
  ("b", strong), ("strong", strong), ("em", emphasis), ("i", emphasis), ("u", underline),
  ("span", span), ("a", anchor), ("p", paragraph), ("div", division), ("h1", heading 0),
  ("h2", heading 1), ("h3", heading 2), ("h4", heading 3), ("h5", heading 4), ("h6", heading 5),
  ("ul", bulletList), ("ol", numberedList), ("pre", preformatted), ("blockquote", quotation),
  ("li", item), ("hr", rule), ("br", lineBreak), ("script", raw .script), ("style", raw .style),
  ("noscript", raw .noscript)]

/-- The element of a tag name in lower case. -/
def ofName (name : List Char) : Element :=
  match named.find? fun e => e.1.toList == name with
  | some (_, e) => e
  | none => other

/-- The level of a heading, from one to six. -/
def headingLevel? : Element → Option Nat
  | heading rank => some (rank + 1)
  | _ => none

/-- What stands for the tags of an element inside a line. -/
def marker? : Element → Option (List Char)
  | strong => some ['*', '*']
  | emphasis => some ['*']
  | underline => some ['_']
  | span | anchor => some []
  | _ => none

/-- What the content of a block starts with. -/
def opener : Element → List Char
  | heading rank => List.replicate (rank + 1) '#' ++ [' ']
  | item => ['*', ' ', ' ', ' ']
  | _ => []

theorem all_marker {p : Char → Bool} (hp : ['*', '_'].all p = true) {e : Element} {m : List Char}
    (h : e.marker? = some m) : m.all p = true := by
  simp only [List.all_cons, List.all_nil, Bool.and_true, Bool.and_eq_true] at hp
  obtain ⟨hstar, hline⟩ := hp
  cases e <;> simp only [marker?, Option.some.injEq, reduceCtorEq] at h <;> subst h <;>
    simp [hstar, hline]

theorem all_opener {p : Char → Bool} (hp : ['#', '*', ' '].all p = true) (e : Element) :
    e.opener.all p = true := by
  simp only [List.all_cons, List.all_nil, Bool.and_true, Bool.and_eq_true] at hp
  obtain ⟨hhash, hstar, hspace⟩ := hp
  cases e with
  | heading rank => simp [opener, hhash, hspace]
  | item => simp [opener, hstar, hspace]
  | _ => rfl

end Element

/-! ## Spacing -/

/-- How a block is set off from its surroundings. -/
structure Spacing where
  /-- Whether the block is a container. -/
  container : Bool
  /-- The number of line breaks around it. -/
  lines : Nat
  /-- Whether the breaks belong to the quotation that the block stands in. -/
  quotable : Bool
  deriving DecidableEq, Repr

/-- The spacing of the elements that stand on lines of their own. -/
def Element.spacing? : Element → Option Spacing
  | paragraph | division | heading _ => some ⟨false, 2, true⟩
  | item => some ⟨false, 1, false⟩
  | bulletList | numberedList | preformatted => some ⟨true, 2, false⟩
  | quotation => some ⟨true, 2, true⟩
  | _ => none

end HtmlMarkdown
