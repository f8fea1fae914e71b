import HtmlMarkdown.Text.Blank
import HtmlMarkdown.Text.Search

/-!
# Links

A link is an anchor of the plainest kind: a start tag with `href="…"`, a text without markup, and
the end tag.  `Link.read?` reads such an anchor in one piece and refuses any other.
-/

namespace HtmlMarkdown

/-- A text that refers to a target. -/
structure Link where
  /-- The text, with single spaces between its words. -/
  text : List Char
  /-- The target, as it is written in the page. -/
  target : List Char
  deriving DecidableEq, Repr

namespace Link

open Text

/-- A link in Markdown. -/
def markdown (l : Link) : List Char := '[' :: l.text ++ [']', '('] ++ l.target ++ [')']

/-- The target that a start tag names between double quotes. -/
def target? (tag : List Char) : Option (List Char) :=
  match locate? (· == ·) "href=\"".toList tag with
  | none => none
  | some (_, s) => (cut? '"' (s.drop 6)).map (·.1)

/--
Reads the link that a text starts with, and gives back the text after it.  The start tag reaches to
the first `>`, the link text from there to the next `<`; it has to hold a word.
-/
def read? (s : List Char) : Option (Link × List Char) :=
  match cut? '>' s with
  | none => none
  | some (tag, s) =>
    match cut? '<' s with
    | none => none
    | some (text, s) =>
      if (words text).isEmpty then none
      else
        match after? sameLetter "/a>".toList s, target? tag with
        | some rest, some target => some (⟨collapse text, target⟩, rest)
        | _, _ => none

/-- What is read, by the places of the first `>` and of the `<` behind it. -/
theorem read?_of_cut {s tag t text u : List Char} (htag : cut? '>' s = some (tag, t))
    (htext : cut? '<' t = some (text, u)) :
    read? s =
      if (words text).isEmpty then none
      else (after? sameLetter "/a>".toList u).bind fun rest =>
        (target? tag).map fun target => (⟨collapse text, target⟩, rest) := by
  simp only [read?, htag, htext]
  cases after? sameLetter "/a>".toList u <;> cases target? tag <;> rfl

theorem suffix_of_read? {s rest : List Char} {l : Link} (h : read? s = some (l, rest)) :
    rest <:+ s := by
  unfold read? at h
  split at h
  · simp at h
  · next tag t ht =>
    split at h
    · simp at h
    · next text u hu =>
      split at h
      · simp at h
      · split at h
        · next r target hr _ =>
          have htag := (List.suffix_cons _ _).trans (suffix_of_cut? ht)
          have htext := (List.suffix_cons _ _).trans (suffix_of_cut? hu)
          simp only [Option.some.injEq, Prod.mk.injEq] at h
          exact h.2 ▸ (suffix_of_after? hr).trans (htext.trans htag)
        · simp at h

theorem length_of_read? {s rest : List Char} {l : Link} (h : read? s = some (l, rest)) :
    rest.length < s.length := by
  unfold read? at h
  split at h
  · simp at h
  · next tag t ht =>
    split at h
    · simp at h
    · next text u hu =>
      split at h
      · simp at h
      · split at h
        · next r target hr _ =>
          have h₁ := length_of_cut? ht
          have h₂ := length_of_cut? hu
          have h₃ := length_of_after? hr
          simp only [Option.some.injEq, Prod.mk.injEq] at h
          obtain ⟨-, rfl⟩ := h
          omega
        · simp at h

end Link

end HtmlMarkdown
