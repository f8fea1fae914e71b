import HtmlMarkdown.Text.Blank
import HtmlMarkdown.Text.Search

/-!
# Tag names

A tag name is a run of ASCII letters, digits and colons that starts with a letter.  `TagName.scan`
reads the rest of a tag whose `<` or `</` has been passed: the name ends at `>`, at `/` or at a
blank, anything else spoils the tag, and in each case the tag goes on to its first `>`, whatever
quotes stand in between.
-/

namespace HtmlMarkdown

namespace TagName

open Text

/-- The characters of a tag name. -/
def isNameChar (c : Char) : Bool := c.isAlphanum || c == ':'

/-- The characters that a tag name may start with. -/
def isNameStart (c : Char) : Bool := c.isAlpha

/-- The rest of a tag as its scan finds it, with the text after the tag. -/
inductive Scan where
  /-- The tag has the lower-case name `name`. -/
  | named (name : List Char) (after : List Char)
  /-- The tag has no name. -/
  | nameless (after : List Char)
  /-- The text ends inside the tag. -/
  | unclosed
  deriving DecidableEq, Repr

/-- A run of name characters is a name if it starts like one. -/
def ofRun (run after : List Char) : Scan :=
  if run.head?.any isNameStart then .named (lower run) after else .nameless after

/-- Reads the rest of a tag, from its name to its `>`. -/
def scan (s : List Char) : Scan :=
  let run := s.takeWhile isNameChar
  match s.dropWhile isNameChar with
  | [] => .unclosed
  | '>' :: after => ofRun run after
  | c :: rest =>
    match cut? '>' rest with
    | none => .unclosed
    | some (_, after) => if c == '/' || isBlank c then ofRun run after else .nameless after

theorem eq_of_ofRun {run t after : List Char}
    (h : ofRun run t = .nameless after ∨ ∃ name, ofRun run t = .named name after) : t = after := by
  unfold ofRun at h
  split at h <;> simpa using h

/-- A tag that is scanned ends with a `>`. -/
theorem suffix_of_scan {s after : List Char}
    (h : scan s = .nameless after ∨ ∃ name, scan s = .named name after) : '>' :: after <:+ s := by
  have hrest := List.dropWhile_suffix (l := s) isNameChar
  unfold scan at h
  split at h
  · simp at h
  · next t ht =>
    cases eq_of_ofRun h
    exact ht ▸ hrest
  · next c rest _ ht =>
    rw [ht] at hrest
    split at h
    · simp at h
    · next a t hcut =>
      have ht : t = after := by
        split at h
        · exact eq_of_ofRun h
        · simpa using h
      exact ht ▸ (suffix_of_cut? hcut).trans ((List.suffix_cons c rest).trans hrest)

theorem suffix_of_scan_named {s name after : List Char} (h : scan s = .named name after) :
    after <:+ s :=
  (List.suffix_cons _ _).trans (suffix_of_scan (.inr ⟨name, h⟩))

theorem suffix_of_scan_nameless {s after : List Char} (h : scan s = .nameless after) :
    after <:+ s :=
  (List.suffix_cons _ _).trans (suffix_of_scan (.inl h))

end TagName

end HtmlMarkdown
