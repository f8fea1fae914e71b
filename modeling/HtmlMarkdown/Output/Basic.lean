import HtmlMarkdown.Text.Blank

/-!
# Output

What has been written is a sequence of glyphs: characters, and the marks `>` that start the lines of
a quotation.  A mark is not the same as a character `>` of the page, since a mark that has nothing
behind it may be taken back.  Most questions concern the end of the output, therefore the glyphs are
kept newest first.

The output begins with a space that stands for the start of the page.  It is not kept: it is part of
`contents`, never taken back, and trimmed from the finished text.
-/

namespace HtmlMarkdown

/-- A character, or a quotation mark of the output's own. -/
inductive Glyph where
  | char (c : Char)
  | mark
  deriving DecidableEq, Repr

namespace Glyph

/-- A glyph as it is written. -/
def toChar : Glyph → Char
  | char c => c
  | mark => '>'

/-- The spaces and tabs. -/
def isGap : Glyph → Bool
  | char c => c == ' ' || c == '\t'
  | mark => false

/-- The gaps and the characters of line breaks. -/
def isSpacing : Glyph → Bool
  | char c => c == ' ' || c == '\t' || c == '\r' || c == '\n'
  | mark => false

/-- The glyphs that may be taken back. -/
def isRemovable (g : Glyph) : Bool := g == .mark || g.isSpacing

theorem isBlank_of_isSpacing {c : Char} (h : (char c).isSpacing = true) :
    Text.isBlank c = true := by
  simp only [isSpacing, Bool.or_eq_true, beq_iff_eq] at h
  rcases h with ((rfl | rfl) | rfl) | rfl <;> decide

theorem isSpacing_of_isGap {g : Glyph} (h : g.isGap = true) : g.isSpacing = true := by
  cases g with
  | mark => cases h
  | char c =>
    have h : (c == ' ' || c == '\t') = true := h
    show (c == ' ' || c == '\t' || c == '\r' || c == '\n') = true
    rw [h]
    rfl

section Ink

variable {c : Char} (h : Text.isBlank c = false)

include h

theorem isSpacing_of_not_blank : (char c).isSpacing = false := by
  cases hs : (char c).isSpacing with
  | false => rfl
  | true =>
    rw [isBlank_of_isSpacing hs] at h
    cases h

theorem isRemovable_of_not_blank : (char c).isRemovable = false := isSpacing_of_not_blank h

theorem isGap_of_not_blank : (char c).isGap = false := by
  have hspacing := isSpacing_of_not_blank h
  simp only [isSpacing, Bool.or_eq_false_iff] at hspacing
  rw [isGap, hspacing.1.1.1, hspacing.1.1.2, Bool.or_false]

end Ink

end Glyph

/-- What has been written, newest first. -/
structure Output where
  /-- The glyphs after the start of the page, newest first. -/
  glyphs : List Glyph
  deriving DecidableEq, Repr

namespace Output

/-- The start of a page. -/
def empty : Output := ⟨[]⟩

/-- The text written, with the space at the start. -/
def contents (o : Output) : List Char := ' ' :: o.glyphs.reverse.map Glyph.toChar

/-- The text of the finished page. -/
def finish (o : Output) : List Char := Text.trim o.contents

/-! ## Writing -/

/-- Writes a glyph. -/
def pushGlyph (o : Output) (g : Glyph) : Output := ⟨g :: o.glyphs⟩

/-- Writes a character. -/
def push (o : Output) (c : Char) : Output := o.pushGlyph (.char c)

/-- Writes a text. -/
def append (o : Output) (s : List Char) : Output := s.foldl push o

/-- Writes a line break. -/
def pushBreak (o : Output) : Output := (o.push '\r').push '\n'

/-- Writes the mark and the space that a quoted line starts with. -/
def pushMark (o : Output) : Output := (o.pushGlyph .mark).push ' '

/-- Writes a line break and starts a quoted line. -/
def pushQuotedBreak (o : Output) : Output := o.pushBreak.pushMark

/-- Writes `n` line breaks. -/
def pushBreaks : Nat → Output → Output
  | 0, o => o
  | n + 1, o => pushBreaks n o.pushBreak

/-- Writes `n` line breaks, each of which starts a quoted line. -/
def pushQuotedBreaks : Nat → Output → Output
  | 0, o => o
  | n + 1, o => pushQuotedBreaks n o.pushQuotedBreak

/-! ## The space at the end -/

/-- Whether the output ends in white space, as it does at the start. -/
def endsInSpacing (o : Output) : Bool := o.glyphs.head?.all Glyph.isSpacing

/-- Whether the output ends in a line feed. -/
def endsInFeed (o : Output) : Bool := o.glyphs.head? == some (.char '\n')

/-- Writes a space unless the output ends in white space. -/
def pushSpace (o : Output) : Output := if o.endsInSpacing then o else o.push ' '

/-- Takes back one space, but not the one at the start. -/
def dropSpace (o : Output) : Output :=
  match o.glyphs with
  | .char ' ' :: gs => ⟨gs⟩
  | _ => o

/-! ## Laws -/

@[simp] theorem contents_empty : empty.contents = [' '] := rfl

@[simp] theorem contents_pushGlyph (o : Output) (g : Glyph) :
    (o.pushGlyph g).contents = o.contents ++ [g.toChar] := by
  simp [contents, pushGlyph]

@[simp] theorem contents_push (o : Output) (c : Char) : (o.push c).contents = o.contents ++ [c] :=
  contents_pushGlyph o (.char c)

@[simp] theorem contents_append (o : Output) (s : List Char) :
    (o.append s).contents = o.contents ++ s := by
  induction s generalizing o with
  | nil => simp [append]
  | cons c s ih =>
    have := ih (o.push c)
    simp_all [append]

@[simp] theorem contents_pushBreak (o : Output) :
    o.pushBreak.contents = o.contents ++ ['\r', '\n'] := by
  simp [pushBreak]

@[simp] theorem contents_pushMark (o : Output) :
    o.pushMark.contents = o.contents ++ ['>', ' '] := by
  simp [pushMark, Glyph.toChar]

end Output

end HtmlMarkdown
