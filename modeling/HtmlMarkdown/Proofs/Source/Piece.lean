import HtmlMarkdown.Proofs.Source.Tag
import HtmlMarkdown.Token.Lexer

/-!
# Pages as they are spelled

A `Page` is a sequence of pieces, each of which is text or a complete construct in brackets, and
possibly a construct that the end of the page cuts off.  `Page.spell` writes it out.

A comment may hold anything but its own end.  The content of an element without text goes on to the
first place where `</` and the name of the element follow each other, in any letter case, and from
there to the next `>`.
-/

namespace HtmlMarkdown

open Text

/-- What ends the content of an element without text. -/
def RawText.endWord (kind : RawText) : List Char := '<' :: '/' :: kind.name

/-- The content of an element without text, with the end tag. -/
structure RawContent (kind : RawText) where
  /-- What is dropped. -/
  body : List Char
  /-- The name in the end tag, in any letter case. -/
  letters : List Char
  /-- The text from the name to the `>`. -/
  rest : List Char
  body_avoids : Avoids kind.endWord body
  letters_lower : lower letters = kind.name
  rest_open : '>' ∉ rest

/-- The content written out, from behind the start tag. -/
def RawContent.spell {kind : RawText} (r : RawContent kind) : List Char :=
  r.body ++ '<' :: '/' :: (r.letters ++ r.rest ++ ['>'])

/-- Whether the content of an element is no text. -/
def Element.isRaw : Element → Bool
  | raw _ => true
  | _ => false

/-- A piece of a page as it is spelled. -/
inductive Piece where
  /-- Text. -/
  | text (s : List Char) (h : '<' ∉ s)
  /-- A comment. -/
  | comment (s : List Char) (h : ¬ ['-', '-', '>'] <:+: s)
  /-- Another declaration. -/
  | declaration (s : List Char) (hopen : '>' ∉ s) (h : ¬ ['-', '-'] <+: s)
  /-- A construct in brackets without a name. -/
  | nameless (s : List Char) (hopen : '>' ∉ s) (h : Nameless s)
  /-- A start tag. -/
  | startTag (t : SpelledTag) (h : t.element.isRaw = false)
  /-- An end tag. -/
  | endTag (t : SpelledTag)
  /-- An element without text, from its start tag to its end tag. -/
  | rawText (kind : RawText) (t : SpelledTag) (h : t.element = .raw kind) (r : RawContent kind)

/-- A piece written out. -/
def Piece.spell : Piece → List Char
  | text s _ => s
  | comment s _ => '<' :: '!' :: '-' :: '-' :: (s ++ ['-', '-', '>'])
  | declaration s _ _ => '<' :: '!' :: (s ++ ['>'])
  | nameless s _ _ => '<' :: (s ++ ['>'])
  | startTag t _ => '<' :: (t.inner ++ ['>'])
  | endTag t => '<' :: '/' :: (t.inner ++ ['>'])
  | rawText _ t _ r => '<' :: (t.inner ++ '>' :: r.spell)

/-- The pieces of a page written out one after the other. -/
def spellAll (ps : List Piece) : List Char := ps.flatMap Piece.spell

@[simp] theorem spellAll_nil : spellAll [] = [] := rfl

@[simp] theorem spellAll_cons (p : Piece) (ps : List Piece) :
    spellAll (p :: ps) = p.spell ++ spellAll ps := rfl

theorem spellAll_append (ps qs : List Piece) : spellAll (ps ++ qs) = spellAll ps ++ spellAll qs :=
  List.flatMap_append

/-- A construct that the end of the page cuts off. -/
inductive CutOff where
  /-- Nothing is cut off. -/
  | none
  /-- A construct without its `>`. -/
  | bracket (s : List Char) (h : '>' ∉ s)
  /-- A comment without its end. -/
  | comment (s : List Char) (h : ¬ ['-', '-', '>'] <:+: s)
  /-- An element without text, whose end tag is missing or has no `>`. -/
  | rawText (kind : RawText) (t : SpelledTag) (ht : t.element = .raw kind) (s : List Char)
      (h : ∀ a w b, s = a ++ w ++ b → lower w = kind.endWord → '>' ∉ b)

/-- What is there of a construct that is cut off. -/
def CutOff.spell : CutOff → List Char
  | none => []
  | bracket s _ => '<' :: s
  | comment s _ => '<' :: '!' :: '-' :: '-' :: s
  | rawText _ t _ s _ => '<' :: (t.inner ++ '>' :: s)

/-- A page as it is spelled. -/
structure Page where
  /-- The pieces. -/
  pieces : List Piece
  /-- What the end of the page cuts off. -/
  cutOff : CutOff

/-- A page written out. -/
def Page.spell (p : Page) : List Char := spellAll p.pieces ++ p.cutOff.spell

end HtmlMarkdown
