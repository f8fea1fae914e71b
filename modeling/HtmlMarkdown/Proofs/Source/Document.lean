import HtmlMarkdown.Proofs.Draft.Prose
import HtmlMarkdown.Proofs.Source.Lexing
import HtmlMarkdown.Proofs.Text.Lines

/-!
# Block documents

A `Document` is a sequence of blocks: paragraphs, headings, rules, lists, and quotations of the first
three.  `Document.pieces` spells it, with the tags in any letter case and with any attributes, and
with blanks between the tags.  `Document.markdown` is what it says in Markdown, told without regard
to how it is written.
-/

namespace HtmlMarkdown

open Text

/-! ## Tags and texts -/

/-- A tag of the element `e`. -/
structure TagOf (e : Element) where
  /-- The tag as it is spelled. -/
  tag : SpelledTag
  element_eq : tag.element = e

/-- A text with a word and without markup. -/
structure Passage where
  /-- The text. -/
  text : List Char
  unmarked : '<' ∉ text
  word : ∃ c ∈ text, isBlank c = false

/-- An element that holds a text. -/
structure TextBlock (e : Element) where
  /-- The start tag. -/
  start : TagOf e
  /-- The text. -/
  passage : Passage
  /-- The end tag. -/
  stop : TagOf e

/-! ## Blocks -/

/-- The blocks that can stand in a quotation. -/
inductive Flow where
  | paragraph (b : TextBlock .paragraph)
  | division (b : TextBlock .division)
  | heading (rank : Fin 6) (b : TextBlock (.heading rank))
  | rule (tag : TagOf .rule)

/-- The elements that hold items. -/
def Element.isList : Element → Bool
  | bulletList | numberedList => true
  | _ => false

/-- The blocks of a document.  Each item of a list and each block of a quotation has a gap before it,
and there is one more behind the last. -/
inductive Block where
  | flow (f : Flow)
  | list (e : Element) (he : e.isList = true) (start : TagOf e)
      (items : List (Gap × TextBlock .item)) (hne : items ≠ []) (gap : Gap) (stop : TagOf e)
  | quotation (start : TagOf .quotation) (flows : List (Gap × Flow)) (hne : flows ≠ [])
      (gap : Gap) (stop : TagOf .quotation)

/-- A sequence of blocks, with a gap before each and behind the last. -/
structure Document where
  /-- The blocks. -/
  blocks : List (Gap × Block)
  /-- The gap behind the last block. -/
  gap : Gap

/-! ## Spelling -/

/-- A start tag among the pieces of a page. -/
def TagOf.startPiece {e : Element} (t : TagOf e) (h : e.isRaw = false) : Piece :=
  .startTag t.tag ((congrArg Element.isRaw t.element_eq).trans h)

/-- An end tag among the pieces of a page. -/
def TagOf.endPiece {e : Element} (t : TagOf e) : Piece := .endTag t.tag

/-- A gap among the pieces of a page. -/
def Gap.piece (g : Gap) : Piece :=
  .text g.text fun h => absurd (g.blank _ h) (by decide)

/-- A text among the pieces of a page. -/
def Passage.piece (p : Passage) : Piece := .text p.text p.unmarked

/-- The pieces of a text in its element. -/
def TextBlock.pieces {e : Element} (b : TextBlock e) (h : e.isRaw = false) : List Piece :=
  [b.start.startPiece h, b.passage.piece, b.stop.endPiece]

theorem Element.isRaw_heading (rank : Fin 6) : (heading rank).isRaw = false := rfl

/-- The pieces of a block that can stand in a quotation. -/
def Flow.pieces : Flow → List Piece
  | paragraph b => b.pieces (by decide)
  | division b => b.pieces (by decide)
  | heading rank b => b.pieces (Element.isRaw_heading rank)
  | rule t => [t.startPiece (by decide)]

theorem Element.eq_of_isList {e : Element} (h : e.isList = true) :
    e = .bulletList ∨ e = .numberedList := by
  cases e with
  | bulletList => exact .inl rfl
  | numberedList => exact .inr rfl
  | _ => cases h

theorem Element.isRaw_of_isList {e : Element} (h : e.isList = true) : e.isRaw = false := by
  obtain rfl | rfl := eq_of_isList h <;> rfl

/-- The pieces of a block. -/
def Block.pieces : Block → List Piece
  | flow f => f.pieces
  | list _ he start items _ gap stop =>
    start.startPiece (Element.isRaw_of_isList he) ::
      (items.flatMap (fun i => i.1.piece :: i.2.pieces (by decide)) ++ [gap.piece, stop.endPiece])
  | quotation start flows _ gap stop =>
    start.startPiece (by decide) ::
      (flows.flatMap (fun f => f.1.piece :: f.2.pieces) ++ [gap.piece, stop.endPiece])

/-- The pieces of a document. -/
def Document.pieces (d : Document) : List Piece :=
  d.blocks.flatMap (fun b => b.1.piece :: b.2.pieces) ++ [d.gap.piece]

/-! ## Markdown -/

/-- What a block says that can stand in a quotation. -/
def Flow.markdown : Flow → List Char
  | paragraph b => prose b.passage.text
  | division b => prose b.passage.text
  | heading rank b => List.replicate (rank + 1) '#' ++ ' ' :: prose b.passage.text
  | rule _ => "* * *".toList

/-- What a block says. -/
def Block.markdown : Block → List Char
  | flow f => f.markdown
  | list _ _ _ items _ _ _ =>
    newLine.intercalate (items.map fun i => "*   ".toList ++ prose i.2.passage.text)
  | quotation _ flows _ _ _ =>
    quoteLines ((newLine ++ newLine).intercalate (flows.map fun f => f.2.markdown))

/-- What stands between two blocks: an empty line, which is quoted between two quotations, and is
missing between a quotation and a rule. -/
def Block.separator : Block → Block → List Char
  | quotation .., quotation .. => newLine ++ ['>', ' '] ++ newLine
  | quotation .., flow (.rule _) => newLine
  | _, _ => newLine ++ newLine

/-- What a sequence of blocks says. -/
def blocksMarkdown : List Block → List Char
  | [] => []
  | [b] => b.markdown
  | b :: c :: bs => b.markdown ++ b.separator c ++ blocksMarkdown (c :: bs)

/-- What a document says in Markdown. -/
def Document.markdown (d : Document) : List Char := blocksMarkdown (d.blocks.map (·.2))

end HtmlMarkdown
