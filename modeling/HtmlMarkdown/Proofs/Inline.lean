import HtmlMarkdown.Convert
import HtmlMarkdown.Proofs.Draft.Prose
import HtmlMarkdown.Proofs.Source.Lexing

/-!
# Inline normal form

Text, tags inside a line and what leaves no trace are written on one line.  Each piece has a
rendering of its own (`Piece.rendering`), the output is a copy of the renderings one after the other
(`addAll_tokensAll_inline`), and so the page is finished as the words of the joined renderings with
one space between neighbours (`convert_inline`), wherever blanks and tags meet.
-/

namespace HtmlMarkdown

open Text

/-! ## Renderings -/

/--
Whether the tags of an element stand inside a line.  In Markdown an anchor may start a link.
-/
def Element.standsInline (mode : Mode) : Element → Bool
  | strong | emphasis | underline | span | raw _ | other => true
  | anchor => mode == .plain
  | _ => false

/-- What a tag inside a line is written as: its marker, or a space if it has no meaning. -/
def Element.rendering (mode : Mode) (e : Element) : List Char :=
  match e.marker? with
  | some marker => mode.markup marker
  | none => [' ']

/-- Whether a piece is written on the line it stands on. -/
def Piece.standsInline (mode : Mode) : Piece → Bool
  | startTag t _ => t.element.standsInline mode
  | endTag t => t.element.standsInline mode
  | _ => true

/-- What a piece on a line is written as. -/
def Piece.rendering (mode : Mode) : Piece → List Char
  | text s _ => mode.text s
  | startTag t _ => t.element.rendering mode
  | endTag t => t.element.rendering mode
  | rawText _ _ _ _ => [' ']
  | _ => []

theorem Piece.isAnchor_of_standsInline {p : Piece} (h : p.standsInline .markdown = true) :
    p.isAnchor = false := by
  cases p with
  | startTag t ht =>
    apply beq_eq_false_iff_ne.2
    intro heq
    rw [standsInline, heq] at h
    cases h
  | _ => rfl

/-! ## Tags -/

namespace Draft

variable {mode : Mode}

theorem markup_eq_copy {s : List Char} (h : s.all (!isBlank ·) = true) (d : Draft) :
    d.markup mode s = { d with output := d.output.copy (mode.markup s) } := by
  cases mode with
  | markdown => rw [markup, Mode.markup, Output.copy_of_ink (by simpa using h)]
  | plain => rfl

theorem space_eq_copy (d : Draft) : d.space = { d with output := d.output.copy [' '] } := rfl

theorem startTag_inline {e : Element} (h : e.standsInline mode = true) (ahead : Bool) (d : Draft) :
    d.startTag mode e ahead = { d with output := d.output.copy (e.rendering mode) } := by
  cases e with
  | strong | emphasis | underline | span => exact markup_eq_copy (by decide) d
  | anchor =>
    cases eq_of_beq h
    rfl
  | raw _ | other => exact space_eq_copy d
  | _ => cases h

theorem endTag_inline {e : Element} (h : e.standsInline mode = true) (d : Draft) :
    d.endTag mode e = { d with output := d.output.copy (e.rendering mode) } := by
  cases e with
  | strong | emphasis | underline | span => exact markup_eq_copy (by decide) d
  | anchor =>
    cases eq_of_beq h
    rfl
  | raw _ | other => exact space_eq_copy d
  | _ => cases h

/-! ## Pieces -/

theorem addAll_piece {p : Piece} (h : p.standsInline mode = true) (rest : List Char) (d : Draft) :
    d.addAll mode (p.tokens rest) = { d with output := d.output.copy (p.rendering mode) } := by
  cases p with
  | text s hs => exact addAll_text mode s d
  | startTag t ht => exact startTag_inline h _ d
  | endTag t => exact endTag_inline h d
  | rawText kind t ht r => exact space_eq_copy d
  | _ => rfl

theorem addAll_tokensAll_inline {ps : List Piece} (h : ∀ p ∈ ps, p.standsInline mode = true)
    (rest : List Char) (d : Draft) :
    d.addAll mode (tokensAll rest ps) =
      { d with output := d.output.copy (ps.flatMap (Piece.rendering mode)) } := by
  induction ps generalizing d with
  | nil => rfl
  | cons p ps ih =>
    rw [List.forall_mem_cons] at h
    rw [tokensAll, addAll_append, addAll_piece h.1, ih h.2, List.flatMap_cons, Output.copy_append]

end Draft

/-! ## Pages -/

theorem convertTokens_text (mode : Mode) {s : List Char} (h : '<' ∉ s) :
    convertTokens mode s = collapse (mode.text s) := by
  have htokens : tokens mode s = s.map Token.ofChar := by
    have htext := tokens_text mode h []
    rwa [List.append_nil, tokens_nil, List.append_nil] at htext
  rw [convertTokens, render, htokens, Draft.addAll_text]
  exact Output.finish_copy _

theorem toList_convert_inline {o : Options} (hdecode : o.decodeReferences = false)
    (hkeep : o.keepTagless = false) {ps : List Piece}
    (h : ∀ p ∈ ps, p.standsInline o.mode = true) :
    (convert o (String.ofList (spellAll ps))).toList =
      collapse (ps.flatMap (Piece.rendering o.mode)) := by
  have hanchor : o.mode = .plain ∨ ∀ p ∈ ps, p.isAnchor = false := by
    cases hmode : o.mode with
    | plain => exact .inl rfl
    | markdown => exact .inr fun p hp => Piece.isAnchor_of_standsInline (hmode ▸ h p hp)
  have htokens : tokens o.mode (spellAll ps) = tokensAll [] ps := by
    have hall := tokens_spellAll hanchor []
    rwa [List.append_nil, tokens_nil, List.append_nil] at hall
  rw [toList_convert hdecode hkeep, convertTokens, render, htokens,
    Draft.addAll_tokensAll_inline h]
  exact Output.finish_copy _

/-- Blanks and tags next to each other, with a comment and a script in between. -/
def crowdedLine : List Piece := [
  .text [' ', 'a', '\n'] (by decide),
  .startTag ⟨['B'], [], by decide, List.all_eq_true.1 (by decide), by simp, by decide⟩ (by decide),
  .text [' ', '*', ' '] (by decide),
  .comment ['<', 'p', '>'] (by decide),
  .endTag ⟨['b'], [' '], by decide, List.all_eq_true.1 (by decide), by simp [isBlank], by decide⟩,
  .rawText .script ⟨"script".toList, [], by decide, List.all_eq_true.1 (by decide), by simp,
    by decide⟩ (by decide) ⟨['<', 'p', '>'], "SCRIPT".toList, [], by decide, by decide, by decide⟩,
  .endTag ⟨['x'], ['/'], by decide, List.all_eq_true.1 (by decide), by simp, by decide⟩,
  .text ['é'] (by decide)]

end HtmlMarkdown
