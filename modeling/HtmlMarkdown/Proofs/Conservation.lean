import HtmlMarkdown.Convert
import HtmlMarkdown.Proofs.Draft.Ink
import HtmlMarkdown.Proofs.Source.Links

/-!
# Nothing is lost

A conversion keeps what can be seen.  In plain mode the visible characters of the page are those of
its texts, in order.  In Markdown they are those of `Page.markdown`, where each piece of the page
has a fixed text of its own, but for the marks of quoted lines; and there are none of these unless
a quotation starts somewhere.
-/

namespace HtmlMarkdown

open Text

/-! ## What a page says -/

/-- The text of a piece. -/
def Piece.content : Piece → List Char
  | text s _ => s
  | _ => []

/-- What stands for a piece in Markdown. -/
def Piece.markdown : Piece → List Char
  | text s _ => escape s
  | startTag t _ => t.element.startText
  | endTag t => t.element.endText
  | _ => []

/-- Whether a piece starts a quotation. -/
def Piece.startsQuotation : Piece → Bool
  | startTag t _ => t.element == .quotation
  | _ => false

/-- What stands for pieces in Markdown; a link stands for all pieces that it takes. -/
def markdownAll (rest : List Char) : List Piece → List Char
  | [] => []
  | p :: ps =>
    match p.link? (spellAll ps ++ rest) with
    | some (l, _) => l.markdown ++ markdownAll rest (dropLink ps)
    | none => p.markdown ++ markdownAll rest ps
termination_by ps => ps.length
decreasing_by
  · exact Nat.lt_succ_of_le (length_dropLink_le ps)
  · exact Nat.lt_succ_self _

/-- What stands for a page in Markdown, breaks apart. -/
def Page.markdown (p : Page) : List Char := markdownAll p.cutOff.spell p.pieces

/-- The text of a page. -/
def Page.content (p : Page) : List Char := p.pieces.flatMap Piece.content

/-! ## What its tokens say -/

theorem visible_written_ofChar (mode : Mode) (c : Char) :
    visible ((Token.ofChar c).written mode) = visible (mode.text [c]) := by
  unfold Token.ofChar
  split
  · next hc =>
    rw [mode.text_blank hc, visible_cons_blank hc]
    rfl
  · rfl

theorem visible_written_text (mode : Mode) (s : List Char) :
    visible ((s.map Token.ofChar).flatMap (Token.written mode)) = visible (mode.text s) := by
  induction s with
  | nil => cases mode <;> rfl
  | cons c s ih =>
    rw [List.map_cons, List.flatMap_cons, visible_append, ih, visible_written_ofChar,
      mode.text_cons c s, visible_append]

theorem visible_written_piece (p : Piece) (rest : List Char) :
    visible ((p.tokens rest).flatMap (Token.written .markdown)) = visible p.markdown := by
  cases p with
  | text s h => exact visible_written_text .markdown s
  | startTag t h => simp [Piece.tokens, Token.written, Piece.markdown, Mode.markup]
  | endTag t => simp [Piece.tokens, Token.written, Piece.markdown, Mode.markup]
  | _ => rfl

theorem visible_written_piece_plain (p : Piece) (rest : List Char) :
    visible ((p.tokens rest).flatMap (Token.written .plain)) = visible p.content := by
  cases p with
  | text s h => exact visible_written_text .plain s
  | _ => rfl

theorem visible_written_cutOff (mode : Mode) (e : CutOff) :
    visible (e.tokens.flatMap (Token.written mode)) = [] := by
  cases e <;> rfl

theorem visible_written_markdown (ps : List Piece) (rest : List Char) :
    visible ((markdownTokens rest ps).flatMap (Token.written .markdown)) =
      visible (markdownAll rest ps) := by
  fun_induction markdownTokens rest ps with
  | case1 => rw [markdownAll]; rfl
  | case2 p ps l after hlink ih =>
    rw [markdownAll, hlink, List.flatMap_cons, visible_append, ih, visible_append]
    rfl
  | case3 p ps hlink ih =>
    rw [markdownAll, hlink, List.flatMap_append, visible_append, ih, visible_written_piece,
      visible_append]

theorem visible_written_plain (ps : List Piece) (rest : List Char) :
    visible ((tokensAll rest ps).flatMap (Token.written .plain)) =
      visible (ps.flatMap Piece.content) := by
  induction ps with
  | nil => rfl
  | cons p ps ih =>
    rw [tokensAll, List.flatMap_append, visible_append, ih, visible_written_piece_plain,
      List.flatMap_cons, visible_append]

/-! ## Quotations among the tokens -/

theorem mem_of_mem_dropLink {p : Piece} {ps : List Piece} (h : p ∈ dropLink ps) : p ∈ ps :=
  (List.dropWhile_suffix _).subset (List.mem_of_mem_tail h)

theorem quotation_not_mem_tokens {p : Piece} (h : p.startsQuotation = false) (rest : List Char)
    (ahead : Bool) : .startTag .quotation ahead ∉ p.tokens rest := by
  cases p with
  | text s hs =>
    intro hmem
    obtain ⟨c, -, hc⟩ := List.mem_map.1 hmem
    unfold Token.ofChar at hc
    split at hc <;> cases hc
  | startTag t ht =>
    have hne : t.element ≠ .quotation := beq_eq_false_iff_ne.1 h
    simp [Piece.tokens, Ne.symm hne]
  | _ => simp [Piece.tokens]

theorem quotation_not_mem_markdownTokens {ps : List Piece}
    (h : ∀ p ∈ ps, p.startsQuotation = false) (rest : List Char) (ahead : Bool) :
    .startTag .quotation ahead ∉ markdownTokens rest ps := by
  fun_induction markdownTokens rest ps with
  | case1 => exact List.not_mem_nil
  | case2 p ps l after hlink ih =>
    rw [List.mem_cons, not_or]
    exact ⟨by simp, ih fun q hq => h q (List.mem_cons_of_mem p (mem_of_mem_dropLink hq))⟩
  | case3 p ps hlink ih =>
    rw [List.mem_append, not_or]
    exact ⟨quotation_not_mem_tokens (h p (List.mem_cons_self ..)) _ _,
      ih fun q hq => h q (List.mem_cons_of_mem p hq)⟩

theorem quotation_not_mem_cutOff (e : CutOff) (ahead : Bool) :
    .startTag .quotation ahead ∉ e.tokens := by
  cases e <;> simp [CutOff.tokens]

/-! ## What the output says -/

theorem ink_page_plain (p : Page) :
    (Draft.empty.addAll .plain (tokens .plain p.spell)).output.ink = visible p.content := by
  rw [Page.spell, tokens_spellAll (.inl rfl), tokens_cutOff, Draft.ink_addAll,
    List.flatMap_append, visible_append, visible_written_plain, visible_written_cutOff,
    List.append_nil]
  rfl

theorem ink_page (p : Page) :
    (Draft.empty.addAll .markdown (tokens .markdown p.spell)).output.ink = visible p.markdown := by
  rw [Page.spell, tokens_markdown, Draft.ink_addAll, List.flatMap_append, visible_append,
    visible_written_markdown, visible_written_cutOff, List.append_nil]
  rfl

theorem unmarked_empty (mode : Mode) : Draft.empty.Unmarked mode := ⟨List.not_mem_nil, .inr rfl⟩

theorem unmarked_page {p : Page} (h : ∀ q ∈ p.pieces, q.startsQuotation = false) :
    (Draft.empty.addAll .markdown (tokens .markdown p.spell)).Unmarked .markdown := by
  refine (unmarked_empty .markdown).addAll (.inr fun ahead => ?_)
  rw [Page.spell, tokens_markdown, List.mem_append, not_or]
  exact ⟨quotation_not_mem_markdownTokens h _ ahead, quotation_not_mem_cutOff _ ahead⟩

/--
No text is lost, doubled, moved or made up.  Blanks apart, plain mode gives the text of the page,
and Markdown gives what stands for the page in Markdown once some `>` are erased; there is nothing
to erase where no quotation starts.
-/
theorem nothing_is_lost (p : Page) :
    visible (convert { plainText := true } (String.ofList p.spell)).toList = visible p.content ∧
    Erased '>' (visible (convert {} (String.ofList p.spell)).toList) (visible p.markdown) ∧
    ((∀ q ∈ p.pieces, q.startsQuotation = false) →
      visible (convert {} (String.ofList p.spell)).toList = visible p.markdown) := by
  have hplain : (convert { plainText := true } (String.ofList p.spell)).toList =
      (Draft.empty.addAll .plain (tokens .plain p.spell)).output.finish :=
    toList_convert rfl rfl p.spell
  have hmarkdown : (convert {} (String.ofList p.spell)).toList =
      (Draft.empty.addAll .markdown (tokens .markdown p.spell)).output.finish :=
    toList_convert rfl rfl p.spell
  rw [hplain, hmarkdown, ← ink_page_plain, ← ink_page]
  refine ⟨?_, Output.erased_finish _, fun h => ?_⟩
  · exact Output.visible_finish_of_unmarked ((unmarked_empty .plain).addAll (.inl rfl)).unmarked
  · exact Output.visible_finish_of_unmarked (unmarked_page h).unmarked

end HtmlMarkdown
