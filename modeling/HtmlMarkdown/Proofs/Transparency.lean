import HtmlMarkdown.Proofs.Lookahead
import HtmlMarkdown.Proofs.Source.Lexing

/-!
# Constructs that leave no trace

Comments, other declarations and constructs without a name may be deleted from a page, as many of
them as one likes, and in plain mode the tags of elements inside a line as well: the page comes out
the same (`convert_leftOver`).

What stands behind such a construct is read in the same way without it, but for the quotations in
front, which then see another construct ahead.  Since looking ahead leaves no trace, it is enough to
compare the tokens with nothing said about what is ahead; and those that are deleted do nothing to a
draft.
-/

namespace HtmlMarkdown

/-- Whether a piece may be deleted. -/
def Piece.isTransparent (mode : Mode) : Piece → Bool
  | comment _ _ | declaration _ _ _ | nameless _ _ _ => true
  | startTag t _ | endTag t => mode == .plain && t.element.marker?.isSome
  | text _ _ | rawText _ _ _ _ => false

/-- The pieces `qs` are left over of `ps` when some that may be deleted are deleted. -/
inductive LeftOver (mode : Mode) : List Piece → List Piece → Prop where
  /-- Nothing is left of nothing. -/
  | nil : LeftOver mode [] []
  /-- A piece stays. -/
  | keep (p : Piece) {ps qs : List Piece} (h : LeftOver mode ps qs) :
    LeftOver mode (p :: ps) (p :: qs)
  /-- A piece is deleted. -/
  | delete {p : Piece} {ps qs : List Piece} (hp : p.isTransparent mode = true)
    (h : LeftOver mode ps qs) : LeftOver mode (p :: ps) qs

variable {mode : Mode} {ps qs : List Piece}

theorem LeftOver.subset (h : LeftOver mode ps qs) : qs ⊆ ps := by
  induction h with
  | nil => exact List.Subset.refl _
  | keep p _ ih => exact List.cons_subset_cons p ih
  | delete _ _ ih => exact List.subset_cons_of_subset _ ih

/-! ## Tokens with nothing said about what is ahead -/

/-- The tokens of a piece, whatever follows it. -/
def Piece.bareTokens (p : Piece) : List Token := (p.tokens []).map Token.withoutAhead

theorem Piece.map_withoutAhead_tokens (p : Piece) (rest : List Char) :
    (p.tokens rest).map Token.withoutAhead = p.bareTokens := by
  cases p <;> rfl

theorem map_withoutAhead_tokensAll (rest : List Char) (ps : List Piece) :
    (tokensAll rest ps).map Token.withoutAhead = ps.flatMap Piece.bareTokens := by
  induction ps with
  | nil => rfl
  | cons p ps ih =>
    rw [tokensAll, List.map_append, p.map_withoutAhead_tokens, ih, List.flatMap_cons]

theorem addAll_tokens_eq (hanchor : mode = .plain ∨ ∀ p ∈ ps, p.isAnchor = false)
    (rest : List Char) :
    Draft.empty.addAll mode (tokens mode (spellAll ps ++ rest)) =
      (Draft.empty.addAll mode (ps.flatMap Piece.bareTokens)).addAll mode
        ((tokens mode rest).map Token.withoutAhead) := by
  rw [← Draft.addAll_tokens_withoutAhead, tokens_spellAll hanchor, List.map_append,
    map_withoutAhead_tokensAll, Draft.addAll_append]

/-! ## Deleting -/

/-- A piece that may be deleted does nothing. -/
theorem Piece.addAll_bareTokens {p : Piece} (h : p.isTransparent mode = true) (d : Draft) :
    d.addAll mode p.bareTokens = d := by
  have htag : ∀ e : Element, (mode == .plain && e.marker?.isSome) = true →
      d.startTag mode e false = d ∧ d.endTag mode e = d := by
    intro e he
    rw [Bool.and_eq_true, beq_iff_eq] at he
    obtain ⟨rfl, hmarker⟩ := he
    cases e with
    | strong | emphasis | underline | span | anchor => exact ⟨rfl, rfl⟩
    | _ => cases hmarker
  cases p with
  | comment _ _ | declaration _ _ _ | nameless _ _ _ => rfl
  | startTag t _ => exact (htag t.element h).1
  | endTag t => exact (htag t.element h).2
  | text _ _ | rawText _ _ _ _ => cases h

theorem LeftOver.addAll_eq (h : LeftOver mode ps qs) (d : Draft) :
    d.addAll mode (ps.flatMap Piece.bareTokens) = d.addAll mode (qs.flatMap Piece.bareTokens) := by
  induction h generalizing d with
  | nil => rfl
  | keep p _ ih =>
    rw [List.flatMap_cons, List.flatMap_cons, Draft.addAll_append, Draft.addAll_append, ih]
  | delete hp _ ih =>
    rw [List.flatMap_cons, Draft.addAll_append, Piece.addAll_bareTokens hp, ih]

/--
A page comes out the same without some of its comments, declarations and constructs without a name,
and in plain mode without some tags of elements inside a line.  In Markdown no anchor may be opened,
since a link is read in one piece, which must not have a construct inside.
-/
theorem convert_leftOver {o : Options} (hdecode : o.decodeReferences = false)
    (hkeep : o.keepTagless = false) {page : Page}
    (hanchor : o.mode = .plain ∨ ∀ p ∈ page.pieces, p.isAnchor = false) {qs : List Piece}
    (h : LeftOver o.mode page.pieces qs) :
    convert o (String.ofList page.spell) =
      convert o (String.ofList (Page.spell ⟨qs, page.cutOff⟩)) := by
  have hanchor' : o.mode = .plain ∨ ∀ p ∈ qs, p.isAnchor = false :=
    hanchor.imp_right fun hno p hp => hno p (h.subset hp)
  have hdraft : Draft.empty.addAll o.mode (tokens o.mode page.spell) =
      Draft.empty.addAll o.mode (tokens o.mode (Page.spell ⟨qs, page.cutOff⟩)) := by
    rw [Page.spell, Page.spell, addAll_tokens_eq hanchor, addAll_tokens_eq hanchor', h.addAll_eq]
  apply String.toList_inj.1
  rw [toList_convert hdecode hkeep, toList_convert hdecode hkeep]
  exact congrArg (Output.finish ∘ Draft.output) hdraft

/-- A quotation with a comment in front of what it would see ahead. -/
def commentedQuotation : Page where
  pieces := [
    .startTag (bareTag "blockquote".toList (by decide)) (by decide),
    .comment ['x'] (by decide),
    .startTag (bareTag ['p'] (by decide)) (by decide),
    .startTag (bareTag ['b'] (by decide)) (by decide),
    .text ['y'] (by decide)]
  cutOff := .none

/-- Without the comment the quotation sees the paragraph ahead; in plain text `<b>` goes as well. -/
theorem convert_leftOver_commentedQuotation :
    convert {} "<blockquote><!--x--><p><b>y" = convert {} "<blockquote><p><b>y" ∧
      convert { plainText := true } "<blockquote><!--x--><p><b>y" =
        convert { plainText := true } "<blockquote><p>y" := by
  have hpage : String.ofList commentedQuotation.spell = "<blockquote><!--x--><p><b>y" := by decide
  have hmarkdown : LeftOver .markdown commentedQuotation.pieces
      (commentedQuotation.pieces.eraseIdx 1) :=
    .keep _ (.delete rfl (.keep _ (.keep _ (.keep _ .nil))))
  have hplain : LeftOver .plain commentedQuotation.pieces
      ((commentedQuotation.pieces.eraseIdx 1).eraseIdx 2) :=
    .keep _ (.delete rfl (.keep _ (.delete rfl (.keep _ .nil))))
  have hanchor : ∀ p ∈ commentedQuotation.pieces, p.isAnchor = false := by decide
  have hfirst := @convert_leftOver {} rfl rfl _ (.inr hanchor) _ hmarkdown
  have hsecond := @convert_leftOver { plainText := true } rfl rfl _ (.inl rfl) _ hplain
  rw [hpage] at hfirst hsecond
  exact ⟨hfirst.trans (congrArg _ (by decide)), hsecond.trans (congrArg _ (by decide))⟩

end HtmlMarkdown
