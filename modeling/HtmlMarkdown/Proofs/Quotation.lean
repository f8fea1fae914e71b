import HtmlMarkdown.Convert
import HtmlMarkdown.Proofs.Draft.Mirror
import HtmlMarkdown.Proofs.Source.Lexing

/-!
# Quoting commutes with conversion

A fragment of pieces that can stand in a quotation is converted to the same Markdown inside a
quotation and outside, but for the `> ` in front of every line.  The pieces may come in any order,
and their tags need not match.
-/

namespace HtmlMarkdown

open Text Output

/-! ## Fragments -/

/-- Whether a piece can stand in a quotation. -/
def Piece.quotable : Piece → Bool
  | startTag t _ => t.element.quotable
  | endTag t => t.element.quotable
  | _ => true

theorem Piece.isAnchor_of_quotable {p : Piece} (h : p.quotable = true) : p.isAnchor = false := by
  cases p with
  | startTag t ht =>
    apply beq_eq_false_iff_ne.2
    intro he
    rw [quotable, he] at h
    cases h
  | _ => rfl

theorem Token.Quotable.ofChar (c : Char) : (Token.ofChar c).Quotable := by
  unfold Token.ofChar
  split
  · exact .blank
  · next hc => exact .char (Bool.eq_false_iff.2 hc)

theorem Piece.quotable_tokens {p : Piece} (h : p.quotable = true) (rest : List Char) :
    ∀ t ∈ p.tokens rest, t.Quotable := by
  intro t ht
  cases p with
  | text s hs =>
    obtain ⟨c, -, rfl⟩ := List.mem_map.1 ht
    exact .ofChar c
  | comment s hs => cases List.mem_singleton.1 ht; exact .declaration
  | declaration s hopen hs => cases List.mem_singleton.1 ht; exact .declaration
  | nameless s hopen hs => cases List.mem_singleton.1 ht; exact .nameless
  | startTag tag htag => cases List.mem_singleton.1 ht; exact .startTag h _
  | endTag tag => cases List.mem_singleton.1 ht; exact .endTag h
  | rawText kind tag htag r => cases List.mem_singleton.1 ht; exact .rawText kind

theorem quotable_tokensAll {ps : List Piece} (h : ∀ p ∈ ps, p.quotable = true)
    (rest : List Char) : ∀ t ∈ tokensAll rest ps, t.Quotable := by
  induction ps with
  | nil => simp [tokensAll]
  | cons p ps ih =>
    intro t ht
    rcases List.mem_append.1 ht with ht | ht
    · exact p.quotable_tokens (h p (List.mem_cons_self ..)) _ t ht
    · exact ih (fun q hq => h q (List.mem_cons_of_mem p hq)) t ht

/-- The tokens of a fragment do not depend on what follows it. -/
theorem tokensAll_eq_of_quotable {ps : List Piece} (h : ∀ p ∈ ps, p.quotable = true)
    (r s : List Char) : tokensAll r ps = tokensAll s ps := by
  induction ps with
  | nil => rfl
  | cons p ps ih =>
    have hp : ∀ u v, p.tokens u = p.tokens v := by
      intro u v
      cases p with
      | startTag t ht =>
        have hne : (t.element == .quotation) = false := by
          apply beq_eq_false_iff_ne.2
          intro he
          have hq : t.element.quotable = true := h _ (List.mem_cons_self ..)
          rw [he] at hq
          cases hq
        rw [Piece.tokens, Piece.tokens, hne]
        rfl
      | _ => rfl
    rw [tokensAll, tokensAll, hp _ (spellAll ps ++ s), ih fun q hq => h q (List.mem_cons_of_mem p hq)]

/-! ## The two drafts -/

namespace Draft

theorem mirrors_quotation (ahead : Bool) :
    empty.Mirrors (empty.startTag .markdown .quotation ahead) := by
  cases ahead with
  | true => exact ⟨.start, rfl, rfl⟩
  | false => exact ⟨.start, rfl, rfl⟩

/-- The quoted text, once the quotation is left. -/
theorem Mirrors.finish_leaveQuotation {d e : Draft} (h : d.Mirrors e) (hne : d.output.finish ≠ []) :
    e.leaveQuotation.output.finish = quoteLines d.output.finish := by
  obtain ⟨⟨p⟩, ctx⟩ := d
  obtain ⟨⟨q⟩, ctx'⟩ := e
  have hglyphs : Mirror p q := h.glyphs
  cases hglyphs with
  | start => exact absurd rfl hne
  | ink hc n hpq =>
    rw [leaveQuotation_breaks hc, hpq.finish hc (blank_written_breaks n) (written_append ..)]
    exact hpq.finish_quoted hc rfl
  | space hc hpq =>
    have hfinish : (⟨.char ' ' :: .char _ :: _⟩ : Output).finish = written (.char _ :: _) :=
      hpq.finish hc (b := [' ']) (List.all_eq_true.1 (by decide)) (written_cons ..)
    rw [leaveQuotation_space hc, hfinish]
    exact hpq.finish_quoted hc rfl

end Draft

/-- The tags of a quotation without attributes. -/
def quotationTag : SpelledTag where
  name := "blockquote".toList
  rest := []
  name_start := by decide
  name_chars := List.all_eq_true.1 (by decide)
  rest_start := SpelledTag.rest_start_nil
  rest_open := SpelledTag.rest_open_nil

/-- A fragment between the tags of a quotation. -/
def inQuotation (ps : List Piece) : List Piece :=
  .startTag quotationTag (by decide) :: ps ++ [.endTag quotationTag]

theorem toList_convert_fragment {ps : List Piece} (h : ∀ p ∈ ps, p.quotable = true) :
    (convert {} (String.ofList (spellAll ps))).toList =
      (Draft.empty.addAll .markdown (tokensAll [] ps)).output.finish := by
  have htokens := tokens_of_no_anchor fun p hp => Piece.isAnchor_of_quotable (h p hp)
  rw [toList_convert rfl rfl]
  show render .markdown (tokens .markdown (spellAll ps)) = _
  rw [htokens]
  rfl

theorem tokens_inQuotation {ps : List Piece} (h : ∀ p ∈ ps, p.quotable = true) :
    ∃ ahead, tokens .markdown (spellAll (inQuotation ps)) =
      .startTag .quotation ahead :: (tokensAll [] ps ++ [.endTag .quotation]) := by
  have hpage : ∀ p ∈ inQuotation ps, p.isAnchor = false := by
    intro p hp
    rcases List.mem_cons.1 hp with rfl | hp
    · decide
    · rcases List.mem_append.1 hp with hp | hp
      · exact Piece.isAnchor_of_quotable (h p hp)
      · rw [List.mem_singleton.1 hp]
        rfl
  have htokens := tokens_of_no_anchor hpage
  have hfragment := tokensAll_eq_of_quotable h
  have hquotation : quotationTag.element = .quotation := by decide
  refine ⟨Token.quotableAhead (spellAll (ps ++ [.endTag quotationTag]) ++ []), ?_⟩
  rw [htokens, inQuotation, List.cons_append, tokensAll, tokensAll_append, hfragment _ []]
  simp only [tokensAll, Piece.tokens, hquotation, List.singleton_append]
  rfl

/--
Quoting commutes with conversion: between the tags of a quotation, a fragment that is not converted
to nothing is converted to its Markdown with the lines quoted.
-/
theorem convert_quotation (ps : List Piece) (h : ∀ p ∈ ps, p.quotable = true)
    (hne : convert {} (String.ofList (spellAll ps)) ≠ "") :
    convert {} ("<blockquote>" ++ String.ofList (spellAll ps) ++ "</blockquote>") =
      String.ofList (quoteLines (convert {} (String.ofList (spellAll ps))).toList) := by
  obtain ⟨ahead, htokens⟩ := tokens_inQuotation h
  have hmirrors := (Draft.mirrors_quotation ahead).addAll (quotable_tokensAll h [])
  have hspell : "<blockquote>" ++ String.ofList (spellAll ps) ++ "</blockquote>" =
      String.ofList (spellAll (inQuotation ps)) := by
    have hopen : "<blockquote>".toList = (Piece.startTag quotationTag (by decide)).spell := by decide
    have hclose : "</blockquote>".toList = spellAll [.endTag quotationTag] := by decide
    apply String.toList_inj.1
    rw [String.toList_append, String.toList_append, hopen, hclose, String.toList_ofList,
      String.toList_ofList, inQuotation, spellAll_append]
    rfl
  have hfragment := toList_convert_fragment h
  have hquoted : (convert {} (String.ofList (spellAll (inQuotation ps)))).toList =
      ((Draft.empty.startTag .markdown .quotation ahead).addAll .markdown
        (tokensAll [] ps)).leaveQuotation.output.finish := by
    rw [toList_convert rfl rfl]
    show render .markdown (tokens .markdown (spellAll (inQuotation ps))) = _
    rw [htokens, render, Draft.addAll_cons, Draft.addAll_append]
    rfl
  have hfinish : (Draft.empty.addAll .markdown (tokensAll [] ps)).output.finish ≠ [] := by
    intro hnil
    rw [← hfragment] at hnil
    exact hne (String.toList_inj.1 hnil)
  rw [hspell, hfragment, ← hmirrors.finish_leaveQuotation hfinish, ← hquoted, String.ofList_toList]

/-- A text, and a paragraph that is not closed. -/
def openParagraph : List Piece := [
  .text ['a'] (by decide),
  .startTag ⟨['P'], [' ', 'x'], by decide, List.all_eq_true.1 (by decide),
    SpelledTag.rest_start_space ['x'], by decide⟩ (by decide),
  .text ['b'] (by decide)]

theorem convert_quotation_openParagraph :
    convert {} ("<blockquote>" ++ String.ofList (spellAll openParagraph) ++ "</blockquote>") =
      "> a\r\n> \r\n> b" := by
  have hquotable : ∀ p ∈ openParagraph, p.quotable = true := by decide
  have hconvert : (convert {} (String.ofList (spellAll openParagraph))).toList =
      ['a', '\r', '\n', '\r', '\n', 'b'] := by
    rw [toList_convert_fragment hquotable]
    decide
  have hne : convert {} (String.ofList (spellAll openParagraph)) ≠ "" := by
    intro h
    rw [h] at hconvert
    cases hconvert
  rw [convert_quotation openParagraph hquotable hne, hconvert]
  decide

end HtmlMarkdown
