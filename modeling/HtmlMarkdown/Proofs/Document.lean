import HtmlMarkdown.Convert
import HtmlMarkdown.Proofs.Draft.Settled
import HtmlMarkdown.Proofs.Source.Ahead
import HtmlMarkdown.Proofs.Source.Document

/-!
# Block documents in Markdown

A block document is converted to what it says in Markdown, however its tags are spelled.  Each block
opens behind whatever breaks the blocks before it have left, and leaves two breaks behind its own
text, or one if it is a quotation; so the blocks of a document can be taken one after the other.
-/

namespace HtmlMarkdown

open Text Output

/-! ## Tokens -/

theorem element_startPiece {e : Element} (t : TagOf e) (h : e.isRaw = false)
    (rest : List Char) :
    (t.startPiece h).tokens rest =
      [.startTag e (e == .quotation && Token.quotableAhead rest)] := by
  rw [TagOf.startPiece, Piece.tokens, t.element_eq]

theorem element_endPiece {e : Element} (t : TagOf e) (rest : List Char) :
    t.endPiece.tokens rest = [.endTag e] := by
  rw [TagOf.endPiece, Piece.tokens, t.element_eq]

theorem tokensAll_textBlock {e : Element} (b : TextBlock e) (h : e.isRaw = false)
    (he : (e == .quotation) = false) (rest : List Char) :
    tokensAll rest (b.pieces h) =
      .startTag e false :: (b.passage.text.map Token.ofChar ++ [.endTag e]) := by
  rw [TextBlock.pieces, tokensAll, tokensAll, tokensAll, tokensAll, element_startPiece,
    element_endPiece, he]
  rfl

namespace Draft

variable {quoted : Bool} {t : List Char} {d : Draft}

theorem addAll_gap (h : d.output.endsInSpacing = true) (g : Gap) :
    d.addAll .markdown (g.text.map Token.ofChar) = d := by
  have hnil : prose g.text = [] := by
    rw [prose, collapse, (words_eq_nil_iff g.text).2 g.blank]
    rfl
  have hread := addAll_prose h g.text
  rw [HasRead, hnil] at hread
  rcases hread with hread | hread
  · exact hread
  · exact hread.trans (space_of_endsInSpacing h)

theorem addAll_gap_cons (h : d.output.endsInSpacing = true) (g : Gap) (rest : List Char)
    (ps : List Piece) :
    d.addAll .markdown (tokensAll rest (g.piece :: ps)) = d.addAll .markdown (tokensAll rest ps) := by
  rw [tokensAll, addAll_append]
  show (d.addAll .markdown (g.text.map Token.ofChar)).addAll .markdown _ = _
  rw [addAll_gap h]

theorem addAll_gap_append (h : d.output.endsInSpacing = true) (g : Gap) (rest : List Char)
    (ps qs : List Piece) :
    d.addAll .markdown (tokensAll rest (g.piece :: (ps ++ qs))) =
      (d.addAll .markdown (tokensAll (spellAll qs ++ rest) ps)).addAll .markdown
        (tokensAll rest qs) := by
  rw [addAll_gap_cons h, tokensAll_append, addAll_append]

end Draft

/-! ## Blocks -/

theorem Passage.words_ne_nil (p : Passage) : words p.text ≠ [] := by
  obtain ⟨c, hc, hink⟩ := p.word
  exact words_ne_nil_of_mem hc hink

/-- The number of breaks that a block asks for. -/
def Flow.lines : Flow → Nat
  | rule _ => 1
  | _ => 2

theorem Flow.lines_pos (f : Flow) : 0 < f.lines := by
  cases f <;> simp [lines]

theorem Flow.lines_le (f : Flow) : f.lines ≤ 2 := by
  cases f <;> simp [lines]

theorem Flow.feed_not_mem_markdown (f : Flow) : '\n' ∉ f.markdown := by
  cases f with
  | paragraph b => exact feed_not_mem_prose _
  | division b => exact feed_not_mem_prose _
  | heading rank b =>
    simp only [markdown, List.mem_append, List.mem_cons, not_or]
    refine ⟨fun h => ?_, by decide, feed_not_mem_prose _⟩
    cases List.eq_of_mem_replicate h
  | rule t =>
    show '\n' ∉ "* * *".toList
    decide

namespace Draft

variable {quoted : Bool} {t : List Char} {d : Draft}

/-- A block that can stand in a quotation is written behind the breaks it asks for. -/
theorem Opens.flow {f : Flow} (h : d.Opens quoted f.lines t) (rest : List Char) :
    (d.addAll .markdown (tokensAll rest f.pieces)).Settled quoted 2 (t ++ f.markdown) := by
  cases f with
  | paragraph b =>
    rw [Flow.pieces, tokensAll_textBlock b rfl rfl]
    exact Opens.textBlock (e := .paragraph) (s := ⟨false, 2, true⟩) rfl rfl (.inl rfl) h
      b.passage.words_ne_nil
  | division b =>
    rw [Flow.pieces, tokensAll_textBlock b rfl rfl]
    exact Opens.textBlock (e := .division) (s := ⟨false, 2, true⟩) rfl rfl (.inl rfl) h
      b.passage.words_ne_nil
  | heading rank b =>
    have hopener : (Element.heading rank).opener ++ prose b.passage.text =
        (Flow.heading rank b).markdown := by
      rw [Flow.markdown]
      exact List.append_assoc ..
    rw [Flow.pieces, tokensAll_textBlock b rfl rfl, ← hopener]
    exact Opens.textBlock (e := .heading rank) (s := ⟨false, 2, true⟩) rfl rfl (.inl rfl) h
      b.passage.words_ne_nil
  | rule tag =>
    rw [Flow.pieces, tokensAll, element_startPiece]
    exact h.rule false

/-- Blocks behind others in a quotation. -/
theorem Settled.flows (h : d.Settled quoted 2 t) (flows : List (Gap × Flow)) (rest : List Char) :
    (d.addAll .markdown (tokensAll rest (flows.flatMap fun f => f.1.piece :: f.2.pieces))).Settled
      quoted 2 (t ++ flows.flatMap fun f => written (breaks quoted 2) ++ f.2.markdown) := by
  induction flows generalizing d t with
  | nil => simpa [tokensAll] using h
  | cons f flows ih =>
    have hopens := h.opens f.2.lines_pos
    rw [Nat.max_eq_right f.2.lines_le] at hopens
    rw [List.flatMap_cons, List.flatMap_cons, List.cons_append,
      addAll_gap_append (h.endsInSpacing (by decide)), ← List.append_assoc, ← List.append_assoc]
    exact ih (hopens.flow _)

/-- Items behind others in a list. -/
theorem Settled.items (h : d.Settled false 1 t) (items : List (Gap × TextBlock .item))
    (rest : List Char) :
    (d.addAll .markdown
      (tokensAll rest (items.flatMap fun i => i.1.piece :: i.2.pieces (by decide)))).Settled
      false 1 (t ++ items.flatMap fun i => newLine ++ ("*   ".toList ++ prose i.2.passage.text)) := by
  induction items generalizing d t with
  | nil => simpa [tokensAll] using h
  | cons i items ih =>
    have hopens := h.opens (n := 1) (by decide)
    have hitem := Opens.textBlock (e := .item) (s := ⟨false, 1, false⟩) rfl rfl (.inr rfl)
      hopens i.2.passage.words_ne_nil
    rw [List.flatMap_cons, List.flatMap_cons, List.cons_append,
      addAll_gap_append (h.endsInSpacing (by decide)), tokensAll_textBlock i.2 rfl rfl,
      ← List.append_assoc, ← List.append_assoc]
    exact ih hitem

/-- The items of a list, behind its start. -/
theorem Opens.items (h : d.Opens false 1 t) (hspacing : d.output.endsInSpacing = true)
    {items : List (Gap × TextBlock .item)} (hne : items ≠ []) (rest : List Char) :
    (d.addAll .markdown
      (tokensAll rest (items.flatMap fun i => i.1.piece :: i.2.pieces (by decide)))).Settled
      false 1 (t ++ newLine.intercalate (items.map fun i =>
        "*   ".toList ++ prose i.2.passage.text)) := by
  obtain ⟨i, items, rfl⟩ := List.exists_cons_of_ne_nil hne
  have hitem := Opens.textBlock (e := .item) (s := ⟨false, 1, false⟩) rfl rfl (.inr rfl)
    h i.2.passage.words_ne_nil
  rw [List.flatMap_cons, List.cons_append, addAll_gap_append hspacing,
    tokensAll_textBlock i.2 rfl rfl, List.map_cons, intercalate_cons, List.flatMap_map,
    ← List.append_assoc]
  exact Settled.items hitem items rest

theorem Settled.endList (h : d.Settled false 1 t) {e : Element} (he : e.isList = true) :
    (d.endTag .markdown e).Settled false 2 t := by
  have hclose : ({ d with context := d.context.close true } : Draft).Settled false 1 t :=
    ⟨h.glyphs, rfl⟩
  have hsep : (({ d with context := d.context.close true } : Draft).separate .markdown 2 false
      true).Settled false 2 t := hclose.separate (Nat.zero_lt_succ 1) (.inr rfl) true
  obtain rfl | rfl := Element.eq_of_isList he
  · exact hsep
  · exact hsep

theorem startTag_list {e : Element} (he : e.isList = true) (d : Draft) :
    d.startTag .markdown e false = ⟨d.output.setOff false 2, d.context.openBlock e⟩ := by
  obtain rfl | rfl := Element.eq_of_isList he
  · exact @separate_eq ⟨d.output, _⟩ false (.inr rfl) 2 false
  · exact @separate_eq ⟨d.output, _⟩ false (.inr rfl) 2 false

/-- The breaks before a list are those before its first item. -/
theorem Opens.startList (h : d.Opens false 2 t) {e : Element} (he : e.isList = true) :
    (d.startTag .markdown e false).Opens false 1 t := by
  have hstable := h.stable 1 (by decide) (by decide)
  have hplace : (d.context.openBlock e).inQuotation = false := by
    obtain rfl | rfl := Element.eq_of_isList he <;> rfl
  rw [startTag_list he]
  refine ⟨?_, fun m hm hm' => ?_, ?_, hplace⟩
  · rw [hstable]
    exact h.spacing
  · rw [hstable]
    exact h.stable m hm (by omega)
  · rw [hstable]
    exact h.text

/-- A list. -/
theorem Opens.list (h : d.Opens false 2 t) {e : Element} (he : e.isList = true) (start : TagOf e)
    {items : List (Gap × TextBlock .item)} (hne : items ≠ []) (gap : Gap) (stop : TagOf e)
    (rest : List Char) :
    (d.addAll .markdown (tokensAll rest (Block.list e he start items hne gap stop).pieces)).Settled
      false 2 (t ++ (Block.list e he start items hne gap stop).markdown) := by
  have hquotation : (e == .quotation) = false := by
    obtain rfl | rfl := Element.eq_of_isList he <;> rfl
  have hspacing : (d.startTag .markdown e false).output.endsInSpacing = true := by
    rw [startTag_list he]
    exact h.spacing
  have hitems := (h.startList he).items hspacing hne (spellAll [gap.piece, stop.endPiece] ++ rest)
  have htokens : tokensAll rest (Block.list e he start items hne gap stop).pieces =
      .startTag e false :: (tokensAll (spellAll [gap.piece, stop.endPiece] ++ rest)
        (items.flatMap fun i => i.1.piece :: i.2.pieces (by decide)) ++
          tokensAll rest [gap.piece, stop.endPiece]) := by
    rw [Block.pieces, tokensAll, element_startPiece, hquotation, tokensAll_append]
    rfl
  rw [htokens, addAll_cons, addAll_append]
  show Settled _ _ _ (addAll _ (addAll _ (d.startTag .markdown e false) _) _)
  rw [addAll_gap_cons (hitems.endsInSpacing (by decide)), tokensAll, tokensAll, element_endPiece]
  exact hitems.endList he

/-- The blocks of a quotation, behind its start, and the end of it. -/
theorem Opens.quotation {flows : List (Gap × Flow)} (hne : flows ≠ [])
    (h : ∀ f ∈ flows.head?, d.Opens true f.2.lines (t ++ ['>', ' ']))
    (hspacing : d.output.endsInSpacing = true) (gap : Gap) (stop : TagOf .quotation)
    (rest : List Char) :
    (d.addAll .markdown (tokensAll rest
      (flows.flatMap (fun f => f.1.piece :: f.2.pieces) ++ [gap.piece, stop.endPiece]))).Settled
      false 1 (t ++ quoteLines ((newLine ++ newLine).intercalate (flows.map (·.2.markdown)))) := by
  obtain ⟨f, flows, rfl⟩ := List.exists_cons_of_ne_nil hne
  have hflow := fun r => (h f rfl).flow r
  have hfeed : ∀ l ∈ f.2.markdown :: flows.map (·.2.markdown), '\n' ∉ l := by
    rw [← List.map_cons (f := fun g : Gap × Flow => g.2.markdown)]
    intro l hl
    obtain ⟨g, -, rfl⟩ := List.mem_map.1 hl
    exact g.2.feed_not_mem_markdown
  have hflows := fun r => (hflow r).flows flows (spellAll [gap.piece, stop.endPiece] ++ rest)
  have htext : t ++ quoteLines ((newLine ++ newLine).intercalate
      ((f :: flows).map (·.2.markdown))) = t ++ ['>', ' '] ++ f.2.markdown ++
        flows.flatMap fun f => written (breaks true 2) ++ f.2.markdown := by
    have hbreaks : written (breaks true 2) = newLine ++ ['>', ' '] ++ newLine ++ ['>', ' '] := rfl
    rw [hbreaks, List.map_cons, quoteLines_intercalate hfeed, List.flatMap_map]
    simp only [List.append_assoc]
  rw [List.flatMap_cons, List.cons_append, List.cons_append, List.append_assoc,
    addAll_gap_append hspacing, tokensAll_append, addAll_append,
    addAll_gap_cons ((hflows _).endsInSpacing (by decide)), tokensAll, tokensAll,
    element_endPiece, htext]
  exact (hflows _).leaveQuotation

end Draft

/-! ## Sequences of blocks -/

/-- The number of breaks that a block leaves. -/
def Block.breaks : Block → Nat
  | quotation .. => 1
  | _ => 2

theorem Block.breaks_pos (b : Block) : 0 < b.breaks := by
  cases b <;> simp [breaks]

/-- A quotation that starts with a rule sees no quotable break ahead. -/
theorem lines_of_quotableAhead {g : Gap} {f : Flow} {ps : List Piece} {rest : List Char}
    (h : Token.quotableAhead (spellAll (g.piece :: (f.pieces ++ ps)) ++ rest) = true) :
    f.lines = 2 := by
  cases f with
  | rule tag =>
    have hspell : spellAll (g.piece :: ((Flow.rule tag).pieces ++ ps)) ++ rest =
        g.text ++ '<' :: (tag.tag.inner ++ '>' :: (spellAll ps ++ rest)) := by
      simp [Flow.pieces, Gap.piece, TagOf.startPiece, Piece.spell]
    rw [hspell] at h
    have hquotable := quotableAhead_tag g.blank tag.tag _ h
    rw [tag.element_eq] at hquotable
    cases hquotable
  | _ => rfl

namespace Draft

variable {t : List Char} {d : Draft}

theorem tokensAll_quotation (start stop : TagOf .quotation) {flows : List (Gap × Flow)}
    (hne : flows ≠ []) (gap : Gap) (rest : List Char) :
    ∃ ahead, (ahead = true → ∀ f ∈ flows.head?, f.2.lines = 2) ∧
      tokensAll rest (Block.quotation start flows hne gap stop).pieces =
        .startTag .quotation ahead :: tokensAll rest
          (flows.flatMap (fun f => f.1.piece :: f.2.pieces) ++ [gap.piece, stop.endPiece]) := by
  refine ⟨Token.quotableAhead (spellAll (flows.flatMap (fun f => f.1.piece :: f.2.pieces) ++
    [gap.piece, stop.endPiece]) ++ rest), fun h f hf => ?_, ?_⟩
  · obtain ⟨g, flows, rfl⟩ := List.exists_cons_of_ne_nil hne
    cases hf
    rw [List.flatMap_cons, List.cons_append, List.cons_append, List.append_assoc] at h
    exact lines_of_quotableAhead h
  · rw [Block.pieces, tokensAll, element_startPiece]
    rfl

/-- The first block of a page. -/
theorem settled_block (h : d.output = .empty) (hplace : d.context.inQuotation = false) (b : Block)
    (rest : List Char) :
    ∃ a, (∀ c ∈ a, isBlank c = true) ∧
      (d.addAll .markdown (tokensAll rest b.pieces)).Settled false b.breaks (a ++ b.markdown) := by
  cases b with
  | flow f => exact ⟨[], by simp, (opens_start h hplace f.lines).flow rest⟩
  | list e he start items hne gap stop =>
    exact ⟨[], by simp, (opens_start h hplace 2).list he start hne gap stop rest⟩
  | quotation start flows hne gap stop =>
    obtain ⟨ahead, -, htokens⟩ := tokensAll_quotation start stop hne gap rest
    refine ⟨newLine, List.all_eq_true.1 (by decide), ?_⟩
    have hspacing : (d.startTag .markdown .quotation ahead).output.endsInSpacing = true := by
      rw [startTag_quotation, h]
      cases ahead <;> rfl
    rw [htokens, addAll_cons]
    exact Opens.quotation hne
      (fun f _ => opens_quotation_start h ahead f.2.lines_pos f.2.lines_le) hspacing gap stop rest

/-- A quotation behind another block. -/
theorem Settled.opens_block {b : Block} (h : d.Settled false b.breaks t) {ahead : Bool} {f : Flow}
    (hf : ahead = true → f.lines = 2) {start stop : TagOf .quotation} {flows : List (Gap × Flow)}
    {hne : flows ≠ []} {gap : Gap} :
    (d.startTag .markdown .quotation ahead).Opens true f.lines
      (t ++ b.separator (.quotation start flows hne gap stop) ++ ['>', ' ']) := by
  cases b with
  | quotation start' flows' hne' gap' stop' =>
    -- One of the two breaks may be left to the first block, but only if that one asks for both.
    have hopens := (h.settled_quotation ahead).opens f.lines_pos
    have hmax : max f.lines (if ahead then 1 else 2) = 2 := by
      cases ahead with
      | true => simp [hf rfl]
      | false => exact Nat.max_eq_right f.lines_le
    rw [hmax] at hopens
    rw [List.append_assoc]
    exact hopens
  | flow g =>
    rw [List.append_assoc]
    exact Settled.opens_quotation h ahead f.lines_pos f.lines_le
  | list e he start' items hne' gap' stop' =>
    rw [List.append_assoc]
    exact Settled.opens_quotation h ahead f.lines_pos f.lines_le

/-- A block behind another. -/
theorem Settled.block {b : Block} (h : d.Settled false b.breaks t) (c : Block)
    (rest : List Char) :
    (d.addAll .markdown (tokensAll rest c.pieces)).Settled false c.breaks
      (t ++ b.separator c ++ c.markdown) := by
  cases c with
  | flow f =>
    -- The breaks that `b` has left count, and the block adds those that it asks for beyond them.
    have hopens := h.opens f.lines_pos
    have hseparator : written (Output.breaks false (max f.lines b.breaks)) =
        b.separator (.flow f) := by
      cases b <;> cases f <;> rfl
    rw [hseparator] at hopens
    exact hopens.flow rest
  | list e he start items hne gap stop =>
    have hopens := h.opens (n := 2) (by decide)
    have hseparator : written (Output.breaks false (max 2 b.breaks)) =
        b.separator (.list e he start items hne gap stop) := by
      cases b <;> rfl
    rw [hseparator] at hopens
    exact hopens.list he start hne gap stop rest
  | quotation start flows hne gap stop =>
    obtain ⟨ahead, hahead, htokens⟩ := tokensAll_quotation start stop hne gap rest
    rw [htokens, addAll_cons]
    exact Opens.quotation hne (fun f hf => h.opens_block fun h' => hahead h' f hf)
      (h.endsInSpacing_quotation b.breaks_pos ahead) gap stop rest

/-- All blocks behind the first. -/
theorem Settled.blocks {b : Block} {u : List Char} (h : d.Settled false b.breaks (u ++ b.markdown))
    (bs : List (Gap × Block)) (rest : List Char) :
    ∃ n, 0 < n ∧
      (d.addAll .markdown (tokensAll rest (bs.flatMap fun b => b.1.piece :: b.2.pieces))).Settled
        false n (u ++ blocksMarkdown (b :: bs.map (·.2))) := by
  induction bs generalizing b u d with
  | nil => exact ⟨b.breaks, b.breaks_pos, h⟩
  | cons c bs ih =>
    have htext : u ++ blocksMarkdown (b :: (c :: bs).map (·.2)) =
        u ++ b.markdown ++ b.separator c.2 ++ blocksMarkdown (c.2 :: bs.map (·.2)) := by
      rw [List.map_cons, blocksMarkdown]
      simp only [List.append_assoc]
    rw [List.flatMap_cons, List.cons_append, addAll_gap_append (h.endsInSpacing b.breaks_pos),
      htext]
    exact ih (h.block c.2 _)

end Draft

/-! ## The Markdown of a document -/

theorem Flow.inked_markdown (f : Flow) : Inked f.markdown := by
  cases f with
  | paragraph b => exact inked_prose b.passage.words_ne_nil
  | division b => exact inked_prose b.passage.words_ne_nil
  | heading rank b =>
    have hmarks : Inked (List.replicate (rank.val + 1) '#') := by
      apply inked_of_ink (by simp)
      intro c hc
      rw [List.eq_of_mem_replicate hc]
      decide
    have happend := hmarks.append (inked_prose b.passage.words_ne_nil) [' ']
    rwa [List.append_assoc] at happend
  | rule t =>
    show Inked "* * *".toList
    exact ⟨by decide, by decide⟩

theorem Block.inked_markdown (b : Block) : Inked b.markdown := by
  cases b with
  | flow f => exact f.inked_markdown
  | list e he start items hne gap stop =>
    apply inked_intercalate newLine (by simpa using hne)
    intro w hw
    obtain ⟨i, -, rfl⟩ := List.mem_map.1 hw
    have hmark : Inked ['*'] := ⟨by decide, by decide⟩
    exact hmark.append (inked_prose i.2.passage.words_ne_nil) [' ', ' ', ' ']
  | quotation start flows hne gap stop =>
    apply Inked.quoteLines
    apply inked_intercalate _ (by simpa using hne)
    intro w hw
    obtain ⟨f, -, rfl⟩ := List.mem_map.1 hw
    exact f.2.inked_markdown

theorem inked_blocksMarkdown (b : Block) (bs : List Block) : Inked (blocksMarkdown (b :: bs)) := by
  induction bs generalizing b with
  | nil => exact b.inked_markdown
  | cons c bs ih => exact b.inked_markdown.append (ih c) _

/-! ## Whole documents -/

theorem TagOf.isAnchor_startPiece {e : Element} (t : TagOf e) (h : e.isRaw = false)
    (he : (e == .anchor) = false) : (t.startPiece h).isAnchor = false := by
  rw [startPiece, Piece.isAnchor, t.element_eq, he]

theorem TextBlock.isAnchor_pieces {e : Element} (b : TextBlock e) (h : e.isRaw = false)
    (he : (e == .anchor) = false) : ∀ p ∈ b.pieces h, p.isAnchor = false := by
  intro p hp
  simp only [pieces, List.mem_cons, List.not_mem_nil, or_false] at hp
  rcases hp with rfl | rfl | rfl
  · exact b.start.isAnchor_startPiece h he
  · rfl
  · rfl

theorem Flow.isAnchor_pieces (f : Flow) : ∀ p ∈ f.pieces, p.isAnchor = false := by
  cases f with
  | paragraph b => exact b.isAnchor_pieces rfl rfl
  | division b => exact b.isAnchor_pieces rfl rfl
  | heading rank b => exact b.isAnchor_pieces rfl rfl
  | rule t =>
    intro p hp
    rw [List.mem_singleton.1 hp]
    exact t.isAnchor_startPiece rfl rfl

theorem Block.isAnchor_pieces (b : Block) : ∀ p ∈ b.pieces, p.isAnchor = false := by
  cases b with
  | flow f => exact f.isAnchor_pieces
  | list e he start items hne gap stop =>
    have hanchor : (e == .anchor) = false := by
      obtain rfl | rfl := Element.eq_of_isList he <;> rfl
    intro p hp
    simp only [pieces, List.mem_cons, List.mem_append, List.mem_flatMap, List.not_mem_nil,
      or_false] at hp
    rcases hp with rfl | ⟨i, -, rfl | hp⟩ | rfl | rfl
    · exact start.isAnchor_startPiece _ hanchor
    · rfl
    · exact i.2.isAnchor_pieces rfl rfl p hp
    · rfl
    · rfl
  | quotation start flows hne gap stop =>
    intro p hp
    simp only [pieces, List.mem_cons, List.mem_append, List.mem_flatMap, List.not_mem_nil,
      or_false] at hp
    rcases hp with rfl | ⟨f, -, rfl | hp⟩ | rfl | rfl
    · exact start.isAnchor_startPiece rfl rfl
    · rfl
    · exact f.2.isAnchor_pieces p hp
    · rfl
    · rfl

theorem Document.isAnchor_pieces (d : Document) : ∀ p ∈ d.pieces, p.isAnchor = false := by
  intro p hp
  simp only [pieces, List.mem_append, List.mem_flatMap, List.mem_cons, List.not_mem_nil,
    or_false] at hp
  rcases hp with ⟨b, -, rfl | hp⟩ | rfl
  · rfl
  · exact b.2.isAnchor_pieces p hp
  · rfl

/-- The output of a document. -/
theorem finish_document (d : Document) :
    (Draft.empty.addAll .markdown (tokensAll [] d.pieces)).output.finish = d.markdown := by
  obtain ⟨blocks, gap⟩ := d
  cases blocks with
  | nil =>
    have hgap := Draft.addAll_gap_cons (d := .empty) rfl gap [] []
    show (Draft.addAll _ _ (tokensAll [] [gap.piece])).output.finish = _
    rw [hgap]
    rfl
  | cons b bs =>
    obtain ⟨a, ha, hfirst⟩ := Draft.settled_block (d := .empty) rfl rfl b.2
      (spellAll (bs.flatMap (fun b => b.1.piece :: b.2.pieces) ++ [gap.piece]) ++ [])
    obtain ⟨n, hn, hall⟩ := hfirst.blocks bs (spellAll [gap.piece] ++ [])
    obtain ⟨c, gs, -, hgs, htext⟩ := hall.glyphs
    have hnil : tokensAll [] [] = [] := rfl
    rw [Document.pieces, List.flatMap_cons, List.cons_append, List.cons_append, List.append_assoc,
      Draft.addAll_gap_append rfl, tokensAll_append, Draft.addAll_append,
      Draft.addAll_gap_cons (hall.endsInSpacing hn), hnil, Draft.addAll_nil]
    refine finish_between_blanks ?_ ha (blank_written_breaks n) (inked_blocksMarkdown b.2 _)
    rw [hgs, written_append, htext]
    rfl

/-- A text between tags that have nothing but a name. -/
def TextBlock.bare {e : Element} (name : List Char) (passage : Passage)
    (hname : (name.head?.any TagName.isNameStart && name.all TagName.isNameChar) = true)
    (h : Element.ofName (lower name) = e) : TextBlock e :=
  ⟨⟨bareTag name hname, h⟩, passage, ⟨bareTag name hname, h⟩⟩

/-- A heading, a list, a rule, a quotation and a division. -/
def mixedBlocks : Document where
  blocks := [
    (.spaces 0, .flow <| .heading ⟨1, by decide⟩
      ⟨⟨⟨"h2".toList, [' ', 'i', 'd'], rfl, List.all_eq_true.1 (by decide),
          SpelledTag.rest_start_space ['i', 'd'], by decide⟩, by decide⟩,
        ⟨" a *b".toList, by decide, 'a', by decide, by decide⟩,
        ⟨bareTag "H2".toList (by decide), by decide⟩⟩),
    (.spaces 1, .list .numberedList rfl ⟨bareTag "ol".toList (by decide), by decide⟩
      [(.spaces 0, .bare "li".toList ⟨['c'], by decide, 'c', by decide, by decide⟩
          (by decide) (by decide)),
        (.spaces 2, .bare "LI".toList ⟨['d'], by decide, 'd', by decide, by decide⟩
          (by decide) (by decide))]
      (by simp) (.spaces 1) ⟨bareTag "OL".toList (by decide), by decide⟩),
    (.spaces 0, .flow <| .rule ⟨bareTag "hr".toList (by decide), by decide⟩),
    (.spaces 0, .quotation ⟨bareTag "BlockQuote".toList (by decide), by decide⟩
      [(.spaces 1, .paragraph <| .bare ['P'] ⟨"e \t f".toList, by decide, 'e', by decide, by decide⟩
          (by decide) (by decide)),
        (.spaces 0, .rule ⟨bareTag "hr".toList (by decide), by decide⟩)]
      (by simp) (.spaces 0) ⟨bareTag "BlockQuote".toList (by decide), by decide⟩),
    (.spaces 1, .flow <| .division <| .bare "Div".toList
      ⟨['g'], by decide, 'g', by decide, by decide⟩ (by decide) (by decide))]
  gap := .spaces 1

end HtmlMarkdown
