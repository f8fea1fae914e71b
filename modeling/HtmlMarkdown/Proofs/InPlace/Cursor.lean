import HtmlMarkdown.InPlace.Cursor
import HtmlMarkdown.Proofs.Draft.Spacing
import HtmlMarkdown.Proofs.InPlace.Buffer
import HtmlMarkdown.Proofs.InPlace.Tag
import HtmlMarkdown.Proofs.Source.Lexing

/-!
# Converting in place is converting

A draft at a good place of the text is a cursor (`Draft.cursor`), and what a cursor does there is
what the draft does.  The offset that it reaches is one of two: the place in front of the rest of
the text, or behind the blanks there, which leave no trace (`Stands`).
-/

namespace HtmlMarkdown

open Text Utf8 InPlace

/-- A draft in place, at an offset. -/
def Draft.cursor (d : Draft) (pos : Nat) : Cursor := ⟨pos, d.output.buffer, d.context⟩

namespace Cursor

variable (mode : Mode) (d : Draft) (pos : Nat) (a m : List Char)

theorem start_eq_cursor : start = Draft.empty.cursor 0 :=
  congrArg (Cursor.mk 0 · Context.start) Buffer.start_eq_buffer

theorem markup_cursor (t : List Char) :
    (d.cursor pos).markup mode t = (d.markup mode t).cursor pos := by
  cases mode with
  | markdown => exact congrArg (Cursor.mk pos · d.context) (Buffer.append_buffer d.output t)
  | plain => rfl

theorem space_cursor : (d.cursor pos).space = d.space.cursor pos :=
  congrArg (Cursor.mk pos · d.context) (Buffer.pushSpace_buffer d.output)

/-! ## Text -/

theorem ascii_of_isSpecial {c : Char} (h : Draft.isSpecial c = true) : c.toNat < 128 := by
  rw [Draft.isSpecial, Bool.or_eq_true, Bool.or_eq_true, beq_iff_eq, beq_iff_eq, beq_iff_eq] at h
  rcases h with (rfl | rfl) | rfl <;> decide

theorem constant_isSpecial : Constant Draft.isSpecial :=
  .or (.or (constant_beq (by decide)) (constant_beq (by decide))) (constant_beq (by decide))

theorem constant_isStop : Constant (isStop mode) := by
  refine .or (.or (constant_beq (by decide)) constant_isBlank) ?_
  cases mode with
  | plain => exact .of_false fun _ _ => rfl
  | markdown => exact constant_isSpecial

/-- What is copied in one go is written as it is. -/
theorem addAll_run {run : List Char} (h : ∀ c ∈ run, isStop mode c = false) :
    d.addAll mode (run.map Token.ofChar) = { d with output := d.output.append run } := by
  have hink : ∀ c ∈ run, isBlank c = false := by
    intro c hc
    have hstop := h c hc
    rw [isStop, Bool.or_eq_false_iff, Bool.or_eq_false_iff] at hstop
    exact hstop.1.2
  have htext : mode.text run = run := by
    cases mode with
    | plain => rfl
    | markdown =>
      apply escape_eq_self_iff.2
      intro c hc
      have hstop := h c hc
      rw [isStop, Bool.or_eq_false_iff] at hstop
      exact hstop.2
  rw [Draft.addAll_text, htext, Output.copy_of_ink hink]

/-- Copying a run of text is writing its characters. -/
theorem copyText?_cursor :
    copyText? mode (a ++ m) (d.cursor (byteSize a)) =
      some ((d.addAll mode ((m.takeWhile (!isStop mode ·)).map Token.ofChar)).cursor
        (byteSize (a ++ m.takeWhile (!isStop mode ·)))) := by
  have hrun : ∀ c ∈ m.takeWhile (!isStop mode ·), isStop mode c = false := by
    intro c hc
    simpa using List.mem_takeWhile_imp hc
  have hsplit : m.takeWhile (!isStop mode ·) ++ m.dropWhile (!isStop mode ·) = m :=
    List.takeWhile_append_dropWhile
  rw [addAll_run mode d hrun]
  show (skipWhile? _ (encode (a ++ m)) (encode (a ++ m)).length (byteSize a)).bind _ = _
  rw [skipWhile?_end (constant_isStop mode).not, Option.bind_some]
  generalize m.takeWhile (!isStop mode ·) = run at hsplit
  generalize m.dropWhile (!isStop mode ·) = rest at hsplit
  subst hsplit
  rw [← List.append_assoc]
  show (slice? (a ++ run ++ rest) (byteSize a) (byteSize (a ++ run))).bind _ = _
  rw [slice?_append]
  exact congrArg (fun o => some (Cursor.mk (byteSize (a ++ run)) o d.context))
    (Buffer.append_buffer d.output run)

/-! ## Breaks -/

theorem skipBlanks?_cursor :
    skipBlanks? (a ++ m) (d.cursor (byteSize a)) =
      some (d.cursor (byteSize (a ++ m.takeWhile isBlank))) := by
  show (skipWhile? isBlank (encode (a ++ m)) (encode (a ++ m)).length (byteSize a)).bind _ = _
  rw [skipWhile?_end constant_isBlank]
  rfl

theorem separate?_cursor (lines : Nat) (quotable closing : Bool) :
    separate? mode (a ++ m) lines quotable closing (d.cursor (byteSize a)) =
      some ((d.separate mode lines quotable closing).cursor
        (byteSize (a ++ m.takeWhile isBlank))) := by
  unfold separate? Draft.separate
  dsimp only [Draft.cursor]
  generalize (quotable && mode == .markdown && d.context.inQuotation) = quoted
  cases quoted with
  | true =>
    show (Buffer.separate? _ _ _ _).bind _ = _
    rw [Buffer.separate?_buffer]
    exact skipBlanks?_cursor ⟨_, d.context⟩ a m
  | false =>
    show (Buffer.stripQuoteTail? _).bind _ = _
    rw [Buffer.stripQuoteTail?_buffer, Option.bind_some, Buffer.separate?_buffer]
    exact skipBlanks?_cursor ⟨_, d.context⟩ a m

theorem lineBreak?_cursor : lineBreak? mode (d.cursor pos) = some ((d.lineBreak mode).cursor pos) := by
  cases mode with
  | plain =>
    show some (Cursor.mk pos (d.output.buffer.dropSpace.append ['\r', '\n']) d.context) = _
    rw [Buffer.dropSpace_buffer, Buffer.append_buffer]
    rfl
  | markdown =>
    unfold lineBreak? Draft.lineBreak
    dsimp only [Draft.cursor]
    cases hin : d.context.inQuotation with
    | false =>
      show some (Cursor.mk pos (d.output.buffer.dropSpace.append [' ', ' ', '\r', '\n']) d.context) = _
      rw [Buffer.dropSpace_buffer, Buffer.append_buffer]
      rfl
    | true =>
      rw [if_pos rfl, if_pos rfl, Buffer.endsInQuotedBlankLine?_buffer]
      cases d.output.endsInQuotedBlankLine with
      | true => rfl
      | false =>
        show some (Cursor.mk pos
          (d.output.buffer.dropSpace.append [' ', ' ', '\r', '\n']).pushMark d.context) = _
        rw [Buffer.dropSpace_buffer, Buffer.append_buffer, Buffer.pushMark_buffer]
        rfl

theorem leaveQuotation?_cursor :
    leaveQuotation? (a ++ m) (d.cursor (byteSize a)) =
      some (d.leaveQuotation.cursor (byteSize (a ++ m.takeWhile isBlank))) := by
  unfold leaveQuotation? Draft.leaveQuotation
  dsimp only [Draft.cursor]
  rw [Buffer.stripQuoteTail?_buffer]
  generalize d.output.stripQuoteTail = o
  have hbreak : (if o.buffer.trailingBreaks 2 < 2 then o.buffer.dropSpace.append ['\r', '\n']
      else o.buffer) = (if o.trailingBreaks 2 < 2 then o.dropSpace.pushBreak else o).buffer := by
    rw [Buffer.trailingBreaks_buffer, Buffer.dropSpace_buffer, Buffer.append_buffer,
      ← apply_ite Output.buffer]
    rfl
  show skipBlanks? (a ++ m) ⟨_, (if o.buffer.trailingBreaks 2 < 2 then _ else _), _⟩ = _
  rw [hbreak]
  exact skipBlanks?_cursor ⟨_, d.context.close true⟩ a m

/-! ## Blocks -/

theorem openBlock?_cursor (e : Element) (b : Spacing) :
    openBlock? mode (a ++ m) e b (d.cursor (byteSize a)) =
      some ((d.openBlock mode e b).cursor (byteSize (a ++ m.takeWhile isBlank))) := by
  show (separate? mode (a ++ m) b.lines b.quotable false
    ((⟨d.output, d.context.openBlock e⟩ : Draft).cursor (byteSize a))).bind _ = _
  rw [separate?_cursor]
  exact congrArg some (markup_cursor mode _ _ e.opener)

theorem closeBlock?_cursor (b : Spacing) :
    closeBlock? mode (a ++ m) b (d.cursor (byteSize a)) =
      some ((d.closeBlock mode b).cursor (byteSize (a ++ m.takeWhile isBlank))) :=
  separate?_cursor mode ⟨d.output, d.context.close b.container⟩ a m b.lines b.quotable true

theorem rule?_cursor :
    rule? mode (a ++ m) (d.cursor (byteSize a)) =
      some ((d.rule mode).cursor (byteSize (a ++ m.takeWhile isBlank))) := by
  unfold rule?
  rw [separate?_cursor]
  cases mode with
  | plain => rfl
  | markdown =>
    -- The blanks are behind the offset when the second separation skips blanks.
    have hsplit : a ++ m = a ++ m.takeWhile isBlank ++ skipBlanks m := by
      rw [List.append_assoc]
      exact congrArg (a ++ ·) List.takeWhile_append_dropWhile.symm
    have hnone : (skipBlanks m).takeWhile isBlank = [] :=
      takeWhile_append_of_head (a := []) (by simp) (head?_dropWhile isBlank m)
    show separate? .markdown (a ++ m) 2 true true (((d.separate .markdown 1 true false).cursor _).markup
      .markdown Draft.ruleText) = _
    rw [markup_cursor, hsplit, separate?_cursor, hnone, List.append_nil]
    rfl

/-! ## Reading ahead -/

theorem quotableAhead?_cursor :
    quotableAhead? (a ++ m) (d.cursor (byteSize a)) = some (Token.quotableAhead m) := by
  have hsplit : m.takeWhile isBlank ++ skipBlanks m = m := List.takeWhile_append_dropWhile
  unfold quotableAhead? Token.quotableAhead
  dsimp only [Draft.cursor]
  rw [skipWhile?_end constant_isBlank]
  generalize m.takeWhile isBlank = blanks at hsplit
  generalize skipBlanks m = s at hsplit
  subst hsplit
  rw [← List.append_assoc]
  generalize a ++ blanks = b
  show (if (((encode (b ++ s))[byteSize b]?).map asChar != some '<') = true then _ else _) = _
  cases s with
  | nil =>
    have hnone : (encode (b ++ []))[byteSize b]? = none := by
      rw [List.append_nil]
      exact List.getElem?_eq_none (Nat.le_of_eq (length_encode b))
    rw [hnone]
    rfl
  | cons c t =>
    obtain ⟨x, hbyte, hx⟩ := exists_getElem?_encode b c t
    have hopen : (asChar x == '<') = (c == '<') := (constant_beq (by decide)).of_mem_encode hx
    rw [hbyte]
    by_cases hc : c = '<'
    · subst hc
      have hchar : asChar x = '<' := beq_iff_eq.1 hopen
      rw [Option.map_some, hchar, if_neg (by decide), findByte?_append (by decide),
        cut?_cons_of_ne (by decide)]
      cases hcut : cut? '>' t with
      | none =>
        simp only [hcut]
        rfl
      | some iv =>
        obtain ⟨inner, v⟩ := iv
        obtain ⟨rfl, -⟩ := eq_of_cut? hcut
        have hslice := slice?_through (c := '>') (by decide) b ('<' :: inner) v
        rw [List.append_assoc, List.cons_append] at hslice
        simp only [hcut]
        show (slice? _ _ (byteSize (b ++ '<' :: inner) + 1)).bind _ = _
        rw [hslice]
        show (parse? _ _).bind _ = _
        rw [parse?_eq_parse]
        cases Tag.parse .whole ('<' :: inner ++ ['>']) <;> rfl
    · have hchar : asChar x ≠ '<' := beq_eq_false_iff_ne.1 (hopen.trans (beq_eq_false_iff_ne.2 hc))
      rw [Option.map_some, if_pos (bne_iff_ne.2 fun h => hchar (Option.some.inj h))]
      split
      · next heq =>
        cases heq
        exact absurd rfl hc
      · rfl

/-! ## Tags -/

/-- The cursor stands where the draft does, in front of `rest` or behind the blanks there. -/
inductive Stands (s : List Char) (d : Draft) (rest : List Char) : Cursor → Prop
  | here {b : List Char} (hs : s = b ++ rest) : Stands s d rest (d.cursor (byteSize b))
  | skipped {b : List Char} (hs : s = b ++ rest) (h : d.output.endsInSpacing = true) :
    Stands s d rest (d.cursor (byteSize (b ++ rest.takeWhile isBlank)))

theorem stands_offset {s rest : List Char} (h : rest <:+ s) (d : Draft) :
    Stands s d rest (d.cursor (offset s rest)) := by
  obtain ⟨b, rfl⟩ := h
  rw [offset_append]
  exact .here rfl

theorem stands_ascii {c : Char} (hc : c.toNat < 128) (a t : List Char) (d : Draft) :
    Stands (a ++ c :: t) d t (d.cursor (byteSize a + 1)) := by
  rw [← byteSize_append_ascii hc]
  exact .here (List.append_cons a c t)

section Tag

variable {d} {s a t b after : List Char}

theorem startTag?_block (hpadded : d.output.Padded) (hs : s = b ++ after) {e : Element}
    {spacing : Spacing} (hm : e.marker? = none) (hspacing : e.spacing? = some spacing)
    {ahead : Bool} (hahead : (if e = .quotation then Token.quotableAhead after else false) = ahead)
    (tagStart : Nat) :
    ∃ c, startTag? mode s e tagStart (d.cursor (byteSize b)) = some c ∧
      Stands s (d.add mode (.startTag e ahead)) after c := by
  subst hs
  have hread : startTag? mode (b ++ after) e tagStart (d.cursor (byteSize b)) =
      openBlock? mode (b ++ after) e (if ahead then { spacing with lines := 1 } else spacing)
        (d.cursor (byteSize b)) := by
    simp only [startTag?, hm, hspacing, ← hahead]
    by_cases he : e = .quotation
    · rw [if_pos he, if_pos he, quotableAhead?_cursor]
      rfl
    · rw [if_neg he, if_neg he]
      rfl
  have hadd : d.add mode (.startTag e ahead) =
      d.openBlock mode e (if ahead then { spacing with lines := 1 } else spacing) := by
    show d.startTag mode e ahead = _
    simp only [Draft.startTag, hm, hspacing]
  have hlines : 0 < (if ahead then { spacing with lines := 1 } else spacing).lines := by
    cases ahead with
    | true => exact Nat.one_pos
    | false => exact (Element.lines_of_spacing hspacing).1
  rw [hread, hadd, openBlock?_cursor]
  exact ⟨_, rfl, .skipped rfl (Draft.endsInSpacing_openBlock hpadded e hlines)⟩

theorem openAnchor?_cursor (hs : s = a ++ '<' :: t) (hafter : s = b ++ after) :
    ∃ c, openAnchor? s (byteSize a) (d.cursor (byteSize b)) = some c ∧
      Stands s (d.add .markdown (Token.ofStartTag .markdown .anchor t after).1)
        (Token.ofStartTag .markdown .anchor t after).2 c := by
  have hlink := linkAt?_append a ('<' :: t)
  rw [← hs] at hlink
  rw [openAnchor?, hlink]
  cases hread : Link.read? ('<' :: t) with
  | none =>
    have htoken : Token.ofStartTag .markdown .anchor t after = (.startTag .anchor false, after) := by
      simp only [Token.ofStartTag, hread]
    rw [htoken]
    exact ⟨_, congrArg some (space_cursor d _), .here hafter⟩
  | some lr =>
    obtain ⟨l, rest⟩ := lr
    have htoken : Token.ofStartTag .markdown .anchor t after = (.link l, rest) := by
      simp only [Token.ofStartTag, hread]
    have hsuffix : rest <:+ s := hs ▸ (Link.suffix_of_read? hread).trans (List.suffix_append a _)
    rw [htoken]
    refine ⟨_, ?_, stands_offset hsuffix _⟩
    exact congrArg (fun o => some (Cursor.mk (offset s rest) o d.context))
      (Buffer.append_buffer d.output l.markdown)

/-- A start tag in place is written as its token is. -/
theorem startTag?_cursor (hpadded : d.output.Padded) (hs : s = a ++ '<' :: t)
    (hafter : s = b ++ after) (e : Element) :
    ∃ c, startTag? mode s e (byteSize a) (d.cursor (byteSize b)) = some c ∧
      Stands s (d.add mode (Token.ofStartTag mode e t after).1)
        (Token.ofStartTag mode e t after).2 c := by
  cases e with
  | strong | emphasis | underline | span =>
    exact ⟨_, congrArg some (markup_cursor mode d _ _), .here hafter⟩
  | anchor =>
    cases mode with
    | markdown => exact openAnchor?_cursor hs hafter
    | plain => exact ⟨_, rfl, .here hafter⟩
  | paragraph | division | heading _ | bulletList | numberedList | preformatted | item =>
    exact startTag?_block mode hpadded hafter rfl rfl rfl _
  | quotation => exact startTag?_block mode hpadded hafter rfl rfl rfl _
  | rule =>
    subst hafter
    exact ⟨_, rule?_cursor mode d b after, .skipped rfl (Draft.endsInSpacing_rule hpadded)⟩
  | lineBreak => exact ⟨_, lineBreak?_cursor mode d _, .here hafter⟩
  | raw kind =>
    have hsuffix : Token.afterRawText kind after <:+ s :=
      hafter ▸ (Token.suffix_afterRawText kind after).trans (List.suffix_append b after)
    have hskip : (d.cursor (byteSize b)).skipRawText s kind =
        d.space.cursor (offset s (Token.afterRawText kind after)) := by
      rw [← space_cursor, hafter, ← rawTextEnd_append]
      rfl
    exact ⟨_, congrArg some hskip, stands_offset hsuffix _⟩
  | other => exact ⟨_, congrArg some (space_cursor d _), .here hafter⟩

/-- An end tag in place is written as its token is. -/
theorem endTag?_cursor (hpadded : d.output.Padded) (hs : s = b ++ after) (e : Element) :
    ∃ c, endTag? mode s e (d.cursor (byteSize b)) = some c ∧
      Stands s (d.add mode (.endTag e)) after c := by
  subst hs
  cases e with
  | strong | emphasis | underline | span =>
    exact ⟨_, congrArg some (markup_cursor mode d _ _), .here rfl⟩
  | anchor =>
    cases mode with
    | markdown => exact ⟨_, congrArg some (space_cursor d _), .here rfl⟩
    | plain => exact ⟨_, rfl, .here rfl⟩
  | paragraph | division | heading _ | bulletList | numberedList | preformatted | item =>
    exact ⟨_, closeBlock?_cursor mode d b after _,
      .skipped rfl (Draft.endsInSpacing_closeBlock hpadded (by decide))⟩
  | quotation =>
    exact ⟨_, leaveQuotation?_cursor d b after, .skipped rfl (Draft.endsInSpacing_leaveQuotation d)⟩
  | rule | lineBreak | raw _ | other => exact ⟨_, congrArg some (space_cursor d _), .here rfl⟩

end Tag

end Cursor

end HtmlMarkdown
