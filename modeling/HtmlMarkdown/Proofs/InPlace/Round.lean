import HtmlMarkdown.Proofs.InPlace.Cursor

/-!
# One round of the loop

At a good place a round of the loop comes to a result, which is one of two (`Round`).  Either the
loop ends, and what is left of the text would write nothing more; or some of the text has been
passed, and the draft has written its tokens (`step?_round`).
-/

namespace HtmlMarkdown

open Text Utf8 InPlace

namespace Cursor

/-- The result of a round at the place between `a` and `m`. -/
inductive Round (mode : Mode) (a m : List Char) (d : Draft) : Option (Option Cursor) → Prop
  /-- The loop ends, and the rest of the text leaves no trace. -/
  | stop (h : d.addAll mode (tokens mode m) = d) : Round mode a m d (some none)
  /-- The tokens of some of the text are written, and the offset is moved behind it. -/
  | next (x rest : List Char) (ts : List Token) (hx : x ≠ []) (hm : m = x ++ rest)
    (ht : tokens mode m = ts ++ tokens mode rest) :
    Round mode a m d (some (some ((d.addAll mode ts).cursor (byteSize (a ++ x)))))

variable {mode : Mode} {a m : List Char} {d : Draft}

theorem round_of_next?_eq_none (h : Token.next? mode m = none) : Round mode a m d (some none) := by
  apply Round.stop
  rw [tokens_of_next?_eq_none h]
  rfl

/-- A round that writes a token and reaches what the token leaves of the text. -/
theorem round_of_stands {t : Token} {rest : List Char} {c : Cursor}
    (hnext : Token.next? mode m = some (t, rest)) (h : Stands (a ++ m) (d.add mode t) rest c) :
    Round mode a m d (some (some c)) := by
  cases m with
  | nil => cases hnext
  | cons e s =>
    obtain ⟨y, rfl⟩ := Token.suffix_of_next? hnext
    have htokens := tokens_of_next?_eq_some hnext
    have hplace : ∀ b, a ++ e :: (y ++ rest) = b ++ rest → b = a ++ e :: y := by
      intro b hb
      rw [← List.cons_append, ← List.append_assoc] at hb
      exact (List.append_cancel_right hb).symm
    cases h with
    | here hs =>
      rw [hplace _ hs]
      exact .next (e :: y) rest [t] (List.cons_ne_nil e y) rfl htokens
    | skipped hs hspacing =>
      -- The blanks that the offset has passed are tokens too, which write nothing.
      have hblank : ∀ c ∈ rest.takeWhile isBlank, isBlank c = true :=
        fun _ hc => List.mem_takeWhile_imp hc
      have hsplit : rest.takeWhile isBlank ++ rest.dropWhile isBlank = rest :=
        List.takeWhile_append_dropWhile
      have hopen : '<' ∉ rest.takeWhile isBlank := fun hmem => nomatch hblank '<' hmem
      have htext := tokens_text mode hopen (rest.dropWhile isBlank)
      have hadd : d.addAll mode (t :: (rest.takeWhile isBlank).map Token.ofChar) = d.add mode t := by
        rw [Draft.addAll_cons, Draft.addAll_blanks hspacing hblank]
      rw [hsplit] at htext
      rw [hplace _ hs, ← hadd, List.append_assoc]
      refine .next _ (rest.dropWhile isBlank) _ (List.cons_ne_nil e _) ?_ ?_
      · rw [List.cons_append, List.cons_append, List.append_assoc, hsplit]
      · rw [htokens, htext, List.cons_append]

/-! ## Tags -/

theorem startsName?_append (b v : List Char) :
    startsName? (encode (b ++ v)) (byteSize b) = some (v.head?.any TagName.isNameStart) := by
  have htest := testNext?_append constant_isNameStart b v []
  rw [List.append_nil, ← length_encode (b ++ v)] at htest
  exact htest

theorem offset_close {s after : List Char} (h : '>' :: after <:+ s) :
    offset s ('>' :: after) + 1 = offset s after := by
  obtain ⟨b, rfl⟩ := h
  rw [offset_append, offset_cons_ascii (by decide)]

/-- The token of a tag, from what scanning finds of it. -/
def tagToken? (mode : Mode) (closing : Bool) (s : List Char) :
    TagName.Scan → Option (Token × List Char)
  | .named name after =>
    some (if closing then (.endTag (.ofName name), after)
      else Token.ofStartTag mode (.ofName name) s after)
  | .nameless after => some (.nameless, after)
  | .unclosed => none

theorem round_of_nameless {after : List Char} (hnext : Token.next? mode m = some (.nameless, after))
    (hafter : '>' :: after <:+ a ++ m) :
    Round mode a m d (some (some (d.cursor (offset (a ++ m) ('>' :: after) + 1)))) := by
  rw [offset_close hafter]
  exact round_of_stands hnext (stands_offset ((List.suffix_cons _ _).trans hafter) d)

theorem round_of_named (hpadded : d.output.Padded) {t name after : List Char} (closing : Bool)
    (hnext : Token.next? mode ('<' :: t) = tagToken? mode closing t (.named name after))
    (hafter : '>' :: after <:+ a ++ '<' :: t) :
    Round mode a ('<' :: t) d
      ((if closing then
          endTag? mode (a ++ '<' :: t) (.ofName name)
            (d.cursor (offset (a ++ '<' :: t) ('>' :: after) + 1))
        else
          startTag? mode (a ++ '<' :: t) (.ofName name) (byteSize a)
            (d.cursor (offset (a ++ '<' :: t) ('>' :: after) + 1))).bind
        fun c => some (some c)) := by
  rw [offset_close hafter]
  obtain ⟨b, hb⟩ := (List.suffix_cons _ _).trans hafter
  have hplace : offset (a ++ '<' :: t) after = byteSize b := by rw [← hb, offset_append]
  rw [hplace]
  cases closing with
  | true =>
    obtain ⟨c, hc, hstands⟩ := endTag?_cursor mode hpadded hb.symm (.ofName name)
    rw [if_pos rfl, hc]
    exact round_of_stands hnext hstands
  | false =>
    obtain ⟨c, hc, hstands⟩ := startTag?_cursor mode hpadded rfl hb.symm (.ofName name)
    rw [if_neg Bool.false_ne_true, hc]
    exact round_of_stands hnext hstands

/-- A tag in place is written as its token is; `v` is the text from where its name would start. -/
theorem tag?_round (hpadded : d.output.Padded) {t p v : List Char} (closing : Bool)
    (hsplit : '<' :: t = p ++ v) (hopen : '>' ∉ p)
    (hnext : Token.next? mode ('<' :: t) = tagToken? mode closing t (TagName.scan v)) :
    Round mode a ('<' :: t) d (tag? mode (a ++ '<' :: t) closing (byteSize (a ++ p))
      (d.cursor (byteSize a))) := by
  have hassoc : a ++ '<' :: t = a ++ p ++ v := by rw [hsplit, List.append_assoc]
  have hstart : startsName? (encode (a ++ '<' :: t)) (byteSize (a ++ p)) =
      some (v.head?.any TagName.isNameStart) := by rw [hassoc, startsName?_append]
  have hscan : scanTag? (encode (a ++ '<' :: t)) (byteSize (a ++ p)) =
      some (tagEnd (a ++ '<' :: t) (TagName.scan v)) := by rw [hassoc, scanTag?_append]
  have hfind : Offset.findByte? (byteOf '>') (encode (a ++ '<' :: t)) (byteSize a) =
      (cut? '>' v).map fun xy => offset (a ++ '<' :: t) ('>' :: xy.2) := by
    rw [findByte?_offset (by decide), hsplit, cut?_append_of_not_mem hopen, Option.map_map]
    rfl
  have hclose : ∀ after, '>' :: after <:+ v → '>' :: after <:+ a ++ '<' :: t := by
    intro after h
    rw [hassoc]
    exact h.trans (List.suffix_append _ v)
  rw [tag?, hstart]
  cases hname : v.head?.any TagName.isNameStart with
  | false =>
    rw [TagName.scan_of_not_start hname] at hnext
    show Round _ _ _ _ (some ((Offset.findByte? (byteOf '>') (encode (a ++ '<' :: t)) (byteSize a)).map _))
    rw [hfind]
    cases hcut : cut? '>' v with
    | none =>
      rw [hcut] at hnext
      exact round_of_next?_eq_none hnext
    | some xy =>
      rw [hcut] at hnext
      exact round_of_nameless hnext (hclose xy.2 (suffix_of_cut? hcut))
  | true =>
    show Round _ _ _ _ ((scanTag? (encode (a ++ '<' :: t)) (byteSize (a ++ p))).bind _)
    rw [hscan]
    cases hv : TagName.scan v with
    | unclosed =>
      rw [hv] at hnext
      exact round_of_next?_eq_none hnext
    | nameless after =>
      rw [hv] at hnext
      exact round_of_nameless hnext (hclose after (TagName.suffix_of_scan (.inl hv)))
    | named name after =>
      rw [hv] at hnext
      have hround := round_of_named hpadded closing hnext
        (hclose after (TagName.suffix_of_scan (.inr ⟨name, hv⟩)))
      cases closing with
      | true => exact hround
      | false => exact hround

/-! ## Constructs in brackets -/

/-- Where the text ends too early for a tag there is at most `<>`, which has no name. -/
theorem round_of_short {t : List Char} (h : byteSize t < 2) : Round mode a ('<' :: t) d (some none) := by
  by_cases hclose : '>' ∈ t
  · have hlen := length_le_byteSize t
    obtain rfl : t = ['>'] := by
      cases t with
      | nil => cases hclose
      | cons c u =>
        rw [List.length_cons] at hlen
        obtain rfl : u = [] := List.eq_nil_of_length_eq_zero (by omega)
        rw [List.mem_singleton.1 hclose]
    have hnext : Token.next? mode ['<', '>'] = some (.nameless, []) := rfl
    apply Round.stop
    rw [tokens_of_next?_eq_some hnext, tokens_nil]
    rfl
  · exact round_of_next?_eq_none (markup?_eq_none mode hclose)

theorem round_of_declaration (u : List Char) :
    Round mode a ('<' :: '!' :: u) d
      ((declarationEnd? (encode (a ++ '<' :: '!' :: u)) (byteSize a)).bind fun stop? =>
        some (stop?.map fun stop => d.cursor stop)) := by
  have hnext : Token.next? mode ('<' :: '!' :: u) =
      (Declaration.after? ('<' :: '!' :: u)).map (.declaration, ·) := rfl
  rw [declarationEnd?_append]
  cases hafter : Declaration.after? ('<' :: '!' :: u) with
  | none =>
    rw [hafter] at hnext
    exact round_of_next?_eq_none hnext
  | some rest =>
    rw [hafter] at hnext
    have hsuffix := (Declaration.suffix_of_after? hafter).trans (List.suffix_append a _)
    exact round_of_stands hnext (stands_offset hsuffix d)

theorem next?_endTag (mode : Mode) (u : List Char) :
    Token.next? mode ('<' :: '/' :: u) = tagToken? mode true ('/' :: u) (TagName.scan u) := by
  rw [next?_bracket, Token.markup?]
  cases TagName.scan u <;> rfl

theorem next?_startTag (mode : Mode) {c : Char} (hbang : c ≠ '!') (hslash : c ≠ '/') (u : List Char) :
    Token.next? mode ('<' :: c :: u) = tagToken? mode false (c :: u) (TagName.scan (c :: u)) := by
  rw [next?_bracket, Token.markup?]
  · cases TagName.scan (c :: u) <;> rfl
  · intro v hv
    exact hbang (List.cons.inj hv).1
  · intro v hv
    exact hslash (List.cons.inj hv).1

/-- A construct in brackets in place is written as its token is. -/
theorem bracket?_round (hpadded : d.output.Padded) (t : List Char) :
    Round mode a ('<' :: t) d (bracket? mode (a ++ '<' :: t) (d.cursor (byteSize a))) := by
  have hsize : (encode (a ++ '<' :: t)).length - byteSize a - 1 = byteSize t := by
    rw [length_encode, byteSize_append, byteSize_cons, utf8Size_ascii (by decide)]
    omega
  show Round _ _ _ _ (if (encode (a ++ '<' :: t)).length - byteSize a - 1 < 2 then _ else _)
  rw [hsize]
  split
  · next hshort => exact round_of_short hshort
  · next hlong =>
    cases t with
    | nil => exact absurd (by decide) hlong
    | cons c u =>
      obtain ⟨x, hbyte, hx⟩ := exists_getElem?_encode (a ++ ['<']) c u
      have hbang : (asChar x == '!') = (c == '!') := (constant_beq (by decide)).of_mem_encode hx
      have hslash : (asChar x == '/') = (c == '/') := (constant_beq (by decide)).of_mem_encode hx
      have hone : byteSize a + 1 = byteSize (a ++ ['<']) :=
        (byteSize_append_ascii (by decide) a).symm
      have htwo : byteSize a + 2 = byteSize (a ++ ['<', '/']) := by
        rw [byteSize_append]
        rfl
      rw [← hone, ← List.append_cons] at hbyte
      show Round _ _ _ _ (((encode (a ++ '<' :: c :: u))[byteSize a + 1]?).bind _)
      rw [hbyte]
      show Round _ _ _ _ (if (asChar x == '!') = true then _
        else if (asChar x == '/') = true then tag? mode _ true (byteSize a + 2) _
        else tag? mode _ false (byteSize a + 1) _)
      rw [hbang, hslash, hone, htwo]
      by_cases hc : c = '!'
      · subst hc
        rw [if_pos (by rfl)]
        exact round_of_declaration u
      · rw [if_neg (by simpa using hc)]
        by_cases hc' : c = '/'
        · subst hc'
          rw [if_pos (by rfl)]
          exact tag?_round hpadded true rfl (by decide) (next?_endTag mode u)
        · rw [if_neg (by simpa using hc')]
          exact tag?_round hpadded false rfl (by decide) (next?_startTag mode hc hc' u)

/-! ## Text -/

theorem next?_text (mode : Mode) {c : Char} (h : c ≠ '<') (t : List Char) :
    Token.next? mode (c :: t) = some (Token.ofChar c, t) := by
  rw [Token.next?, if_neg (by simpa using h), Token.ofChar]

theorem round_of_blank {c : Char} (h : isBlank c = true) (t : List Char) :
    Round mode a (c :: t) d
      (some (some ⟨byteSize a + 1, d.output.buffer.pushSpace, d.context⟩)) := by
  have hne : c ≠ '<' := by
    rintro rfl
    cases h
  have hascii : c.toNat < 128 := by
    rcases eq_of_isBlank h with rfl | rfl | rfl | rfl | rfl <;> decide
  have hnext := next?_text mode hne t
  rw [Token.ofChar, if_pos h] at hnext
  rw [Buffer.pushSpace_buffer]
  exact round_of_stands hnext (stands_ascii hascii a t d.space)

theorem round_of_special {c : Char} (h : Draft.isSpecial c = true) (hblank : ¬ isBlank c = true)
    (t : List Char) :
    Round .markdown a (c :: t) d
      (some (some ⟨byteSize a + 1, (d.output.buffer.push '\\').push c, d.context⟩)) := by
  have hne : c ≠ '<' := by
    rintro rfl
    cases h
  have hadd : d.add .markdown (.char c) = ⟨(d.output.push '\\').push c, d.context⟩ := by
    rw [Draft.add, Draft.char, if_pos h]
    rfl
  have hnext := next?_text .markdown hne t
  rw [Token.ofChar, if_neg hblank] at hnext
  rw [Buffer.push_buffer, Buffer.push_buffer]
  refine round_of_stands hnext ?_
  rw [hadd]
  exact stands_ascii (ascii_of_isSpecial h) a t ⟨_, d.context⟩

theorem round_of_text {c : Char} (h : (!isStop mode c) = true) (t : List Char) :
    Round mode a (c :: t) d
      ((copyText? mode (a ++ c :: t) (d.cursor (byteSize a))).bind fun e => some (some e)) := by
  have hsplit : (c :: t).takeWhile (!isStop mode ·) ++ (c :: t).dropWhile (!isStop mode ·) = c :: t :=
    List.takeWhile_append_dropWhile
  have hrun : (c :: t).takeWhile (!isStop mode ·) = c :: t.takeWhile (!isStop mode ·) :=
    List.takeWhile_cons_of_pos h
  have hopen : '<' ∉ (c :: t).takeWhile (!isStop mode ·) := by
    intro hmem
    have hstop := List.mem_takeWhile_imp hmem
    cases mode <;> cases hstop
  have htokens := tokens_text mode hopen ((c :: t).dropWhile (!isStop mode ·))
  rw [hsplit] at htokens
  rw [copyText?_cursor]
  refine .next _ _ _ ?_ hsplit.symm htokens
  rw [hrun]
  exact List.cons_ne_nil _ _

/-- One round of the loop. -/
theorem step?_round (hpadded : d.output.Padded) :
    Round mode a m d (step? mode (a ++ m) (d.cursor (byteSize a))) := by
  show Round _ _ _ _ (if (encode (a ++ m)).length ≤ byteSize a then _ else _)
  rw [length_encode]
  cases m with
  | nil =>
    rw [List.append_nil, if_pos (Nat.le_refl _)]
    exact round_of_next?_eq_none rfl
  | cons c t =>
    obtain ⟨x, hbyte, hx⟩ := exists_getElem?_encode a c t
    have hopen : (asChar x == '<') = (c == '<') := (constant_beq (by decide)).of_mem_encode hx
    have hspecial : Draft.isSpecial (asChar x) = Draft.isSpecial c :=
      constant_isSpecial.of_mem_encode hx
    rw [if_neg (Nat.not_le_of_lt (byteSize_lt_append_cons a c t))]
    show Round _ _ _ _ (((encode (a ++ c :: t))[byteSize a]?).bind _)
    rw [hbyte]
    show Round _ _ _ _ (if (asChar x == '<') = true then _ else if isBlank (asChar x) = true then _
      else if (mode == .markdown && Draft.isSpecial (asChar x)) = true then _ else _)
    rw [hopen, constant_isBlank.of_mem_encode hx, hspecial]
    split
    · next hc =>
      obtain rfl := beq_iff_eq.1 hc
      exact bracket?_round hpadded t
    · next hopen =>
      split
      · next hblank => exact round_of_blank hblank t
      · next hblank =>
        split
        · next hmarked =>
          obtain ⟨hmode, hmarked⟩ := Bool.and_eq_true_iff.1 hmarked
          obtain rfl := beq_iff_eq.1 hmode
          have hchar : asChar x = c := by
            rw [eq_byteOf (ascii_of_isSpecial hmarked) hx]
            exact asChar_toUInt8 (ascii_of_isSpecial hmarked)
          rw [hchar]
          exact round_of_special hmarked hblank t
        · next hmarked =>
          have hstop : (!isStop mode c) = true := by
            rw [isStop, Bool.eq_false_iff.2 hopen, Bool.eq_false_iff.2 hblank,
              Bool.eq_false_iff.2 hmarked]
            rfl
          exact round_of_text hstop t

end Cursor

end HtmlMarkdown
