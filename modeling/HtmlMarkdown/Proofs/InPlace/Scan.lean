import HtmlMarkdown.Proofs.InPlace.View
import HtmlMarkdown.Proofs.Source.Tag
import HtmlMarkdown.Proofs.Text.Words
import HtmlMarkdown.Token.Lexer

/-!
# Reading in place is reading

Started at the place between `a` and `m`, the readers in place do not fail, and they reach the place
in front of what the readers of texts leave of `m` (`scanTag?_append`, `declarationEnd?_append`,
`rawTextEnd_append`, `linkAt?_append`).
-/

namespace HtmlMarkdown.InPlace

open Text Utf8 TagName Offset

/-! ## Places behind a find -/

theorem offset_cons_ascii {c : Char} (hc : c.toNat < 128) (a b : List Char) :
    offset (a ++ c :: b) b = byteSize a + 1 := by
  rw [List.append_cons, offset_append, byteSize_append_ascii hc]

/-- What a search finds is the place in front of the rest that starts with the character. -/
theorem findByte?_offset {c : Char} (hc : c.toNat < 128) (a m : List Char) :
    findByte? (byteOf c) (encode (a ++ m)) (byteSize a) =
      (cut? c m).map fun (_, rest) => offset (a ++ m) (c :: rest) := by
  rw [findByte?_append hc]
  cases hcut : cut? c m with
  | none => rfl
  | some xy =>
    obtain ⟨x, y⟩ := xy
    have hoffset : offset (a ++ m) (c :: y) = byteSize (a ++ x) := by
      rw [(eq_of_cut? hcut).1, ← List.append_assoc, offset_append]
    exact congrArg some hoffset.symm

theorem findByte?_succ {c : Char} (hc : c.toNat < 128) (a m : List Char) :
    (findByte? (byteOf c) (encode (a ++ m)) (byteSize a)).map (· + 1) =
      (cut? c m).map fun (_, rest) => offset (a ++ m) rest := by
  rw [findByte?_append hc, Option.map_map]
  cases hcut : cut? c m with
  | none => rfl
  | some xy =>
    obtain ⟨x, y⟩ := xy
    have hoffset : offset (a ++ m) y = byteSize (a ++ x) + 1 := by
      rw [(eq_of_cut? hcut).1, ← List.append_assoc, offset_cons_ascii hc]
    exact congrArg some hoffset.symm

/-! ## Tag names -/

theorem constant_isNameChar : Constant isNameChar := by
  refine .or ?_ (constant_beq (by decide))
  exact .of_false fun _ => isAlphanum_beyond

theorem isNameChar_ascii {c : Char} (h : isNameChar c = true) : c.toNat < 128 := by
  apply Nat.lt_of_not_le
  intro hc
  have hfalse : isNameChar c = false := by
    rw [isNameChar, isAlphanum_beyond hc, beq_beyond (by decide) hc]
    rfl
  rw [hfalse] at h
  cases h

theorem constant_isNameStart : Constant isNameStart := .of_false fun _ => isAlpha_beyond

/-- What scanning a tag finds, with the offset of the `>` that ends it. -/
def tagEnd (s : List Char) : TagName.Scan → TagEnd
  | .named name after => .named name (offset s ('>' :: after))
  | .nameless after => .nameless (offset s ('>' :: after))
  | .unclosed => .unclosed

theorem tagEnd_ofRun (s run after : List Char) :
    tagEnd s (ofRun run after) =
      if run.head?.any isNameStart then .named (lower run) (offset s ('>' :: after))
      else .nameless (offset s ('>' :: after)) := by
  unfold ofRun
  split <;> rfl

/-- Scanning the bytes of a text is scanning the text. -/
theorem closing_scan_spread (a m : List Char) :
    closing (encode (a ++ m)) (TagName.scan (spread m)) = tagEnd (a ++ m) (TagName.scan m) := by
  have hclose : ∀ u, (encode (a ++ m)).length - ((spread u).length + 1) =
      offset (a ++ m) ('>' :: u) := by
    intro u
    rw [length_encode, length_spread, offset, byteSize_cons, Nat.add_comm (byteSize u)]
    rfl
  have hofRun : ∀ run u, closing (encode (a ++ m)) (ofRun run (spread u)) =
      tagEnd (a ++ m) (ofRun run u) := by
    intro run u
    rw [closing_ofRun, tagEnd_ofRun, hclose]
  generalize a ++ m = s at hclose hofRun
  cases hcut : cut? '>' m with
  | none =>
    have hopen : '>' ∉ m := cut?_eq_none_iff.1 hcut
    rw [scan_eq_unclosed hopen, scan_eq_unclosed (mt (mem_spread_iff (by decide)).1 hopen)]
    rfl
  | some xy =>
    obtain ⟨inner, after⟩ := xy
    obtain ⟨rfl, hopen⟩ := eq_of_cut? hcut
    obtain ⟨run, rest, rfl, hrun, hhead⟩ := exists_run isNameChar inner
    have hspread : spread run = run := spread_of_ascii fun d hd => isNameChar_ascii (hrun d hd)
    rw [List.append_assoc, spread_append, hspread]
    cases rest with
    | nil =>
      rw [List.nil_append, spread_cons_ascii (by decide), scan_run_close hrun, scan_run_close hrun,
        hofRun]
    | cons c r =>
      have hname : isNameChar c = false := by simpa using hhead
      have hr : '>' ∉ c :: r := fun h => hopen (List.mem_append_right run h)
      -- The first byte of `c` is tested like `c`, and none of the bytes in front of the `>` is one.
      obtain ⟨x, xs, hx⟩ := exists_encode_eq_cons c
      have hmem : x ∈ encode [c] := hx ▸ List.mem_cons_self ..
      have hfirst : spread (c :: r) = asChar x :: (view xs ++ spread r) := by
        rw [spread_cons, spread, hx]
        rfl
      have hbytes : '>' ∉ asChar x :: (view xs ++ spread r) := by
        rwa [← hfirst, mem_spread_iff (by decide)]
      rw [List.mem_cons, not_or] at hr hbytes
      have hxname := (constant_isNameChar.of_mem_encode hmem).trans hname
      have hslash : (asChar x == '/') = (c == '/') := (constant_beq (by decide)).of_mem_encode hmem
      rw [spread_append, hfirst, spread_cons_ascii (by decide), List.cons_append, List.cons_append,
        scan_run_rest hrun hname (Ne.symm hr.1) hr.2,
        scan_run_rest hrun hxname (Ne.symm hbytes.1) hbytes.2, hslash,
        constant_isBlank.of_mem_encode hmem]
      split
      · exact hofRun run after
      · exact congrArg TagEnd.nameless (hclose after)

theorem scanTag?_append (a m : List Char) :
    scanTag? (encode (a ++ m)) (byteSize a) = some (tagEnd (a ++ m) (TagName.scan m)) := by
  rw [scanTag?_eq, scanTag_eq_closing, viewFrom_encode, closing_scan_spread]

/-! ## Declarations and elements without text -/

/-- The end of a comment in place is its end. -/
theorem commentEnd?_append (a m : List Char) :
    (findExact? (encode "-->".toList) (encode (a ++ m)) (byteSize a)).map (· + 3) =
      (locate? (· == ·) "-->".toList m).map fun (_, stop) => offset (a ++ m) (stop.drop 3) := by
  rw [findExact?_append (ascii_of_all (by decide)) (by decide), Option.map_map]
  cases hloc : locate? (· == ·) "-->".toList m with
  | none => rfl
  | some xy =>
    obtain ⟨x, y⟩ := xy
    obtain ⟨z, hz⟩ := Option.isSome_iff_exists.1 (after?_of_locate? hloc)
    obtain rfl : y = "-->".toList ++ z := after?_exact_iff.1 hz
    have hoffset : offset (a ++ m) (("-->".toList ++ z).drop 3) = byteSize (a ++ x) + 3 := by
      have hdrop : ("-->".toList ++ z).drop 3 = z := rfl
      rw [hdrop, append_of_locate? hloc, ← List.append_assoc, ← List.append_assoc, offset_append,
        byteSize_append (a ++ x)]
      rfl
    exact congrArg some hoffset.symm

/-- Passing a declaration in place is passing it. -/
theorem declarationEnd?_append (a m : List Char) :
    declarationEnd? (encode (a ++ m)) (byteSize a) =
      some ((Declaration.after? m).map (offset (a ++ m))) := by
  have hrest : sub? (encode (a ++ m)) (byteSize a) (encode (a ++ m)).length = some (encode m) := by
    have hsub := sub?_append a m []
    rwa [List.append_nil, ← length_encode (a ++ m)] at hsub
  have hword : ∀ w ∈ "<!--".toList, ∀ c : Char, 128 ≤ c.toNat → (w == c) = false := by
    intro w hw c hc
    apply beq_eq_false_iff_ne.2
    rintro rfl
    have hall : ∀ d ∈ "<!--".toList, d.toNat < 128 := ascii_of_all (by decide)
    exact absurd (hall w hw) (Nat.not_lt_of_le hc)
  have hafter : after? (· == ·) "<!--".toList ((encode m).map asChar) =
      (after? (· == ·) "<!--".toList m).map spread := after?_spread hword m
  rw [declarationEnd?, hrest, Declaration.after?]
  show (if (after? _ _ ((encode m).map asChar)).isSome = true then _ else _) = _
  rw [hafter, Option.isSome_map]
  cases hcomment : after? (· == ·) "<!--".toList m with
  | none =>
    show some ((findByte? (byteOf '>') _ _).map (· + 1)) = some (Option.map _ (Option.map _ _))
    rw [findByte?_succ (by decide), Option.map_map]
    rfl
  | some comment =>
    obtain rfl : m = "<!--".toList ++ comment := after?_exact_iff.1 hcomment
    have hfour : byteSize a + 4 = byteSize (a ++ "<!--".toList) := by
      rw [byteSize_append]
      rfl
    show some ((findExact? (encode "-->".toList) _ (byteSize a + 4)).map (· + 3)) =
      some (Option.map _ (Option.map _ _))
    rw [hfour, ← List.append_assoc, commentEnd?_append, Option.map_map]
    rfl

/-- Passing an element without text in place is passing it. -/
theorem rawTextEnd_append (kind : RawText) (a m : List Char) :
    rawTextEnd kind (encode (a ++ m)) (byteSize a) =
      offset (a ++ m) (Token.afterRawText kind m) := by
  have hend : (encode (a ++ m)).length = offset (a ++ m) [] := length_encode _
  have hword : ∀ c ∈ ['<', '/'] ++ kind.name, c.toNat < 128 := by
    cases kind <;> exact ascii_of_all (by decide)
  rw [rawTextEnd, findAnyCase?_append hword (by simp), Token.afterRawText]
  cases hloc : locate? sameLetter (['<', '/'] ++ kind.name) m with
  | none => exact hend
  | some xy =>
    obtain ⟨x, stop⟩ := xy
    have hm : a ++ m = a ++ x ++ stop := by rw [append_of_locate? hloc, List.append_assoc]
    dsimp only [Option.map_some]
    rw [hm, findByte?_append (by decide)]
    cases hcut : cut? '>' stop with
    | none => exact hm ▸ hend
    | some yz =>
      obtain ⟨y, z⟩ := yz
      rw [(eq_of_cut? hcut).1, ← List.append_assoc]
      exact (offset_cons_ascii (by decide) (a ++ x ++ y) z).symm

/-! ## Links -/

theorem isSome_after?_of_take {same : Char → Char → Bool} {word s : List Char} {n : Nat}
    (h : (after? same word (s.take n)).isSome = true) : (after? same word s).isSome = true := by
  obtain ⟨r, hr⟩ := Option.isSome_iff_exists.1 h
  obtain ⟨w, hw, hread⟩ := exists_of_after? hr
  have hs : s = w ++ (r ++ s.drop n) := by
    rw [← List.append_assoc, ← hw, List.take_append_drop]
  rw [hs, after?_append hread]
  rfl

/-- The end tag of a link is seen in the bytes where it stands in the text. -/
theorem endsLink_append (a m : List Char) :
    endsLink (encode (a ++ m)) (byteSize a) = (after? sameLetter "</a>".toList m).isSome := by
  have hascii : ∀ c ∈ "</a>".toList, c.toNat < 128 := ascii_of_all (by decide)
  cases hafter : after? sameLetter "</a>".toList m with
  | none =>
    have hspread := after?_spread (fun w hw _ hc => sameLetter_beyond (hascii w hw) hc) m
    have hdrop : (encode (a ++ m)).drop (byteSize a) = encode m := by
      rw [encode_append, ← length_encode, List.drop_left]
    rw [endsLink, sub?, hdrop, Nat.add_sub_cancel_left]
    split
    · apply Bool.eq_false_iff.2
      intro h
      rw [Option.any_some, List.map_take] at h
      have hsome : (after? sameLetter "</a>".toList (spread m)).isSome = true :=
        isSome_after?_of_take h
      rw [hspread, hafter] at hsome
      cases hsome
    · rfl
  | some rest =>
    obtain ⟨w, rfl, hlower⟩ := after?_sameLetter_iff.1 hafter
    have hsub : sub? (encode (a ++ (w ++ rest))) (byteSize a) (byteSize a + 4) = some (encode w) := by
      have hsub := sub?_append a w rest
      rwa [byteSize_append, byteSize_of_lower hlower hascii, List.append_assoc] at hsub
    have hread : after? sameLetter "</a>".toList w = some [] := after?_sameLetter_nil_iff.2 hlower
    have hchars : (encode w).map asChar = w := spread_of_ascii (ascii_of_lower hlower hascii)
    rw [endsLink, hsub, Option.any_some, hchars, hread]
    rfl

theorem target?_eq_none_of_short {tag : List Char} (h : tag.length < 6) : Link.target? tag = none := by
  have hloc : locate? (· == ·) "href=\"".toList tag = none := by
    apply Option.eq_none_iff_forall_ne_some.2
    rintro ⟨x, y⟩ hloc
    obtain ⟨z, hz⟩ := Option.isSome_iff_exists.1 (after?_of_locate? hloc)
    have hlen := length_of_after? hz
    have hle := (suffix_of_locate? hloc).length_le
    have hsix : "href=\"".toList.length = 6 := by decide
    omega
  rw [Link.target?, hloc]

/-- The target of a link in place is its target. -/
theorem targetAt?_append (a tag u : List Char) :
    targetAt? (a ++ tag ++ u) (byteSize a) (byteSize (a ++ tag)) = some (Link.target? tag) := by
  have hsub := sub?_append [] (a ++ tag) u
  rw [List.nil_append, byteSize_nil] at hsub
  rw [targetAt?, hsub, Link.target?]
  dsimp only [Option.bind_eq_bind, Option.bind_some]
  rw [findExact?_append (ascii_of_all (by decide)) (by decide)]
  cases hloc : locate? (· == ·) "href=\"".toList tag with
  | none => rfl
  | some xy =>
    obtain ⟨x, y⟩ := xy
    obtain ⟨z, hz⟩ := Option.isSome_iff_exists.1 (after?_of_locate? hloc)
    obtain rfl : y = "href=\"".toList ++ z := after?_exact_iff.1 hz
    obtain rfl := append_of_locate? hloc
    have hsix : byteSize (a ++ x) + 6 = byteSize (a ++ x ++ "href=\"".toList) := by
      rw [byteSize_append (a ++ x)]
      rfl
    have hassoc : a ++ (x ++ ("href=\"".toList ++ z)) ++ u =
        a ++ x ++ "href=\"".toList ++ (z ++ u) := by simp
    have hdrop : ("href=\"".toList ++ z).drop 6 = z := rfl
    have hopen : a ++ (x ++ ("href=\"".toList ++ z)) = a ++ x ++ "href=\"".toList ++ z := by simp
    dsimp only [Option.map_some]
    rw [hsix, hassoc, hopen, hdrop, findByte?_append (by decide)]
    generalize a ++ x ++ "href=\"".toList = b
    cases hcut : cut? '"' z with
    | none =>
      rw [cut?_append_of_not_mem (cut?_eq_none_iff.1 hcut)]
      cases cut? '"' u with
      | none => rfl
      | some vw =>
        have hle : byteSize (b ++ z) ≤ byteSize (b ++ (z ++ vw.1)) := by
          rw [← List.append_assoc, byteSize_append (b ++ z)]
          exact Nat.le_add_right _ _
        exact if_pos hle
    | some vw =>
      obtain ⟨v, w⟩ := vw
      obtain ⟨rfl, hv⟩ := eq_of_cut? hcut
      have hlt : byteSize (b ++ v) < byteSize (b ++ (v ++ '"' :: w)) := by
        rw [← List.append_assoc]
        exact byteSize_lt_append_cons (b ++ v) '"' w
      have hslice : slice? (b ++ (v ++ '"' :: w ++ u)) (byteSize b) (byteSize (b ++ v)) = some v := by
        have happend := slice?_append b v ('"' :: w ++ u)
        rwa [List.append_assoc b, ← List.append_assoc v] at happend
      rw [List.append_assoc v, List.cons_append, cut?_append hv]
      show (if byteSize (b ++ (v ++ '"' :: w)) ≤ byteSize (b ++ v) then _ else _) = _
      rw [if_neg (Nat.not_le_of_lt hlt)]
      show (slice? (b ++ (v ++ '"' :: (w ++ u))) _ _).bind _ = _
      rw [← List.cons_append, ← List.append_assoc v, hslice]
      rfl

theorem read?_eq_none_of_target {m tag u : List Char} (htag : cut? '>' m = some (tag, u))
    (htarget : Link.target? tag = none) : Link.read? m = none := by
  simp only [Link.read?, htag, htarget]
  split
  · rfl
  · next text v _ =>
    split
    · rfl
    · cases after? sameLetter "/a>".toList v <;> rfl

theorem offset_endTag {b v rest : List Char} (h : after? sameLetter "/a>".toList v = some rest) :
    offset (b ++ '<' :: v) rest = byteSize b + 4 := by
  obtain ⟨w, rfl, hlower⟩ := after?_sameLetter_iff.1 h
  have hsize : byteSize w = "/a>".toList.length :=
    byteSize_of_lower hlower (ascii_of_all (by decide))
  rw [← List.cons_append, ← List.append_assoc, offset_append, byteSize_append, byteSize_cons, hsize]
  rfl

/-- Reading a link in place from its text on. -/
theorem linkFrom?_append {tag : List Char} (htag : '>' ∉ tag) (a u : List Char) :
    linkFrom? (a ++ tag ++ ['>'] ++ u) (byteSize a) (byteSize (a ++ tag)) =
      some ((Link.read? (tag ++ '>' :: u)).map fun (l, rest) =>
        (l, offset (a ++ tag ++ ['>'] ++ u) rest)) := by
  have hcut : cut? '>' (tag ++ '>' :: u) = some (tag, u) := cut?_append htag u
  unfold linkFrom?
  dsimp only
  rw [← byteSize_append_ascii (c := '>') (by decide), findByte?_append (by decide)]
  cases htext : cut? '<' u with
  | none =>
    simp only [Link.read?, hcut, htext]
    rfl
  | some tv =>
    obtain ⟨text, v⟩ := tv
    obtain rfl := (eq_of_cut? htext).1
    have hslice := slice?_append (a ++ tag ++ ['>']) text ('<' :: v)
    have hends := endsLink_append (a ++ tag ++ ['>'] ++ text) ('<' :: v)
    have htarget := targetAt?_append a tag (['>'] ++ (text ++ '<' :: v))
    rw [List.append_assoc _ text] at hslice hends
    rw [← List.append_assoc] at htarget
    rw [Link.read?_of_cut hcut htext]
    simp only [Option.map_some]
    rw [hslice]
    show (if (trim text).isEmpty = true then _ else _) = _
    by_cases hwords : words text = []
    · rw [(trim_eq_nil_iff text).2 hwords, hwords]
      rfl
    · rw [List.isEmpty_eq_false_iff.2 (mt (trim_eq_nil_iff text).1 hwords),
        List.isEmpty_eq_false_iff.2 hwords, if_neg Bool.false_ne_true, if_neg Bool.false_ne_true,
        hends, htarget]
      show (if (!(after? sameLetter "/a>".toList v).isSome) = true then _ else _) = _
      cases hafter : after? sameLetter "/a>".toList v with
      | none => rfl
      | some rest =>
        cases Link.target? tag with
        | none => rfl
        | some target =>
          have hplace := offset_endTag (b := a ++ tag ++ ['>'] ++ text) hafter
          rw [List.append_assoc _ text] at hplace
          show some (some (Link.mk (collapse (trim text)) target, _)) =
            some (some (Link.mk (collapse text) target, offset _ rest))
          rw [hplace, collapse_trim]

/-- Reading a link in place is reading it. -/
theorem linkAt?_append (a m : List Char) :
    linkAt? (a ++ m) (byteSize a) =
      some ((Link.read? m).map fun (l, rest) => (l, offset (a ++ m) rest)) := by
  rw [linkAt?, findByte?_append (by decide)]
  cases hcut : cut? '>' m with
  | none =>
    rw [Link.read?, hcut]
    rfl
  | some tu =>
    obtain ⟨tag, u⟩ := tu
    obtain ⟨rfl, htag⟩ := eq_of_cut? hcut
    simp only [Option.map_some]
    by_cases hshort : byteSize (a ++ tag) < byteSize a + 3
    · -- A start tag of three bytes names no target.
      have hlen : tag.length < 6 := by
        have hle := length_le_byteSize tag
        rw [byteSize_append] at hshort
        omega
      rw [if_pos hshort, read?_eq_none_of_target hcut (target?_eq_none_of_short hlen)]
      rfl
    · have hassoc : a ++ (tag ++ '>' :: u) = a ++ tag ++ ['>'] ++ u := by simp
      rw [if_neg hshort, hassoc]
      exact linkFrom?_append htag a u

end HtmlMarkdown.InPlace
