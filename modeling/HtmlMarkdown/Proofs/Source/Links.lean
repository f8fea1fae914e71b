import HtmlMarkdown.Proofs.Source.Lexing

/-!
# Links among the pieces of a page

A link is one token, but it takes a start tag, the text behind it and an end tag of the page
(`after_of_link?`).  So `markdownTokens` gives the tokens of a page piece by piece, and skips with
`dropLink` the pieces that a link has taken.
-/

namespace HtmlMarkdown

open Text

theorem Link.exists_of_read? {s after : List Char} {l : Link}
    (h : Link.read? s = some (l, after)) :
    ∃ tag text w, s = tag ++ '>' :: (text ++ '<' :: (w ++ after)) ∧ '>' ∉ tag ∧ '<' ∉ text ∧
      lower w = ['/', 'a', '>'] ∧ l.text = collapse text ∧ Link.target? tag = some l.target := by
  unfold Link.read? at h
  split at h
  · cases h
  · next tag s htag =>
    split at h
    · cases h
    · next text s htext =>
      split at h
      · cases h
      · split at h
        · next rest target hrest htarget =>
          cases h
          obtain ⟨rfl, hopen⟩ := eq_of_cut? htag
          obtain ⟨rfl, hopen'⟩ := eq_of_cut? htext
          obtain ⟨w, rfl, hw⟩ := after?_sameLetter_iff.1 hrest
          exact ⟨tag, text, w, rfl, hopen, hopen', hw, rfl, htarget⟩
        · cases h

/-- What ends a link is an end tag of an anchor. -/
theorem next?_endOfLink {w : List Char} (hw : lower w = ['/', 'a', '>']) (after : List Char) :
    Token.next? .plain ('<' :: (w ++ after)) = some (.endTag .anchor, after) := by
  obtain ⟨x, w, rfl, hx, hw⟩ := List.map_eq_cons_iff.1 hw
  obtain ⟨y, w, rfl, hy, hw⟩ := List.map_eq_cons_iff.1 hw
  obtain ⟨z, w, rfl, hz, hw⟩ := List.map_eq_cons_iff.1 hw
  obtain rfl := List.map_eq_nil_iff.1 hw
  obtain rfl := eq_of_toLower_eq hx (by decide)
  obtain rfl := eq_of_toLower_eq hz (by decide)
  have hstart : TagName.isNameStart y = true := TagName.isNameStart_of_toLower (by rw [hy]; decide)
  have hchar : TagName.isNameChar y = true := TagName.isNameChar_of_toLower (by rw [hy]; decide)
  have htag := markup?_endTag .plain
    ⟨[y], [], hstart, by simpa using hchar, by simp, by simp⟩ after
  have helement : Element.ofName (lower [y]) = .anchor := by
    rw [lower, List.map_singleton, hy]
    decide
  rw [← helement]
  exact htag

/-- The pieces behind the text and the end tag of a link. -/
def dropLink (ps : List Piece) : List Piece := (ps.dropWhile Piece.isText).tail

theorem dropLink_cons_text {p : Piece} (h : p.isText = true) (ps : List Piece) :
    dropLink (p :: ps) = dropLink ps := by
  rw [dropLink, List.dropWhile_cons_of_pos h, dropLink]

theorem dropLink_cons {p : Piece} (h : p.isText = false) (ps : List Piece) :
    dropLink (p :: ps) = ps := by
  rw [dropLink, List.dropWhile_cons_of_neg (Bool.eq_false_iff.1 h), List.tail_cons]

theorem length_dropLink_le (ps : List Piece) : (dropLink ps).length ≤ ps.length := by
  have hdrop := (List.dropWhile_suffix (l := ps) Piece.isText).length_le
  rw [dropLink, List.length_tail]
  omega

theorem exists_append_of_not_mem {s t u v : List Char} (hs : '<' ∉ s)
    (h : s ++ u = t ++ '<' :: v) : ∃ t', t = s ++ t' ∧ u = t' ++ '<' :: v := by
  rcases exists_of_append_eq_append_cons h with hbehind | ⟨a, rfl, -⟩
  · exact hbehind
  · exact absurd (by simp) hs

theorem eq_nil_of_not_mem {s t u : List Char} (ht : '<' ∉ t) (h : '<' :: s = t ++ u) : t = [] := by
  cases t with
  | nil => rfl
  | cons c t =>
    rw [List.cons_append, List.cons.injEq] at h
    exact absurd (h.1 ▸ List.mem_cons_self ..) ht

theorem Piece.exists_spell_eq_cons {p : Piece} (h : p.isText = false) :
    ∃ s, p.spell = '<' :: s := by
  cases p with
  | text => cases h
  | _ => exact ⟨_, rfl⟩

theorem CutOff.spell_eq_nil_or_cons (e : CutOff) : e.spell = [] ∨ ∃ s, e.spell = '<' :: s := by
  cases e with
  | none => exact .inl rfl
  | _ => exact .inr ⟨_, rfl⟩

/-- What is cut off holds no end of a link. -/
theorem CutOff.spell_ne_endOfLink {e : CutOff} {text w after : List Char} (htext : '<' ∉ text)
    (hw : lower w = ['/', 'a', '>']) : e.spell ≠ text ++ '<' :: (w ++ after) := by
  intro h
  have hend := next?_endOfLink hw after
  rcases e.spell_eq_nil_or_cons with hspell | ⟨s, hspell⟩
  · simp [hspell] at h
  · obtain rfl := eq_nil_of_not_mem htext (hspell ▸ h)
    rw [List.nil_append] at h
    rw [← h] at hend
    rcases next?_cutOff .plain e with ⟨-, hnext⟩ | ⟨kind, -, hnext⟩
    · rw [hnext] at hend
      cases hend
    · rw [hnext] at hend
      cases hend

/-- Behind a text without `<` and the end of a link, the page goes on where the link ends. -/
theorem after_of_spellAll {ps : List Piece} {e : CutOff} {text w after : List Char}
    (htext : '<' ∉ text) (hw : lower w = ['/', 'a', '>'])
    (h : spellAll ps ++ e.spell = text ++ '<' :: (w ++ after)) :
    after = spellAll (dropLink ps) ++ e.spell := by
  -- Pieces of text are part of the text of the link; the first other piece starts where the end tag
  -- starts, and both are read as one token.
  induction ps generalizing text with
  | nil =>
    rw [spellAll_nil, List.nil_append] at h
    exact absurd h (CutOff.spell_ne_endOfLink htext hw)
  | cons p ps ih =>
    rw [spellAll_cons, List.append_assoc] at h
    by_cases hp : p.isText = true
    · obtain ⟨s, hs, rfl⟩ := Piece.exists_eq_text hp
      obtain ⟨text', rfl, hrest⟩ := exists_append_of_not_mem hs h
      rw [List.mem_append, not_or] at htext
      rw [dropLink_cons_text hp]
      exact ih htext.2 hrest
    · have hp : p.isText = false := Bool.eq_false_iff.2 hp
      obtain ⟨s, hs⟩ := Piece.exists_spell_eq_cons hp
      rw [hs, List.cons_append] at h
      obtain rfl := eq_nil_of_not_mem htext h
      obtain ⟨t, -, hnext⟩ := @next?_piece .plain p (spellAll ps ++ e.spell) hp (.inl rfl)
      rw [hs, List.cons_append, h, List.nil_append, next?_endOfLink hw] at hnext
      simp only [Option.some.injEq, Prod.mk.injEq] at hnext
      rw [dropLink_cons hp]
      exact hnext.2

/-- A link ends where one of the pieces ends. -/
theorem after_of_link? {p : Piece} {ps : List Piece} {e : CutOff} {l : Link} {after : List Char}
    (h : p.link? (spellAll ps ++ e.spell) = some (l, after)) :
    after = spellAll (dropLink ps) ++ e.spell := by
  cases p with
  | startTag t ht =>
    rw [Piece.link?] at h
    split at h
    · obtain ⟨tag, text, w, hs, htag, htext, hw, -⟩ := Link.exists_of_read? h
      have hspell : (Piece.startTag t ht).spell ++ (spellAll ps ++ e.spell) =
          ('<' :: t.inner) ++ '>' :: (spellAll ps ++ e.spell) := by
        simp [Piece.spell]
      have hinner : '>' ∉ '<' :: t.inner := by simpa using t.not_mem_inner
      have hcut := cut?_append hinner (spellAll ps ++ e.spell)
      rw [← hspell, hs, cut?_append htag] at hcut
      simp only [Option.some.injEq, Prod.mk.injEq] at hcut
      exact after_of_spellAll htext hw hcut.2.symm
    · cases h
  | _ => cases h

/-! ## The tokens of a page in Markdown -/

/-- The tokens of pieces in Markdown, where `rest` is the text after them. -/
def markdownTokens (rest : List Char) : List Piece → List Token
  | [] => []
  | p :: ps =>
    match p.link? (spellAll ps ++ rest) with
    | some (l, _) => .link l :: markdownTokens rest (dropLink ps)
    | none => p.tokens (spellAll ps ++ rest) ++ markdownTokens rest ps
termination_by ps => ps.length
decreasing_by
  · exact Nat.lt_succ_of_le (length_dropLink_le ps)
  · exact Nat.lt_succ_self _

theorem tokens_markdown (ps : List Piece) (e : CutOff) :
    tokens .markdown (spellAll ps ++ e.spell) = markdownTokens e.spell ps ++ e.tokens := by
  fun_induction markdownTokens e.spell ps with
  | case1 => exact tokens_cutOff .markdown e
  | case2 p ps l after hlink ih =>
    rw [spellAll_cons, List.append_assoc, tokens_link hlink, after_of_link? hlink, ih,
      List.cons_append]
  | case3 p ps hlink ih =>
    rw [spellAll_cons, List.append_assoc, tokens_piece (.inr hlink), ih, List.append_assoc]

end HtmlMarkdown
