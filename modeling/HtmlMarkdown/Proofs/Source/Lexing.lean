import HtmlMarkdown.Proofs.Source.Piece

/-!
# The tokens of a spelled page

Each piece of a page is read as the tokens that it stands for, whatever follows it
(`tokens_piece`), unless it is the start tag of a link, which is read together with what belongs to
it (`tokens_link`).  What the end of the page cuts off gives no token, or that of an element without
text (`tokens_cutOff`).
-/

namespace HtmlMarkdown

open Text

/-- The tokens of a piece, where `rest` is the text after it. -/
def Piece.tokens (rest : List Char) : Piece → List Token
  | text s _ => s.map Token.ofChar
  | comment _ _ => [.declaration]
  | declaration _ _ _ => [.declaration]
  | nameless _ _ _ => [.nameless]
  | startTag t _ =>
    [.startTag t.element (t.element == .quotation && Token.quotableAhead rest)]
  | endTag t => [.endTag t.element]
  | rawText kind _ _ _ => [.rawText kind]

/-- Whether a piece is text. -/
def Piece.isText : Piece → Bool
  | text _ _ => true
  | _ => false

theorem Piece.exists_eq_text {p : Piece} (h : p.isText = true) : ∃ s hs, p = .text s hs := by
  cases p with
  | text s hs => exact ⟨s, hs, rfl⟩
  | _ => cases h

/-- The link that a piece starts, with the text after it. -/
def Piece.link? (rest : List Char) : Piece → Option (Link × List Char)
  | startTag t h =>
    if t.element = .anchor then Link.read? ((startTag t h).spell ++ rest) else none
  | _ => none

/-- The tokens of what is cut off. -/
def CutOff.tokens : CutOff → List Token
  | rawText kind _ _ _ _ => [.rawText kind]
  | _ => []

/-! ## First tokens -/

theorem tokens_nil (mode : Mode) : tokens mode [] = [] :=
  tokens_of_next?_eq_none rfl

theorem tokens_char (mode : Mode) {c : Char} (h : c ≠ '<') (s : List Char) :
    tokens mode (c :: s) = Token.ofChar c :: tokens mode s := by
  apply tokens_of_next?_eq_some
  rw [Token.next?, if_neg (by simpa using h), Token.ofChar]

theorem tokens_text (mode : Mode) {s : List Char} (h : '<' ∉ s) (rest : List Char) :
    tokens mode (s ++ rest) = s.map Token.ofChar ++ tokens mode rest := by
  induction s with
  | nil => rfl
  | cons c s ih =>
    rw [List.mem_cons, not_or] at h
    rw [List.cons_append, tokens_char mode (Ne.symm h.1), ih h.2, List.map_cons, List.cons_append]

theorem next?_bracket (mode : Mode) (s : List Char) :
    Token.next? mode ('<' :: s) = Token.markup? mode s := rfl

theorem markup?_tag (mode : Mode) (t : SpelledTag) (s : List Char) :
    Token.markup? mode (t.inner ++ '>' :: s) =
      some (Token.ofStartTag mode t.element (t.inner ++ '>' :: s) s) := by
  obtain ⟨c, u, hc, hstart⟩ := t.exists_inner_eq_cons
  unfold Token.markup?
  split
  · next h =>
    rw [hc, List.cons_append, List.cons.injEq] at h
    rw [h.1] at hstart
    cases hstart
  · next h =>
    rw [hc, List.cons_append, List.cons.injEq] at h
    rw [h.1] at hstart
    cases hstart
  · rw [t.scan_inner]
    rfl

theorem markup?_endTag (mode : Mode) (t : SpelledTag) (s : List Char) :
    Token.markup? mode ('/' :: (t.inner ++ '>' :: s)) = some (.endTag t.element, s) := by
  unfold Token.markup?
  simp only [t.scan_inner]
  rfl

theorem markup?_nameless (mode : Mode) {s : List Char} (hopen : '>' ∉ s) (h : Nameless s)
    (u : List Char) : Token.markup? mode (s ++ '>' :: u) = some (.nameless, u) := by
  unfold Token.markup?
  split
  · next hs =>
    cases s with
    | nil => cases hs
    | cons c s =>
      rw [List.cons_append, List.cons.injEq] at hs
      exact absurd (congrArg some hs.1) h.1
  · next hs =>
    cases s with
    | nil => cases hs
    | cons c s =>
      rw [List.cons_append, List.cons.injEq] at hs
      rw [← hs.2, TagName.scan_nameless (fun hmem => hopen (List.mem_cons_of_mem c hmem))]
      exact fun t hs' => (h.2 t).2 (by rw [hs.1, hs'])
  · rw [TagName.scan_nameless hopen fun t => (h.2 t).1]

theorem declaration_after?_comment {s : List Char} (h : ¬ ['-', '-', '>'] <:+: s)
    (u : List Char) :
    Declaration.after? ('<' :: '!' :: '-' :: '-' :: (s ++ '-' :: '-' :: '>' :: u)) = some u := by
  have hstart : Text.after? (· == ·) "<!--".toList
      ('<' :: '!' :: '-' :: '-' :: (s ++ '-' :: '-' :: '>' :: u)) =
        some (s ++ '-' :: '-' :: '>' :: u) := after?_exact_iff.2 rfl
  unfold Declaration.after?
  rw [hstart]
  show (locate? (· == ·) ['-', '-', '>'] _).map _ = _
  rw [locate?_commentEnd h]
  rfl

theorem declaration_after?_comment_open {s : List Char} (h : ¬ ['-', '-', '>'] <:+: s) :
    Declaration.after? ('<' :: '!' :: '-' :: '-' :: s) = none := by
  have hstart : Text.after? (· == ·) "<!--".toList ('<' :: '!' :: '-' :: '-' :: s) = some s :=
    after?_exact_iff.2 rfl
  unfold Declaration.after?
  rw [hstart]
  show (locate? (· == ·) ['-', '-', '>'] _).map _ = _
  rw [locate?_commentEnd_eq_none h]
  rfl

theorem declaration_after?_other {s : List Char} (h : ¬ ['-', '-'] <+: s) :
    Declaration.after? ('<' :: '!' :: s) = (cut? '>' ('<' :: '!' :: s)).map (·.2) := by
  have hstart : Text.after? (· == ·) "<!--".toList ('<' :: '!' :: s) = none := by
    apply Option.eq_none_iff_forall_ne_some.2
    intro r hr
    apply h
    refine ⟨r, ?_⟩
    have hr := after?_exact_iff.1 hr
    simp only [String.reduceToList, List.cons_append, List.cons.injEq, true_and] at hr
    rw [hr]
    rfl
  unfold Declaration.after?
  rw [hstart]

theorem markup?_comment (mode : Mode) {s : List Char} (h : ¬ ['-', '-', '>'] <:+: s)
    (u : List Char) :
    Token.markup? mode ('!' :: '-' :: '-' :: (s ++ '-' :: '-' :: '>' :: u)) =
      some (.declaration, u) := by
  rw [Token.markup?, declaration_after?_comment h]
  rfl

theorem markup?_declaration (mode : Mode) {s : List Char} (hopen : '>' ∉ s)
    (h : ¬ ['-', '-'] <+: s) (u : List Char) :
    Token.markup? mode ('!' :: (s ++ '>' :: u)) = some (.declaration, u) := by
  have hstart : ¬ ['-', '-'] <+: s ++ '>' :: u := by
    intro hpre
    match s, hpre, h with
    | [], hpre, _ => simp at hpre
    | [a], hpre, _ => simp at hpre
    | a :: b :: s, hpre, h =>
      simp only [List.cons_append, List.cons_prefix_cons] at hpre h
      exact h ⟨hpre.1, hpre.2.1, List.nil_prefix⟩
  have hcut : cut? '>' ('<' :: '!' :: (s ++ '>' :: u)) = some ('<' :: '!' :: s, u) :=
    cut?_append (a := '<' :: '!' :: s) (by simpa using hopen) u
  rw [Token.markup?, declaration_after?_other hstart, hcut]
  rfl

theorem afterRawText_spell {kind : RawText} (r : RawContent kind) (u : List Char) :
    Token.afterRawText kind (r.spell ++ u) = u := by
  have hspell : r.spell ++ u =
      r.body ++ '<' :: ('/' :: r.letters) ++ (r.rest ++ '>' :: u) := by
    simp [RawContent.spell]
  have hword : '<' ∉ '/' :: kind.name := by cases kind <;> decide
  have hletters : lower ('/' :: r.letters) = lower ('/' :: kind.name) := by
    have hname : lower kind.name = kind.name := by cases kind <;> decide
    simp only [lower, List.map_cons, List.cons.injEq, true_and]
    exact r.letters_lower.trans hname.symm
  have hopen : '>' ∉ '<' :: ('/' :: r.letters) ++ r.rest := by
    have hmem : '>' ∉ r.letters := not_mem_of_lower r.letters_lower (by cases kind <;> decide)
    simp [hmem, r.rest_open]
  unfold Token.afterRawText
  rw [show ['<', '/'] ++ kind.name = '<' :: ('/' :: kind.name) from rfl, hspell,
    locate?_append_of_avoids r.body_avoids hword hletters]
  dsimp only
  rw [← List.append_assoc, cut?_append hopen]

theorem ofStartTag_of_ne_raw {mode : Mode} {t : SpelledTag} {h : t.element.isRaw = false}
    {rest : List Char} (hlink : mode = .plain ∨ (Piece.startTag t h).link? rest = none) :
    Token.ofStartTag mode t.element (t.inner ++ '>' :: rest) rest =
      (.startTag t.element (t.element == .quotation && Token.quotableAhead rest), rest) := by
  unfold Token.ofStartTag
  split
  · next kind he =>
    rw [he] at h
    cases h
  · next he =>
    rw [he]
    have hnone : mode = .markdown → Link.read? ('<' :: (t.inner ++ '>' :: rest)) = none := by
      rintro rfl
      rcases hlink with hp | hl
      · cases hp
      · rw [Piece.link?, if_pos he] at hl
        simpa [Piece.spell] using hl
    split
    · next heq hread => rw [hnone rfl] at hread; cases hread
    · rfl
  · next he =>
    rw [he]
    rfl
  · next hraw hanchor hquotation =>
    rw [beq_eq_false_iff_ne.2 hquotation]
    rfl

/-! ## Pieces -/

/-- A construct in brackets is read as its one token, unless it starts a link. -/
theorem next?_piece {mode : Mode} {p : Piece} {rest : List Char} (htext : p.isText = false)
    (h : mode = .plain ∨ p.link? rest = none) :
    ∃ t, p.tokens rest = [t] ∧ Token.next? mode (p.spell ++ rest) = some (t, rest) := by
  cases p with
  | text s hs => cases htext
  | comment s hs =>
    refine ⟨_, rfl, ?_⟩
    rw [Piece.spell, List.cons_append, next?_bracket]
    simpa using markup?_comment mode hs rest
  | declaration s hopen hs =>
    refine ⟨_, rfl, ?_⟩
    rw [Piece.spell, List.cons_append, next?_bracket]
    simpa using markup?_declaration mode hopen hs rest
  | nameless s hopen hs =>
    refine ⟨_, rfl, ?_⟩
    rw [Piece.spell, List.cons_append, next?_bracket]
    simpa using markup?_nameless mode hopen hs rest
  | startTag t ht =>
    refine ⟨_, rfl, ?_⟩
    rw [Piece.spell, List.cons_append, next?_bracket, List.append_assoc, List.singleton_append,
      markup?_tag, ofStartTag_of_ne_raw h]
  | endTag t =>
    refine ⟨_, rfl, ?_⟩
    rw [Piece.spell, List.cons_append, next?_bracket]
    simpa using markup?_endTag mode t rest
  | rawText kind t ht r =>
    refine ⟨_, rfl, ?_⟩
    rw [Piece.spell, List.cons_append, next?_bracket, List.append_assoc, List.cons_append,
      markup?_tag, ht]
    show some (Token.rawText kind, Token.afterRawText kind (r.spell ++ rest)) = _
    rw [afterRawText_spell]

theorem tokens_piece {mode : Mode} {p : Piece} {rest : List Char}
    (h : mode = .plain ∨ p.link? rest = none) :
    tokens mode (p.spell ++ rest) = p.tokens rest ++ tokens mode rest := by
  by_cases htext : p.isText = true
  · obtain ⟨s, hs, rfl⟩ := Piece.exists_eq_text htext
    exact tokens_text mode hs rest
  · obtain ⟨t, ht, hnext⟩ := next?_piece (Bool.eq_false_iff.2 htext) h
    rw [tokens_of_next?_eq_some hnext, ht, List.singleton_append]

/-- The start tag of a link is read together with what belongs to the link. -/
theorem tokens_link {p : Piece} {rest after : List Char} {l : Link}
    (h : p.link? rest = some (l, after)) :
    tokens .markdown (p.spell ++ rest) =
      .link l :: tokens .markdown after := by
  cases p with
  | startTag t ht =>
    rw [Piece.link?] at h
    split at h
    · next he =>
      apply tokens_of_next?_eq_some
      have hspell : (Piece.startTag t ht).spell ++ rest = '<' :: (t.inner ++ '>' :: rest) := by
        simp [Piece.spell]
      rw [hspell] at h ⊢
      rw [next?_bracket, markup?_tag, he]
      simp only [Token.ofStartTag, h]
    · cases h
  | _ => cases h

/-! ## The end of the page -/

theorem declaration_after?_eq_none {s : List Char} (h : '>' ∉ s) :
    Declaration.after? s = none := by
  unfold Declaration.after?
  split
  · next comment hc =>
    have hsub := (suffix_of_after? hc).subset
    have hnone : locate? (· == ·) ['-', '-', '>'] comment = none := by
      apply locate?_commentEnd_eq_none
      intro hword
      apply h
      exact hsub (hword.subset (by simp))
    exact Option.map_eq_none_iff.2 hnone
  · exact Option.map_eq_none_iff.2 (cut?_eq_none_iff.2 h)

theorem markup?_eq_none (mode : Mode) {s : List Char} (h : '>' ∉ s) :
    Token.markup? mode s = none := by
  unfold Token.markup?
  split
  · apply Option.map_eq_none_iff.2
    apply declaration_after?_eq_none
    simpa using h
  · next t => rw [TagName.scan_eq_unclosed fun hmem => h (List.mem_cons_of_mem _ hmem)]
  · rw [TagName.scan_eq_unclosed h]

theorem afterRawText_eq_nil {kind : RawText} {s : List Char}
    (h : ∀ a w b, s = a ++ w ++ b → lower w = kind.endWord → '>' ∉ b) :
    Token.afterRawText kind s = [] := by
  unfold Token.afterRawText
  split
  · rfl
  · next a stop hloc =>
    obtain ⟨r, hr⟩ := Option.isSome_iff_exists.1 (after?_of_locate? hloc)
    obtain ⟨w, hw, hlow⟩ := after?_sameLetter_iff.1 hr
    have hend : lower w = kind.endWord := by
      rw [hlow]
      cases kind <;> decide
    have hopen : '>' ∉ stop := by
      have hr : '>' ∉ r :=
        h a w r (by rw [append_of_locate? hloc, hw, List.append_assoc]) hend
      have hw' : '>' ∉ w := not_mem_of_lower hend (by cases kind <;> decide)
      rw [hw, List.mem_append, not_or]
      exact ⟨hw', hr⟩
    rw [cut?_eq_none_iff.2 hopen]

/-- What is cut off gives no token, but for elements without text. -/
theorem next?_cutOff (mode : Mode) (e : CutOff) :
    (e.tokens = [] ∧ Token.next? mode e.spell = none) ∨
      ∃ kind, e.tokens = [.rawText kind] ∧
        Token.next? mode e.spell = some (.rawText kind, []) := by
  cases e with
  | none => exact .inl ⟨rfl, rfl⟩
  | bracket s h => exact .inl ⟨rfl, markup?_eq_none mode h⟩
  | comment s h =>
    refine .inl ⟨rfl, ?_⟩
    rw [CutOff.spell, next?_bracket, Token.markup?, declaration_after?_comment_open h]
    rfl
  | rawText kind t ht s h =>
    refine .inr ⟨kind, rfl, ?_⟩
    rw [CutOff.spell, next?_bracket, markup?_tag, ht]
    show some (Token.rawText kind, Token.afterRawText kind s) = _
    rw [afterRawText_eq_nil h]

theorem tokens_cutOff (mode : Mode) (e : CutOff) : tokens mode e.spell = e.tokens := by
  rcases next?_cutOff mode e with ⟨htokens, hnext⟩ | ⟨kind, htokens, hnext⟩
  · rw [tokens_of_next?_eq_none hnext, htokens]
  · rw [tokens_of_next?_eq_some hnext, tokens_nil, htokens]

/-! ## Pages without anchors -/

/-- Whether a piece is the start tag of an anchor. -/
def Piece.isAnchor : Piece → Bool
  | startTag t _ => t.element == .anchor
  | _ => false

theorem Piece.link?_eq_none {p : Piece} (h : p.isAnchor = false) (rest : List Char) :
    p.link? rest = none := by
  cases p with
  | startTag t ht => exact if_neg (beq_eq_false_iff_ne.1 h)
  | _ => rfl

/-- The tokens of pieces that stand each for itself, where `rest` is the text after them. -/
def tokensAll (rest : List Char) : List Piece → List Token
  | [] => []
  | p :: ps => p.tokens (spellAll ps ++ rest) ++ tokensAll rest ps

theorem tokensAll_append (rest : List Char) (ps qs : List Piece) :
    tokensAll rest (ps ++ qs) = tokensAll (spellAll qs ++ rest) ps ++ tokensAll rest qs := by
  induction ps with
  | nil => rfl
  | cons p ps ih =>
    rw [List.cons_append, tokensAll, tokensAll, ih, spellAll_append, List.append_assoc,
      List.append_assoc]

theorem tokens_spellAll {mode : Mode} {ps : List Piece}
    (h : mode = .plain ∨ ∀ p ∈ ps, p.isAnchor = false) (rest : List Char) :
    tokens mode (spellAll ps ++ rest) =
      tokensAll rest ps ++ tokens mode rest := by
  induction ps with
  | nil => rfl
  | cons p ps ih =>
    have hp : mode = .plain ∨ p.link? (spellAll ps ++ rest) = none :=
      h.imp id fun h => p.link?_eq_none (h p (List.mem_cons_self ..)) _
    have hps : mode = .plain ∨ ∀ p ∈ ps, p.isAnchor = false :=
      h.imp id fun h q hq => h q (List.mem_cons_of_mem p hq)
    rw [spellAll_cons, List.append_assoc, tokens_piece hp, ih hps, tokensAll, List.append_assoc]

theorem tokens_of_no_anchor {ps : List Piece} (h : ∀ p ∈ ps, p.isAnchor = false) :
    tokens .markdown (spellAll ps) = tokensAll [] ps := by
  have htokens := @tokens_spellAll .markdown ps (.inr h) []
  rwa [List.append_nil, tokens_nil, List.append_nil] at htokens

end HtmlMarkdown
