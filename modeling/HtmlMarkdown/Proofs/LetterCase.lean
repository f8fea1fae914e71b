import HtmlMarkdown.Convert
import HtmlMarkdown.Proofs.LinkText
import HtmlMarkdown.Proofs.Source.Ahead
import HtmlMarkdown.Proofs.Source.Links
import HtmlMarkdown.Proofs.Transparency

/-!
# The letter case of tag names

Two pages are `Recased` if they differ at most in the letter case of the names of their tags: start
tags, end tags and the end tags of elements without text.  Such pages have the same tokens, and so
they are converted to the same text (`convert_recased`).

A name is read by the scan of its own tag, but also from further away, by a quotation that looks
ahead (`Recased.quotableAhead`) and by a link, which ends with the end tag of an anchor
(`Recased.link?`).  Both see the text between tags as it is, and of what is between brackets they
see the lower case of the name.
-/

namespace HtmlMarkdown

open Text TagName

/-! ## Pages that differ in letter case -/

/-- Tags that differ at most in the letter case of their names. -/
structure SpelledTag.Recased (t u : SpelledTag) : Prop where
  name : lower t.name = lower u.name
  rest : t.rest = u.rest

/--
Contents of an element whose end tags differ at most in the letter case of their names.  The name
of the tag may be longer than that of the element.
-/
structure RawContent.Recased {kind : RawText} (r s : RawContent kind) : Prop where
  body : r.body = s.body
  name : lower ((r.letters ++ r.rest).takeWhile isNameChar) =
    lower ((s.letters ++ s.rest).takeWhile isNameChar)
  rest : (r.letters ++ r.rest).dropWhile isNameChar = (s.letters ++ s.rest).dropWhile isNameChar

instance (t u : SpelledTag) : Decidable (t.Recased u) :=
  decidable_of_iff (lower t.name = lower u.name ∧ t.rest = u.rest)
    ⟨fun h => ⟨h.1, h.2⟩, fun h => ⟨h.name, h.rest⟩⟩

instance {kind : RawText} (r s : RawContent kind) : Decidable (r.Recased s) :=
  decidable_of_iff (r.body = s.body ∧ lower ((r.letters ++ r.rest).takeWhile isNameChar) =
      lower ((s.letters ++ s.rest).takeWhile isNameChar) ∧
        (r.letters ++ r.rest).dropWhile isNameChar = (s.letters ++ s.rest).dropWhile isNameChar)
    ⟨fun h => ⟨h.1, h.2.1, h.2.2⟩, fun h => ⟨h.body, h.name, h.rest⟩⟩

/-- Pieces that differ at most in the letter case of names. -/
inductive Piece.Recased : Piece → Piece → Prop where
  | text (s : List Char) (h : '<' ∉ s) : Recased (.text s h) (.text s h)
  | comment (s : List Char) (h : ¬ ['-', '-', '>'] <:+: s) : Recased (.comment s h) (.comment s h)
  | declaration (s : List Char) (hopen : '>' ∉ s) (h : ¬ ['-', '-'] <+: s) :
    Recased (.declaration s hopen h) (.declaration s hopen h)
  | nameless (s : List Char) (hopen : '>' ∉ s) (h : Nameless s) :
    Recased (.nameless s hopen h) (.nameless s hopen h)
  | startTag {t u : SpelledTag} (h : t.Recased u) (ht : t.element.isRaw = false)
    (hu : u.element.isRaw = false) : Recased (.startTag t ht) (.startTag u hu)
  | endTag {t u : SpelledTag} (h : t.Recased u) : Recased (.endTag t) (.endTag u)
  | rawText {kind : RawText} {t u : SpelledTag} {r s : RawContent kind} (h : t.Recased u)
    (hcontent : r.Recased s) (ht : t.element = .raw kind) (hu : u.element = .raw kind) :
    Recased (.rawText kind t ht r) (.rawText kind u hu s)

/-- Pages that differ at most in the letter case of names. -/
structure Page.Recased (p q : Page) : Prop where
  pieces : List.Forall₂ Piece.Recased p.pieces q.pieces
  cutOff : p.cutOff = q.cutOff

variable {t u : SpelledTag} {p q : Piece} {ps qs : List Piece}

/-! ## The lower case of a page -/

theorem SpelledTag.Recased.element (h : t.Recased u) : t.element = u.element :=
  congrArg Element.ofName h.name

theorem SpelledTag.Recased.lower_inner (h : t.Recased u) : lower t.inner = lower u.inner := by
  rw [SpelledTag.inner, SpelledTag.inner, lower_append, lower_append, h.name, h.rest]

theorem RawContent.Recased.lower_spell {kind : RawText} {r s : RawContent kind} (h : r.Recased s) :
    lower r.spell = lower s.spell := by
  have htag : lower (r.letters ++ r.rest) = lower (s.letters ++ s.rest) := by
    rw [← List.takeWhile_append_dropWhile (p := isNameChar) (l := r.letters ++ r.rest),
      lower_append, h.name, h.rest, ← lower_append, List.takeWhile_append_dropWhile]
  simp only [RawContent.spell, lower_append, lower_cons, h.body]
  rw [← lower_append, htag, lower_append]

theorem Piece.Recased.lower_spell (h : p.Recased q) : lower p.spell = lower q.spell := by
  cases h with
  | text | comment | declaration | nameless => rfl
  | startTag h => simp only [Piece.spell, lower_cons, lower_append, h.lower_inner]
  | endTag h => simp only [Piece.spell, lower_cons, lower_append, h.lower_inner]
  | rawText h hcontent =>
    simp only [Piece.spell, lower_cons, lower_append, h.lower_inner, hcontent.lower_spell]

theorem Piece.Recased.isText_eq (h : p.Recased q) : p.isText = q.isText := by
  cases h <;> rfl

theorem lower_spellAll (h : List.Forall₂ Piece.Recased ps qs) :
    lower (spellAll ps) = lower (spellAll qs) := by
  induction h with
  | nil => rfl
  | cons hp _ ih =>
    rw [spellAll_cons, spellAll_cons, lower_append, lower_append, hp.lower_spell, ih]

/-! ## Looking ahead -/

namespace Token

theorem quotableAhead_ink {c : Char} (h : isBlank c = false) (hc : c ≠ '<') (s : List Char) :
    quotableAhead (c :: s) = false := by
  simp [quotableAhead, skipBlanks_cons_of_not_blank h, hc]

/-- Behind the same text the same is seen. -/
theorem quotableAhead_text {s x y : List Char} (hs : '<' ∉ s)
    (hxy : quotableAhead x = quotableAhead y) :
    quotableAhead (s ++ x) = quotableAhead (s ++ y) := by
  induction s with
  | nil => exact hxy
  | cons c s ih =>
    rw [List.mem_cons, not_or] at hs
    rw [List.cons_append, List.cons_append]
    by_cases hc : isBlank c = true
    · have hblank : ∀ z, quotableAhead (c :: z) = quotableAhead z :=
        quotableAhead_blanks (g := [c]) (List.forall_mem_singleton.2 hc)
      rw [hblank, hblank, ih hs.2]
    · have hink : ∀ z, quotableAhead (c :: z) = false :=
        quotableAhead_ink (Bool.eq_false_iff.2 hc) (Ne.symm hs.1)
      rw [hink, hink]

/-- Only a start tag is a block. -/
theorem quotableAhead_of_not_start {c : Char} (h : isNameStart c = false) (s : List Char) :
    quotableAhead ('<' :: c :: s) = false := by
  refine Bool.eq_false_iff.2 fun hahead => ?_
  obtain ⟨g, t, rest, hg, heq, -⟩ := exists_of_quotableAhead hahead
  cases g with
  | nil =>
    obtain ⟨d, r, hd, hstart⟩ := t.exists_inner_eq_cons
    simp [hd] at heq
    simp [← heq.1, h] at hstart
  | cons d g =>
    have hd := hg d (List.mem_cons_self ..)
    rw [← (List.cons.inj heq).1] at hd
    cases hd

end Token

theorem SpelledTag.Recased.parse_whole (h : t.Recased u) :
    Tag.parse .whole ('<' :: (t.inner ++ ['>'])) =
      Tag.parse .whole ('<' :: (u.inner ++ ['>'])) := by
  have hne : ∀ t : SpelledTag, t.inner ≠ [] := fun t hnil => by
    obtain ⟨c, s, hcons, -⟩ := t.exists_inner_eq_cons
    simp [hnil] at hcons
  rw [Tag.parse_whole (hne t), Tag.parse_whole (hne u), t.ofInterior_inner, u.ofInterior_inner,
    h.name, h.rest]

theorem SpelledTag.Recased.quotableAhead (h : t.Recased u) (x y : List Char) :
    Token.quotableAhead ('<' :: (t.inner ++ '>' :: x)) =
      Token.quotableAhead ('<' :: (u.inner ++ '>' :: y)) := by
  rw [Token.quotableAhead_bracket t.not_mem_inner, Token.quotableAhead_bracket u.not_mem_inner,
    h.parse_whole]

theorem Piece.Recased.quotableAhead (h : p.Recased q) {x y : List Char}
    (hxy : Token.quotableAhead x = Token.quotableAhead y) :
    Token.quotableAhead (p.spell ++ x) = Token.quotableAhead (q.spell ++ y) := by
  have hother : ∀ {c : Char}, isNameStart c = false → ∀ s t : List Char,
      Token.quotableAhead ('<' :: c :: s) = Token.quotableAhead ('<' :: c :: t) := fun hc s t => by
    rw [Token.quotableAhead_of_not_start hc, Token.quotableAhead_of_not_start hc]
  cases h with
  | text s hs => exact Token.quotableAhead_text hs hxy
  | comment | declaration | endTag => exact hother rfl _ _
  | nameless s hopen hs => simp [Piece.spell, Token.quotableAhead_bracket hopen]
  | startTag h => simpa [Piece.spell] using h.quotableAhead x y
  | @rawText kind t u r s h =>
    simpa [Piece.spell] using h.quotableAhead (r.spell ++ x) (s.spell ++ y)

theorem quotableAhead_spellAll (h : List.Forall₂ Piece.Recased ps qs) (rest : List Char) :
    Token.quotableAhead (spellAll ps ++ rest) = Token.quotableAhead (spellAll qs ++ rest) := by
  induction h with
  | nil => rfl
  | cons hp _ ih =>
    rw [spellAll_cons, spellAll_cons, List.append_assoc, List.append_assoc, hp.quotableAhead ih]

/-! ## Links -/

/-- The name of a tag is no part of its target. -/
theorem SpelledTag.target?_inner (t : SpelledTag) :
    Link.target? ('<' :: t.inner) = Link.target? t.rest := by
  have hname : locate? (· == ·) "href=\"".toList ('<' :: t.name) = none :=
    locate?_eq_none_of_not_mem (c := '=') (by decide)
      (by simpa using not_mem_of_nameChars (by decide) t.name_chars)
  cases hrest : t.rest with
  | nil =>
    rw [SpelledTag.inner, hrest, List.append_nil, Link.target?, hname]
    rfl
  | cons c r =>
    -- No `href="` begins in the name and ends behind it.
    have hc : ∀ d ∈ "ref=\"".toList, (d == c) = false := by
      rcases t.rest_start c (by rw [hrest]; rfl) with rfl | hblank
      · simp
      · rcases eq_of_isBlank hblank with rfl | rfl | rfl | rfl | rfl <;> simp
    have hlocate : locate? (· == ·) "href=\"".toList ('<' :: t.name ++ c :: r) =
        (locate? (· == ·) "href=\"".toList (c :: r)).map fun p => ('<' :: t.name ++ p.1, p.2) := by
      rw [show "href=\"".toList = 'h' :: "ref=\"".toList from rfl] at hname ⊢
      rw [locate?_append_of_not_mem hc, hname]
      rfl
    rw [SpelledTag.inner, hrest, ← List.cons_append, Link.target?, hlocate, Link.target?]
    cases locate? (· == ·) "href=\"".toList (c :: r) <;> rfl

/-- Up to the first `<` the pages are the same, and behind it up to letter case. -/
theorem cut?_spellAll (h : List.Forall₂ Piece.Recased ps qs) (rest : List Char) :
    (cut? '<' (spellAll ps ++ rest)).map (fun x => (x.1, lower x.2)) =
      (cut? '<' (spellAll qs ++ rest)).map (fun x => (x.1, lower x.2)) := by
  induction h with
  | nil => rfl
  | @cons p q ps qs hp hps ih =>
    by_cases htext : p.isText = true
    · obtain ⟨s, hs, rfl⟩ := Piece.exists_eq_text htext
      cases hp
      -- text is passed over in both pages
      have hmap := congrArg (Option.map fun x : List Char × List Char => (s ++ x.1, x.2)) ih
      rw [Option.map_map, Option.map_map] at hmap
      rw [spellAll_cons, spellAll_cons, Piece.spell, List.append_assoc, List.append_assoc,
        cut?_append_of_not_mem hs, cut?_append_of_not_mem hs, Option.map_map, Option.map_map]
      exact hmap
    · have hp' : p.isText = false := Bool.eq_false_iff.2 htext
      obtain ⟨s, hs⟩ := Piece.exists_spell_eq_cons hp'
      obtain ⟨s', hs'⟩ := Piece.exists_spell_eq_cons (hp.isText_eq ▸ hp')
      have hlower : lower (s ++ spellAll ps ++ rest) = lower (s' ++ spellAll qs ++ rest) := by
        have hspell := hp.lower_spell
        rw [hs, hs', lower_cons, lower_cons, List.cons.injEq] at hspell
        simp only [lower_append, hspell.2, lower_spellAll hps]
      rw [spellAll_cons, spellAll_cons, hs, hs', List.cons_append, List.cons_append,
        List.cons_append, List.cons_append, cut?_cons_self, cut?_cons_self]
      exact congrArg (fun v => some ([], v)) hlower

/-- Behind start tags that differ in letter case the same link is read. -/
theorem SpelledTag.Recased.read? (h : t.Recased u) {x y : List Char}
    (hxy : (cut? '<' x).map (fun z => (z.1, lower z.2)) =
      (cut? '<' y).map (fun z => (z.1, lower z.2))) :
    (Link.read? ('<' :: (t.inner ++ '>' :: x))).map Prod.fst =
      (Link.read? ('<' :: (u.inner ++ '>' :: y))).map Prod.fst := by
  have hopen : ∀ (t : SpelledTag) (s : List Char),
      cut? '>' ('<' :: (t.inner ++ '>' :: s)) = some ('<' :: t.inner, s) := fun t s =>
    cut?_append (a := '<' :: t.inner) (by simpa using t.not_mem_inner) s
  have htarget : Link.target? ('<' :: t.inner) = Link.target? ('<' :: u.inner) := by
    rw [t.target?_inner, u.target?_inner, h.rest]
  cases hx : cut? '<' x with
  | none =>
    have hy : cut? '<' y = none := by simpa [hx] using hxy.symm
    simp only [Link.read?, hopen, hx, hy]
  | some a =>
    obtain ⟨b, hy, hb⟩ := Option.map_eq_some_iff.1 (hxy.symm.trans (congrArg (Option.map _) hx))
    obtain ⟨htext, hlower⟩ := Prod.mk.inj hb
    have hend : (after? sameLetter "/a>".toList b.2).map lower =
        (after? sameLetter "/a>".toList a.2).map lower := after?_lower hlower
    rw [Link.read?_of_cut (hopen t x) hx, Link.read?_of_cut (hopen u y) hy, htarget, htext]
    split
    · rfl
    · cases h₁ : after? sameLetter "/a>".toList a.2 with
      | none =>
        rw [Option.map_eq_none_iff.1 (hend.trans (congrArg (Option.map lower) h₁))]
      | some v =>
        obtain ⟨w, h₂, -⟩ := Option.map_eq_some_iff.1 (hend.trans (congrArg (Option.map lower) h₁))
        rw [h₂, Option.bind_some, Option.bind_some, Option.map_map, Option.map_map]
        rfl

/-- The same link is read. -/
theorem Piece.Recased.link? (hp : p.Recased q) (h : List.Forall₂ Piece.Recased ps qs)
    (rest : List Char) :
    (p.link? (spellAll ps ++ rest)).map Prod.fst =
      (q.link? (spellAll qs ++ rest)).map Prod.fst := by
  cases hp with
  | @startTag t u htu =>
    have hread := htu.read? (cut?_spellAll h rest)
    rw [Piece.link?, Piece.link?, htu.element]
    split
    · simpa [Piece.spell] using hread
    · rfl
  | _ => rfl

theorem dropLink_recased (h : List.Forall₂ Piece.Recased ps qs) :
    List.Forall₂ Piece.Recased (dropLink ps) (dropLink qs) := by
  induction h with
  | nil => exact .nil
  | @cons p q ps qs hp hps ih =>
    by_cases htext : p.isText = true
    · rwa [dropLink_cons_text htext, dropLink_cons_text (hp.isText_eq ▸ htext)]
    · have hp' : p.isText = false := Bool.eq_false_iff.2 htext
      rwa [dropLink_cons hp', dropLink_cons (hp.isText_eq ▸ hp')]

/-! ## Tokens -/

theorem Piece.Recased.tokens (h : p.Recased q) {x y : List Char}
    (hxy : Token.quotableAhead x = Token.quotableAhead y) : p.tokens x = q.tokens y := by
  cases h with
  | text | comment | declaration | nameless | rawText => rfl
  | startTag h => rw [Piece.tokens, Piece.tokens, h.element, hxy]
  | endTag h => rw [Piece.tokens, Piece.tokens, h.element]

theorem tokensAll_recased (h : List.Forall₂ Piece.Recased ps qs) (rest : List Char) :
    tokensAll rest ps = tokensAll rest qs := by
  induction h with
  | nil => rfl
  | cons hp hps ih => rw [tokensAll, tokensAll, hp.tokens (quotableAhead_spellAll hps rest), ih]

theorem markdownTokens_recased (h : List.Forall₂ Piece.Recased ps qs) (rest : List Char) :
    markdownTokens rest ps = markdownTokens rest qs := by
  fun_induction markdownTokens rest ps generalizing qs with
  | case1 =>
    cases h
    rw [markdownTokens]
  | case2 p ps l after hlink ih =>
    obtain _ | ⟨hp, hps⟩ := h
    have hsame := (hp.link? hps rest).symm
    rw [hlink] at hsame
    obtain ⟨⟨l', after'⟩, hlink', hl⟩ := Option.map_eq_some_iff.1 hsame
    obtain rfl : l' = l := hl
    rw [markdownTokens, hlink', ih (dropLink_recased hps)]
  | case3 p ps hlink ih =>
    obtain _ | ⟨hp, hps⟩ := h
    have hsame := (hp.link? hps rest).symm
    rw [hlink] at hsame
    rw [markdownTokens, Option.map_eq_none_iff.1 hsame, ih hps,
      hp.tokens (quotableAhead_spellAll hps rest)]

theorem Page.Recased.tokens {p q : Page} (h : p.Recased q) (mode : Mode) :
    HtmlMarkdown.tokens mode p.spell = HtmlMarkdown.tokens mode q.spell := by
  cases mode with
  | markdown =>
    rw [Page.spell, Page.spell, tokens_markdown, tokens_markdown, h.cutOff,
      markdownTokens_recased h.pieces]
  | plain =>
    rw [Page.spell, Page.spell, tokens_spellAll (.inl rfl), tokens_spellAll (.inl rfl), h.cutOff,
      tokensAll_recased h.pieces]

/--
A page comes out the same when the letter case of the names of its tags is changed, be it in start
tags, in end tags or in the end tags of elements without text.
-/
theorem convert_recased {o : Options} (hdecode : o.decodeReferences = false)
    (hkeep : o.keepTagless = false) {p q : Page} (h : p.Recased q) :
    tokens o.mode p.spell = tokens o.mode q.spell ∧
      convert o (String.ofList p.spell) = convert o (String.ofList q.spell) := by
  have htokens := h.tokens o.mode
  refine ⟨htokens, String.toList_inj.1 ?_⟩
  rw [toList_convert hdecode hkeep, toList_convert hdecode hkeep]
  exact congrArg (render o.mode) htokens

/-- A page with a name at each of the places where one is read. -/
def namedPage : Page where
  pieces := [
    .startTag (bareTag "Blockquote".toList (by decide)) (by decide),
    .text ['\n'] (by decide),
    .startTag (bareTag "div".toList (by decide)) (by decide),
    .rawText .script (bareTag "script".toList (by decide)) (by decide)
      ⟨['x'], "script".toList, ['s'], by decide, by decide, by decide⟩,
    .startTag (anchorTag ['u'] (by decide)) (by decide),
    .text ['t'] (by decide),
    .endTag (bareTag ['a'] (by decide))]
  cutOff := .none

/-- The same page with names in other letter cases. -/
def renamedPage : Page where
  pieces := [
    .startTag (bareTag "BLOCKquote".toList (by decide)) (by decide),
    .text ['\n'] (by decide),
    .startTag (bareTag "DIV".toList (by decide)) (by decide),
    .rawText .script (bareTag "SCRIPT".toList (by decide)) (by decide)
      ⟨['x'], "scrIPT".toList, ['S'], by decide, by decide, by decide⟩,
    .startTag ⟨['A'], " href=\"u\"".toList, rfl, List.all_eq_true.1 (by decide),
      SpelledTag.rest_start_space _, by decide⟩ (by decide),
    .text ['t'] (by decide),
    .endTag (bareTag ['A'] (by decide))]
  cutOff := .none

theorem convert_recased_renamedPage :
    namedPage.Recased renamedPage ∧
      convert {} "<Blockquote>\n<div><script>x</scripts><a href=\"u\">t</a>" =
        convert {} "<BLOCKquote>\n<DIV><SCRIPT>x</scrIPTS><A href=\"u\">t</A>" := by
  have hpieces : namedPage.Recased renamedPage := by
    refine ⟨.cons (.startTag ?_ _ _) <| .cons (.text ..) <| .cons (.startTag ?_ _ _) <|
      .cons (.rawText ?_ ?_ _ _) <| .cons (.startTag ?_ _ _) <| .cons (.text ..) <|
      .cons (.endTag ?_) .nil, rfl⟩
    all_goals decide
  have hnamed : String.ofList namedPage.spell =
      "<Blockquote>\n<div><script>x</scripts><a href=\"u\">t</a>" := by decide
  have hrenamed : String.ofList renamedPage.spell =
      "<BLOCKquote>\n<DIV><SCRIPT>x</scrIPTS><A href=\"u\">t</A>" := by decide
  have hconvert := (@convert_recased {} rfl rfl _ _ hpieces).2
  rw [hnamed, hrenamed] at hconvert
  exact ⟨hpieces, hconvert⟩

end HtmlMarkdown
