import HtmlMarkdown.Convert
import HtmlMarkdown.Proofs.Source.Reading
import HtmlMarkdown.Proofs.Source.Tag
import Mathlib.Data.List.DropRight

/-!
# What the probe sees of a page

The probe and the lexer read brackets differently.  A tag or a declaration of a page goes on to its
first `>`, or further, whatever stands in between; the probe wants no bracket in front of that `>`.
It sees a construct exactly if the text behind the last `<` in front of the first `>` starts like a
tag or a declaration, and then the page is converted even where pages without tags are kept
(`containsTags_of_readAt`).
-/

namespace HtmlMarkdown

open Text

/-! ## Texts that look like a tag -/

/-- Whether the text behind a `<` starts like a tag or a declaration. -/
def startsMarkup : List Char → Bool
  | [] => false
  | c :: s => c == '!' || c.isAlpha || (c == '/' && s.head?.any Char.isAlpha)

/-- The text behind the last `<`; the whole text if there is none. -/
def behindLast (s : List Char) : List Char := s.rtakeWhile (· != '<')

variable {s inner after : List Char}

theorem closesFirst_cons {c : Char} (hlt : c ≠ '<') (hgt : c ≠ '>') (s : List Char) :
    closesFirst (c :: s) = closesFirst s := by
  simp [closesFirst, hlt, hgt]

theorem closesFirst_cons_of_isAlpha {c : Char} (h : c.isAlpha = true) (s : List Char) :
    closesFirst (c :: s) = closesFirst s := by
  apply closesFirst_cons <;> rintro rfl <;> cases h

theorem looksLikeTag_eq (s : List Char) : looksLikeTag s = (startsMarkup s && closesFirst s) := by
  unfold looksLikeTag
  split
  · rw [closesFirst_cons (by decide) (by decide)]
    rfl
  · next c s =>
    cases hc : c.isAlpha with
    | false => simp [startsMarkup, hc]
    | true =>
      rw [closesFirst_cons (by decide) (by decide), closesFirst_cons_of_isAlpha hc]
      simp [startsMarkup, hc]
  · next c s hbang hslash =>
    cases hc : c.isAlpha with
    | false =>
      have hbang : c ≠ '!' := hbang
      cases s with
      | nil => simp [startsMarkup, hc, hbang]
      | cons d s =>
        have hslash : c ≠ '/' := fun h => hslash d s h rfl
        simp [startsMarkup, hc, hbang, hslash]
    | true =>
      rw [closesFirst_cons_of_isAlpha hc]
      simp [startsMarkup, hc]
  · rfl

theorem closesFirst_iff :
    closesFirst s = true ↔ ∃ w u, s = w ++ '>' :: u ∧ '<' ∉ w ∧ '>' ∉ w := by
  rw [closesFirst, beq_iff_eq, List.find?_eq_some_iff_append]
  constructor
  · rintro ⟨-, w, u, rfl, hw⟩
    refine ⟨w, u, rfl, ?_, ?_⟩ <;> exact fun hmem => absurd (hw _ hmem) (by decide)
  · rintro ⟨w, u, rfl, hlt, hgt⟩
    refine ⟨by decide, w, u, rfl, fun c hc => ?_⟩
    simp only [Bool.not_eq_true', Bool.or_eq_false_iff, beq_eq_false_iff_ne]
    exact ⟨fun h => hlt (h ▸ hc), fun h => hgt (h ▸ hc)⟩

/-- What closes a construct still does so when text in front of it is left out. -/
theorem closesFirst_of_append {w u : List Char} (hw : '>' ∉ w) (h : closesFirst (w ++ u) = true) :
    closesFirst u = true := by
  induction w with
  | nil => exact h
  | cons c w ih =>
    rw [List.mem_cons, not_or] at hw
    by_cases hc : c = '<'
    · rw [hc] at h
      cases h
    · rw [List.cons_append, closesFirst_cons hc (Ne.symm hw.1)] at h
      exact ih hw.2 h

theorem startsMarkup_append {c : Char} (hc : (c == '!' || c == '/' || c.isAlpha) = false)
    (w u : List Char) : startsMarkup (w ++ c :: u) = startsMarkup w := by
  simp only [Bool.or_eq_false_iff] at hc
  obtain ⟨⟨hbang, hslash⟩, halpha⟩ := hc
  cases w with
  | nil => simp [startsMarkup, hbang, hslash, halpha]
  | cons d w =>
    cases w with
    | nil => simp [startsMarkup, halpha]
    | cons e w => rfl

theorem looksLikeTag_iff : looksLikeTag s = true ↔
    ∃ w u, s = w ++ '>' :: u ∧ '<' ∉ w ∧ '>' ∉ w ∧ startsMarkup w = true := by
  rw [looksLikeTag_eq, Bool.and_eq_true, closesFirst_iff]
  constructor
  · rintro ⟨hstart, w, u, rfl, hlt, hgt⟩
    exact ⟨w, u, rfl, hlt, hgt, by rwa [startsMarkup_append rfl] at hstart⟩
  · rintro ⟨w, u, rfl, hlt, hgt, hstart⟩
    exact ⟨by rwa [startsMarkup_append rfl], w, u, rfl, hlt, hgt⟩

/-- The probe finds a place where a text looks like a tag. -/
theorem containsTags_iff :
    containsTags s = true ↔ ∃ a t, s = a ++ '<' :: t ∧ looksLikeTag t = true := by
  induction s with
  | nil => simp [containsTags]
  | cons c s ih =>
    rw [containsTags, Bool.or_eq_true, Bool.and_eq_true, beq_iff_eq, ih]
    constructor
    · rintro (⟨rfl, ht⟩ | ⟨a, t, rfl, ht⟩)
      · exact ⟨[], s, rfl, ht⟩
      · exact ⟨c :: a, t, rfl, ht⟩
    · rintro ⟨a, t, hs, ht⟩
      cases a with
      | nil =>
        obtain ⟨rfl, rfl⟩ := List.cons.inj hs
        exact .inl ⟨rfl, ht⟩
      | cons d a =>
        obtain ⟨-, rfl⟩ := List.cons.inj hs
        exact .inr ⟨a, t, rfl, ht⟩

theorem containsTags_of_infix {t : List Char} (h : s <:+: t) (hs : containsTags s = true) :
    containsTags t = true := by
  obtain ⟨x, y, rfl⟩ := h
  obtain ⟨a, _, rfl, htag⟩ := containsTags_iff.1 hs
  obtain ⟨w, u, rfl, hlt, hgt, hstart⟩ := looksLikeTag_iff.1 htag
  exact containsTags_iff.2 ⟨x ++ a, w ++ '>' :: (u ++ y), by simp,
    looksLikeTag_iff.2 ⟨w, u ++ y, rfl, hlt, hgt, hstart⟩⟩

/-! ## One construct -/

theorem not_mem_behindLast (s : List Char) : '<' ∉ behindLast s := by
  intro hmem
  simpa using List.mem_rtakeWhile_imp hmem

theorem behindLast_append {w : List Char} (hw : '<' ∉ w) (a : List Char) :
    behindLast (a ++ '<' :: w) = w := by
  have hrun : ∀ c ∈ w.reverse, (c != '<') = true := by
    intro c hc
    exact bne_iff_ne.2 fun h => hw (h ▸ List.mem_reverse.1 hc)
  have hrev : (a ++ '<' :: w).reverse = w.reverse ++ '<' :: a.reverse := by simp
  rw [behindLast, List.rtakeWhile, hrev, List.takeWhile_append_of_pos hrun,
    List.takeWhile_cons_of_neg (by decide), List.append_nil, List.reverse_reverse]

/-- What stands behind the last of some `<`s has one of them in front of it. -/
theorem exists_append_behindLast (s : List Char) : ∃ a, '<' :: s = a ++ '<' :: behindLast s := by
  have hsplit : s.rdropWhile (· != '<') ++ behindLast s = s := List.rdropWhile_append_rtakeWhile
  rcases List.eq_nil_or_concat (s.rdropWhile (· != '<')) with hnil | ⟨r, c, hr⟩
  · rw [hnil, List.nil_append] at hsplit
    exact ⟨[], by rw [hsplit]; rfl⟩
  · have hlast := List.rdropWhile_last_not (· != '<') s (by rw [hr]; simp)
    have hc : c = '<' := by simpa [hr] using hlast
    have hs : r ++ '<' :: behindLast s = s := by
      rw [hr, hc] at hsplit
      simpa using hsplit
    exact ⟨'<' :: r, congrArg ('<' :: ·) hs.symm⟩

/-- Of what stands in brackets the probe sees the text behind the last `<`. -/
theorem containsTags_bracket (hopen : '>' ∉ inner) :
    containsTags ('<' :: (inner ++ ['>'])) = true ↔ startsMarkup (behindLast inner) = true := by
  obtain ⟨a, ha⟩ := exists_append_behindLast inner
  have hgt : '>' ∉ '<' :: inner := by simpa using hopen
  constructor
  · intro htags
    obtain ⟨b, _, hb, htag⟩ := containsTags_iff.1 htags
    obtain ⟨w, u, rfl, hlt, -, hstart⟩ := looksLikeTag_iff.1 htag
    have hcut : '<' :: inner ++ '>' :: [] = b ++ '<' :: w ++ '>' :: u := by
      rw [List.cons_append, hb, List.append_assoc, List.cons_append]
    obtain ⟨hleft, -, -⟩ :=
      (List.append_cons_inj_of_notMem hgt List.not_mem_nil).1 hcut
    have hw : behindLast inner = w := by
      rw [← behindLast_append hlt b, ← hleft, ha, behindLast_append (not_mem_behindLast inner)]
    rwa [hw]
  · intro hstart
    have hclose : '>' ∉ behindLast inner := fun hmem =>
      hgt (ha ▸ List.mem_append_right a (List.mem_cons_of_mem _ hmem))
    refine containsTags_iff.2 ⟨a, behindLast inner ++ ['>'], ?_, looksLikeTag_iff.2
      ⟨_, [], rfl, not_mem_behindLast inner, hclose, hstart⟩⟩
    rw [← List.cons_append, ha]
    simp

/-! ## The constructs of a page -/

/-- Whether a token is a tag, a link, an element without text or a declaration. -/
def Token.isMarkup : Token → Bool
  | .char _ | .blank | .nameless => false
  | _ => true

variable {mode : Mode} {t : Token} {u rest : List Char}

theorem startsMarkup_of_scan {name : List Char} (h : TagName.scan s = .named name after) :
    s.head?.any Char.isAlpha = true ∧ '>' ∈ s := by
  constructor
  · by_contra hstart
    have hscan := TagName.scan_of_not_start (Bool.eq_false_iff.2 hstart)
    rw [h] at hscan
    split at hscan <;> cases hscan
  · exact (TagName.suffix_of_scan (.inr ⟨name, h⟩)).subset (List.mem_cons_self ..)

theorem mem_of_declaration_after? (h : Declaration.after? s = some rest) : '>' ∈ s := by
  unfold Declaration.after? at h
  split at h
  · next comment hc =>
    obtain ⟨⟨a, b⟩, hb, -⟩ := Option.map_eq_some_iff.1 h
    obtain ⟨r, hr⟩ := Option.isSome_iff_exists.1 (after?_of_locate? hb)
    rw [after?_exact_iff] at hr
    refine (suffix_of_after? hc).subset ((suffix_of_locate? hb).subset ?_)
    rw [hr]
    simp
  · obtain ⟨⟨a, b⟩, hb, -⟩ := Option.map_eq_some_iff.1 h
    exact (suffix_of_cut? hb).subset (List.mem_cons_self ..)

theorem startsMarkup_of_markup? (h : Token.markup? mode s = some (t, rest))
    (ht : t.isMarkup = true) : startsMarkup s = true ∧ '>' ∈ s := by
  unfold Token.markup? at h
  split at h
  · obtain ⟨r, hr, -⟩ := Option.map_eq_some_iff.1 h
    have hmem := mem_of_declaration_after? hr
    exact ⟨rfl, by simpa using hmem⟩
  · split at h
    · next hscan =>
      obtain ⟨hstart, hmem⟩ := startsMarkup_of_scan hscan
      exact ⟨by simp [startsMarkup, hstart], List.mem_cons_of_mem _ hmem⟩
    · cases h
      cases ht
    · cases h
  · split at h
    · next hscan =>
      obtain ⟨hstart, hmem⟩ := startsMarkup_of_scan hscan
      refine ⟨?_, hmem⟩
      cases s with
      | nil => cases hstart
      | cons c s =>
        have hc : c.isAlpha = true := hstart
        simp [startsMarkup, hc]
    · cases h
      cases ht
    · cases h

/-- A construct of a page starts like one, and a `>` ends it or stands in it. -/
theorem exists_bracket_of_readAt (h : ReadAt mode t u s) (ht : t.isMarkup = true) :
    ∃ inner after, u = '<' :: (inner ++ '>' :: after) ∧ '>' ∉ inner ∧
      startsMarkup inner = true := by
  obtain ⟨rest, hnext⟩ := exists_next?_of_readAt h
  cases u with
  | nil => cases hnext
  | cons c u =>
    rw [Token.next?] at hnext
    split at hnext
    · next hc =>
      obtain ⟨hstart, hmem⟩ := startsMarkup_of_markup? hnext ht
      cases hcut : cut? '>' u with
      | none => exact absurd hmem (cut?_eq_none_iff.1 hcut)
      | some xy =>
        obtain ⟨rfl, hx⟩ := eq_of_cut? hcut
        rw [startsMarkup_append rfl] at hstart
        exact ⟨xy.1, xy.2, by rw [beq_iff_eq.1 hc], hx, hstart⟩
    · cases hnext
      split at ht <;> cases ht

/--
Each construct that is read in a text goes on to a `>`.  The probe sees it exactly if the text
behind the last `<` in front of that `>` starts like a tag or a declaration, as it does where there
is no second `<`.  Then the text is converted even where texts without tags are kept.
-/
theorem containsTags_of_readAt (hread : ReadAt mode t u s) (ht : t.isMarkup = true) :
    ∃ inner after, u = '<' :: (inner ++ '>' :: after) ∧ '>' ∉ inner ∧
      ('<' ∉ inner → startsMarkup (behindLast inner) = true) ∧
      (containsTags ('<' :: (inner ++ ['>'])) = true ↔ startsMarkup (behindLast inner) = true) ∧
      (startsMarkup (behindLast inner) = true → containsTags s = true ∧
        ∀ (o : Options) (page : String), o.decode page.toList = s →
          convert { o with keepTagless := true } page =
            convert { o with keepTagless := false } page) := by
  obtain ⟨inner, after, rfl, hopen, hstart⟩ := exists_bracket_of_readAt hread ht
  refine ⟨inner, after, rfl, hopen, fun hlt => ?_, containsTags_bracket hopen, fun hlast => ?_⟩
  · have hself : behindLast inner = inner :=
      List.rtakeWhile_eq_self_iff.2 fun c hc => bne_iff_ne.2 fun h => hlt (h ▸ hc)
    rwa [hself]
  · have hinfix : '<' :: (inner ++ ['>']) <:+: s := by
      have hprefix : '<' :: (inner ++ ['>']) <+: '<' :: (inner ++ '>' :: after) := ⟨after, by simp⟩
      exact hprefix.isInfix.trans (suffix_of_readAt hread).isInfix
    have htags := containsTags_of_infix hinfix ((containsTags_bracket hopen).2 hlast)
    refine ⟨htags, fun o page hpage => ?_⟩
    have hdecode : ∀ keep, Options.decode { o with keepTagless := keep } page.toList = s :=
      fun _ => hpage
    simp only [convert, convertText, hdecode, htags, Bool.not_true, Bool.and_false]
    rfl

/-- The probe does not see a paragraph with a `<` in a value, and the page is kept as it is. -/
theorem containsTags_of_readAt_lessThanInValue :
    Token.startTag .paragraph false ∈ tokens .markdown "<p title=\"1 < 2\">x".toList ∧
      containsTags "<p title=\"1 < 2\">x".toList = false ∧
      convert { keepTagless := true } "<p title=\"1 < 2\">x" = "<p title=\"1 < 2\">x" ∧
      convert {} "<p title=\"1 < 2\">x" = "x" := by
  decide +kernel

/-- The probe does see one with a tag in a value. -/
theorem containsTags_of_readAt_tagInValue :
    ReadAt .markdown (.startTag .paragraph false) "<p title=\"a <b\">x".toList
        "<p title=\"a <b\">x".toList ∧
      ∃ inner after, "<p title=\"a <b\">x".toList = '<' :: (inner ++ '>' :: after) ∧
        startsMarkup (behindLast inner) = true ∧
        containsTags "<p title=\"a <b\">x".toList = true := by
  have hread : ReadAt .markdown (.startTag .paragraph false) "<p title=\"a <b\">x".toList
      "<p title=\"a <b\">x".toList :=
    .here (show Token.next? .markdown _ = some (_, ['x']) by decide +kernel)
  obtain ⟨inner, after, hinner, hopen, -, -, hspot⟩ := containsTags_of_readAt hread rfl
  have hsplit : "p title=\"a <b\"".toList ++ '>' :: ['x'] = inner ++ '>' :: after :=
    (List.cons.inj hinner).2
  obtain ⟨rfl, -, -⟩ := (List.append_cons_inj_of_notMem (by decide) (by decide)).1 hsplit
  have hlast : startsMarkup (behindLast "p title=\"a <b\"".toList) = true := by decide
  exact ⟨hread, _, after, hinner, hlast, (hspot hlast).1⟩

end HtmlMarkdown
