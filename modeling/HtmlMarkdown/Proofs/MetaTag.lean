import HtmlMarkdown.Charset.Meta
import HtmlMarkdown.Proofs.Source.Interior
import HtmlMarkdown.Proofs.Text.Occurrence
import HtmlMarkdown.Proofs.Text.Utf8

/-!
# The first declaration counts

A page is cut into `Segment`s: stretches of bytes without a `<`, which may be anything else, and
ASCII tags.  Its charset is the one that is declared by the first tag that declares one and lies
wholly within the search limit (`charset?_first`).

The search goes on behind each tag that declares nothing, whether it looks like a `meta` tag or not
(`charsetOfText?_tag`).  Stretches of bytes are passed over, since whatever they are read as holds
no `<` and leaves the tag behind them as it is; and nothing comes of the segment in which the limit
falls, since a tag that is cut off there has lost its `>` (`charsetOfText?_cut`).
-/

namespace HtmlMarkdown.Meta

open Text TagName Utf8 InPlace

/-! ## Declarations -/

/-- The charset that a tag declares. -/
inductive Declares (t : Tag) : List Char → Prop where
  /-- The attribute `charset` declares its value, without the white space around it. -/
  | ofCharset {v : List Char} (h : t.attribute? "charset".toList = some v)
    (hink : trimWhiteSpace v ≠ []) : Declares t (trimWhiteSpace v)
  /-- Otherwise a tag that stands for a content type declares the charset of the content type. -/
  | ofContentType {header content c : List Char}
    (hblank : ∀ v, t.attribute? "charset".toList = some v → trimWhiteSpace v = [])
    (hheader : t.attribute? "http-equiv".toList = some header)
    (hname : lower header = "content-type".toList)
    (hcontent : t.attribute? "content".toList = some content)
    (h : ContentType.charset? content = some c) : Declares t c

theorem charsetAttribute?_eq_some_iff {t : Tag} {c : List Char} :
    charsetAttribute? t = some c ↔
      ∃ v, t.attribute? "charset".toList = some v ∧ trimWhiteSpace v ≠ [] ∧
        trimWhiteSpace v = c := by
  unfold charsetAttribute?
  cases t.attribute? "charset".toList with
  | none => simp
  | some v => simp

theorem charsetAttribute?_eq_none_iff {t : Tag} :
    charsetAttribute? t = none ↔
      ∀ v, t.attribute? "charset".toList = some v → trimWhiteSpace v = [] := by
  unfold charsetAttribute?
  cases t.attribute? "charset".toList with
  | none => simp
  | some v => simp

theorem givesContentType_iff {t : Tag} :
    givesContentType t = true ↔ ∃ header, t.attribute? "http-equiv".toList = some header ∧
      lower header = "content-type".toList := by
  simp [givesContentType, Option.any_eq_true]

theorem declared?_eq_some_iff {t : Tag} {c : List Char} : declared? t = some c ↔ Declares t c := by
  unfold declared?
  cases hattribute : charsetAttribute? t with
  | some d =>
    obtain ⟨v, hv, hink, rfl⟩ := charsetAttribute?_eq_some_iff.1 hattribute
    constructor
    · intro h
      cases h
      exact .ofCharset hv hink
    · intro h
      cases h with
      | ofCharset h => rw [Option.some.inj (hv.symm.trans h)]
      | ofContentType hblank => exact absurd (hblank v hv) hink
  | none =>
    have hblank := charsetAttribute?_eq_none_iff.1 hattribute
    constructor
    · intro h
      dsimp only at h
      split at h
      · next hgives =>
        obtain ⟨header, hheader, hname⟩ := givesContentType_iff.1 hgives
        obtain ⟨content, hcontent, hc⟩ := Option.bind_eq_some_iff.1 h
        exact .ofContentType hblank hheader hname hcontent hc
      · cases h
    · intro h
      cases h with
      | ofCharset h hink => exact absurd (hblank _ h) hink
      | ofContentType _ hheader hname hcontent hc =>
        have hgives := givesContentType_iff.2 ⟨_, hheader, hname⟩
        dsimp only
        rw [if_pos hgives, hcontent, Option.bind_some, hc]

theorem ofTag?_eq_some_iff {s c : List Char} :
    ofTag? s = some c ↔
      ∃ t, Tag.parse .whole s = .ok t ∧ t.name = "meta".toList ∧ Declares t c := by
  unfold ofTag?
  cases Tag.parse .whole s with
  | error e => simp
  | ok t =>
    simp only [Option.ite_none_right_eq_some, beq_iff_eq, declared?_eq_some_iff, Except.ok.injEq,
      exists_eq_left']

/-! ## Segments -/

/-- A stretch of a page. -/
inductive Segment where
  /-- Any bytes without a `<`. -/
  | text (bs : List UInt8) (h : 0x3C ∉ bs)
  /-- An ASCII tag. -/
  | tag (inner : List Char) (hascii : ∀ c ∈ inner, c.toNat < 128) (hstart : '<' ∉ inner)
    (hend : '>' ∉ inner)

namespace Segment

/-- The bytes of a segment. -/
def spell : Segment → List UInt8
  | text bs _ => bs
  | tag inner _ _ _ => encode ('<' :: (inner ++ ['>']))

/-- A segment declares what the tag declares that it is read as. -/
inductive Declares : Segment → List Char → Prop where
  | tag {inner : List Char} {hascii : ∀ c ∈ inner, c.toNat < 128} {hstart : '<' ∉ inner}
    {hend : '>' ∉ inner} {t : Tag} {c : List Char}
    (hparse : Tag.parse .whole ('<' :: (inner ++ ['>'])) = .ok t) (hname : t.name = "meta".toList)
    (h : Meta.Declares t c) : Declares (tag inner hascii hstart hend) c

/-- The charset that a segment declares. -/
def declared? : Segment → Option (List Char)
  | text _ _ => none
  | tag inner _ _ _ => ofTag? ('<' :: (inner ++ ['>']))

theorem declared?_eq_some_iff {s : Segment} {c : List Char} :
    s.declared? = some c ↔ s.Declares c := by
  cases s with
  | text bs h =>
    constructor <;> intro h <;> cases h
  | tag inner hascii hstart hend =>
    rw [declared?, ofTag?_eq_some_iff]
    constructor
    · rintro ⟨t, hparse, hname, h⟩
      exact .tag hparse hname h
    · rintro ⟨hparse, hname, h⟩
      exact ⟨_, hparse, hname, h⟩

end Segment

/-- The bytes of segments one after the other. -/
def page (segs : List Segment) : List UInt8 := segs.flatMap Segment.spell

/-- The segments that lie wholly within the first `n` bytes. -/
def within : Nat → List Segment → List Segment
  | _, [] => []
  | n, s :: segs =>
    if s.spell.length ≤ n then s :: within (n - s.spell.length) segs else []

@[simp] theorem page_cons (s : Segment) (segs : List Segment) :
    page (s :: segs) = s.spell ++ page segs := rfl

theorem within_eq_append_iff {n : Nat} {segs pre : List Segment} {s : Segment} :
    (∃ post, within n segs = pre ++ s :: post) ↔
      (∃ post, segs = pre ++ s :: post) ∧ (page (pre ++ [s])).length ≤ n := by
  induction segs generalizing n pre with
  | nil => simp [within]
  | cons t segs ih =>
    have hfirst : ∀ us, (page (t :: us)).length ≤ n → t.spell.length ≤ n := fun us hlen => by
      rw [page_cons, List.length_append] at hlen
      omega
    by_cases hfit : t.spell.length ≤ n
    · rw [within, if_pos hfit]
      cases pre with
      | nil =>
        constructor
        · rintro ⟨post, h⟩
          cases h
          exact ⟨⟨segs, rfl⟩, by simpa [page] using hfit⟩
        · rintro ⟨⟨post, h⟩, -⟩
          cases h
          exact ⟨_, rfl⟩
      | cons p pre =>
        simp only [List.cons_append, List.cons.injEq, exists_and_left, ih, page_cons,
          List.length_append]
        constructor
        · rintro ⟨rfl, hsegs, hlen⟩
          exact ⟨⟨rfl, hsegs⟩, by omega⟩
        · rintro ⟨⟨rfl, hsegs⟩, hlen⟩
          exact ⟨rfl, hsegs, by omega⟩
    · rw [within, if_neg hfit]
      constructor
      · rintro ⟨post, h⟩
        simp at h
      · rintro ⟨⟨post, h⟩, hlen⟩
        cases pre with
        | nil =>
          cases h
          exact absurd (hfirst [] hlen) hfit
        | cons p pre =>
          cases h
          exact absurd (hfirst _ hlen) hfit

/-! ## Searching a text -/

/-- What is found, by the place of the first `<meta` and of the next `>`. -/
theorem charsetOfText?_eq (s : List Char) :
    charsetOfText? s =
      (locate? sameLetter "<meta".toList s).bind fun p =>
        (cut? '>' p.2).bind fun q => (ofTag? (q.1 ++ ['>'])).or (charsetOfText? q.2) := by
  rw [charsetOfText?]
  split
  · next h => rw [h]; rfl
  · next h =>
    rw [h, Option.bind_some]
    split
    · next hcut => rw [hcut]; rfl
    · next hcut =>
      rw [hcut, Option.bind_some]
      split
      · next htag => rw [htag]; rfl
      · next htag => rw [htag]; rfl

theorem charsetOfText?_cons {c : Char} {s : List Char}
    (h : after? sameLetter "<meta".toList (c :: s) = none) :
    charsetOfText? (c :: s) = charsetOfText? s := by
  rw [charsetOfText?_eq (c :: s), locate?, h, charsetOfText?_eq s, Option.isSome_none,
    if_neg Bool.false_ne_true, Option.bind_map]
  rfl

/-- Text without a `<` is passed over. -/
theorem charsetOfText?_append {a : List Char} (h : '<' ∉ a) (b : List Char) :
    charsetOfText? (a ++ b) = charsetOfText? b := by
  induction a with
  | nil => rfl
  | cons c a ih =>
    rw [List.mem_cons, not_or] at h
    have hc : after? sameLetter "<meta".toList (c :: (a ++ b)) = none := by
      have hsame : ¬ sameLetter '<' c = true := fun hsame =>
        h.1 (sameLetter_lt.1 (sameLetter_iff.2 (sameLetter_iff.1 hsame).symm)).symm
      exact if_neg hsame
    rw [List.cons_append, charsetOfText?_cons hc, ih h.2]

theorem charsetOfText?_eq_none {s : List Char} (h : '>' ∉ s) : charsetOfText? s = none := by
  rw [charsetOfText?_eq]
  cases hlocate : locate? sameLetter "<meta".toList s with
  | none => rfl
  | some p =>
    have hcut : cut? '>' p.2 = none :=
      cut?_eq_none_iff.2 fun hmem => h ((suffix_of_locate? hlocate).subset hmem)
    rw [Option.bind_some, hcut]
    rfl

/-- A tag that declares a charset starts like one. -/
theorem after?_of_ofTag? {inner c : List Char} (h : ofTag? ('<' :: (inner ++ ['>'])) = some c)
    (rest : List Char) :
    (after? sameLetter "<meta".toList ('<' :: (inner ++ rest))).isSome = true := by
  obtain ⟨t, hparse, hmeta, -⟩ := ofTag?_eq_some_iff.1 h
  have hname := (Tag.of_ofInterior (ofInterior_of_parse hparse)).2.2.1
  have hword : lower ('<' :: (Tag.body inner).takeWhile isNameChar) = lower "<meta".toList := by
    rw [lower_cons, ← hname, hmeta]
    decide
  have hsplit : '<' :: (inner ++ rest) = '<' :: (Tag.body inner).takeWhile isNameChar ++
      ((Tag.body inner).dropWhile isNameChar ++ Tag.slash inner ++ rest) := by
    rw [List.cons_append, ← List.append_assoc, ← List.append_assoc,
      List.takeWhile_append_dropWhile, Tag.body_append_slash]
  rw [after?_sameLetter_iff.2 ⟨_, hsplit, hword⟩]
  rfl

section Tag

variable {inner : List Char} (hstart : '<' ∉ inner) (hend : '>' ∉ inner)

include hstart hend

/-- Behind a tag that declares nothing the search goes on. -/
theorem charsetOfText?_tag (rest : List Char) :
    charsetOfText? ('<' :: (inner ++ '>' :: rest)) =
      (ofTag? ('<' :: (inner ++ ['>']))).or (charsetOfText? rest) := by
  cases hread : after? sameLetter "<meta".toList ('<' :: (inner ++ '>' :: rest)) with
  | none =>
    have hnone : ofTag? ('<' :: (inner ++ ['>'])) = none := by
      refine Option.eq_none_iff_forall_ne_some.2 fun c hc => ?_
      have hsome := after?_of_ofTag? hc ('>' :: rest)
      rw [hread] at hsome
      cases hsome
    have hskip : '<' ∉ inner ++ ['>'] := by simp [hstart]
    rw [charsetOfText?_cons hread, List.append_cons, charsetOfText?_append hskip, hnone]
    rfl
  | some r =>
    have hlocate : locate? sameLetter "<meta".toList ('<' :: (inner ++ '>' :: rest)) =
        some ([], '<' :: (inner ++ '>' :: rest)) := by
      rw [locate?, hread]
      rfl
    have hcut : cut? '>' ('<' :: (inner ++ '>' :: rest)) = some ('<' :: inner, rest) :=
      cut?_append (a := '<' :: inner) (by simpa using hend) rest
    rw [charsetOfText?_eq, hlocate, Option.bind_some, hcut]
    rfl

end Tag

/-! ## Searching a page -/

theorem charsetOfText?_bytes {bs : List UInt8} (h : 0x3C ∉ bs) (s : List Char) :
    charsetOfText? (decodeLossy bs ++ s) = charsetOfText? s :=
  charsetOfText?_append (not_mem_decodeLossy h) s

theorem charsetOfText?_decodeLossy {bs : List UInt8} (h : 0x3C ∉ bs) :
    charsetOfText? (decodeLossy bs) = none := by
  have hskip := charsetOfText?_bytes h []
  rwa [List.append_nil, charsetOfText?_eq_none List.not_mem_nil] at hskip

/-- Of a segment that is cut off nothing is found. -/
theorem charsetOfText?_cut {acc : List UInt8} (hacc : 0x3C ∉ acc) (s : Segment) {n : Nat}
    (h : n < s.spell.length) :
    charsetOfText? (decodeLossy (acc ++ s.spell.take n)) = none := by
  cases s with
  | text bs hbs =>
    refine charsetOfText?_decodeLossy fun hmem => ?_
    rcases List.mem_append.1 hmem with hmem | hmem
    · exact hacc hmem
    · exact hbs (List.mem_of_mem_take hmem)
  | tag inner hascii hstart hend =>
    -- The `>` at the end of the tag is lost.
    have htag : ∀ c ∈ '<' :: inner, c.toNat < 128 := List.forall_mem_cons.2 ⟨by decide, hascii⟩
    have hspell : (Segment.tag inner hascii hstart hend).spell =
        encode ('<' :: inner) ++ encode ['>'] := by
      rw [Segment.spell, ← List.cons_append, encode_append]
    have hle : n ≤ (encode ('<' :: inner)).length := by
      rw [hspell, List.length_append] at h
      exact Nat.le_of_lt_succ h
    rw [hspell, List.take_append_of_le_length hle, take_encode_ascii htag]
    cases n with
    | zero => simpa using charsetOfText?_decodeLossy hacc
    | succ n =>
      have hinner : ∀ c ∈ inner.take n, c.toNat < 128 := fun c hc =>
        hascii c (List.mem_of_mem_take hc)
      have hopen : '>' ∉ '<' :: inner.take n := by
        simpa using fun hmem => hend (List.mem_of_mem_take hmem)
      have hread := decodeLossy_append_encode_cons (c := '<') (by decide) acc (inner.take n) []
      rw [decodeLossy_encode_append hinner, decodeLossy_nil, List.append_nil,
        List.append_nil] at hread
      rw [List.take_succ_cons, hread, charsetOfText?_bytes hacc, charsetOfText?_eq_none hopen]

/-- Behind bytes without a `<` the first declaration within the limit is found. -/
theorem charsetOfText?_page (segs : List Segment) (acc : List UInt8) (hacc : 0x3C ∉ acc)
    (n : Nat) :
    charsetOfText? (decodeLossy (acc ++ (page segs).take n)) =
      (within n segs).findSome? Segment.declared? := by
  induction segs generalizing acc n with
  | nil =>
    rw [page, List.flatMap_nil, List.take_nil, List.append_nil, charsetOfText?_decodeLossy hacc]
    rfl
  | cons s segs ih =>
    rw [page_cons, List.take_append]
    by_cases hfit : s.spell.length ≤ n
    · rw [within, if_pos hfit, List.take_of_length_le hfit]
      cases s with
      | text bs hbs =>
        have hboth : 0x3C ∉ acc ++ bs := by simp [hacc, hbs]
        rw [Segment.spell, ← List.append_assoc, ih _ hboth]
        rfl
      | tag inner hascii hstart hend =>
        have htag : ∀ c ∈ inner ++ ['>'], c.toNat < 128 := by
          simpa [or_imp, forall_and] using hascii
        have hrest := ih [] List.not_mem_nil
        rw [Segment.spell, decodeLossy_append_encode_cons (by decide),
          decodeLossy_encode_append htag, charsetOfText?_bytes hacc, List.append_assoc,
          List.singleton_append, charsetOfText?_tag hstart hend, ← List.nil_append (List.take _ _),
          hrest, List.findSome?_cons, Segment.declared?]
        cases ofTag? ('<' :: (inner ++ ['>'])) <;> rfl
    · have hcut : n < s.spell.length := Nat.lt_of_not_le hfit
      rw [within, if_neg hfit, Nat.sub_eq_zero_of_le (Nat.le_of_lt hcut), List.take_zero,
        List.append_nil, charsetOfText?_cut hacc s hcut]
      rfl

theorem charset?_page (segs : List Segment) :
    charset? (page segs) = (within 1024 segs).findSome? Segment.declared? :=
  charsetOfText?_page segs [] List.not_mem_nil 1024

theorem Segment.declared?_eq_none_iff {s : Segment} :
    s.declared? = none ↔ ∀ c, ¬ s.Declares c := by
  simp only [Option.eq_none_iff_forall_ne_some, ne_eq, declared?_eq_some_iff]

/--
Of a page that consists of bytes without a `<` and of ASCII tags, the charset is the one that is
declared by the first tag that declares one and lies wholly within the first 1024 bytes.
-/
theorem charset?_first (segs : List Segment) :
    (∀ c, charset? (page segs) = some c ↔
      ∃ pre s post, segs = pre ++ s :: post ∧ (page (pre ++ [s])).length ≤ 1024 ∧ s.Declares c ∧
        ∀ x ∈ pre, ∀ d, ¬ x.Declares d) ∧
    (charset? (page segs) = none ↔
      ∀ pre s post, segs = pre ++ s :: post → (page (pre ++ [s])).length ≤ 1024 →
        ∀ c, ¬ s.Declares c) := by
  rw [charset?_page]
  constructor
  · intro c
    simp only [List.findSome?_eq_some_iff, Segment.declared?_eq_some_iff,
      Segment.declared?_eq_none_iff]
    constructor
    · rintro ⟨pre, s, post, hwithin, hs, hpre⟩
      obtain ⟨⟨post, rfl⟩, hlen⟩ := within_eq_append_iff.1 ⟨post, hwithin⟩
      exact ⟨pre, s, post, rfl, hlen, hs, hpre⟩
    · rintro ⟨pre, s, post, rfl, hlen, hs, hpre⟩
      obtain ⟨post', hwithin⟩ := within_eq_append_iff.2 ⟨⟨post, rfl⟩, hlen⟩
      exact ⟨pre, s, post', hwithin, hs, hpre⟩
  · rw [List.findSome?_eq_none_iff]
    constructor
    · rintro hnone pre s post rfl hlen
      obtain ⟨post', hwithin⟩ := within_eq_append_iff.2 ⟨⟨post, rfl⟩, hlen⟩
      refine Segment.declared?_eq_none_iff.1 (hnone s ?_)
      rw [hwithin]
      exact List.mem_append_right pre (List.mem_cons_self ..)
    · intro hnone s hs
      obtain ⟨pre, post, hwithin⟩ := List.mem_iff_append.1 hs
      obtain ⟨⟨post, hsegs⟩, hlen⟩ := within_eq_append_iff.1 ⟨post, hwithin⟩
      exact Segment.declared?_eq_none_iff.2 (hnone pre s post hsegs hlen)

/-- A page with bytes that are no UTF-8, two tags that only look like `meta` and two declarations. -/
def declaringPage : List Segment := [
  .text [0xE2, 0x82] (by decide),
  .tag "metadata charset=a".toList (ascii_of_all (by decide)) (by decide) (by decide),
  .tag "meta/x charset=a".toList (ascii_of_all (by decide)) (by decide) (by decide),
  .text [0x3E, 0xFF] (by decide),
  .tag "META charset=' ' http-equiv=Content-Type content='x; charset=b'".toList
    (ascii_of_all (by decide)) (by decide) (by decide),
  .tag "meta charset=c".toList (ascii_of_all (by decide)) (by decide) (by decide)]

/-- The charset of the content type, since that of the attribute is blank. -/
theorem charset?_first_contentType : charset? (page declaringPage) = some ['b'] := by
  have hpre : ((declaringPage.take 4).all fun x => x.declared?.isNone) = true := by decide +kernel
  refine ((charset?_first declaringPage).1 ['b']).2
    ⟨declaringPage.take 4, _, _, rfl, by decide +kernel, ?_, fun x hx => ?_⟩
  · exact Segment.declared?_eq_some_iff.1 (by decide +kernel)
  · have hnone := Option.isNone_iff_eq_none.1 (List.all_eq_true.1 hpre x hx)
    exact Segment.declared?_eq_none_iff.1 hnone

end HtmlMarkdown.Meta
