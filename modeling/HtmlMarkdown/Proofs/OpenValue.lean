import HtmlMarkdown.Proofs.Source.Attributes
import HtmlMarkdown.Proofs.Source.Interior

/-!
# Only open values run on

A tag at the start of a text ends at the first `>`, and for nearly every tag what follows there has
no say in how the tag is read.  The exception is an `OpenValue`, a value whose quotation mark has
been opened in front of that `>` and not closed again: it goes on to the next such mark, if that
stands in front of the last character of the text, and is the last attribute of the tag
(`only_open_values_run_on`).
-/

namespace HtmlMarkdown

open Text TagName

namespace Tag

variable {s t u v left : List Char} {as : List Attribute}

/-! ## Values -/

/-- A value that is read without a text beyond is read in front of any. -/
theorem readValue_of_nil (h : readValue u [] = .ok (v, left)) (beyond : List Char) :
    readValue u beyond = .ok (v, left) := by
  unfold readValue at h ⊢
  split at h
  · exact h
  · split at h
    · next hquote =>
      rw [if_pos hquote]
      unfold readQuoted at h ⊢
      split at h
      · exact h
      · cases h
    · next hquote =>
      rw [if_neg hquote]
      exact h

/-- A value that cannot be read is quoted, and the quotation mark does not come again. -/
theorem exists_of_readValue_error {e : TagError} (h : readValue u [] = .error e) :
    ∃ quote text, skipBlanks u = quote :: text ∧ isQuote quote = true ∧ quote ∉ text := by
  unfold readValue at h
  split at h
  · cases h
  · next c text hskip =>
    split at h
    · next hquote =>
      unfold readQuoted at h
      split at h
      · cases h
      · next hcut => exact ⟨c, text, hskip, hquote, cut?_eq_none_iff.1 hcut⟩
    · cases h

theorem Passes.of_nil (h : Passes [] s as t) (beyond : List Char) : Passes beyond s as t := by
  induction h with
  | here s => exact .here s
  | other hc _ ih => exact .other hc ih
  | bare hne hname htail hno _ ih => exact .bare hne hname htail hno ih
  | valued hne hname htail hequals hvalue _ ih =>
    exact .valued hne hname htail hequals (readValue_of_nil hvalue beyond) ih

/-! ## Runs of name characters -/

section Run

variable {c : Char} {rest : List Char} (hc : isAttributeChar c = true)

theorem cons_takeWhile_append_dropWhile (c : Char) (rest : List Char) :
    (c :: rest.takeWhile isAttributeChar) ++ rest.dropWhile isAttributeChar = c :: rest := by
  rw [List.cons_append, List.takeWhile_append_dropWhile]

include hc

theorem forall_mem_run :
    ∀ d ∈ c :: rest.takeWhile isAttributeChar, isAttributeChar d = true :=
  List.forall_mem_cons.2 ⟨hc, fun _ hd => List.mem_takeWhile_imp hd⟩

theorem Passes.run_bare (hno : ∀ u, skipBlanks (rest.dropWhile isAttributeChar) ≠ '=' :: u)
    (h : Passes [] (rest.dropWhile isAttributeChar) as t) :
    Passes [] (c :: rest) ((lower (c :: rest.takeWhile isAttributeChar), []) :: as) t := by
  rw [← cons_takeWhile_append_dropWhile c rest]
  exact .bare (List.cons_ne_nil _ _) (forall_mem_run hc) (head?_dropWhile isAttributeChar rest)
    hno h

theorem Passes.run_valued (hequals : skipBlanks (rest.dropWhile isAttributeChar) = '=' :: u)
    (hvalue : readValue u [] = .ok (v, left)) (h : Passes [] left as t) :
    Passes [] (c :: rest) ((lower (c :: rest.takeWhile isAttributeChar), v) :: as) t := by
  rw [← cons_takeWhile_append_dropWhile c rest]
  exact .valued (List.cons_ne_nil _ _) (forall_mem_run hc) (head?_dropWhile isAttributeChar rest)
    hequals hvalue h

end Run

/-! ## Open values -/

/-- The last value among the attributes `s` is open. -/
structure OpenValue (s : List Char) where
  /-- The attributes in front of it. -/
  before : List Attribute
  /-- Its name. -/
  name : List Char
  /-- The text behind the name. -/
  tail : List Char
  /-- The text behind the `=`. -/
  value : List Char
  /-- The quotation mark. -/
  quote : Char
  /-- The value as far as it goes. -/
  text : List Char
  passes : Passes [] s before (name ++ tail)
  name_ne : name ≠ []
  name_chars : ∀ c ∈ name, isAttributeChar c = true
  tail_head : tail.head?.all (!isAttributeChar ·) = true
  tail_equals : skipBlanks tail = '=' :: value
  value_quote : skipBlanks value = quote :: text
  quote_isQuote : isQuote quote = true
  quote_open : quote ∉ text

/-- Attributes that are passed first do not change how the others end. -/
theorem passes_or_open_of (pre : List Attribute)
    (h : ∀ {as t}, Passes [] u as t → Passes [] s (pre ++ as) t)
    (hu : (∃ as, Passes [] u as []) ∨ Nonempty (OpenValue u)) :
    (∃ as, Passes [] s as []) ∨ Nonempty (OpenValue s) := by
  rcases hu with ⟨as, has⟩ | ⟨⟨o⟩⟩
  · exact .inl ⟨_, h has⟩
  · exact .inr ⟨{ o with before := pre ++ o.before, passes := h o.passes }⟩

/-- Attributes are passed to their end, or to a value that is open. -/
theorem passes_or_open (s : List Char) :
    (∃ as, Passes [] s as []) ∨ Nonempty (OpenValue s) := by
  fun_induction readAttributes [] s with
  | case1 => exact .inl ⟨[], .here []⟩
  | case2 c rest hc name tail t ht v left hv ih =>
    exact passes_or_open_of [(name, v)] (Passes.run_valued hc ht hv) ih
  | case3 c rest hc tail t ht e hv =>
    obtain ⟨quote, text, hquote, hisQuote, hopen⟩ := exists_of_readValue_error hv
    refine .inr ⟨⟨[], c :: rest.takeWhile isAttributeChar, tail, t, quote, text, ?_,
      List.cons_ne_nil _ _, forall_mem_run hc, head?_dropWhile isAttributeChar rest, ht, hquote,
      hisQuote, hopen⟩⟩
    rw [cons_takeWhile_append_dropWhile c rest]
    exact .here _
  | case4 c rest hc name tail hno ih =>
    exact passes_or_open_of [(name, [])] (Passes.run_bare hc hno) ih
  | case5 c rest hc ih =>
    exact passes_or_open_of [] (Passes.other (by simpa using hc)) ih

namespace OpenValue

variable (o : OpenValue s) {beyond : List Char}

theorem readValue_eq (beyond : List Char) :
    readValue o.value beyond = readQuoted o.quote o.text beyond := by
  unfold readValue
  simp only [o.value_quote]
  exact if_pos o.quote_isQuote

theorem readAttributes_unterminated (h : o.quote ∉ beyond.dropLast) :
    readAttributes beyond s = .error .unterminatedValue := by
  have hvalue : readQuoted o.quote o.text beyond = .error .unterminatedValue := by
    rw [readQuoted, cut?_eq_none_iff.2 o.quote_open, cut?_eq_none_iff.2 h]
  rw [(o.passes.of_nil beyond).readAttributes_eq,
    readAttributes_equals o.name_ne o.name_chars o.tail_head o.tail_equals, o.readValue_eq, hvalue]
  rfl

theorem readAttributes_terminated {w rest : List Char}
    (h : beyond.dropLast = w ++ o.quote :: rest) (hw : o.quote ∉ w) :
    readAttributes beyond s = .ok (o.before ++ [(lower o.name, o.text ++ w)]) := by
  have hvalue : readQuoted o.quote o.text beyond = .ok (o.text ++ w, []) := by
    rw [readQuoted, cut?_eq_none_iff.2 o.quote_open, h, cut?_append hw]
  rw [(o.passes.of_nil beyond).readAttributes_eq,
    readAttributes_valued o.name_ne o.name_chars o.tail_head o.tail_equals
      ((o.readValue_eq beyond).trans hvalue), readAttributes]
  rfl

theorem quote_ne {c : Char} (hc : isQuote c = false) : o.quote ≠ c := by
  rintro rfl
  exact absurd o.quote_isQuote (by simp [hc])

theorem quote_not_mem_slash (inner : List Char) : o.quote ∉ slash inner := by
  rcases slash_eq inner with hnone | hslash
  · simp [hnone]
  · rw [hslash, List.mem_singleton]
    exact o.quote_ne rfl

theorem quote_not_mem_beyond {inner after : List Char} (h : o.quote ∉ after.dropLast) :
    o.quote ∉ (slash inner ++ '>' :: after).dropLast := by
  rw [List.dropLast_append_of_ne_nil (List.cons_ne_nil _ _), List.mem_append, not_or]
  refine ⟨o.quote_not_mem_slash inner, ?_⟩
  cases after with
  | nil => exact List.not_mem_nil
  | cons c u =>
    rw [List.dropLast_cons_cons, List.mem_cons, not_or]
    exact ⟨o.quote_ne rfl, h⟩

end OpenValue

/-! ## Between the brackets -/

section Brackets

variable {inner : List Char}

/-- A tag is read alike whatever stands beyond it, or it has a value that is open. -/
theorem reads_alike_or_open (inner : List Char) :
    (∃ r, r ≠ .error .unterminatedValue ∧ ∀ beyond, ofInterior inner beyond = r) ∨
      HasName inner ∧ Nonempty (OpenValue (attributeText inner)) := by
  by_cases hname : HasName inner
  · rcases passes_or_open (attributeText inner) with ⟨as, has⟩ | hvalue
    · have hread : ∀ beyond, ofInterior inner beyond =
          .ok ⟨lower ((body inner).takeWhile isNameChar), inner.getLast? == some '/',
            .ofList (as ++ [])⟩ := by
        intro beyond
        rw [ofInterior_of_hasName hname, (has.of_nil _).readAttributes_eq, readAttributes]
        rfl
      exact .inl ⟨_, by simp, hread⟩
    · exact .inr ⟨hname, hvalue⟩
  · obtain ⟨e, he, hrefused⟩ := ofInterior_of_not_hasName hname
    exact .inl ⟨.error e, fun h => he (Except.error.inj h), hrefused⟩

variable (hname : HasName inner) (o : OpenValue (attributeText inner))

include hname

theorem OpenValue.ofInterior_unterminated {after : List Char} (h : o.quote ∉ after.dropLast) :
    ofInterior inner ('>' :: after) = .error .unterminatedValue := by
  rw [ofInterior_of_hasName hname, o.readAttributes_unterminated (o.quote_not_mem_beyond h)]
  rfl

theorem OpenValue.ofInterior_terminated {w rest : List Char} (hw : o.quote ∉ w)
    (hrest : rest ≠ []) :
    ofInterior inner ('>' :: (w ++ o.quote :: rest)) =
      .ok ⟨lower ((body inner).takeWhile isNameChar), inner.getLast? == some '/',
        .ofList (o.before ++ [(lower o.name, o.text ++ (slash inner ++ '>' :: w))])⟩ := by
  have hbeyond : (slash inner ++ '>' :: (w ++ o.quote :: rest)).dropLast =
      slash inner ++ '>' :: w ++ o.quote :: rest.dropLast := by
    have hassoc : slash inner ++ '>' :: (w ++ o.quote :: rest) =
        slash inner ++ '>' :: w ++ [o.quote] ++ rest := by simp
    rw [hassoc, List.dropLast_append_of_ne_nil hrest]
    simp
  have hquote : o.quote ∉ slash inner ++ '>' :: w := by
    rw [List.mem_append, List.mem_cons, not_or, not_or]
    exact ⟨o.quote_not_mem_slash inner, o.quote_ne rfl, hw⟩
  rw [ofInterior_of_hasName hname, o.readAttributes_terminated hbeyond hquote]
  rfl

end Brackets

theorem parse_of_ne {extent : Extent} {c : Char} {s : List Char} (hlong : 3 ≤ byteSize (c :: s))
    (hc : c ≠ '<') : parse extent (c :: s) = .error .missingOpenBracket := by
  unfold parse
  rw [if_neg (Nat.not_lt.2 hlong)]
  split
  · next h => exact absurd (List.cons.inj h).1 hc
  · rfl

end Tag

/-! ## Tags at the start of a text -/

/--
A text whose first `>` behind its first character `c` follows `inner`, and is not its second byte.
If the tag up to that `>` is not refused for an open value, then it is read alike whatever follows.
If it is, then the open value goes on behind the `>`: to its quotation mark, if that comes again in
front of the last character of the text; else the tag is refused.
-/
theorem only_open_values_run_on {c : Char} {inner : List Char} (hopen : '>' ∉ inner)
    (hlong : 2 ≤ byteSize (c :: inner)) :
    (Tag.parse .whole (c :: (inner ++ ['>'])) ≠ .error .unterminatedValue →
      ∀ after, Tag.parse .leading (c :: (inner ++ '>' :: after)) =
        Tag.parse .whole (c :: (inner ++ ['>']))) ∧
    (Tag.parse .whole (c :: (inner ++ ['>'])) = .error .unterminatedValue →
      ∃ o : Tag.OpenValue (Tag.attributeText inner),
        (∀ after, o.quote ∉ after.dropLast →
          Tag.parse .leading (c :: (inner ++ '>' :: after)) = .error .unterminatedValue) ∧
        ∀ w rest, o.quote ∉ w → rest ≠ [] →
          Tag.parse .leading (c :: (inner ++ '>' :: (w ++ o.quote :: rest))) =
            .ok ⟨lower ((Tag.body inner).takeWhile isNameChar), inner.getLast? == some '/',
              .ofList (o.before ++
                [(lower o.name, o.text ++ (Tag.slash inner ++ '>' :: w))])⟩) := by
  by_cases hc : c = '<'
  · subst hc
    have hne : inner ≠ [] := by
      rintro rfl
      exact absurd hlong (by decide)
    have hleading := Tag.parse_leading hopen hne
    rw [Tag.parse_whole hne]
    rcases Tag.reads_alike_or_open inner with ⟨r, hr, hread⟩ | ⟨hname, ⟨o⟩⟩
    · rw [hread]
      exact ⟨fun _ after => (hleading after).trans (hread _), fun h => absurd h hr⟩
    · have hwhole : Tag.ofInterior inner ['>'] = .error .unterminatedValue :=
        o.ofInterior_unterminated hname List.not_mem_nil
      refine ⟨fun h => absurd hwhole h, fun _ => ⟨o, fun after hafter => ?_, ?_⟩⟩
      · rw [hleading, o.ofInterior_unterminated hname hafter]
      · intro w rest hw hrest
        rw [hleading, o.ofInterior_terminated hname hw hrest]
  · -- Both texts are long enough to be refused for their first character.
    have hrefused : ∀ (extent : Tag.Extent) (after : List Char),
        Tag.parse extent (c :: (inner ++ '>' :: after)) = .error .missingOpenBracket := by
      intro extent after
      refine Tag.parse_of_ne ?_ hc
      have hgt : '>'.utf8Size = 1 := rfl
      simp only [byteSize, byteSize_append] at hlong ⊢
      omega
    rw [hrefused .whole []]
    exact ⟨fun _ => hrefused .leading, fun h => by cases h⟩

/-- An open value runs on, and so holds the `/>` by which the tag has closed itself. -/
theorem only_open_values_run_on_bracketInValue :
    Tag.parse .whole "<a x=\"/>".toList = .error .unterminatedValue ∧
      Tag.parse .leading "<a x=\"/>\">".toList =
        .ok ⟨['a'], true, .ofList [(['x'], "/>".toList)]⟩ := by
  constructor <;> decide +kernel

/-- A quotation mark behind a tag, and a value that stays open. -/
theorem only_open_values_run_on_quoteBehind :
    Tag.parse .leading "<a x='1'/>y'>".toList = Tag.parse .whole "<a x='1'/>".toList ∧
      Tag.parse .leading "<a x=\"/>y>".toList = .error .unterminatedValue := by
  constructor
  · have hread : Tag.parse .whole ('<' :: ("a x='1'/".toList ++ ['>'])) ≠
        .error .unterminatedValue := by decide +kernel
    exact (only_open_values_run_on (by decide) (by decide)).1 hread "y'>".toList
  · have hopen : Tag.parse .whole ('<' :: ("a x=\"/".toList ++ ['>'])) =
        .error .unterminatedValue := by decide +kernel
    obtain ⟨o, hrefused, -⟩ := (only_open_values_run_on (by decide) (by decide)).2 hopen
    refine hrefused "y>".toList fun hmem => ?_
    have hquote : ∀ c ∈ "y>".toList.dropLast, Tag.isQuote c = false := by simp [Tag.isQuote]
    exact o.quote_ne (hquote _ hmem) rfl

end HtmlMarkdown
