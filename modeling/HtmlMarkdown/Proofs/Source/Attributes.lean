import HtmlMarkdown.Proofs.Source.Tag
import HtmlMarkdown.Proofs.Text.Trim
import HtmlMarkdown.Tag.Parser

/-!
# Attributes as they are spelled

A `SpelledAttribute` is an attribute with the blanks in front of it, in one of four forms: its value
stands between double or single quotation marks, or between none, or is missing.  Reading the
attributes of a tag gives them back in order, each with its name in lower case and its value as it
stands (`readAttributes_spell`).

Everything after a name depends on what follows the blanks behind it: only a `=` there makes the
next word a value.  No attribute starts with one, nor does the end of the tag, so a name without a
value is never mistaken for one that has a value (`head?_skipBlanks_attributes`).

`Tag.Passes` says of the attributes of a tag which of them are read up to a place, and so where an
attribute starts.
-/

namespace HtmlMarkdown

open Text

/-- The value of an attribute as a tag spells it, with the `=` and the blanks around it. -/
inductive SpelledValue where
  /-- No value. -/
  | missing
  /-- A value between quotation marks. -/
  | quoted (before after : Gap) (quote : Char) (hquote : Tag.isQuote quote = true) (v : List Char)
      (hv : quote ∉ v)
  /-- A value without quotation marks. -/
  | unquoted (before after : Gap) (v : List Char) (hstart : v.head?.any (!Tag.isQuote ·) = true)
      (hv : ∀ c ∈ v, isBlank c = false)

/-- The value itself. -/
def SpelledValue.text : SpelledValue → List Char
  | missing => []
  | quoted _ _ _ _ v _ => v
  | unquoted _ _ v _ _ => v

/-- A value written out. -/
def SpelledValue.spell : SpelledValue → List Char
  | missing => []
  | quoted before after quote _ v _ => before.text ++ '=' :: (after.text ++ quote :: (v ++ [quote]))
  | unquoted before after v _ _ => before.text ++ '=' :: (after.text ++ v)

/-- An attribute as a tag spells it. -/
structure SpelledAttribute where
  /-- The blanks in front of it. -/
  gap : Gap
  /-- The name, in any letter case. -/
  name : List Char
  /-- The value. -/
  value : SpelledValue
  gap_ne : gap.text ≠ []
  name_ne : name ≠ []
  name_chars : ∀ c ∈ name, Tag.isAttributeChar c = true

/-- An attribute written out. -/
def SpelledAttribute.spell (a : SpelledAttribute) : List Char :=
  a.gap.text ++ (a.name ++ a.value.spell)

/-- What an attribute says. -/
def SpelledAttribute.entry (a : SpelledAttribute) : Attribute := (lower a.name, a.value.text)

/-- Attributes written out one after the other, with blanks behind the last. -/
def spellAttributes (as : List SpelledAttribute) (gap : Gap) : List Char :=
  as.flatMap SpelledAttribute.spell ++ gap.text

theorem spellAttributes_cons (a : SpelledAttribute) (as : List SpelledAttribute) (gap : Gap) :
    spellAttributes (a :: as) gap =
      a.gap.text ++ (a.name ++ (a.value.spell ++ spellAttributes as gap)) := by
  simp [spellAttributes, SpelledAttribute.spell]

/-! ## Gaps -/

theorem Gap.skipBlanks_append (g : Gap) (s : List Char) : skipBlanks (g.text ++ s) = skipBlanks s :=
  dropWhile_blank_append g.blank s

theorem Gap.head?_all_isBlank (g : Gap) : g.text.head?.all isBlank = true := by
  cases hg : g.text with
  | nil => rfl
  | cons c s => exact g.blank c (hg ▸ List.mem_cons_self ..)

/-! ## Behind an attribute -/

section Behind

variable (as : List SpelledAttribute) (gap : Gap)

theorem head?_spellAttributes : (spellAttributes as gap).head?.all isBlank = true := by
  cases as with
  | nil => exact gap.head?_all_isBlank
  | cons a as =>
    obtain ⟨c, g, hg⟩ := List.exists_cons_of_ne_nil a.gap_ne
    rw [spellAttributes_cons, hg]
    exact a.gap.blank c (hg ▸ List.mem_cons_self ..)

/-- Behind their first blanks attributes go on with a name, if at all. -/
theorem head?_skipBlanks_attributes (t : List Char) :
    skipBlanks (spellAttributes as gap) ≠ '=' :: t := by
  cases as with
  | nil =>
    have hnil := gap.skipBlanks_append []
    rw [List.append_nil] at hnil
    rw [spellAttributes, List.flatMap_nil, List.nil_append, hnil]
    exact (List.cons_ne_nil '=' t).symm
  | cons a as =>
    obtain ⟨c, n, hn⟩ := List.exists_cons_of_ne_nil a.name_ne
    have hc : Tag.isAttributeChar c = true := a.name_chars c (hn ▸ List.mem_cons_self ..)
    have hink : isBlank c = false := by
      apply Bool.eq_false_iff.2
      intro hblank
      rw [Tag.isAttributeChar_of_isBlank hblank] at hc
      cases hc
    rw [spellAttributes_cons, a.gap.skipBlanks_append, hn, List.cons_append,
      skipBlanks_cons_of_not_blank hink]
    intro heq
    rw [(List.cons.inj heq).1] at hc
    cases hc

/-- What stands behind a name goes on with no character of a name. -/
theorem head?_spell_value (v : SpelledValue) :
    (v.spell ++ spellAttributes as gap).head?.all (!Tag.isAttributeChar ·) = true := by
  have hblank : ∀ s : List Char, s.head?.all isBlank = true →
      s.head?.all (!Tag.isAttributeChar ·) = true := by
    intro s hs
    cases s with
    | nil => rfl
    | cons c s => exact congrArg (!·) (Tag.isAttributeChar_of_isBlank hs)
  have hequals : ∀ (g : Gap) (s : List Char),
      (g.text ++ '=' :: s).head?.all (!Tag.isAttributeChar ·) = true := by
    intro g s
    have hg := hblank _ g.head?_all_isBlank
    cases htext : g.text with
    | nil => rfl
    | cons c u =>
      rw [htext] at hg
      exact hg
  cases v with
  | missing => exact hblank _ (head?_spellAttributes as gap)
  | quoted before after quote _ v _ =>
    rw [SpelledValue.spell, List.append_assoc, List.cons_append]
    exact hequals before _
  | unquoted before after v _ _ =>
    rw [SpelledValue.spell, List.append_assoc, List.cons_append]
    exact hequals before _

end Behind

/-! ## Reading attributes back -/

namespace Tag

theorem readValue_quoted {quote : Char} (hquote : isQuote quote = true) {v : List Char}
    (hv : quote ∉ v) (after : Gap) (rest beyond : List Char) :
    readValue (after.text ++ quote :: (v ++ quote :: rest)) beyond = .ok (v, rest) := by
  have hink : isBlank quote = false := by
    rw [isQuote, Bool.or_eq_true, beq_iff_eq, beq_iff_eq] at hquote
    rcases hquote with rfl | rfl <;> decide
  rw [readValue, after.skipBlanks_append, skipBlanks_cons_of_not_blank hink]
  dsimp only
  rw [if_pos hquote, readQuoted, cut?_append hv]

theorem readValue_unquoted {v : List Char} (hstart : v.head?.any (!isQuote ·) = true)
    (hv : ∀ c ∈ v, isBlank c = false) (after : Gap) {rest : List Char}
    (hrest : rest.head?.all isBlank = true) (beyond : List Char) :
    readValue (after.text ++ (v ++ rest)) beyond = .ok (v, rest) := by
  cases v with
  | nil => cases hstart
  | cons c v =>
    have hquote : ¬ isQuote c = true := by simpa using hstart
    have hink : ∀ d ∈ c :: v, (!isBlank d) = true := fun d hd => by rw [hv d hd]; rfl
    have hend : rest.head?.all (!!isBlank ·) = true := by simpa using hrest
    have hskip : skipBlanks (c :: v ++ rest) = c :: v ++ rest :=
      skipBlanks_cons_of_not_blank (hv c (List.mem_cons_self ..)) _
    rw [readValue, after.skipBlanks_append, hskip, List.cons_append]
    dsimp only
    rw [if_neg hquote, ← List.cons_append, takeWhile_append_of_head hink hend,
      dropWhile_append_of_head hink hend]

/-- Blanks in front of attributes are passed over. -/
theorem readAttributes_gap (beyond : List Char) (g : Gap) (s : List Char) :
    readAttributes beyond (g.text ++ s) = readAttributes beyond s := by
  obtain ⟨g, hg⟩ := g
  induction g with
  | nil => rfl
  | cons c g ih =>
    rw [List.forall_mem_cons] at hg
    have hc : ¬ isAttributeChar c = true := by
      rw [isAttributeChar_of_isBlank hg.1]
      exact Bool.false_ne_true
    show readAttributes beyond (c :: (g ++ s)) = _
    rw [readAttributes, if_neg hc]
    exact ih hg.2

section Name

variable {name tail : List Char} (hne : name ≠ []) (hname : ∀ c ∈ name, isAttributeChar c = true)
  (htail : tail.head?.all (!isAttributeChar ·) = true)

include hne hname htail

/-- A name that no `=` follows has no value. -/
theorem readAttributes_bare (h : ∀ t, skipBlanks tail ≠ '=' :: t) (beyond : List Char) :
    readAttributes beyond (name ++ tail) =
      (readAttributes beyond tail).map ((lower name, []) :: ·) := by
  obtain ⟨c, n, rfl⟩ := List.exists_cons_of_ne_nil hne
  rw [List.forall_mem_cons] at hname
  rw [List.cons_append, readAttributes, if_pos hname.1]
  dsimp only
  rw [takeWhile_append_of_head hname.2 htail, dropWhile_append_of_head hname.2 htail]
  split
  · next t ht => exact absurd ht (h t)
  · rfl

/-- Behind a `=` a value is read, and then the attributes that are left. -/
theorem readAttributes_equals {t : List Char} (h : skipBlanks tail = '=' :: t)
    (beyond : List Char) :
    readAttributes beyond (name ++ tail) =
      (readValue t beyond).bind fun value =>
        (readAttributes beyond value.2).map ((lower name, value.1) :: ·) := by
  obtain ⟨c, n, rfl⟩ := List.exists_cons_of_ne_nil hne
  rw [List.forall_mem_cons] at hname
  rw [List.cons_append, readAttributes, if_pos hname.1]
  dsimp only
  rw [takeWhile_append_of_head hname.2 htail, dropWhile_append_of_head hname.2 htail]
  split
  · next u hu =>
    rw [h] at hu
    obtain rfl := (List.cons.inj hu).2
    split <;> next hv => rw [hv]; rfl
  · next hno => exact absurd h (hno t)

theorem readAttributes_valued {t v left beyond : List Char} (h : skipBlanks tail = '=' :: t)
    (hvalue : readValue t beyond = .ok (v, left)) :
    readAttributes beyond (name ++ tail) =
      (readAttributes beyond left).map ((lower name, v) :: ·) := by
  rw [readAttributes_equals hne hname htail h, hvalue]
  rfl

end Name

/-- The attributes of a tag are read back in order, whatever the text beyond them. -/
theorem readAttributes_spell (as : List SpelledAttribute) (gap : Gap) (beyond : List Char) :
    readAttributes beyond (spellAttributes as gap) = .ok (as.map SpelledAttribute.entry) := by
  induction as with
  | nil =>
    have hgap := readAttributes_gap beyond gap []
    rw [List.append_nil] at hgap
    rw [spellAttributes, List.flatMap_nil, List.nil_append, hgap, readAttributes]
    rfl
  | cons a as ih =>
    have hhead := head?_spell_value as gap a.value
    rw [spellAttributes_cons, readAttributes_gap, List.map_cons, SpelledAttribute.entry]
    cases hvalue : a.value with
    | missing =>
      rw [hvalue] at hhead
      have hbare := readAttributes_bare a.name_ne a.name_chars hhead
        (head?_skipBlanks_attributes as gap) beyond
      exact hbare.trans (by rw [SpelledValue.spell, List.nil_append, ih]; rfl)
    | quoted before after quote hquote v hv =>
      rw [hvalue] at hhead
      have hread := readValue_quoted hquote hv after (spellAttributes as gap) beyond
      have hskip : skipBlanks (before.text ++ '=' :: (after.text ++ quote :: (v ++ [quote])) ++
          spellAttributes as gap) =
            '=' :: (after.text ++ quote :: (v ++ quote :: spellAttributes as gap)) := by
        rw [List.append_assoc, before.skipBlanks_append, List.cons_append,
          skipBlanks_cons_of_not_blank (by decide)]
        simp
      rw [readAttributes_valued a.name_ne a.name_chars hhead hskip hread, ih]
      rfl
    | unquoted before after v hstart hv =>
      rw [hvalue] at hhead
      have hread := readValue_unquoted hstart hv after (head?_spellAttributes as gap) beyond
      have hskip : skipBlanks (before.text ++ '=' :: (after.text ++ v) ++
          spellAttributes as gap) = '=' :: (after.text ++ (v ++ spellAttributes as gap)) := by
        rw [List.append_assoc, before.skipBlanks_append, List.cons_append,
          skipBlanks_cons_of_not_blank (by decide)]
        simp
      rw [readAttributes_valued a.name_ne a.name_chars hhead hskip hread, ih]
      rfl

/-! ## Places between attributes -/

variable {beyond s t : List Char} {as : List Attribute}

/-- Reading attributes gives `as` first, and goes on at the last text. -/
inductive Passes (beyond : List Char) : List Char → List Attribute → List Char → Prop where
  | here (s : List Char) : Passes beyond s [] s
  /-- What starts no attribute is passed over. -/
  | other {c : Char} {s t : List Char} {as : List Attribute} (hc : isAttributeChar c = false)
      (h : Passes beyond s as t) : Passes beyond (c :: s) as t
  /-- A name without a value. -/
  | bare {name tail t : List Char} {as : List Attribute} (hne : name ≠ [])
      (hname : ∀ c ∈ name, isAttributeChar c = true)
      (htail : tail.head?.all (!isAttributeChar ·) = true)
      (hno : ∀ u, skipBlanks tail ≠ '=' :: u) (h : Passes beyond tail as t) :
      Passes beyond (name ++ tail) ((lower name, []) :: as) t
  /-- A name with a value. -/
  | valued {name tail u v left t : List Char} {as : List Attribute} (hne : name ≠ [])
      (hname : ∀ c ∈ name, isAttributeChar c = true)
      (htail : tail.head?.all (!isAttributeChar ·) = true) (hequals : skipBlanks tail = '=' :: u)
      (hvalue : readValue u beyond = .ok (v, left)) (h : Passes beyond left as t) :
      Passes beyond (name ++ tail) ((lower name, v) :: as) t

theorem map_cons_map_append (x : Except TagError (List Attribute)) (a : Attribute) :
    (x.map (as ++ ·)).map (a :: ·) = x.map (a :: as ++ ·) := by
  cases x <;> rfl

theorem Passes.readAttributes_eq (h : Passes beyond s as t) :
    readAttributes beyond s = (readAttributes beyond t).map (as ++ ·) := by
  induction h with
  | here s => cases readAttributes beyond s <;> rfl
  | other hc _ ih => rw [readAttributes, if_neg (by simp [hc]), ih]
  | bare hne hname htail hno _ ih =>
    rw [readAttributes_bare hne hname htail hno, ih, map_cons_map_append]
  | valued hne hname htail hequals hvalue _ ih =>
    rw [readAttributes_valued hne hname htail hequals hvalue, ih, map_cons_map_append]

end Tag

end HtmlMarkdown
