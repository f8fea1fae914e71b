import HtmlMarkdown.Proofs.Source.Attributes
import Mathlib.Data.List.Induction

/-!
# Start tags are read back

A `StartTag` is a start tag written out in full.  Reading it gives its name in lower case, says
whether it ends with `/>`, and gives for each attribute name the value that was written last, in
whatever letter case the name is asked for (`parse_spell`).
-/

namespace HtmlMarkdown

open Text TagName

theorem Attributes.get?_ofList (as : List Attribute) (name : List Char) :
    (ofList as).get? name = as.reverse.lookup name := by
  induction as using List.reverseRecOn with
  | nil => rfl
  | append_singleton as a ih =>
    rw [ofList_append, List.reverse_append, List.reverse_singleton, List.singleton_append]
    by_cases h : name = a.1
    · rw [h, get?_insert_self, lookup_cons_self]
    · rw [get?_insert_of_ne _ h, lookup_cons_of_ne h, ih]

/-- A start tag as it is spelled, from its `<` to its `>`. -/
structure StartTag where
  /-- The name, in any letter case. -/
  name : List Char
  /-- The attributes. -/
  attributes : List SpelledAttribute
  /-- The blanks behind them. -/
  gap : Gap
  /-- Whether a `/` stands before the `>`. -/
  selfClosing : Bool
  name_start : name.head?.any isNameStart = true
  name_chars : ∀ c ∈ name, isNameChar c = true
  /-- Without that `/`, none ends the text before the `>`. -/
  open_end : selfClosing = false → (name ++ spellAttributes attributes gap).getLast? ≠ some '/'

namespace StartTag

variable (t : StartTag)

/-- The text between the `<` and the end of the tag. -/
def inner : List Char := t.name ++ spellAttributes t.attributes t.gap

/-- A start tag written out. -/
def spell : List Char := '<' :: (t.inner ++ if t.selfClosing then ['/', '>'] else ['>'])

/-- What the attributes say, in order. -/
def entries : List Attribute := t.attributes.map SpelledAttribute.entry

theorem takeWhile_name : t.inner.takeWhile isNameChar = t.name := by
  have hblank := head?_spellAttributes t.attributes t.gap
  apply takeWhile_append_of_head t.name_chars
  cases h : spellAttributes t.attributes t.gap with
  | nil => rfl
  | cons c s =>
    rw [h] at hblank
    exact congrArg (!·) (isNameChar_of_isBlank hblank)

theorem dropWhile_name :
    t.inner.dropWhile isNameChar = spellAttributes t.attributes t.gap := by
  have hsplit := t.inner.takeWhile_append_dropWhile (p := isNameChar)
  rw [t.takeWhile_name] at hsplit
  exact List.append_cancel_left hsplit

/-- Between its brackets a start tag has its name and its attributes, and a `/` if it has one. -/
theorem ofInterior_inner :
    Tag.ofInterior (t.inner ++ if t.selfClosing then ['/'] else []) ['>'] =
      .ok ⟨lower t.name, t.selfClosing, .ofList t.entries⟩ := by
  have hne : t.name.isEmpty = false := by
    have hstart := t.name_start
    cases h : t.name with
    | nil =>
      rw [h] at hstart
      cases hstart
    | cons c s => rfl
  have hblank := head?_spellAttributes t.attributes t.gap
  have hread := Tag.readAttributes_spell t.attributes t.gap
  unfold Tag.ofInterior
  cases hclosing : t.selfClosing with
  | true =>
    simp only [if_true, List.getLast?_concat, List.dropLast_concat, beq_self_eq_true,
      t.takeWhile_name, t.dropWhile_name, hne, t.name_start, hblank, hread]
    rfl
  | false =>
    have hopen : (t.inner.getLast? == some '/') = false :=
      beq_eq_false_iff_ne.2 (t.open_end hclosing)
    simp only [Bool.false_eq_true, if_false, List.append_nil, hopen,
      t.takeWhile_name, t.dropWhile_name, hne, t.name_start, hblank, hread]
    rfl

theorem interior?_spell :
    Tag.interior? .whole (t.inner ++ if t.selfClosing then ['/', '>'] else ['>']) =
      some (t.inner ++ if t.selfClosing then ['/'] else [], ['>']) := by
  have hend : (t.inner ++ if t.selfClosing then ['/', '>'] else ['>']) =
      (t.inner ++ if t.selfClosing then ['/'] else []) ++ ['>'] := by
    cases t.selfClosing <;> simp
  rw [hend, Tag.interior?, List.getLast?_concat, List.dropLast_concat]
  rfl

theorem byteSize_spell : 3 ≤ byteSize t.spell := by
  have hstart := t.name_start
  cases hname : t.name with
  | nil =>
    rw [hname] at hstart
    cases hstart
  | cons c s =>
    have hc := Char.utf8Size_pos c
    have hspell : t.spell = ['<'] ++ [c] ++
        (s ++ spellAttributes t.attributes t.gap ++ if t.selfClosing then ['/'] else []) ++
          ['>'] := by
      rw [spell, inner, hname]
      cases t.selfClosing <;> simp
    rw [hspell]
    simp only [byteSize_append, byteSize]
    have hlt : '<'.utf8Size = 1 := rfl
    have hgt : '>'.utf8Size = 1 := rfl
    omega

/--
A start tag is read back from its spelling: the name in lower case, whether it closes itself, and
the value written last for each attribute name, which may be asked for in any letter case.
-/
theorem parse_spell :
    ∃ tag, Tag.parse .whole t.spell = .ok tag ∧ tag.name = lower t.name ∧
      tag.selfClosing = t.selfClosing ∧
      (∀ name, tag.attributes.get? name = t.entries.reverse.lookup name) ∧
      ∀ name, tag.attribute? name = t.entries.reverse.lookup (lower name) := by
  refine ⟨⟨lower t.name, t.selfClosing, .ofList t.entries⟩, ?_, rfl, rfl,
    Attributes.get?_ofList t.entries, fun name => Attributes.get?_ofList t.entries (lower name)⟩
  have hlong : ¬ byteSize t.spell < 3 := Nat.not_lt.2 t.byteSize_spell
  have hinterior := t.interior?_spell
  unfold Tag.parse
  rw [if_neg hlong]
  simp only [spell, hinterior]
  exact t.ofInterior_inner

/-- A start tag with each form of an attribute, two of them of one name. -/
def image : StartTag where
  name := "IMG".toList
  attributes := [
    ⟨.spaces 1, "Alt".toList,
      .quoted (.spaces 1) (.spaces 1) '\'' (by decide) "/>".toList (by decide),
      by decide, by decide, List.all_eq_true.1 (by decide)⟩,
    ⟨.spaces 2, "hidden".toList, .missing, by decide, by decide, List.all_eq_true.1 (by decide)⟩,
    ⟨.spaces 1, "alt".toList,
      .unquoted (.spaces 0) (.spaces 0) ['b', '/'] (by decide) (by simp [isBlank]),
      by decide, by decide, List.all_eq_true.1 (by decide)⟩]
  gap := .spaces 1
  selfClosing := true
  name_start := by decide
  name_chars := List.all_eq_true.1 (by decide)
  open_end := nofun

/-- The value written last is kept, and a `/` in front of a blank belongs to it. -/
theorem parse_spell_image :
    image.spell = "<IMG Alt = '/>'  hidden alt=b/ />".toList ∧
      ∃ tag, Tag.parse .whole image.spell = .ok tag ∧ tag.name = "img".toList ∧
        tag.selfClosing = true ∧ tag.attribute? "ALT".toList = some "b/".toList ∧
        tag.attribute? "hidden".toList = some [] ∧ tag.attribute? "src".toList = none := by
  obtain ⟨tag, hparse, hname, hclosing, -, hattribute⟩ := parse_spell image
  refine ⟨by decide, tag, hparse, hname.trans (by decide), hclosing, ?_, ?_, ?_⟩
  · exact (hattribute _).trans (by decide)
  · exact (hattribute _).trans (by decide)
  · exact (hattribute _).trans (by decide)

end StartTag

end HtmlMarkdown
