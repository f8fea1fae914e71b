import HtmlMarkdown.Proofs.InPlace.Scan
import HtmlMarkdown.Proofs.Source.Interior

/-!
# Two readers of tag names

The scanner takes the name of a tag and passes on to its `>`; a tag that is read on its own has a
name, too, and is then taken apart.  On a text with a single `>`, at its end, both find the same
name.  They find one in the same texts, but for a `/` behind the name that does not close the tag:
for the scanner it ends the name, and the other reader refuses it (`names_agree`).
-/

namespace HtmlMarkdown

open Text TagName

variable {inner : List Char}

/-! ## The scanner -/

theorem SpelledTag.scanTag?_inner (t : SpelledTag) :
    InPlace.scanTag? (Utf8.encode ('<' :: (t.inner ++ ['>']))) 1 =
      some (.named (lower t.name) (byteSize ('<' :: t.inner))) := by
  have hscan := InPlace.scanTag?_append ['<'] (t.inner ++ ['>'])
  have hclose := InPlace.offset_append ('<' :: t.inner) ['>']
  rw [t.scan_inner []] at hscan
  rw [← hclose]
  exact hscan

/-- Where the scanner finds a name, a tag is spelled. -/
theorem exists_named_iff (hopen : '>' ∉ inner) :
    (∃ name close, InPlace.scanTag? (Utf8.encode ('<' :: (inner ++ ['>']))) 1 =
      some (.named name close)) ↔ ∃ t : SpelledTag, t.inner = inner := by
  constructor
  · rintro ⟨name, close, h⟩
    by_contra hnone
    have hscan := InPlace.scanTag?_append ['<'] (inner ++ ['>'])
    rw [scan_nameless hopen fun t ht => hnone ⟨t, ht.symm⟩] at hscan
    cases h.symm.trans hscan
  · rintro ⟨t, rfl⟩
    exact ⟨_, _, t.scanTag?_inner⟩

/-! ## The reader of a tag on its own -/

theorem Tag.hasName_iff_parse : HasName inner ↔
    (∃ tag, parse .whole ('<' :: (inner ++ ['>'])) = .ok tag) ∨
      parse .whole ('<' :: (inner ++ ['>'])) = .error .unterminatedValue := by
  by_cases hne : inner = []
  · -- Two brackets are too short for a tag.
    subst hne
    constructor
    · intro h
      cases h.start
    · rintro (⟨tag, h⟩ | h) <;> cases h
  · rw [parse_whole hne]
    exact hasName_iff

theorem Tag.hasName_iff_spelled (hopen : '>' ∉ inner) :
    HasName inner ↔ (∃ t : SpelledTag, t.inner = inner) ∧ ¬ SlashBehindName inner := by
  constructor
  · intro h
    obtain ⟨t, rfl⟩ := h.exists_spelledTag hopen
    exact ⟨⟨t, rfl⟩, t.hasName_iff.1 h⟩
  · rintro ⟨⟨t, rfl⟩, hslash⟩
    exact t.hasName_iff.2 hslash

/-! ## Agreement -/

/--
On a text with a single `>`, at its end, the scanner finds a name, and no `/` that does not close
the tag stands behind it, just where the text is read as a tag or refused for an open value only.
The tag that is read has the name that the scanner finds.
-/
theorem names_agree {text : List Char} (htext : text = '<' :: (inner ++ ['>']))
    (hopen : '>' ∉ inner) :
    ((∃ name close, InPlace.scanTag? (Utf8.encode text) 1 = some (.named name close)) ∧
        ¬ Tag.SlashBehindName inner ↔
      (∃ tag, Tag.parse .whole text = .ok tag) ∨
        Tag.parse .whole text = .error .unterminatedValue) ∧
    ∀ tag, Tag.parse .whole text = .ok tag →
      InPlace.scanTag? (Utf8.encode text) 1 =
        some (.named tag.name (byteSize ('<' :: inner))) := by
  subst htext
  constructor
  · rw [exists_named_iff hopen, ← Tag.hasName_iff_spelled hopen, Tag.hasName_iff_parse]
  · intro tag htag
    obtain ⟨t, rfl⟩ := (Tag.hasName_iff_parse.2 (.inl ⟨tag, htag⟩)).exists_spelledTag hopen
    rw [SpelledTag.name_of_parse htag, t.scanTag?_inner]

/-- A `/` and a blank behind a name: the scanner finds the name, and the tag is refused. -/
theorem names_agree_slashAndBlank :
    InPlace.scanTag? (Utf8.encode "<br/ >".toList) 1 = some (.named "br".toList 5) ∧
      Tag.parse .whole "<br/ >".toList = .error .invalidName := by
  constructor <;> decide +kernel

/-- A tag that closes itself, with another `/` in a value. -/
theorem names_agree_selfClosing : ∃ tag, Tag.parse .whole "<Br a='/'/>".toList = .ok tag ∧
    InPlace.scanTag? (Utf8.encode "<Br a='/'/>".toList) 1 = some (.named tag.name 10) := by
  have htext : "<Br a='/'/>".toList = '<' :: ("Br a='/'/".toList ++ ['>']) := by decide
  obtain ⟨hiff, hname⟩ := names_agree htext (by decide)
  have hscan : InPlace.scanTag? (Utf8.encode "<Br a='/'/>".toList) 1 =
      some (.named "br".toList 10) := by decide +kernel
  have hslash : ¬ Tag.SlashBehindName "Br a='/'/".toList := by
    rintro ⟨r, -, hr⟩
    have hblank : "Br a='/'/".toList.dropWhile isNameChar = " a='/'/".toList := by decide +kernel
    rw [hblank] at hr
    exact absurd (List.cons.inj hr).1 (by decide)
  rcases hiff.1 ⟨⟨_, _, hscan⟩, hslash⟩ with ⟨tag, hok⟩ | herror
  · have hsize : byteSize ('<' :: "Br a='/'/".toList) = 10 := by decide +kernel
    exact ⟨tag, hok, hsize ▸ hname tag hok⟩
  · exact absurd herror (by decide +kernel)

end HtmlMarkdown
