import HtmlMarkdown.Proofs.Source.Tag
import HtmlMarkdown.Tag.Parser

/-!
# Between the brackets of a tag

A tag that is read on its own is read from the text between its brackets, and of the text beyond
them only values that are still open there take notice (`parse_whole`, `parse_leading`).  If there
is a name, set off by a blank from what follows it (`HasName`), then all that is left to be read are
the attributes; if there is none, then the tag is refused whatever stands beyond it.

`SlashBehindName` is what keeps a tag that is spelled in a page from being read on its own: a `/`
behind the name that does not stand at the end (`SpelledTag.hasName_iff`).
-/

namespace HtmlMarkdown

open Text TagName

theorem exists_of_map_eq_ok {α β ε : Type} {f : α → β} {x : Except ε α} {b : β}
    (h : x.map f = .ok b) : ∃ a, x = .ok a ∧ f a = b := by
  cases x with
  | error e => cases h
  | ok a => exact ⟨a, rfl, Except.ok.inj h⟩

namespace Tag

/-- The text between the brackets of a tag, without the `/` at its end. -/
def body (inner : List Char) : List Char :=
  if inner.getLast? == some '/' then inner.dropLast else inner

/-- The `/` that a tag closes itself with, if there is one. -/
def slash (inner : List Char) : List Char := if inner.getLast? == some '/' then ['/'] else []

/-- The attributes as they stand between the brackets of a tag. -/
def attributeText (inner : List Char) : List Char := (body inner).dropWhile isNameChar

variable {inner beyond : List Char}

theorem body_append_slash (inner : List Char) : body inner ++ slash inner = inner := by
  unfold body slash
  split
  · next hlast =>
    obtain ⟨s, rfl⟩ := List.getLast?_eq_some_iff.1 (beq_iff_eq.1 hlast)
    rw [List.dropLast_concat]
  · exact List.append_nil inner

theorem slash_eq (inner : List Char) : slash inner = [] ∨ slash inner = ['/'] := by
  unfold slash
  split
  · exact .inr rfl
  · exact .inl rfl

theorem body_append (a : List Char) {b : List Char} (hb : b ≠ []) :
    body (a ++ b) = a ++ body b := by
  unfold body
  rw [List.getLast?_append_of_ne_nil a hb, List.dropLast_append_of_ne_nil hb]
  split <;> rfl

theorem head?_body {p : Char → Bool} (h : inner.head?.all p = true) :
    (body inner).head?.all p = true := by
  rw [← body_append_slash inner] at h
  cases hbody : body inner with
  | nil => rfl
  | cons c s =>
    rw [hbody] at h
    exact h

/-! ## The brackets -/

theorem parse_of_interior? {extent : Extent} {s : List Char} (hlong : 3 ≤ byteSize ('<' :: s))
    (h : interior? extent s = some (inner, beyond)) :
    parse extent ('<' :: s) = ofInterior inner beyond := by
  unfold parse
  rw [if_neg (Nat.not_lt.2 hlong)]
  simp only [h]

theorem byteSize_bracket (hne : inner ≠ []) (after : List Char) :
    3 ≤ byteSize ('<' :: (inner ++ '>' :: after)) := by
  obtain ⟨c, s, rfl⟩ := List.exists_cons_of_ne_nil hne
  have hc := Char.utf8Size_pos c
  have hlt : '<'.utf8Size = 1 := rfl
  have hgt : '>'.utf8Size = 1 := rfl
  simp only [List.cons_append, byteSize, byteSize_append]
  omega

theorem parse_whole (hne : inner ≠ []) :
    parse .whole ('<' :: (inner ++ ['>'])) = ofInterior inner ['>'] :=
  parse_of_interior? (byteSize_bracket hne []) (by simp [interior?])

theorem parse_leading (hopen : '>' ∉ inner) (hne : inner ≠ []) (after : List Char) :
    parse .leading ('<' :: (inner ++ '>' :: after)) = ofInterior inner ('>' :: after) :=
  parse_of_interior? (byteSize_bracket hne after) (by rw [interior?, cut?_append hopen]; rfl)

/-! ## The name -/

/-- What is read between brackets, by the parts of the text there. -/
theorem ofInterior_eq (inner beyond : List Char) :
    ofInterior inner beyond =
      if ((body inner).takeWhile isNameChar).isEmpty then .error .emptyName
      else if !((body inner).takeWhile isNameChar).head?.any isNameStart then .error .invalidName
      else if !(attributeText inner).head?.all isBlank then .error .invalidName
      else (readAttributes (slash inner ++ beyond) (attributeText inner)).map fun as =>
        ⟨lower ((body inner).takeWhile isNameChar), inner.getLast? == some '/', .ofList as⟩ := by
  have hbeyond : (if inner.getLast? == some '/' then '/' :: beyond else beyond) =
      slash inner ++ beyond := by
    unfold slash
    split <;> rfl
  unfold ofInterior
  dsimp only
  rw [hbeyond, ← body, ← attributeText]

/-- A name stands between the brackets, with a blank or the end of the tag behind it. -/
structure HasName (inner : List Char) : Prop where
  start : ((body inner).takeWhile isNameChar).head?.any isNameStart = true
  rest : (attributeText inner).head?.all isBlank = true

/-- Behind a name the attributes are read. -/
theorem ofInterior_of_hasName (h : HasName inner) (beyond : List Char) :
    ofInterior inner beyond =
      (readAttributes (slash inner ++ beyond) (attributeText inner)).map fun as =>
        ⟨lower ((body inner).takeWhile isNameChar), inner.getLast? == some '/', .ofList as⟩ := by
  have hne : ((body inner).takeWhile isNameChar).isEmpty = false := by
    have hstart := h.start
    cases hname : (body inner).takeWhile isNameChar with
    | nil =>
      rw [hname] at hstart
      cases hstart
    | cons c s => rfl
  rw [ofInterior_eq, hne, h.start, h.rest]
  rfl

/-- Without a name the tag is refused, whatever stands beyond it. -/
theorem ofInterior_of_not_hasName (h : ¬ HasName inner) :
    ∃ e, e ≠ .unterminatedValue ∧ ∀ beyond, ofInterior inner beyond = .error e := by
  simp only [ofInterior_eq]
  by_cases hne : ((body inner).takeWhile isNameChar).isEmpty = true
  · exact ⟨.emptyName, by decide, fun beyond => if_pos hne⟩
  · refine ⟨.invalidName, by decide, fun beyond => (if_neg hne).trans ?_⟩
    by_cases hstart : ((body inner).takeWhile isNameChar).head?.any isNameStart = true
    · have hrest : ¬ (attributeText inner).head?.all isBlank = true :=
        fun hrest => h ⟨hstart, hrest⟩
      rw [if_neg (by simpa using hstart)]
      exact if_pos (by simpa using hrest)
    · exact if_pos (by simpa using hstart)

/-- Where there is a name the tag is read, or a value in it is open; elsewhere it is neither. -/
theorem hasName_iff : HasName inner ↔
    (∃ tag, ofInterior inner beyond = .ok tag) ∨
      ofInterior inner beyond = .error .unterminatedValue := by
  constructor
  · intro h
    rw [ofInterior_of_hasName h]
    cases hread : readAttributes (slash inner ++ beyond) (attributeText inner) with
    | ok as => exact .inl ⟨_, rfl⟩
    | error e =>
      right
      rw [readAttributes_error hread]
      rfl
  · intro h
    by_contra hnot
    obtain ⟨e, he, hrefused⟩ := ofInterior_of_not_hasName hnot
    rw [hrefused beyond] at h
    rcases h with ⟨tag, hok⟩ | herror
    · cases hok
    · exact he (Except.error.inj herror)

/-- What is read between brackets has a name, and behind it, set off by a blank, attributes. -/
theorem of_ofInterior {tag : Tag} (h : ofInterior inner beyond = .ok tag) :
    ((body inner).takeWhile isNameChar).head?.any isNameStart = true ∧
      ((body inner).dropWhile isNameChar).head?.all isBlank = true ∧
      tag.name = lower ((body inner).takeWhile isNameChar) ∧
      ∃ as, readAttributes (slash inner ++ beyond) ((body inner).dropWhile isNameChar) = .ok as ∧
        tag.attributes = .ofList as := by
  have hname : HasName inner := hasName_iff.2 (.inl ⟨tag, h⟩)
  rw [ofInterior_of_hasName hname] at h
  obtain ⟨as, has, rfl⟩ := exists_of_map_eq_ok h
  exact ⟨hname.start, hname.rest, rfl, as, has, rfl⟩

end Tag

/-! ## Spelled tags -/

namespace SpelledTag

variable (t : SpelledTag)

theorem rest_head_all : t.rest.head?.all (!isNameChar ·) = true := by
  cases hrest : t.rest with
  | nil => rfl
  | cons c r => exact congrArg (!·) (t.rest_head hrest).2.1

theorem getLast?_name : t.name.getLast? ≠ some '/' := fun h =>
  not_mem_of_nameChars (by decide) t.name_chars (List.mem_of_getLast? h)

theorem dropWhile_inner : t.inner.dropWhile isNameChar = t.rest :=
  dropWhile_append_of_head t.name_chars t.rest_head_all

theorem body_inner : Tag.body t.inner = t.name ++ Tag.body t.rest := by
  rcases List.eq_nil_or_concat t.rest with hrest | ⟨r, c, hrest⟩
  · rw [inner, hrest, List.append_nil, Tag.body, if_neg (by simpa using t.getLast?_name)]
    exact (List.append_nil _).symm
  · exact Tag.body_append t.name (by simp [hrest])

theorem head_body_rest : (Tag.body t.rest).head?.all (!isNameChar ·) = true :=
  Tag.head?_body t.rest_head_all

theorem takeWhile_body : (Tag.body t.inner).takeWhile isNameChar = t.name := by
  rw [t.body_inner, takeWhile_append_of_head t.name_chars t.head_body_rest]

theorem attributeText_inner : Tag.attributeText t.inner = Tag.body t.rest := by
  rw [Tag.attributeText, t.body_inner, dropWhile_append_of_head t.name_chars t.head_body_rest]

theorem getLast?_inner : (t.inner.getLast? == some '/') = (t.rest.getLast? == some '/') := by
  by_cases hrest : t.rest = []
  · simp [inner, hrest, t.getLast?_name]
  · rw [inner, List.getLast?_append_of_ne_nil _ hrest]

theorem slash_inner : Tag.slash t.inner = Tag.slash t.rest := by
  rw [Tag.slash, t.getLast?_inner, Tag.slash]

/-- Of the name of a tag the lower case is read, and nothing else. -/
theorem ofInterior_inner (beyond : List Char) :
    Tag.ofInterior t.inner beyond =
      if !(Tag.body t.rest).head?.all isBlank then .error .invalidName
      else (Tag.readAttributes (Tag.slash t.rest ++ beyond) (Tag.body t.rest)).map fun as =>
        ⟨lower t.name, t.rest.getLast? == some '/', .ofList as⟩ := by
  have hne : t.name.isEmpty = false := by
    have hstart := t.name_start
    cases hname : t.name with
    | nil => simp [hname] at hstart
    | cons c s => rfl
  rw [Tag.ofInterior_eq, t.takeWhile_body, t.attributeText_inner, t.slash_inner, t.getLast?_inner,
    hne, t.name_start]
  rfl

end SpelledTag

/-- Between brackets that hold a name, its name and the rest of a tag are spelled. -/
theorem Tag.HasName.exists_spelledTag {inner : List Char} (hopen : '>' ∉ inner)
    (h : HasName inner) : ∃ t : SpelledTag, t.inner = inner := by
  have hspell : (body inner).takeWhile isNameChar ++ (attributeText inner ++ slash inner) =
      inner := by
    rw [attributeText, ← List.append_assoc, List.takeWhile_append_dropWhile, body_append_slash]
  refine ⟨⟨_, _, h.start, fun c hc => List.mem_takeWhile_imp hc, ?_, ?_⟩, hspell⟩
  · intro c hc
    have hrest := h.rest
    cases hcase : attributeText inner with
    | nil =>
      rw [hcase, List.nil_append] at hc
      rcases slash_eq inner with hnone | hslash
      · rw [hnone] at hc
        cases hc
      · rw [hslash] at hc
        exact .inl (Option.some.inj hc).symm
    | cons d r =>
      rw [hcase] at hc hrest
      obtain rfl : d = c := Option.some.inj hc
      exact .inr (by simpa using hrest)
  · intro hmem
    apply hopen
    rw [← hspell]
    exact List.mem_append_right _ hmem

theorem exists_of_ofInterior {inner beyond : List Char} {tag : Tag} (hopen : '>' ∉ inner)
    (h : Tag.ofInterior inner beyond = .ok tag) :
    ∃ t : SpelledTag, t.inner = inner ∧ lower t.name = tag.name := by
  obtain ⟨hstart, hrest, hname, -⟩ := Tag.of_ofInterior h
  obtain ⟨t, rfl⟩ := Tag.HasName.exists_spelledTag hopen ⟨hstart, hrest⟩
  exact ⟨t, rfl, by rw [hname, t.takeWhile_body]⟩

theorem ofInterior_of_parse {inner : List Char} {tag : Tag}
    (h : Tag.parse .whole ('<' :: inner ++ ['>']) = .ok tag) :
    Tag.ofInterior inner ['>'] = .ok tag := by
  by_cases hne : inner = []
  · rw [hne] at h
    cases h
  · rwa [List.cons_append, Tag.parse_whole hne] at h

theorem SpelledTag.name_of_parse {t : SpelledTag} {tag : Tag}
    (h : Tag.parse .whole ('<' :: t.inner ++ ['>']) = .ok tag) : tag.name = lower t.name := by
  rw [(Tag.of_ofInterior (ofInterior_of_parse h)).2.2.1, t.takeWhile_body]

/-! ## A `/` behind the name -/

/-- Right behind the name stands a `/` that does not close the tag. -/
def Tag.SlashBehindName (inner : List Char) : Prop :=
  ∃ r, r ≠ [] ∧ inner.dropWhile isNameChar = '/' :: r

/-- A spelled tag has a name but for a `/` behind it. -/
theorem SpelledTag.hasName_iff (t : SpelledTag) :
    Tag.HasName t.inner ↔ ¬ Tag.SlashBehindName t.inner := by
  have hblank : Tag.HasName t.inner ↔ (Tag.body t.rest).head?.all isBlank = true := by
    rw [← t.attributeText_inner]
    refine ⟨Tag.HasName.rest, fun hrest => ⟨?_, hrest⟩⟩
    rw [t.takeWhile_body]
    exact t.name_start
  rw [hblank, Tag.SlashBehindName, t.dropWhile_inner]
  cases hrest : t.rest with
  | nil => simp [Tag.body]
  | cons c r =>
    rcases t.rest_start c (by rw [hrest]; rfl) with rfl | hc
    · by_cases hr : r = []
      · simp [hr, Tag.body]
      · have hbody : Tag.body ('/' :: r) = '/' :: Tag.body r := Tag.body_append ['/'] hr
        have hslash : ¬ isBlank '/' = true := by decide
        simp [hbody, hr, hslash]
    · have hhead : (Tag.body (c :: r)).head?.all isBlank = true := Tag.head?_body hc
      have hne : c ≠ '/' := by
        rintro rfl
        exact absurd hc (by decide)
      simp [hhead, hne]

end HtmlMarkdown
