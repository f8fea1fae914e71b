import HtmlMarkdown.Proofs.InPlace.Tag
import HtmlMarkdown.Proofs.Source.Interior

/-!
# The form of a tag that has been read

Whatever the text, reading a tag in place comes to an end and fails at no access, and a tag that is
read is `WellFormed`: its name and the names of its attributes are in lower case, and its values
stand in the text (`parse?_wellFormed`).

The values need an argument, since an open one is read on into the text beyond the tag.  Still every
value lies in the attributes together with that text, and what is left of the attributes is an end
of them (`infix_of_readValue`); so the same holds of all values, one after the other
(`readsProper_readAttributes`).
-/

namespace HtmlMarkdown

open Text TagName

/-! ## Letters -/

theorem forall_ascii {P : Char → Prop} (h : ∀ n < 128, P (Char.ofNat n)) {c : Char}
    (hc : c.toNat < 128) : P c := by
  have hchar := h c.toNat hc
  rwa [Char.ofNat_toNat] at hchar

namespace Tag

/-- The characters of the name of a tag in lower case. -/
def isLowerNameChar (c : Char) : Bool := c.isLower || c.isDigit || c == ':'

/-- The characters of an attribute name in lower case. -/
def isLowerAttributeChar (c : Char) : Bool :=
  c.isLower || c.isDigit || c == '-' || c == '_' || c == ':' || c == '.'

theorem isAttributeChar_ascii {c : Char} (h : isAttributeChar c = true) : c.toNat < 128 := by
  simp only [isAttributeChar, Bool.or_eq_true, beq_iff_eq] at h
  rcases h with (((h | rfl) | rfl) | rfl) | rfl
  · exact InPlace.isNameChar_ascii (by simp [isNameChar, h])
  all_goals decide

theorem isLower_toLower {c : Char} (h : isNameStart c = true) : c.toLower.isLower = true := by
  have halpha : c.isAlpha = true := h
  have hchar : isNameChar c = true := by simp [isNameChar, Char.isAlphanum, halpha]
  exact forall_ascii (P := fun c => isNameStart c = true → c.toLower.isLower = true)
    (by decide +kernel) (InPlace.isNameChar_ascii hchar) h

theorem isLowerNameChar_toLower {c : Char} (h : isNameChar c = true) :
    isLowerNameChar c.toLower = true :=
  forall_ascii (P := fun c => isNameChar c = true → isLowerNameChar c.toLower = true)
    (by decide +kernel) (InPlace.isNameChar_ascii h) h

theorem isLowerAttributeChar_toLower {c : Char} (h : isAttributeChar c = true) :
    isLowerAttributeChar c.toLower = true :=
  forall_ascii (P := fun c => isAttributeChar c = true → isLowerAttributeChar c.toLower = true)
    (by decide +kernel) (isAttributeChar_ascii h) h

theorem toLower_of_isLowerAttributeChar {c : Char} (h : isLowerAttributeChar c = true) :
    c.toLower = c := by
  by_cases hc : c.toNat < 128
  · exact forall_ascii (P := fun c => isLowerAttributeChar c = true → c.toLower = c)
      (by decide +kernel) hc h
  · exact InPlace.toLower_beyond (Nat.not_lt.1 hc)

end Tag

/-! ## Attributes -/

/-- An attribute whose name is in lower case and whose value stands in a text. -/
structure Attribute.Proper (text : List Char) (a : Attribute) : Prop where
  name_ne : a.1 ≠ []
  name_lower : ∀ c ∈ a.1, Tag.isLowerAttributeChar c = true
  value_infix : a.2 <:+: text

theorem Attribute.Proper.mono {text text' : List Char} {a : Attribute} (h : a.Proper text)
    (hsub : text <:+: text') : a.Proper text' :=
  ⟨h.name_ne, h.name_lower, h.value_infix.trans hsub⟩

theorem Attributes.mem_of_mem_ofList {as : List Attribute} {a : Attribute}
    (h : a ∈ (ofList as).entries) : a ∈ as := by
  induction as using List.reverseRecOn with
  | nil => exact h
  | append_singleton as b ih =>
    rw [ofList_append] at h
    rcases mem_of_mem_insertEntry h with rfl | h
    · exact List.mem_append_right _ (List.mem_singleton_self _)
    · exact List.mem_append_left _ (ih h)

theorem Attributes.mem_of_get? {as : Attributes} {name v : List Char}
    (h : as.get? name = some v) : (name, v) ∈ as.entries := by
  obtain ⟨before, after, heq, -⟩ := List.lookup_eq_some_iff.1 h
  simp [heq]

theorem infix_append_of_suffix {s t : List Char} (h : s <:+ t) (u : List Char) :
    s ++ u <:+: t ++ u := by
  obtain ⟨a, rfl⟩ := h
  exact ⟨a, [], by simp⟩

namespace Tag

variable {beyond s v left : List Char}

/-- A quoted value stands in the text, and what is left of the attributes is an end of them. -/
theorem infix_of_readQuoted {quote : Char} (h : readQuoted quote s beyond = .ok (v, left)) :
    v <:+: s ++ beyond ∧ left <:+ s := by
  unfold readQuoted at h
  split at h
  · next value rest hcut =>
    cases h
    obtain ⟨rfl, -⟩ := eq_of_cut? hcut
    exact ⟨⟨[], quote :: left ++ beyond, by simp⟩, ⟨v ++ [quote], by simp⟩⟩
  · split at h
    · next value rest hcut =>
      cases h
      obtain ⟨hbeyond, -⟩ := eq_of_cut? hcut
      have hprefix : value <+: beyond.dropLast := ⟨quote :: rest, hbeyond.symm⟩
      have hvalue := hprefix.trans (List.dropLast_prefix beyond)
      exact ⟨((List.prefix_append_right_inj s).2 hvalue).isInfix, List.nil_suffix⟩
    · cases h

theorem infix_of_readValue (h : readValue s beyond = .ok (v, left)) :
    v <:+: s ++ beyond ∧ left <:+ s := by
  have hskip : skipBlanks s <:+ s := List.dropWhile_suffix isBlank
  unfold readValue at h
  split at h
  · cases h
    exact ⟨List.nil_infix, List.nil_suffix⟩
  · next c rest heq =>
    rw [heq] at hskip
    split at h
    · obtain ⟨hv, hleft⟩ := infix_of_readQuoted h
      have hrest : rest <:+ s := (List.suffix_cons c rest).trans hskip
      exact ⟨hv.trans (infix_append_of_suffix hrest beyond), hleft.trans hrest⟩
    · cases h
      have hword : (c :: rest).takeWhile (!isBlank ·) <:+: c :: rest :=
        (List.takeWhile_prefix _).isInfix
      exact ⟨hword.trans (hskip.isInfix.trans (List.prefix_append s beyond).isInfix),
        (List.dropWhile_suffix _).trans hskip⟩

/-- A name that is read is proper with any value that stands in the text. -/
theorem proper_of_run {c : Char} {rest text : List Char} (hc : isAttributeChar c = true)
    (hv : v <:+: text) :
    Attribute.Proper text (lower (c :: rest.takeWhile isAttributeChar), v) where
  name_ne := by simp [lower]
  name_lower := by
    intro d hd
    obtain ⟨e, he, rfl⟩ := List.mem_map.1 hd
    rcases List.mem_cons.1 he with rfl | he
    · exact isLowerAttributeChar_toLower hc
    · exact isLowerAttributeChar_toLower (List.mem_takeWhile_imp he)
  value_infix := hv

/-- A value is open, or attributes have been read that are proper in a text. -/
def ReadsProper (text : List Char) (x : Except TagError (List Attribute)) : Prop :=
  x = .error .unterminatedValue ∨ ∃ as, x = .ok as ∧ ∀ a ∈ as, a.Proper text

theorem ReadsProper.mono {text text' : List Char} {x : Except TagError (List Attribute)}
    (h : ReadsProper text x) (hsub : text <:+: text') : ReadsProper text' x := by
  rcases h with herror | ⟨as, hx, has⟩
  · exact .inl herror
  · exact .inr ⟨as, hx, fun a ha => (has a ha).mono hsub⟩

theorem ReadsProper.cons {text : List Char} {x : Except TagError (List Attribute)}
    (h : ReadsProper text x) {a : Attribute} (ha : a.Proper text) :
    ReadsProper text (x.map (a :: ·)) := by
  rcases h with rfl | ⟨as, rfl, has⟩
  · exact .inl rfl
  · exact .inr ⟨a :: as, rfl, List.forall_mem_cons.2 ⟨ha, has⟩⟩

/-- The attributes that are read are proper in the text that they are read from. -/
theorem readsProper_readAttributes (beyond s : List Char) :
    ReadsProper (s ++ beyond) (readAttributes beyond s) := by
  fun_induction readAttributes beyond s with
  | case1 => exact .inr ⟨[], rfl, by simp⟩
  | case2 c rest hc name tail t ht v left hv ih =>
    obtain ⟨hvalue, hleft⟩ := infix_of_readValue hv
    have hequals : '=' :: t <:+ tail := ht ▸ List.dropWhile_suffix isBlank
    have htail : tail <:+ c :: rest :=
      (List.dropWhile_suffix isAttributeChar).trans (List.suffix_cons c rest)
    have ht' : t <:+ c :: rest := (List.suffix_cons '=' t).trans (hequals.trans htail)
    exact (ih.mono (infix_append_of_suffix (hleft.trans ht') beyond)).cons
      (proper_of_run hc (hvalue.trans (infix_append_of_suffix ht' beyond)))
  | case3 c rest hc tail t ht e hv => exact .inl (congrArg Except.error (readValue_error hv))
  | case4 c rest hc name tail hno ih =>
    have htail : tail <:+ c :: rest :=
      (List.dropWhile_suffix isAttributeChar).trans (List.suffix_cons c rest)
    exact (ih.mono (infix_append_of_suffix htail beyond)).cons (proper_of_run hc List.nil_infix)
  | case5 c rest hc ih => exact ih.mono (infix_append_of_suffix (List.suffix_cons c rest) beyond)

theorem proper_of_readAttributes {as : List Attribute} (h : readAttributes beyond s = .ok as) :
    ∀ a ∈ as, a.Proper (s ++ beyond) := by
  rcases readsProper_readAttributes beyond s with herror | ⟨as', hread, has⟩
  · rw [h] at herror
    cases herror
  · rw [h] at hread
    cases hread
    exact has

/-- A tag that is read stands between brackets at the start of the text. -/
theorem exists_interior_of_parse {extent : Extent} {text : List Char} {tag : Tag}
    (h : parse extent text = .ok tag) :
    ∃ inner beyond, text = '<' :: (inner ++ beyond) ∧ ofInterior inner beyond = .ok tag := by
  unfold parse at h
  split at h
  · cases h
  · split at h
    · next s _ =>
      split at h
      · next inner beyond hinterior =>
        exact ⟨inner, beyond, by rw [(InPlace.append_of_interior? hinterior).1], h⟩
      · cases h
    · cases h

/-! ## Tags -/

/-- A tag has a name and attributes in lower case, with values that stand in a text. -/
structure WellFormed (text : List Char) (tag : Tag) : Prop where
  name : ∃ c s, tag.name = c :: s ∧ c.isLower = true ∧ ∀ d ∈ s, isLowerNameChar d = true
  attributes : ∀ a ∈ tag.attributes.entries, a.Proper text

theorem wellFormed_of_parse {extent : Extent} {text : List Char} {tag : Tag}
    (h : parse extent text = .ok tag) : tag.WellFormed text := by
  obtain ⟨inner, beyond, rfl, hinterior⟩ := exists_interior_of_parse h
  obtain ⟨hstart, -, hname, as, has, hattributes⟩ := of_ofInterior hinterior
  constructor
  · cases hrun : (body inner).takeWhile isNameChar with
    | nil => simp [hrun] at hstart
    | cons c s =>
      rw [hrun] at hstart hname
      refine ⟨c.toLower, lower s, hname, isLower_toLower hstart, fun d hd => ?_⟩
      obtain ⟨e, he, rfl⟩ := List.mem_map.1 hd
      have hmem : e ∈ (body inner).takeWhile isNameChar := hrun ▸ List.mem_cons_of_mem c he
      exact isLowerNameChar_toLower (List.mem_takeWhile_imp hmem)
  · intro a ha
    rw [hattributes] at ha
    refine (proper_of_readAttributes has a (Attributes.mem_of_mem_ofList ha)).mono ?_
    refine List.IsSuffix.isInfix ⟨'<' :: (body inner).takeWhile isNameChar, ?_⟩
    rw [List.cons_append, ← List.append_assoc, List.takeWhile_append_dropWhile, ← List.append_assoc,
      body_append_slash]

/-- An attribute is found by its name in any letter case. -/
theorem WellFormed.attribute?_eq {text : List Char} {tag : Tag} (h : tag.WellFormed text)
    (name : List Char) : InPlace.attribute? tag name = tag.attribute? name := by
  rw [InPlace.attribute?, attribute?]
  cases hget : tag.attributes.get? name with
  | none => rfl
  | some v =>
    have hkey := h.attributes _ (Attributes.mem_of_get? hget)
    have hlower : lower name = name :=
      (List.map_congr_left fun c hc => toLower_of_isLowerAttributeChar (hkey.name_lower c hc)).trans
        (List.map_id name)
    rw [hlower, hget]
    rfl

end Tag

/--
On any text, reading a tag in place comes to an end and fails at no access.  A tag that is read has
a name and attribute names in lower case and values that stand in the text, and its attributes are
found by their names in any letter case.
-/
theorem parse?_wellFormed (extent : Tag.Extent) (text : List Char) :
    ∃ result, InPlace.parse? extent text = some result ∧ result = Tag.parse extent text ∧
      ∀ tag, result = .ok tag → tag.WellFormed text ∧
        ∀ m n, lower m = lower n → InPlace.attribute? tag m = InPlace.attribute? tag n := by
  refine ⟨_, InPlace.parse?_eq_parse extent text, rfl, fun tag h => ?_⟩
  have hform := Tag.wellFormed_of_parse h
  refine ⟨hform, fun m n hmn => ?_⟩
  rw [hform.attribute?_eq, hform.attribute?_eq, Tag.attribute?, hmn, Tag.attribute?]

/-- The text is cut at the first `>`, and the value in front of it runs on beyond it. -/
theorem parse?_wellFormed_runsOn : ∃ tag,
    InPlace.parse? .leading "<A Tab='é>y'.".toList = some (.ok tag) ∧
      tag.WellFormed "<A Tab='é>y'.".toList ∧ tag.attribute? "tab".toList = some "é>y".toList ∧
      InPlace.attribute? tag "TAB".toList = InPlace.attribute? tag "tAb".toList := by
  obtain ⟨result, hplace, hread, h⟩ := parse?_wellFormed .leading "<A Tab='é>y'.".toList
  have hvalue : (Tag.parse .leading "<A Tab='é>y'.".toList).toOption.map
      (·.attribute? "tab".toList) = some (some "é>y".toList) := by decide +kernel
  rw [← hread] at hvalue
  cases result with
  | error e => cases hvalue
  | ok tag =>
    obtain ⟨hform, hcase⟩ := h tag rfl
    exact ⟨tag, hplace, hform, Option.some.inj hvalue, hcase _ _ (by decide)⟩

end HtmlMarkdown
