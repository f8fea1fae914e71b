import HtmlMarkdown.Offset
import HtmlMarkdown.Proofs.Source.Attributes
import HtmlMarkdown.Proofs.Source.Interior
import HtmlMarkdown.Proofs.Source.Links
import HtmlMarkdown.Proofs.StartTag

/-!
# The target of a link is an attribute

A link takes its target from the first `href="` of its start tag, wherever that stands; reading the
tag on its own gives the attributes by name.  The two agree where the first `href="` stands at the
start of an attribute: the attribute read there has the target as its value, and it is what the tag
gives for its name unless the name comes again (`target_is_attribute`).
-/

namespace HtmlMarkdown

open Text TagName

namespace Tag

theorem readAttributes_href {v : List Char} (hv : '"' ∉ v) (left beyond : List Char) :
    readAttributes beyond ("href=\"".toList ++ (v ++ '"' :: left)) =
      (readAttributes beyond left).map (("href".toList, v) :: ·) := by
  have hvalue : readValue ('"' :: (v ++ '"' :: left)) beyond = .ok (v, left) :=
    readValue_quoted rfl hv ⟨[], by simp⟩ left beyond
  have hname : ∀ c ∈ "href".toList, isAttributeChar c = true := List.all_eq_true.1 (by decide)
  exact readAttributes_valued (by decide) hname rfl rfl hvalue

end Tag

/-! ## The target -/

/-- A `/` at the end is no part of a target. -/
theorem exists_left_of_slash {inner w v rest : List Char}
    (h : w ++ Tag.slash inner = v ++ '"' :: rest) : ∃ left, w = v ++ '"' :: left := by
  rcases Tag.slash_eq inner with hnone | hslash
  · rw [hnone, List.append_nil] at h
    exact ⟨rest, h⟩
  · rw [hslash] at h
    rcases List.eq_nil_or_concat rest with rfl | ⟨left, c, rfl⟩
    · exact absurd (List.append_inj_right' h rfl) (by decide)
    · have hconcat : w ++ ['/'] = v ++ '"' :: left ++ [c] := by
        rw [h]
        simp
      exact ⟨left, List.append_inj_left' hconcat rfl⟩

/-- The target stands behind the first `href="` of the tag, up to the next quotation mark. -/
theorem Link.exists_of_target? {inner target u w : List Char}
    (h : Link.target? ('<' :: inner) = some target)
    (hfirst : locate? (· == ·) "href=\"".toList inner = some (u, w ++ Tag.slash inner)) :
    '"' ∉ target ∧ ∃ left, w = "href=\"".toList ++ (target ++ '"' :: left) := by
  obtain ⟨r, hr⟩ := Option.isSome_iff_exists.1 (after?_of_locate? hfirst)
  have hword : w ++ Tag.slash inner = "href=\"".toList ++ r := after?_exact_iff.1 hr
  have hlocate : locate? (· == ·) "href=\"".toList ('<' :: inner) =
      some ('<' :: u, w ++ Tag.slash inner) := by
    rw [locate?, hfirst]
    rfl
  unfold Link.target? at h
  rw [hlocate, hword] at h
  obtain ⟨⟨v, rest⟩, hcut, rfl⟩ := Option.map_eq_some_iff.1 h
  obtain ⟨hsplit, hquote⟩ := eq_of_cut? hcut
  have hr : r = v ++ '"' :: rest := hsplit
  rw [hr, ← List.append_assoc] at hword
  obtain ⟨left, rfl⟩ := exists_left_of_slash hword
  exact ⟨hquote, left, List.append_assoc ..⟩

/-! ## Where a tag starts -/

theorem Offset.dropBytes_append (a s : List Char) : dropBytes (byteSize a) (a ++ s) = s := by
  induction a with
  | nil =>
    cases s with
    | nil => rfl
    | cons c s => exact if_pos rfl
  | cons c a ih =>
    have hpos := c.utf8Size_pos
    have hne : ¬ byteSize (c :: a) = 0 := by
      rw [byteSize]
      omega
    have hrest : byteSize (c :: a) - c.utf8Size = byteSize a := by
      rw [byteSize]
      omega
    rw [List.cons_append, dropBytes, if_neg hne, hrest, ih]

/-- A link that starts at a `<` has its target from the tag that goes to the first `>`. -/
theorem target?_of_linkAt? {a s inner rest : List Char} {l : Link} {stop : Nat}
    (hlink : Offset.linkAt? (a ++ '<' :: s) (byteSize a) = some (l, stop))
    (htag : cut? '>' s = some (inner, rest)) : Link.target? ('<' :: inner) = some l.target := by
  rw [Offset.linkAt?, Offset.dropBytes_append] at hlink
  obtain ⟨⟨l', after⟩, hread, heq⟩ := Option.map_eq_some_iff.1 hlink
  obtain rfl : l' = l := congrArg Prod.fst heq
  obtain ⟨tag, text, w, hs, hopen, -, -, -, htarget⟩ := Link.exists_of_read? hread
  have hcut := cut?_append hopen (text ++ '<' :: (w ++ after))
  rw [← hs, cut?_cons_of_ne (by decide), htag] at hcut
  obtain rfl : '<' :: inner = tag := congrArg Prod.fst (Option.some.inj hcut)
  exact htarget

/-! ## One target -/

/--
A link starts at a `<`, and its start tag, which goes to the first `>`, can be read on its own.  If
the first `href="` of the tag stands where an attribute starts, behind the attributes `pre`, then
the attribute `href` read there has the target of the link as its value, and the tag gives the value
of the last such attribute.  So it gives the target unless the name comes again.
-/
theorem target_is_attribute {a s inner rest u w : List Char} {l : Link} {stop : Nat} {tag : Tag}
    {pre : List Attribute}
    (hlink : Offset.linkAt? (a ++ '<' :: s) (byteSize a) = some (l, stop))
    (hopen : cut? '>' s = some (inner, rest))
    (htag : Tag.parse .whole ('<' :: inner ++ ['>']) = .ok tag)
    (hfirst : locate? (· == ·) "href=\"".toList inner = some (u, w ++ Tag.slash inner))
    (hstart : Tag.Passes (Tag.slash inner ++ ['>']) (Tag.attributeText inner) pre w) :
    ∃ post, Tag.readAttributes (Tag.slash inner ++ ['>']) (Tag.attributeText inner) =
        .ok (pre ++ ("href".toList, l.target) :: post) ∧
      tag.attribute? "href".toList =
        some ((post.reverse.lookup "href".toList).getD l.target) ∧
      ("href".toList ∉ post.map Prod.fst → tag.attribute? "href".toList = some l.target) := by
  obtain ⟨hquote, left, rfl⟩ := Link.exists_of_target? (target?_of_linkAt? hlink hopen) hfirst
  obtain ⟨-, -, -, as, has, hattributes⟩ := Tag.of_ofInterior (ofInterior_of_parse htag)
  have hread := has
  rw [← Tag.attributeText, hstart.readAttributes_eq, Tag.readAttributes_href hquote] at hread
  obtain ⟨_, hmap, rfl⟩ := exists_of_map_eq_ok hread
  obtain ⟨post, -, rfl⟩ := exists_of_map_eq_ok hmap
  have hlookup : tag.attribute? "href".toList =
      some ((post.reverse.lookup "href".toList).getD l.target) := by
    have hlower : lower "href".toList = "href".toList := by decide
    rw [Tag.attribute?, hattributes, Attributes.get?_ofList, hlower, List.reverse_append,
      List.reverse_cons, List.append_assoc, List.lookup_append, List.singleton_append,
      List.lookup_cons_self]
    cases post.reverse.lookup "href".toList <;> rfl
  refine ⟨post, has, hlookup, fun hnot => ?_⟩
  have hnone : post.reverse.lookup "href".toList = none := by
    refine List.lookup_eq_none_iff.2 fun b hb => bne_iff_ne.2 ?_
    rintro heq
    exact hnot (heq ▸ List.mem_map_of_mem (List.mem_reverse.1 hb))
  rw [hlookup, hnone]
  rfl

/--
The first `href="` may stand inside the name of another attribute, and the name may come again; then
the target is not what the tag gives.
-/
theorem target_is_attribute_otherTarget :
    TagName.scan "a data-href=\"q\" href=\"u\">t</a>".toList = .named ['a'] "t</a>".toList ∧
      Offset.linkAt? "<a data-href=\"q\" href=\"u\">t</a>".toList 0 = some (⟨['t'], ['q']⟩, 31) ∧
      (Tag.parse .whole "<a data-href=\"q\" href=\"u\">".toList).toOption.map
        (·.attribute? "href".toList) = some (some ['u']) ∧
      Offset.linkAt? "<a href=\"q\" href=\"u\">t</a>".toList 0 = some (⟨['t'], ['q']⟩, 26) ∧
      (Tag.parse .whole "<a href=\"q\" href=\"u\">".toList).toOption.map
        (·.attribute? "href".toList) = some (some ['u']) := by
  refine ⟨?_, ?_, ?_, ?_, ?_⟩ <;> decide +kernel

/-- A link behind a text that is no ASCII, with another attribute in front of its target. -/
theorem target_is_attribute_behindTitle : ∃ tag,
    Offset.linkAt? ("é ".toList ++ '<' :: "a Title='x' href=\"u\"/>t</A>".toList)
      (byteSize "é ".toList) = some (⟨['t'], ['u']⟩, 31) ∧
    Tag.parse .whole ('<' :: "a Title='x' href=\"u\"/".toList ++ ['>']) = .ok tag ∧
    Tag.Passes ['/', '>'] " Title='x' href=\"u\"".toList [("title".toList, ['x'])]
      "href=\"u\"".toList ∧
    tag.attribute? "href".toList = some ['u'] := by
  have hlink : Offset.linkAt? ("é ".toList ++ '<' :: "a Title='x' href=\"u\"/>t</A>".toList)
      (byteSize "é ".toList) = some (⟨['t'], ['u']⟩, 31) := by decide +kernel
  have hpasses : Tag.Passes ['/', '>'] " Title='x' href=\"u\"".toList
      [("title".toList, ['x'])] "href=\"u\"".toList := by
    have hvalue : Tag.readValue "'x' href=\"u\"".toList ['/', '>'] =
        .ok (['x'], " href=\"u\"".toList) := by decide +kernel
    have hvalued : Tag.Passes ['/', '>'] ("Title".toList ++ "='x' href=\"u\"".toList)
        [(lower "Title".toList, ['x'])] "href=\"u\"".toList :=
      .valued (by decide) (List.all_eq_true.1 (by decide)) (by decide) (by decide) hvalue
        (.other (by decide) (.here _))
    exact .other (by decide) hvalued
  cases htag : Tag.parse .whole ('<' :: "a Title='x' href=\"u\"/".toList ++ ['>']) with
  | error e =>
    have hok : (Tag.parse .whole
        ('<' :: "a Title='x' href=\"u\"/".toList ++ ['>'])).toOption.isSome = true := by
      decide +kernel
    rw [htag] at hok
    cases hok
  | ok tag =>
    have hopen : cut? '>' "a Title='x' href=\"u\"/>t</A>".toList =
        some ("a Title='x' href=\"u\"/".toList, "t</A>".toList) := by decide +kernel
    have hfirst : locate? (· == ·) "href=\"".toList "a Title='x' href=\"u\"/".toList =
        some ("a Title='x' ".toList, "href=\"u\"".toList ++
          Tag.slash "a Title='x' href=\"u\"/".toList) := by decide +kernel
    obtain ⟨post, hread, -, hget⟩ := target_is_attribute hlink hopen htag hfirst hpasses
    have hattributes : Tag.readAttributes ['/', '>'] " Title='x' href=\"u\"".toList =
        .ok [("title".toList, ['x']), ("href".toList, ['u'])] := by decide +kernel
    obtain rfl : post = [] := by simpa using hread.symm.trans hattributes
    exact ⟨tag, hlink, rfl, hpasses, hget (by simp)⟩

end HtmlMarkdown
