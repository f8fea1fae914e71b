import HtmlMarkdown.Proofs.InPlace.Scan
import HtmlMarkdown.Proofs.LinkTarget

/-!
# The parts of a link

`LinkParts` is a text that starts with a link, cut into its parts: what stands in front of the first
`href="`, the target, what is left of the start tag, the text of the link and its end tag.  A link
is read where a text can be cut like this and nowhere else (`linkAt?_iff_parts`).

Each part ends at a first occurrence: the start tag at the first `>`, the target at the next `"`,
the text of the link at the next `<`.  So a text can be cut in one way only, the way in which it is
read (`LinkParts.Valid.read?_spell`, `LinkParts.Valid.eq_of_spell_eq`).
-/

namespace HtmlMarkdown

open Text

/-! ## Parts -/

/-- A text that starts with a link, in parts. -/
@[ext]
structure LinkParts where
  /-- The text in front of the first `href="`. -/
  before : List Char
  /-- The target. -/
  target : List Char
  /-- The text between the target and the end of the start tag. -/
  behind : List Char
  /-- The text of the link. -/
  text : List Char
  /-- The end tag. -/
  close : List Char
  /-- The text after the link. -/
  rest : List Char

namespace LinkParts

variable (x : LinkParts)

/-- The start tag, without its `>`. -/
def tag : List Char := x.before ++ ("href=\"".toList ++ (x.target ++ '"' :: x.behind))

/-- The text from the start tag to the end tag. -/
def span : List Char := x.tag ++ '>' :: (x.text ++ x.close)

/-- The text that has been cut. -/
def spell : List Char := x.span ++ x.rest

/-- The link that the parts make up. -/
def link : Link := ⟨collapse x.text, x.target⟩

/-- The parts are those of a link. -/
structure Valid : Prop where
  before_open : '>' ∉ x.before
  target_open : '>' ∉ x.target
  behind_open : '>' ∉ x.behind
  target_quote : '"' ∉ x.target
  text_unmarked : '<' ∉ x.text
  text_word : ∃ c ∈ x.text, isBlank c = false
  close_lower : lower x.close = ['<', '/', 'a', '>']
  /-- No `href="` starts earlier. -/
  first : ∀ a b, x.spell = a ++ ("href=\"".toList ++ b) → x.before.length ≤ a.length

theorem spell_eq : x.spell = x.tag ++ '>' :: (x.text ++ (x.close ++ x.rest)) := by
  simp [spell, span]

/-- What starts first in the start tag starts first in the text. -/
theorem first_of_tag
    (h : ∀ a b, x.tag = a ++ ("href=\"".toList ++ b) → x.before.length ≤ a.length) (a b : List Char)
    (hab : x.spell = a ++ ("href=\"".toList ++ b)) : x.before.length ≤ a.length := by
  by_contra hlt
  -- An earlier occurrence would end earlier, too, and so lie in the start tag.
  have hle : (a ++ "href=\"".toList).length ≤ x.tag.length := by
    simp only [tag, List.length_append]
    omega
  have hword : a ++ "href=\"".toList <+: x.spell := ⟨b, by rw [hab, List.append_assoc]⟩
  have htag : x.tag <+: x.spell := ⟨_, x.spell_eq.symm⟩
  obtain ⟨c, hc⟩ := List.prefix_of_prefix_length_le hword htag hle
  exact hlt (h a c (by rw [← hc, List.append_assoc]))

variable {x} (hx : x.Valid)

include hx

theorem Valid.tag_open : '>' ∉ x.tag := by
  simp [tag, hx.before_open, hx.target_open, hx.behind_open]

theorem Valid.exists_close : ∃ w, x.close = '<' :: w ∧ lower w = ['/', 'a', '>'] := by
  obtain ⟨c, w, hclose, hc, hw⟩ := List.map_eq_cons_iff.1 hx.close_lower
  obtain rfl := eq_of_toLower_eq hc (by decide)
  exact ⟨w, hclose, hw⟩

theorem Valid.cut?_spell : cut? '>' x.spell = some (x.tag, x.text ++ (x.close ++ x.rest)) := by
  rw [x.spell_eq, cut?_append hx.tag_open]

theorem Valid.locate?_tag :
    locate? (· == ·) "href=\"".toList x.tag =
      some (x.before, "href=\"".toList ++ (x.target ++ '"' :: x.behind)) := by
  refine (locate?_exact_iff (by decide)).2 ⟨rfl, List.prefix_append _ _, fun a b hab => ?_⟩
  refine hx.first a (b ++ '>' :: (x.text ++ (x.close ++ x.rest))) ?_
  rw [x.spell_eq, hab]
  simp

theorem Valid.target?_tag : Link.target? x.tag = some x.target := by
  rw [Link.target?, hx.locate?_tag]
  exact congrArg (Option.map Prod.fst) (cut?_append hx.target_quote x.behind)

/-- A text that has been cut is read as the link of its parts. -/
theorem Valid.read?_spell : Link.read? x.spell = some (x.link, x.rest) := by
  obtain ⟨w, hclose, hw⟩ := hx.exists_close
  obtain ⟨c, hc, hink⟩ := hx.text_word
  have htext : cut? '<' (x.text ++ (x.close ++ x.rest)) = some (x.text, w ++ x.rest) := by
    rw [hclose]
    exact cut?_append hx.text_unmarked (w ++ x.rest)
  have hwords : (words x.text).isEmpty = false :=
    List.isEmpty_eq_false_iff.2 (words_ne_nil_of_mem hc hink)
  have hend : after? sameLetter "/a>".toList (w ++ x.rest) = some x.rest :=
    after?_sameLetter_iff.2 ⟨w, rfl, hw⟩
  rw [Link.read?_of_cut hx.cut?_spell htext, hwords, hend, hx.target?_tag]
  rfl

/-- There is one way to cut a text. -/
theorem Valid.eq_of_spell_eq {y : LinkParts} (hy : y.Valid) (h : x.spell = y.spell) : x = y := by
  -- Both texts are searched in the same way, and each part is what a search finds.
  obtain ⟨v, hclose, hv⟩ := hx.exists_close
  obtain ⟨w, hclose', hw⟩ := hy.exists_close
  have hcut := hx.cut?_spell
  rw [h, hy.cut?_spell, Option.some.injEq, Prod.mk.injEq] at hcut
  obtain ⟨htag, hafter⟩ := hcut
  -- inside the start tag
  have hfirst := hx.locate?_tag
  rw [← htag, hy.locate?_tag, Option.some.injEq, Prod.mk.injEq] at hfirst
  have hquote := cut?_append hx.target_quote x.behind
  rw [← List.append_cancel_left hfirst.2, cut?_append hy.target_quote, Option.some.injEq,
    Prod.mk.injEq] at hquote
  -- behind it
  have htext := cut?_append hx.text_unmarked (v ++ x.rest)
  rw [← List.cons_append, ← hclose, ← hafter, hclose', List.cons_append,
    cut?_append hy.text_unmarked, Option.some.injEq, Prod.mk.injEq] at htext
  have hlength : w.length = v.length := by
    have hlower := congrArg List.length (hw.trans hv.symm)
    simpa [lower] using hlower
  obtain ⟨hend, hrest⟩ := List.append_inj htext.2 hlength
  have hclose'' : x.close = y.close := by rw [hclose, hclose', hend]
  exact LinkParts.ext hfirst.1.symm hquote.1.symm hquote.2.symm htext.1.symm hclose'' hrest.symm

end LinkParts

/-- A target that is read stands behind the first `href="`. -/
theorem Link.exists_of_target?_eq_some {tag target : List Char}
    (h : Link.target? tag = some target) :
    ∃ before behind, tag = before ++ ("href=\"".toList ++ (target ++ '"' :: behind)) ∧
      '"' ∉ target ∧ ∀ a b, tag = a ++ ("href=\"".toList ++ b) → before.length ≤ a.length := by
  unfold Link.target? at h
  split at h
  · cases h
  · next before s hloc =>
    obtain ⟨hs, ⟨r, rfl⟩, hfirst⟩ := (locate?_exact_iff (by decide)).1 hloc
    obtain ⟨⟨v, behind⟩, hcut, rfl⟩ := Option.map_eq_some_iff.1 h
    obtain ⟨hr, hquote⟩ := eq_of_cut? hcut
    have hr : r = v ++ '"' :: behind := hr
    exact ⟨before, behind, by rw [hs, hr], hquote, hfirst⟩

/-- A text that is read as a link can be cut into the parts of the link. -/
theorem LinkParts.exists_of_read? {s rest : List Char} {l : Link}
    (h : Link.read? s = some (l, rest)) :
    ∃ x : LinkParts, x.Valid ∧ x.spell = s ∧ x.link = l ∧ x.rest = rest := by
  obtain ⟨tag, text, w, rfl, htag, htext, hw, hcollapse, htarget⟩ := Link.exists_of_read? h
  obtain ⟨before, behind, rfl, hquote, hfirst⟩ := Link.exists_of_target?_eq_some htarget
  have hword : ∃ c ∈ text, isBlank c = false := by
    by_contra hno
    have hwords : words text = [] := (words_eq_nil_iff text).2 (by simpa using hno)
    rw [Link.read?_of_cut (cut?_append htag _) (cut?_append htext _), hwords] at h
    cases h
  simp only [List.mem_append, List.mem_cons, not_or] at htag
  let x : LinkParts := ⟨before, l.target, behind, text, '<' :: w, rest⟩
  have hvalid : x.Valid :=
    { before_open := htag.1
      target_open := htag.2.2.1
      behind_open := htag.2.2.2.2
      target_quote := hquote
      text_unmarked := htext
      text_word := hword
      close_lower := congrArg ('<' :: ·) hw
      first := x.first_of_tag hfirst }
  have hlink : x.link = l := by rw [link, ← hcollapse]
  exact ⟨x, hvalid, x.spell_eq, hlink, rfl⟩

/-! ## Reading -/

theorem Link.read?_eq_some_iff {s rest : List Char} {l : Link} :
    Link.read? s = some (l, rest) ↔
      ∃ x : LinkParts, x.Valid ∧ x.spell = s ∧ x.link = l ∧ x.rest = rest := by
  refine ⟨LinkParts.exists_of_read?, ?_⟩
  rintro ⟨x, hx, rfl, rfl, rfl⟩
  exact hx.read?_spell

/--
At any place of a text, reading a link in place fails at no access.  It finds a link exactly if the
text goes on from there as the parts of a link, and ends behind its end tag.  There is one way to
cut the text into these parts.
-/
theorem linkAt?_iff_parts (a s : List Char) :
    InPlace.linkAt? (a ++ s) (byteSize a) = some (Offset.linkAt? (a ++ s) (byteSize a)) ∧
      (∀ l stop, Offset.linkAt? (a ++ s) (byteSize a) = some (l, stop) ↔
        ∃ x : LinkParts, x.Valid ∧ x.spell = s ∧ l = ⟨collapse x.text, x.target⟩ ∧
          stop = byteSize (a ++ x.span)) ∧
      ∀ x y : LinkParts, x.Valid → y.Valid → x.spell = s → y.spell = s → x = y := by
  refine ⟨?_, fun l stop => ?_, fun x y hx hy hxs hys => hx.eq_of_spell_eq hy (hxs.trans hys.symm)⟩
  · rw [InPlace.linkAt?_append, Offset.linkAt?, Offset.dropBytes_append]
    rfl
  · rw [Offset.linkAt?, Offset.dropBytes_append, Option.map_eq_some_iff]
    constructor
    · rintro ⟨⟨l', rest⟩, hread, heq⟩
      cases heq
      obtain ⟨x, hx, rfl, rfl, rfl⟩ := Link.read?_eq_some_iff.1 hread
      refine ⟨x, hx, rfl, rfl, ?_⟩
      rw [LinkParts.spell, ← List.append_assoc, byteSize_append, Nat.add_sub_cancel_right]
    · rintro ⟨x, hx, rfl, rfl, rfl⟩
      refine ⟨(x.link, x.rest), hx.read?_spell, ?_⟩
      show (x.link, byteSize (a ++ x.spell) - byteSize x.rest) = _
      rw [LinkParts.spell, ← List.append_assoc, byteSize_append (a ++ x.span),
        Nat.add_sub_cancel_right]
      rfl

/-- A link behind a text that is no ASCII, with an `href="` in its first attribute. -/
theorem linkAt?_iff_parts_manyTargets : ∃ x : LinkParts, x.Valid ∧
    x.spell = "<A data-href=\"a href=\" href=\"u\" >\n x  y</A>.".toList ∧
    Link.mk "x y".toList "a href=".toList = ⟨collapse x.text, x.target⟩ ∧
    46 = byteSize ("é ".toList ++ x.span) := by
  refine ((linkAt?_iff_parts "é ".toList _).2.1 _ _).1 ?_
  decide +kernel

end HtmlMarkdown
