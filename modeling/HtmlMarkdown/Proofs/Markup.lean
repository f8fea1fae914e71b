import HtmlMarkdown.Proofs.Draft.Layout
import HtmlMarkdown.Proofs.Probe
import HtmlMarkdown.Proofs.Source.Links
import HtmlMarkdown.Proofs.Source.Reading
import HtmlMarkdown.Proofs.Text.Words

/-!
# Markup does not survive

A `<` comes into a converted page in one way only: it is copied from the target of a link, with the
rest of the target and a closing parenthesis behind it (`Sourced`).  No token of a page changes
that, and trimming does not either.  So wherever the probe sees a tag in the conversion, the tag
starts in the target of a link and is closed by a `>` behind it (`convert_leaves_no_markup`).
-/

namespace HtmlMarkdown

open Text

/-! ## Where a `<` comes from -/

/-- Each `<` of a text is copied from the target of a link, to the parenthesis behind it. -/
def Sourced (ts : List Token) (s : List Char) : Prop :=
  ∀ x y, s = x ++ '<' :: y →
    ∃ l, .link l ∈ ts ∧ ∃ p q, l.target = p ++ '<' :: q ∧ q ++ [')'] <+: y

variable {ts : List Token} {s w : List Char}

theorem sourced_of_not_mem (h : '<' ∉ s) : Sourced ts s := by
  rintro x y rfl
  exact absurd (by simp) h

theorem Sourced.append (hs : Sourced ts s) (hw : Sourced ts w) : Sourced ts (s ++ w) := by
  intro x y hxy
  rcases exists_of_append_eq_append_cons hxy with ⟨a, -, ha⟩ | ⟨a, ha, rfl⟩
  · exact hw a y ha
  · obtain ⟨l, hl, p, q, htarget, hq⟩ := hs x a ha
    exact ⟨l, hl, p, q, htarget, hq.trans (List.prefix_append a w)⟩

/-- What is taken back without a parenthesis is not missed by a target. -/
theorem Sourced.of_append (h : Sourced ts (s ++ w)) (hw : ')' ∉ w) : Sourced ts s := by
  rintro x y rfl
  obtain ⟨l, hl, p, q, htarget, z, hz⟩ := h x (y ++ w) (by simp)
  refine ⟨l, hl, p, q, htarget, ?_⟩
  rcases List.append_eq_append_iff.1 hz with ⟨a, rfl, -⟩ | ⟨a, ha, rfl⟩
  · exact List.prefix_append _ a
  · rcases List.eq_nil_or_concat a with rfl | ⟨b, c, rfl⟩
    · exact ⟨[], by rw [List.append_nil, ha, List.append_nil]⟩
    · rw [List.concat_eq_append, ← List.append_assoc] at ha
      obtain ⟨-, rfl⟩ := List.append_singleton_inj.1 ha
      exact absurd (by simp) hw

theorem Sourced.of_append_left (h : Sourced ts (w ++ s)) : Sourced ts s := by
  rintro x y rfl
  exact h (w ++ x) y (by simp)

theorem Sourced.trim (h : Sourced ts s) : Sourced ts (Text.trim s) := by
  obtain ⟨a, b, hsplit, -, hb⟩ := exists_append_trim s
  rw [hsplit] at h
  apply h.of_append_left.of_append
  intro hmem
  cases hb _ hmem

/-- The target of a link is closed by the parenthesis of the link. -/
theorem sourced_markdown {l : Link} (hl : .link l ∈ ts) (htext : '<' ∉ l.text) :
    Sourced ts l.markdown := by
  have htarget : Sourced ts (l.target ++ [')']) := by
    intro x y hxy
    rcases List.eq_nil_or_concat y with rfl | ⟨q, c, rfl⟩
    · cases (List.append_singleton_inj.1 hxy).2
    · rw [List.concat_eq_append, ← List.cons_append, ← List.append_assoc] at hxy
      obtain ⟨htarget, rfl⟩ := List.append_singleton_inj.1 hxy
      exact ⟨l, hl, x, q, htarget, by simp⟩
  have hopen : Sourced ts ('[' :: l.text ++ [']', '(']) := sourced_of_not_mem (by simpa using htext)
  have happend := hopen.append htarget
  simpa [Link.markdown] using happend

/-! ## The tokens of a page -/

variable {mode : Mode} {page : List Char}

theorem not_mem_text_of_link_mem_tokens {l : Link} (h : .link l ∈ tokens mode page) :
    '<' ∉ l.text := by
  obtain ⟨-, u, after, hread⟩ := read?_of_link_mem_tokens h
  obtain ⟨tag, text, w, -, -, hopen, -, htext, -⟩ := Link.exists_of_read? hread
  rw [htext]
  intro hmem
  exact hopen ((mem_of_mem_collapse hmem).resolve_left (by decide))

/-- The target of a link among the tokens stands in one start tag. -/
theorem not_mem_target_of_link_mem_tokens {l : Link} (h : .link l ∈ tokens mode page) :
    '>' ∉ l.target := by
  obtain ⟨-, u, after, hread⟩ := read?_of_link_mem_tokens h
  obtain ⟨tag, text, w, -, hopen, -, -, -, htarget⟩ := Link.exists_of_read? hread
  unfold Link.target? at htarget
  split at htarget
  · cases htarget
  · next v hv =>
    obtain ⟨⟨t, r⟩, hcut, rfl⟩ := Option.map_eq_some_iff.1 htarget
    obtain ⟨hsplit, -⟩ := eq_of_cut? hcut
    intro hmem
    have hdrop : '>' ∈ v.drop 6 := by
      rw [hsplit]
      exact List.mem_append_left _ hmem
    exact hopen ((suffix_of_locate? hv).subset (List.mem_of_mem_drop hdrop))

/-! ## Layout -/

theorem Glyph.toChar_ne_of_isRemovable {g : Glyph} (h : g.isRemovable = true) :
    g.toChar ≠ '<' ∧ g.toChar ≠ ')' := by
  cases g with
  | mark => decide
  | char c =>
    have hblank := isBlank_of_isSpacing h
    constructor <;> rintro rfl <;> cases hblank

theorem Glyph.toChar_ne_of_isSign {g : Glyph} (h : g.isSign = true) : g.toChar ≠ '<' := by
  cases g with
  | mark => cases h
  | char c =>
    rintro rfl
    cases h

/-- Layout brings no `<` in and takes no parenthesis back. -/
theorem Output.layoutInvariant_sourced (ts : List Token) :
    LayoutInvariant fun o => Sourced ts o.contents where
  push {o g} hg h := by
    have hne : g.toChar ≠ '<' := by
      rcases Bool.or_eq_true_iff.1 hg with hremovable | hsign
      · exact (Glyph.toChar_ne_of_isRemovable hremovable).1
      · exact Glyph.toChar_ne_of_isSign hsign
    rw [contents_pushGlyph]
    exact h.append (sourced_of_not_mem (by simpa using hne.symm))
  pop {g gs} hg h := by
    have hne := (Glyph.toChar_ne_of_isRemovable hg).2
    have hcontents : contents ⟨g :: gs⟩ = contents ⟨gs⟩ ++ [g.toChar] := contents_pushGlyph ⟨gs⟩ g
    rw [hcontents] at h
    exact h.of_append (by simpa using hne.symm)

/-- Each `<` of a page is copied from the target of a link. -/
theorem sourced_convertTokens (mode : Mode) (page : List Char) :
    Sourced (tokens mode page) (convertTokens mode page) := by
  apply Sourced.trim
  refine Draft.addAll_rule (P := fun d => Sourced (tokens mode page) d.output.contents)
    (sourced_of_not_mem (by decide)) fun d t ht hd => ?_
  apply Draft.add_layout (Output.layoutInvariant_sourced _) hd
  · rintro c o rfl ho
    rw [Output.contents_push]
    exact ho.append (sourced_of_not_mem (by simpa using (ne_of_char_mem_tokens ht).symm))
  · rintro l rfl
    rw [Output.contents_append]
    exact hd.append (sourced_markdown ht (not_mem_text_of_link_mem_tokens ht))

/-! ## The converted page -/

theorem convertText_of_not_decoding {o : Options} (hdecode : o.decodeReferences = false)
    (page : List Char) :
    convertText o page =
      if o.keepTagless && !containsTags page then Text.trim page
      else convertTokens o.mode page := by
  have hdecoded : ∀ s, o.decode s = s := fun s => by
    rw [Options.decode, hdecode]
    rfl
  rw [convertText, hdecoded, hdecoded]

theorem containsTags_of_trim (h : containsTags (Text.trim s) = true) : containsTags s = true := by
  obtain ⟨a, b, hsplit, -, -⟩ := exists_append_trim s
  exact containsTags_of_infix ⟨a, b, by rw [List.append_assoc, ← hsplit]⟩ h

theorem of_looksLikeTag_target {q z : List Char} (hq : '>' ∉ q)
    (h : looksLikeTag (q ++ [')'] ++ z) = true) :
    startsMarkup q = true ∧ closesFirst z = true := by
  rw [looksLikeTag_eq, Bool.and_eq_true] at h
  obtain ⟨hstart, hclose⟩ := h
  refine ⟨?_, closesFirst_of_append (by simpa using hq) hclose⟩
  rwa [List.append_assoc, List.singleton_append, startsMarkup_append rfl] at hstart

/-- Where a converted page looks like a tag, the tag starts in the target of a link. -/
theorem exists_link_of_looksLikeTag {o : Options} (hdecode : o.decodeReferences = false)
    {x y : List Char} (hxy : convertText o page = x ++ '<' :: y) (htag : looksLikeTag y = true) :
    o.mode = .markdown ∧ ∃ l, .link l ∈ tokens .markdown page ∧ ∃ p q z,
      l.target = p ++ '<' :: q ∧ startsMarkup q = true ∧ y = q ++ ')' :: z ∧
        closesFirst z = true := by
  rw [convertText_of_not_decoding hdecode] at hxy
  split at hxy
  · next hkeep =>
    have htags := containsTags_of_trim (containsTags_iff.2 ⟨x, y, hxy, htag⟩)
    rw [htags, Bool.not_true, Bool.and_false] at hkeep
    cases hkeep
  · obtain ⟨l, hl, p, q, htarget, z, rfl⟩ := sourced_convertTokens o.mode page x y hxy
    have hmode := (read?_of_link_mem_tokens hl).1
    have hopen : '>' ∉ q := by
      have hno := not_mem_target_of_link_mem_tokens hl
      rw [htarget] at hno
      exact fun hmem => hno (List.mem_append_right p (List.mem_cons_of_mem _ hmem))
    obtain ⟨hstart, hclose⟩ := of_looksLikeTag_target hopen htag
    exact ⟨hmode, l, hmode ▸ hl, p, q, z, htarget, hstart, by simp, hclose⟩

/--
Where a converted page looks like a tag, the page is written in Markdown and the tag starts in the
target of a link, goes on with the rest of the target and the parenthesis behind it, and is closed
by a `>` after that.  So the probe sees nothing in plain text, nor in Markdown without such a
target.
-/
theorem convert_leaves_no_markup (o : Options) (hdecode : o.decodeReferences = false)
    (page : String) :
    (∀ x y, (convert o page).toList = x ++ '<' :: y → looksLikeTag y = true →
      o.mode = .markdown ∧ ∃ l, .link l ∈ tokens .markdown page.toList ∧ ∃ p q z,
        l.target = p ++ '<' :: q ∧ startsMarkup q = true ∧ y = q ++ ')' :: z ∧
          closesFirst z = true) ∧
    ((o.mode = .plain ∨ ∀ l, .link l ∈ tokens .markdown page.toList →
        ∀ p q, l.target = p ++ '<' :: q → startsMarkup q = false) →
      containsTags (convert o page).toList = false) := by
  rw [convert, String.toList_ofList]
  refine ⟨fun x y hxy htag => exists_link_of_looksLikeTag hdecode hxy htag, fun hsafe => ?_⟩
  apply Bool.eq_false_iff.2
  intro htags
  obtain ⟨x, y, hxy, htag⟩ := containsTags_iff.1 htags
  obtain ⟨hmode, l, hl, p, q, z, htarget, hstart, -, -⟩ :=
    exists_link_of_looksLikeTag hdecode hxy htag
  rcases hsafe with hplain | hsafe
  · rw [hplain] at hmode
    cases hmode
  · rw [hsafe l hl p q htarget] at hstart
    cases hstart

/-- A tag that starts in a target is closed by a `>` of the text behind the link. -/
theorem convert_leaves_no_markup_tagInTarget :
    convert {} "<a href=\"<b\">x</a>>" = "[x](<b)>" ∧
      containsTags (convert {} "<a href=\"<b\">x</a>>").toList = true := by
  decide +kernel

/-- In plain text the target of a link is left out. -/
theorem convert_leaves_no_markup_plain :
    Options.decodeReferences { plainText := true } = false ∧
      containsTags (convert { plainText := true } "<a href=\"<b\">x</a>>").toList = false :=
  ⟨rfl, (convert_leaves_no_markup { plainText := true } rfl _).2 (.inl rfl)⟩

end HtmlMarkdown
