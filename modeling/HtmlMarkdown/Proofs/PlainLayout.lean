import HtmlMarkdown.Convert
import HtmlMarkdown.Proofs.Draft.Plain
import HtmlMarkdown.Proofs.Output.Finish
import HtmlMarkdown.Proofs.Source.Reading
import HtmlMarkdown.Proofs.Text.Lines

/-!
# The layout of plain text

However a page is written, its text without markup comes out in one layout (`convert_laid`): lines
of ink and single spaces, parted by carriage returns with line feeds, with nothing blank in front of
it or behind it.  No line starts with a space, and none ends with one if the page has no quotation.

The output is kept so at every token (`Draft.Plain.add`).  What may stand side by side in the output
may do so in the finished text, and where the finished text starts and ends there is ink, so that no
line break is cut in two.
-/

namespace HtmlMarkdown

open Text

/--
The layout of a text without markup, where `tight` says that no line ends with a space.
-/
structure Laid (tight : Prop) (s : List Char) : Prop where
  /-- No blank stands at the start. -/
  head : s.head?.all (!isBlank ·) = true
  /-- No blank stands at the end. -/
  last : s.getLast?.all (!isBlank ·) = true
  /-- There is neither a tab nor a form feed. -/
  gaps : '\t' ∉ s ∧ '\x0c' ∉ s
  /-- Carriage returns and line feeds stand together, in the breaks between the lines. -/
  whole : ∀ l ∈ lines s, '\r' ∉ l ∧ '\n' ∉ l
  /-- No two spaces are adjacent. -/
  single : ¬ [' ', ' '] <:+: s
  /-- No line starts with a space. -/
  indent : ∀ l ∈ lines s, l.head? ≠ some ' '
  /-- No line ends with a space. -/
  flush : tight → ∀ l ∈ lines s, l.getLast? ≠ some ' '

/-! ## Side by side -/

section Lines

variable {tight : Prop} {s l x y : List Char} {c : Char} (hchain : s.IsChain (Follows tight))
  (hl : l ∈ lines s) (hsplit : l = x ++ c :: y) (hc : isBlank c = true)

include hchain hl hsplit hc

/-- In front of a blank on a line stands a character, be it the line feed before the line. -/
theorem exists_follows_before (hhead : s.head?.all (!isBlank ·) = true) :
    ∃ d, Follows tight d c ∧ (x = [] ∧ d = '\n' ∨ ∃ x', x = x' ++ [d]) := by
  obtain ⟨a, b, hs, ha, -⟩ := exists_of_mem_lines hl
  have hfollows : ∀ u d, s = u ++ d :: c :: (y ++ b) → Follows tight d c := fun u d h =>
    (List.isChain_append_cons_cons.1 (h ▸ hchain)).2.1
  rcases List.eq_nil_or_concat x with hx | ⟨x', d, hx⟩
  -- The blank is the first of its line; the page does not start with it.
  · rcases ha with ha | ⟨u, hu⟩
    · rw [hs, ha, hsplit, hx] at hhead
      simp [hc] at hhead
    · have hfeed : s = (u ++ ['\r']) ++ '\n' :: c :: (y ++ b) := by
        simp [hs, ← hu, hsplit, hx, newLine]
      exact ⟨'\n', hfollows _ _ hfeed, .inl ⟨hx, rfl⟩⟩
  · have hd : s = (a ++ x') ++ d :: c :: (y ++ b) := by
      simp [hs, hsplit, hx]
    exact ⟨d, hfollows _ _ hd, .inr ⟨x', by simp [hx]⟩⟩

/-- Behind a blank on a line stands a character, be it the carriage return behind the line. -/
theorem exists_follows_behind (hlast : s.getLast?.all (!isBlank ·) = true) :
    ∃ d, Follows tight c d ∧ (y = [] ∧ d = '\r' ∨ ∃ y', y = d :: y') := by
  obtain ⟨a, b, hs, -, hb⟩ := exists_of_mem_lines hl
  have hfollows : ∀ d v, s = (a ++ x) ++ c :: d :: v → Follows tight c d := fun d v h =>
    (List.isChain_append_cons_cons.1 (h ▸ hchain)).2.1
  cases y with
  | nil =>
    rcases hb with hb | ⟨v, hv⟩
    · rw [hs, hb, hsplit] at hlast
      simp [hc] at hlast
    · have hreturn : s = (a ++ x) ++ c :: '\r' :: ('\n' :: v) := by
        simp [hs, ← hv, hsplit, newLine]
      exact ⟨'\r', hfollows _ _ hreturn, .inl ⟨rfl, rfl⟩⟩
  | cons d y =>
    have hd : s = (a ++ x) ++ c :: d :: (y ++ b) := by simp [hs, hsplit]
    exact ⟨d, hfollows _ _ hd, .inr ⟨y, rfl⟩⟩

end Lines

/-- What may stand side by side, with ink at both ends, is laid out. -/
theorem laid_of_isChain {tight : Prop} {s : List Char} (hhead : s.head?.all (!isBlank ·) = true)
    (hlast : s.getLast?.all (!isBlank ·) = true)
    (hblank : ∀ c ∈ s, isBlank c = true → c = ' ' ∨ c = '\r' ∨ c = '\n')
    (hchain : s.IsChain (Follows tight)) : Laid tight s where
  head := hhead
  last := hlast
  gaps := by
    constructor
    · intro h
      simpa using hblank _ h (by decide)
    · intro h
      simpa using hblank _ h (by decide)
  whole l hl := by
    constructor
    · intro h
      obtain ⟨x, y, hsplit⟩ := List.append_of_mem h
      obtain ⟨d, hd, ⟨-, rfl⟩ | ⟨y', rfl⟩⟩ :=
        exists_follows_behind hchain hl hsplit (by decide) hlast
      · exact absurd (hd.whole.1 rfl) (by decide)
      · obtain rfl := hd.whole.1 rfl
        exact not_newLine_of_mem_lines hl ⟨x, y', by simp [hsplit, newLine]⟩
    · intro h
      obtain ⟨x, y, hsplit⟩ := List.append_of_mem h
      obtain ⟨d, hd, ⟨-, rfl⟩ | ⟨x', rfl⟩⟩ :=
        exists_follows_before hchain hl hsplit (by decide) hhead
      · exact absurd (hd.whole.2 rfl) (by decide)
      · obtain rfl := hd.whole.2 rfl
        exact not_newLine_of_mem_lines hl ⟨x', y, by simp [hsplit, newLine]⟩
  single := by
    rintro ⟨a, b, rfl⟩
    have hspace := (List.isChain_append_cons_cons.1 (List.append_assoc a .. ▸ hchain)).2.1
    cases hspace.space rfl
  indent l hl h := by
    obtain ⟨y, hy⟩ := List.head?_eq_some_iff.1 h
    obtain ⟨d, hd, ⟨-, rfl⟩ | ⟨x', hx⟩⟩ :=
      exists_follows_before (x := []) hchain hl hy (by decide) hhead
    · cases hd.space rfl
    · simp at hx
  flush htight l hl h := by
    obtain ⟨x, hx⟩ := List.getLast?_eq_some_iff.1 h
    obtain ⟨d, hd, ⟨-, rfl⟩ | ⟨y', hy⟩⟩ :=
      exists_follows_behind (y := []) hchain hl hx (by decide) hlast
    · exact hd.flush htight rfl rfl
    · simp at hy

/-! ## Whole pages -/

/-- The finished text of plain output is laid out. -/
theorem Output.Plain.laid_finish {tight : Prop} {o : Output} (h : o.Plain tight) :
    Laid tight o.finish := by
  apply laid_of_isChain
  · exact head?_trim_not_blank _
  · exact getLast?_trim_not_blank _
  · rw [← o.map_toChar_printed]
    intro c hc
    obtain ⟨g, hg, rfl⟩ := List.mem_map.1 hc
    obtain ⟨d, rfl, hd⟩ := h.glyph g (List.mem_reverse.1 (o.isInfix_printed.subset hg))
    exact hd
  · obtain ⟨a, b, hab⟩ := o.isInfix_printed
    have hchain := List.isChain_reverse.2 h.chain
    rw [← hab] at hchain
    rw [← o.map_toChar_printed, List.isChain_map]
    exact hchain.left_of_append.right_of_append

/--
A page of any characters, however malformed, comes out as plain text in one layout, and without a
quotation no line of it ends with a space.
-/
theorem convert_laid (page : String) :
    Laid (∀ ahead, .startTag .quotation ahead ∉ tokens .plain page.toList)
      (convert { plainText := true } page).toList := by
  have hplain : (Draft.empty.addAll .plain (tokens .plain page.toList)).Plain
      (∀ ahead, .startTag .quotation ahead ∉ tokens .plain page.toList) := by
    refine Draft.addAll_rule Draft.plain_empty fun d t ht hd => hd.add ?_ ?_ ?_
    · rintro c rfl
      exact not_blank_of_mem_tokens ht
    · rintro l rfl
      exact absurd (read?_of_link_mem_tokens ht).1 (by decide)
    · rintro hno ahead rfl
      exact hno ahead ht
  have hconvert := toList_convert (o := { plainText := true }) rfl rfl page.toList
  rw [String.ofList_toList] at hconvert
  rw [hconvert]
  exact hplain.output.laid_finish

/-- A line break and a block take back the spaces in front of them. -/
theorem convert_laid_brokenLine :
    ∀ l ∈ lines (convert { plainText := true } "a <br> <p>\tb </div> <").toList,
      l.getLast? ≠ some ' ' :=
  (convert_laid _).flush (by decide +kernel)

/-- A block of a quotation that is closed keeps the space in front of it. -/
example : convert { plainText := true } "<blockquote>a </p>b" = "a \r\n\r\nb" := by
  decide +kernel

end HtmlMarkdown
