import HtmlMarkdown.Proofs.Escape
import HtmlMarkdown.Proofs.Output.Finish

/-!
# The text of a link

The text of a link is taken as it stands between the tags, with single spaces between its words, and
is written without backslashes: as it would be in plain mode (`convert_link`).  Outside a link the
same text has a backslash in front of each marker, so the two agree for texts without markers only.
-/

namespace HtmlMarkdown

open Text TagName

/-! ## Reading a link -/

section Link

variable {text target : List Char}

/-- The start tag of an anchor with a target and nothing else. -/
def anchorTag (target : List Char) (hopen : '>' ∉ target) : SpelledTag where
  name := ['a']
  rest := " href=\"".toList ++ (target ++ ['"'])
  name_start := rfl
  name_chars := List.all_eq_true.1 (by decide)
  rest_start := SpelledTag.rest_start_space _
  rest_open := by simp [hopen]

theorem target?_anchorTag (hquote : '"' ∉ target) :
    Link.target? ("<a href=\"".toList ++ (target ++ ['"'])) = some target := by
  have hfirst : locate? (· == ·) "href=\"".toList ("<a href=\"".toList ++ (target ++ ['"'])) =
      some ("<a ".toList, "href=\"".toList ++ (target ++ ['"'])) := rfl
  have hdrop : ("href=\"".toList ++ (target ++ ['"'])).drop 6 = target ++ ['"'] := rfl
  simp only [Link.target?, hfirst, hdrop, cut?_append hquote]
  rfl

theorem read?_link (htext : '<' ∉ text) (hwords : words text ≠ []) (hquote : '"' ∉ target)
    (hopen : '>' ∉ target) :
    Link.read? ("<a href=\"".toList ++ (target ++ '"' :: '>' :: (text ++ "</a>".toList))) =
      some (⟨collapse text, target⟩, []) := by
  have htag : cut? '>' ("<a href=\"".toList ++ (target ++ '"' :: '>' :: (text ++ "</a>".toList))) =
      some ("<a href=\"".toList ++ (target ++ ['"']), text ++ "</a>".toList) := by
    have hmem : '>' ∉ "<a href=\"".toList ++ (target ++ ['"']) := by simp [hopen]
    simpa using cut?_append hmem (text ++ "</a>".toList)
  have hend : after? sameLetter "/a>".toList "/a>".toList = some [] := rfl
  rw [Link.read?_of_cut htag (cut?_append htext "/a>".toList), hend, target?_anchorTag hquote,
    List.isEmpty_eq_false_iff.2 hwords]
  rfl

/-- A page that is a link has the link as its one token. -/
theorem tokens_anchor (htext : '<' ∉ text) (hwords : words text ≠ []) (hquote : '"' ∉ target)
    (hopen : '>' ∉ target) :
    tokens .markdown ("<a href=\"".toList ++ (target ++ '"' :: '>' :: (text ++ "</a>".toList))) =
      [.link ⟨collapse text, target⟩] := by
  have hspell : (Piece.startTag (anchorTag target hopen) rfl).spell ++ (text ++ "</a>".toList) =
      "<a href=\"".toList ++ (target ++ '"' :: '>' :: (text ++ "</a>".toList)) := by
    simp [Piece.spell, SpelledTag.inner, anchorTag]
  have hlink : (Piece.startTag (anchorTag target hopen) rfl).link? (text ++ "</a>".toList) =
      some (⟨collapse text, target⟩, []) := by
    rw [← read?_link htext hwords hquote hopen, ← hspell]
    unfold Piece.link?
    exact if_pos rfl
  rw [← hspell, tokens_link hlink, tokens_nil]

end Link

theorem render_link (l : Link) : render .markdown [.link l] = l.markdown := by
  have hwritten : Output.written (Output.empty.append l.markdown).glyphs =
      [] ++ l.markdown ++ [] := by
    rw [Output.written_output_append]
    simp [Output.empty, Output.written]
  have hinked : Inked l.markdown := ⟨rfl, by rw [Link.markdown, List.getLast?_concat]; rfl⟩
  exact Output.finish_between_blanks hwritten (by simp) (by simp) hinked

/-! ## Markers -/

/-- Backslashes make a difference for texts with markers. -/
theorem collapse_eq_collapse_escape_iff (s : List Char) :
    collapse s = collapse (escape s) ↔ ∀ c ∈ s, c ∉ markers := by
  have hmarker : ∀ c, Draft.isSpecial c = false ↔ c ∉ markers := by
    intro c
    rw [← isSpecial_iff, Bool.not_eq_true]
  rw [collapse_escape, eq_comm, escape_eq_self_iff]
  constructor
  · intro h c hc hmem
    have hspecial : Draft.isSpecial c = true := isSpecial_iff.2 hmem
    have hink : isBlank c = false := by
      apply Bool.eq_false_iff.2
      intro hblank
      rw [isSpecial_of_isBlank hblank] at hspecial
      cases hspecial
    exact (hmarker c).1 (h c (mem_collapse_of_ink hc hink)) hmem
  · intro h c hc
    rcases mem_of_mem_collapse hc with rfl | hmem
    · rfl
    · exact (hmarker c).2 (h c hmem)

/-! ## Pages -/

/--
A page that is a link is converted to the link, with its text as in plain mode.  That is the text as
it stands in Markdown outside a link if it has no markers, and only then.
-/
theorem convert_link {text target : String} (htext : '<' ∉ text.toList)
    (hink : ∃ c ∈ text.toList, isBlank c = false) (hquote : '"' ∉ target.toList)
    (hopen : '>' ∉ target.toList) :
    convert {} ("<a href=\"" ++ target ++ "\">" ++ text ++ "</a>") =
        "[" ++ convert { plainText := true } text ++ "](" ++ target ++ ")" ∧
      (convert {} ("<a href=\"" ++ target ++ "\">" ++ text ++ "</a>") =
        "[" ++ convert {} text ++ "](" ++ target ++ ")" ↔ ∀ c ∈ text.toList, c ∉ markers) := by
  obtain ⟨c, hc, hink⟩ := hink
  have hwords : words text.toList ≠ [] := words_ne_nil_of_mem hc hink
  have hpage : ("<a href=\"" ++ target ++ "\">" ++ text ++ "</a>").toList =
      "<a href=\"".toList ++ (target.toList ++ '"' :: '>' :: (text.toList ++ "</a>".toList)) := by
    simp
  have hlink : convert {} ("<a href=\"" ++ target ++ "\">" ++ text ++ "</a>") =
      "[" ++ String.ofList (collapse text.toList) ++ "](" ++ target ++ ")" := by
    apply String.toList_inj.1
    have hmarkdown : (convert {} ("<a href=\"" ++ target ++ "\">" ++ text ++ "</a>")).toList =
        (Link.mk (collapse text.toList) target.toList).markdown := by
      rw [convert_eq rfl rfl, String.toList_ofList, convertTokens, hpage]
      exact (congrArg _ (tokens_anchor htext hwords hquote hopen)).trans (render_link _)
    rw [hmarkdown]
    simp [Link.markdown]
  have hplain : convert { plainText := true } text = String.ofList (collapse text.toList) := by
    rw [convert_eq rfl rfl]
    exact congrArg _ (convertTokens_text .plain htext)
  have hmarked : convert {} text = String.ofList (collapse (escape text.toList)) := by
    rw [convert_eq rfl rfl]
    exact congrArg _ (convertTokens_text .markdown htext)
  refine ⟨by rw [hlink, hplain], ?_⟩
  rw [hlink, hmarked, ← collapse_eq_collapse_escape_iff]
  constructor
  · intro h
    have hlist := congrArg String.toList h
    simpa using hlist
  · intro h
    rw [h]

/-- A marker in the text of a link is written without a backslash. -/
theorem convert_link_marker :
    '<' ∉ "*".toList ∧ convert {} "<a href=\"u\">*</a>" = "[*](u)" ∧ convert {} "*" = "\\*" := by
  decide +kernel

/-- Blanks of several kinds around and inside the text, and brackets, but no marker. -/
theorem convert_link_blanks :
    convert {} ("<a href=\"" ++ "u (v)" ++ "\">" ++ "\t]x\r\n é " ++ "</a>") =
      "[" ++ convert {} "\t]x\r\n é " ++ "](" ++ "u (v)" ++ ")" := by
  have hmarkers : ∀ c ∈ "\t]x\r\n é ".toList, c ∉ markers := by simp [markers]
  exact (convert_link (by decide) ⟨'x', by decide, by decide⟩ (by decide) (by decide)).2.2 hmarkers

end HtmlMarkdown
