import HtmlMarkdown.Convert
import HtmlMarkdown.Proofs.Source.Lexing
import Mathlib.Data.List.Infix

/-!
# Elements without text

The content of an element without text goes on to the first place where `</` and the letters of its
name follow each other, and from there to the next `>`.  The letters may belong to a longer name.
So what is dropped is the body of the element unless a longer name cuts it short, and then the rest
of the body comes out as text (`convert_rawElement`).
-/

namespace HtmlMarkdown

open Text TagName

namespace RawText

/-- The start tag of an element without text. -/
def openTag (kind : RawText) : List Char := '<' :: (kind.name ++ ['>'])

/-- The end tag of an element without text. -/
def closeTag (kind : RawText) : List Char := '<' :: '/' :: (kind.name ++ ['>'])

/-- An element without text, between its tags `body`, and the text after it. -/
def element (kind : RawText) (body rest : List Char) : List Char :=
  kind.openTag ++ (body ++ (kind.closeTag ++ rest))

/-- The name of the element, and nothing more, stands behind a `</`. -/
def HoldsEndTag (kind : RawText) (body : List Char) : Prop :=
  ∃ s, '<' :: '/' :: s <:+ body ∧ lower (s.takeWhile isNameChar) = kind.name

/-- A tag name that begins like the one of the element stands behind a `</`, and a `>` behind it. -/
def CutShort (kind : RawText) (body : List Char) : Prop :=
  ∃ s, '<' :: '/' :: s <:+ body ∧ kind.name <+: lower (s.takeWhile isNameChar) ∧ '>' ∈ s

/-- What is left of a body behind the first `>` after the first such name. -/
def Leaves (kind : RawText) (body left : List Char) : Prop :=
  ∃ a w x, body = a ++ '<' :: '/' :: w ++ (x ++ '>' :: left) ∧ lower w = kind.name ∧ '>' ∉ x ∧
    Avoids kind.endWord a

variable {kind : RawText} {body left : List Char}

theorem exists_behind_iff {p : List Char → Prop} :
    (∃ s, '<' :: '/' :: s <:+ body ∧ p s) ↔
      ∃ t ∈ body.tails, ['<', '/'] <+: t ∧ p (t.drop 2) := by
  constructor
  · rintro ⟨s, hs, hp⟩
    exact ⟨_, (List.mem_tails _ _).2 hs, ⟨s, rfl⟩, hp⟩
  · rintro ⟨_, ht, ⟨s, rfl⟩, hp⟩
    exact ⟨s, (List.mem_tails _ _).1 ht, hp⟩

instance : Decidable (kind.HoldsEndTag body) := decidable_of_iff' _ exists_behind_iff

instance : Decidable (kind.CutShort body) := decidable_of_iff' _ exists_behind_iff

theorem isNameChar_name (kind : RawText) : kind.name.all isNameChar = true := by
  cases kind <;> decide

theorem lower_name (kind : RawText) : lower kind.name = kind.name := by cases kind <;> decide

theorem lower_endWord (kind : RawText) : lower kind.endWord = kind.endWord := by
  cases kind <;> decide

theorem close_not_mem {w : List Char} (h : lower w = kind.name) : '>' ∉ w :=
  not_mem_of_lower h (by cases kind <;> decide)

/-! ## Longer names -/

/-- A run of name characters begins with a name exactly if the text does. -/
theorem isPrefix_lower_run_iff {s : List Char} :
    kind.name <+: lower (s.takeWhile isNameChar) ↔ ∃ w x, s = w ++ x ∧ lower w = kind.name := by
  constructor
  · intro h
    obtain ⟨u, hu⟩ := h
    obtain ⟨w, v, hrun, hw, -⟩ := List.map_eq_append_iff.1 hu.symm
    refine ⟨w, v ++ s.dropWhile isNameChar, ?_, hw⟩
    rw [← List.append_assoc, ← hrun, List.takeWhile_append_dropWhile]
  · rintro ⟨w, x, rfl, hw⟩
    have hchars : ∀ c ∈ w, isNameChar c = true := by
      intro c hc
      apply isNameChar_of_toLower
      exact List.all_eq_true.1 kind.isNameChar_name _ (hw ▸ List.mem_map_of_mem hc)
    rw [List.takeWhile_append_of_pos hchars, lower, List.map_append]
    exact ⟨_, congrArg (· ++ _) hw.symm⟩

theorem cutShort_iff :
    kind.CutShort body ↔
      ∃ a w x, body = a ++ '<' :: '/' :: w ++ x ∧ lower w = kind.name ∧ '>' ∈ x := by
  constructor
  · rintro ⟨s, ⟨a, rfl⟩, hname, hclose⟩
    obtain ⟨w, x, rfl, hw⟩ := isPrefix_lower_run_iff.1 hname
    refine ⟨a, w, x, by simp, hw, ?_⟩
    exact (List.mem_append.1 hclose).resolve_left (close_not_mem hw)
  · rintro ⟨a, w, x, rfl, hw, hx⟩
    exact ⟨w ++ x, ⟨a, by simp⟩, isPrefix_lower_run_iff.2 ⟨w, x, rfl, hw⟩,
      List.mem_append_right w hx⟩

/-- Where a word occurs, there is a place where it occurs first. -/
theorem exists_first_of_not_avoids {word s : List Char} (hne : word ≠ []) (h : ¬ Avoids word s) :
    ∃ a w x, s = a ++ w ++ x ∧ lower w = lower word ∧ Avoids word a := by
  induction hlen : s.length using Nat.strong_induction_on generalizing s with
  | _ n ih =>
    simp only [Avoids, not_forall, not_not] at h
    obtain ⟨w, hw, a, x, rfl⟩ := h
    by_cases ha : Avoids word a
    · exact ⟨a, w, x, rfl, hw, ha⟩
    · have hpos : 0 < w.length := by
        apply List.length_pos_iff.2
        rintro rfl
        exact hne (List.map_eq_nil_iff.1 hw.symm)
      have hlt : a.length < n := by
        rw [← hlen, List.length_append, List.length_append]
        omega
      obtain ⟨b, v, y, rfl, hv, hb⟩ := ih a.length hlt ha rfl
      exact ⟨b, v, y ++ w ++ x, by simp, hv, hb⟩

theorem exists_of_lower_eq_endWord {w : List Char} (h : lower w = kind.endWord) :
    ∃ v, w = '<' :: '/' :: v ∧ lower v = kind.name := by
  cases w with
  | nil => cases h
  | cons c w =>
    cases w with
    | nil => cases (List.cons.inj h).2
    | cons d v =>
      obtain ⟨hc, htail⟩ := List.cons.inj h
      obtain ⟨hd, hv⟩ := List.cons.inj htail
      exact ⟨v, by rw [eq_of_toLower_eq hc (by decide), eq_of_toLower_eq hd (by decide)], hv⟩

/-- A body either has no such name, or leaves what its first one leaves. -/
theorem exists_first (kind : RawText) (body : List Char) :
    Avoids kind.endWord body ∨ ∃ a w x, body = a ++ '<' :: '/' :: w ++ x ∧ lower w = kind.name ∧
      Avoids kind.endWord a := by
  by_cases h : Avoids kind.endWord body
  · exact .inl h
  · obtain ⟨a, w, x, rfl, hw, ha⟩ := exists_first_of_not_avoids (List.cons_ne_nil _ _) h
    obtain ⟨v, rfl, hv⟩ := exists_of_lower_eq_endWord (hw.trans kind.lower_endWord)
    exact .inr ⟨a, v, x, rfl, hv, ha⟩

/-- No name has a `>` behind it if the first one has none. -/
theorem not_cutShort_of_first {a w x : List Char} (hbody : body = a ++ '<' :: '/' :: w ++ x)
    (hw : lower w = kind.name) (ha : Avoids kind.endWord a) (hx : '>' ∉ x) :
    ¬ kind.CutShort body := by
  intro hcut
  obtain ⟨b, v, y, hb, hv, hy⟩ := cutShort_iff.1 hcut
  obtain ⟨p, q, rfl⟩ := List.append_of_mem hy
  have hopen : '>' ∉ '<' :: '/' :: w ++ x := by
    have hname := close_not_mem hw
    simp [hname, hx]
  have hsplit : (b ++ '<' :: '/' :: v ++ p) ++ '>' :: q = a ++ ('<' :: '/' :: w ++ x) := by
    rw [List.append_assoc, ← hb, hbody, List.append_assoc]
  rcases List.append_eq_append_iff.1 hsplit with ⟨c, hc, -⟩ | ⟨c, -, hc⟩
  · -- the other name would stand in front of the first one
    apply ha ('<' :: '/' :: v)
    · rw [kind.lower_endWord]
      exact congrArg (fun s => '<' :: '/' :: s) hv
    · exact ⟨b, p ++ c, by rw [hc]; simp⟩
  · apply hopen
    rw [hc]
    simp

theorem cutShort_iff_exists_leaves : kind.CutShort body ↔ ∃ left, kind.Leaves body left := by
  constructor
  · intro hcut
    rcases kind.exists_first body with havoids | ⟨a, w, x, hbody, hw, ha⟩
    · obtain ⟨b, v, y, rfl, hv, -⟩ := cutShort_iff.1 hcut
      exfalso
      apply havoids ('<' :: '/' :: v)
      · rw [kind.lower_endWord]
        exact congrArg (fun s => '<' :: '/' :: s) hv
      · exact ⟨b, y, rfl⟩
    · by_cases hx : '>' ∈ x
      · cases hclose : cut? '>' x with
        | none => exact absurd hx (cut?_eq_none_iff.1 hclose)
        | some yr =>
          obtain ⟨rfl, hy⟩ := eq_of_cut? hclose
          exact ⟨yr.2, a, w, yr.1, hbody, hw, hy, ha⟩
      · exact absurd hcut (not_cutShort_of_first hbody hw ha hx)
  · rintro ⟨left, a, w, x, hbody, hw, -, -⟩
    exact cutShort_iff.2 ⟨a, w, _, hbody, hw, by simp⟩

/-! ## Where the element ends -/

theorem afterRawText_first {a w : List Char} (ha : Avoids kind.endWord a)
    (hw : lower w = kind.name) {x : List Char} (hx : '>' ∉ x) (left : List Char) :
    Token.afterRawText kind (a ++ '<' :: '/' :: w ++ (x ++ '>' :: left)) = left := by
  simpa [RawContent.spell] using afterRawText_spell ⟨a, w, x, ha, hw, hx⟩ left

theorem afterRawText_of_leaves (h : kind.Leaves body left) (rest : List Char) :
    Token.afterRawText kind (body ++ (kind.closeTag ++ rest)) =
      left ++ (kind.closeTag ++ rest) := by
  obtain ⟨a, w, x, rfl, hw, hx, ha⟩ := h
  simpa using afterRawText_first ha hw hx (left ++ (kind.closeTag ++ rest))

theorem afterRawText_of_not_cutShort (h : ¬ kind.CutShort body) (rest : List Char) :
    Token.afterRawText kind (body ++ (kind.closeTag ++ rest)) = rest := by
  rcases kind.exists_first body with havoids | ⟨a, w, x, rfl, hw, ha⟩
  · simpa [closeTag] using afterRawText_first havoids kind.lower_name List.not_mem_nil rest
  · have hx : '>' ∉ x := fun hx => h (cutShort_iff.2 ⟨a, w, x, rfl, hw, hx⟩)
    have hopen : '>' ∉ x ++ '<' :: '/' :: kind.name := by
      have hname := close_not_mem kind.lower_name
      simp [hx, hname]
    simpa [closeTag] using afterRawText_first ha hw hopen rest

/-- The element ends with its end tag exactly if its body is not cut short. -/
theorem afterRawText_eq_iff (rest : List Char) :
    Token.afterRawText kind (body ++ (kind.closeTag ++ rest)) = rest ↔ ¬ kind.CutShort body := by
  constructor
  · intro heq hcut
    obtain ⟨left, hleft⟩ := cutShort_iff_exists_leaves.1 hcut
    rw [afterRawText_of_leaves hleft] at heq
    have hlen := congrArg List.length heq
    simp only [closeTag, List.length_append, List.length_cons] at hlen
    omega
  · exact fun h => afterRawText_of_not_cutShort h rest

/-! ## Conversion -/

/-- The start tag of an element without text, as a page spells it. -/
def tag (kind : RawText) : SpelledTag where
  name := kind.name
  rest := []
  name_start := by cases kind <;> decide
  name_chars := List.all_eq_true.1 kind.isNameChar_name
  rest_start := SpelledTag.rest_start_nil
  rest_open := SpelledTag.rest_open_nil

theorem element_tag (kind : RawText) : kind.tag.element = .raw kind := by cases kind <;> decide

theorem tokens_element (mode : Mode) (kind : RawText) (body rest : List Char) :
    tokens mode (kind.element body rest) =
      .rawText kind :: tokens mode (Token.afterRawText kind (body ++ (kind.closeTag ++ rest))) := by
  apply tokens_of_next?_eq_some
  have hspell : kind.element body rest =
      '<' :: (kind.tag.inner ++ '>' :: (body ++ (kind.closeTag ++ rest))) := by
    simp [element, openTag, tag, SpelledTag.inner]
  rw [hspell, next?_bracket, markup?_tag, element_tag]
  rfl

theorem tokens_element_nil (mode : Mode) (kind : RawText) (rest : List Char) :
    tokens mode (kind.element [] rest) = .rawText kind :: tokens mode rest := by
  have hnot : ¬ kind.CutShort [] := by
    rintro ⟨s, hnil, -⟩
    cases List.suffix_nil.1 hnil
  rw [tokens_element, afterRawText_of_not_cutShort hnot]

end RawText

/--
An element without text ends with its end tag, whatever follows, exactly if no longer name cuts its
body short.  Then the page is converted as if the body were empty; otherwise as if it were what the
first such name leaves of it, and that is text.
-/
theorem convert_rawElement (kind : RawText) (body : List Char) :
    (∀ rest, Token.afterRawText kind (body ++ (kind.closeTag ++ rest)) = rest ↔
      ¬ kind.CutShort body) ∧
    (¬ kind.CutShort body → ∀ plain rest,
      convert { plainText := plain } (String.ofList (kind.element body rest)) =
        convert { plainText := plain } (String.ofList (kind.element [] rest))) ∧
    (kind.CutShort body → ∃ left, kind.Leaves body left ∧ ∀ plain rest,
      convert { plainText := plain } (String.ofList (kind.element body rest)) =
        convert { plainText := plain }
          (String.ofList (kind.element [] (left ++ (kind.closeTag ++ rest))))) := by
  have hconvert : ∀ left rest,
      Token.afterRawText kind (body ++ (kind.closeTag ++ rest)) = left → ∀ plain,
        convert { plainText := plain } (String.ofList (kind.element body rest)) =
          convert { plainText := plain } (String.ofList (kind.element [] left)) := by
    intro left rest hleft plain
    apply String.toList_inj.1
    rw [toList_convert rfl rfl, toList_convert rfl rfl, convertTokens, convertTokens,
      RawText.tokens_element, hleft, RawText.tokens_element_nil]
  refine ⟨fun rest => RawText.afterRawText_eq_iff rest, fun hnot plain rest => ?_, fun hcut => ?_⟩
  · exact hconvert rest rest (RawText.afterRawText_of_not_cutShort hnot rest) plain
  · obtain ⟨left, hleft⟩ := RawText.cutShort_iff_exists_leaves.1 hcut
    exact ⟨left, hleft, fun plain rest =>
      hconvert _ rest (RawText.afterRawText_of_leaves hleft rest) plain⟩

/-- A longer name is not the end tag, and yet the text behind it comes out. -/
theorem convert_rawElement_longerName :
    ¬ RawText.script.HoldsEndTag "</scriptx>y".toList ∧
      String.ofList (RawText.script.element "</scriptx>y".toList []) =
        "<script></scriptx>y</script>" ∧
      convert {} "<script></scriptx>y</script>" = "y" ∧ convert {} "<script></script>" = "" := by
  decide +kernel

/-- A name that begins otherwise leaves nothing of the body. -/
theorem convert_rawElement_nearMiss :
    ¬ RawText.script.CutShort "a</scripx>b</p".toList ∧ ∀ plain rest,
      convert { plainText := plain }
          (String.ofList (RawText.script.element "a</scripx>b</p".toList rest)) =
        convert { plainText := plain } (String.ofList (RawText.script.element [] rest)) := by
  have hnot : ¬ RawText.script.CutShort "a</scripx>b</p".toList := by decide
  exact ⟨hnot, (convert_rawElement .script "a</scripx>b</p".toList).2.1 hnot⟩

end HtmlMarkdown
