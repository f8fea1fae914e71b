import HtmlMarkdown.Draft
import HtmlMarkdown.Proofs.Output.Copy

/-!
# Running text

Text is copied, in Markdown with a backslash in front of the characters that have a meaning there
(`addAll_text`).  The words of the text with backslashes are the words of the text, each with
backslashes (`collapse_escape`).  So where the output ends in white space, a text is written in
Markdown as its words, with one space between neighbours; if blanks stand at its end, a space may
follow (`addAll_prose`).
-/

namespace HtmlMarkdown

open Text

/-- A text with a backslash in front of each character that has a meaning in Markdown. -/
def escape (s : List Char) : List Char :=
  s.flatMap fun c => if Draft.isSpecial c then ['\\', c] else [c]

/-- The words of a text in Markdown, with one space between neighbours. -/
def prose (s : List Char) : List Char := escape (collapse s)

/-- What is written for markup. -/
def Mode.markup (mode : Mode) (s : List Char) : List Char :=
  match mode with
  | .markdown => s
  | .plain => []

/-- What is written for text. -/
def Mode.text (mode : Mode) (s : List Char) : List Char :=
  match mode with
  | .markdown => escape s
  | .plain => s

/-! ## Backslashes -/

theorem escape_append (s t : List Char) : escape (s ++ t) = escape s ++ escape t :=
  List.flatMap_append

theorem escape_cons (c : Char) (s : List Char) : escape (c :: s) = escape [c] ++ escape s :=
  escape_append [c] s

theorem escape_singleton (c : Char) :
    escape [c] = if Draft.isSpecial c then ['\\', c] else [c] := by
  rw [escape, List.flatMap_cons, List.flatMap_nil, List.append_nil]

theorem isSpecial_of_isBlank {c : Char} (h : isBlank c = true) : Draft.isSpecial c = false := by
  rcases eq_of_isBlank h with rfl | rfl | rfl | rfl | rfl <;> decide

theorem escape_blank {c : Char} (h : isBlank c = true) : escape [c] = [c] := by
  rw [escape_singleton, isSpecial_of_isBlank h]
  rfl

theorem escape_ink {c : Char} (h : isBlank c = false) :
    escape [c] ≠ [] ∧ ∀ d ∈ escape [c], isBlank d = false := by
  rw [escape_singleton]
  split
  · exact ⟨by simp, by simpa using ⟨by decide, h⟩⟩
  · exact ⟨by simp, by simpa using h⟩

/-- A text gets no backslash if none of its characters has a meaning in Markdown. -/
theorem escape_eq_self_iff {s : List Char} :
    escape s = s ↔ ∀ c ∈ s, Draft.isSpecial c = false := by
  induction s with
  | nil => simp [escape]
  | cons c s ih =>
    rw [escape_cons, escape_singleton, List.forall_mem_cons, ← ih]
    by_cases hc : Draft.isSpecial c = true
    · rw [if_pos hc, hc]
      refine ⟨fun h => ?_, fun h => by cases h.1⟩
      -- A character with a meaning in Markdown is no backslash.
      have hbackslash : '\\' = c := (List.cons.inj h).1
      rw [← hbackslash] at hc
      cases hc
    · rw [if_neg hc, List.singleton_append, List.cons.injEq]
      simp [hc]

theorem Mode.text_cons (mode : Mode) (c : Char) (s : List Char) :
    mode.text (c :: s) = mode.text [c] ++ mode.text s := by
  cases mode with
  | markdown => exact escape_cons c s
  | plain => rfl

theorem Mode.text_blank (mode : Mode) {c : Char} (h : isBlank c = true) : mode.text [c] = [c] := by
  cases mode with
  | markdown => exact escape_blank h
  | plain => rfl

theorem words_escape_eq_nil (s : List Char) : words (escape s) = [] ↔ words s = [] := by
  rw [words_eq_nil_iff, words_eq_nil_iff]
  induction s with
  | nil => simp [escape]
  | cons c s ih =>
    rw [escape_cons, List.forall_mem_append, ih, List.forall_mem_cons]
    by_cases hc : isBlank c = true
    · simp [escape_blank hc, hc]
    · have hc : isBlank c = false := Bool.eq_false_iff.2 hc
      obtain ⟨hne, hink⟩ := escape_ink hc
      obtain ⟨d, w, hw⟩ := List.exists_cons_of_ne_nil hne
      rw [hw] at hink ⊢
      simp [hink d (List.mem_cons_self ..), hc]

/-- The words of a text with backslashes are its words, each with backslashes. -/
theorem collapse_escape (s : List Char) : collapse (escape s) = escape (collapse s) := by
  induction s with
  | nil => rfl
  | cons c s ih =>
    rw [escape_cons]
    by_cases hc : isBlank c = true
    · rw [escape_blank hc, List.singleton_append, collapse_cons_blank hc, ih, collapse_cons_blank hc]
    · have hc : isBlank c = false := Bool.eq_false_iff.2 hc
      obtain ⟨hne, hink⟩ := escape_ink hc
      cases s with
      | nil =>
        have hone : collapse [c] = [c] := collapse_of_ink (by simpa using hc)
        rw [hone]
        exact (congrArg collapse (List.append_nil _)).trans (collapse_of_ink hink)
      | cons d s =>
        by_cases hd : isBlank d = true
        · rw [collapse_cons_blank hd, escape_cons, escape_blank hd, List.singleton_append,
            collapse_cons_blank hd] at ih
          rw [escape_cons d, escape_blank hd, List.singleton_append,
            collapse_word_append hne hink hd, collapse_cons_cons_blank hc hd]
          by_cases hs : words s = []
          · rw [if_pos hs, if_pos ((words_escape_eq_nil s).2 hs)]
          · rw [if_neg hs, if_neg (mt (words_escape_eq_nil s).1 hs), ih,
              escape_cons c (' ' :: collapse s), escape_cons ' ', escape_blank (c := ' ') (by decide)]
            rfl
        · have hd : isBlank d = false := Bool.eq_false_iff.2 hd
          obtain ⟨hne', hink'⟩ := escape_ink hd
          obtain ⟨e, w, hw⟩ := List.exists_cons_of_ne_nil hne'
          rw [escape_cons d, hw, List.cons_append] at ih ⊢
          rw [collapse_ink_append hink (hink' e (hw ▸ List.mem_cons_self ..)), ih,
            collapse_cons_ink hc hd, escape_cons c (collapse (d :: s))]

/-! ## The text written -/

theorem inked_prose {s : List Char} (h : words s ≠ []) : Inked (prose s) := by
  rw [prose, ← collapse_escape]
  exact inked_collapse (mt (words_escape_eq_nil s).1 h)

theorem feed_not_mem_prose (s : List Char) : '\n' ∉ prose s := by
  rw [prose, ← collapse_escape]
  exact feed_not_mem_collapse _

namespace Draft

variable {d : Draft}

theorem markup_append (mode : Mode) (s t : List Char) (d : Draft) :
    d.markup mode (s ++ t) = (d.markup mode s).markup mode t := by
  cases mode with
  | markdown => simp [markup, Output.append]
  | plain => rfl

theorem space_of_endsInSpacing (h : d.output.endsInSpacing = true) : d.space = d := by
  rw [space, Output.pushSpace_of_endsInSpacing h]

theorem endsInSpacing_space (d : Draft) : d.space.output.endsInSpacing = true :=
  Output.endsInSpacing_pushSpace d.output

/-- A text is copied. -/
theorem add_ofChar (mode : Mode) (c : Char) (d : Draft) :
    d.add mode (Token.ofChar c) = { d with output := d.output.copy (mode.text [c]) } := by
  by_cases hc : isBlank c = true
  · rw [Token.ofChar, if_pos hc, mode.text_blank hc, Output.copy_cons_blank hc]
    rfl
  · rw [Token.ofChar, if_neg hc, add, char]
    have hc : isBlank c = false := Bool.eq_false_iff.2 hc
    cases mode with
    | markdown =>
      rw [Mode.text, Output.copy_of_ink (escape_ink hc).2, escape_singleton]
      split <;> rfl
    | plain =>
      rw [Mode.text, Output.copy_of_ink (by simpa using hc)]
      split <;> rfl

theorem addAll_text (mode : Mode) (s : List Char) (d : Draft) :
    d.addAll mode (s.map Token.ofChar) = { d with output := d.output.copy (mode.text s) } := by
  induction s generalizing d with
  | nil => cases mode <;> rfl
  | cons c s ih =>
    rw [List.map_cons, addAll_cons, add_ofChar, ih, mode.text_cons c s, Output.copy_append]

/-- The words of `s` have been written into `d`, and possibly a space behind them. -/
def HasRead (d : Draft) (s : List Char) (e : Draft) : Prop :=
  e = d.markup .markdown (prose s) ∨ e = (d.markup .markdown (prose s)).space

/-- Behind white space, running text is written as its words, and a space may follow. -/
theorem addAll_prose (h : d.output.endsInSpacing = true) (s : List Char) :
    HasRead d s (d.addAll .markdown (s.map Token.ofChar)) := by
  have hcopied := Output.hasCopied_copy h (escape s)
  rw [Output.HasCopied, collapse_escape] at hcopied
  rw [addAll_text, Mode.text]
  rcases hcopied with hcopied | hcopied
  · left
    rw [hcopied]
    rfl
  · right
    rw [hcopied]
    rfl

end Draft

end HtmlMarkdown
