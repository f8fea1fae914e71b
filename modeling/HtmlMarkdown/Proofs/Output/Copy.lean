import HtmlMarkdown.Output.Basic
import HtmlMarkdown.Proofs.Output.Finish
import HtmlMarkdown.Proofs.Text.Words

/-!
# Copied text

`copy` writes a text, but of its blanks only what keeps the ink apart: a space where the output does
not end in white space already.  It can be cut anywhere (`copy_append`).  Behind white space the
outcome are the words of the text, and possibly a space (`hasCopied_copy`); so what is copied to an
empty page is finished as its words with one space in between (`finish_copy`).
-/

namespace HtmlMarkdown.Output

open Text

variable {o : Output}

/-! ## The space at the end -/

theorem pushSpace_of_endsInSpacing (h : o.endsInSpacing = true) : o.pushSpace = o := if_pos h

theorem endsInSpacing_pushSpace (o : Output) : o.pushSpace.endsInSpacing = true := by
  unfold pushSpace
  split
  · assumption
  · rfl

theorem pushSpace_push {c : Char} (h : isBlank c = false) (o : Output) :
    (o.push c).pushSpace = (o.push c).push ' ' := by
  have hink : (o.push c).endsInSpacing = false := Glyph.isSpacing_of_not_blank h
  rw [pushSpace, hink]
  rfl

/-! ## Copying -/

/-- Writes a text, with blanks only where the output does not end in white space. -/
def copy (o : Output) (s : List Char) : Output :=
  s.foldl (fun o c => if isBlank c then o.pushSpace else o.push c) o

@[simp] theorem copy_nil (o : Output) : o.copy [] = o := rfl

theorem copy_cons_blank {c : Char} (h : isBlank c = true) (o : Output) (s : List Char) :
    o.copy (c :: s) = o.pushSpace.copy s := by
  rw [copy, List.foldl_cons, if_pos h, copy]

theorem copy_cons_ink {c : Char} (h : isBlank c = false) (o : Output) (s : List Char) :
    o.copy (c :: s) = (o.push c).copy s := by
  rw [copy, List.foldl_cons, h, copy]
  rfl

theorem copy_append (o : Output) (s t : List Char) : o.copy (s ++ t) = (o.copy s).copy t :=
  List.foldl_append

theorem copy_of_ink {s : List Char} (h : ∀ c ∈ s, isBlank c = false) (o : Output) :
    o.copy s = o.append s := by
  induction s generalizing o with
  | nil => rfl
  | cons c s ih =>
    rw [copy_cons_ink (h c (List.mem_cons_self ..)), ih fun d hd => h d (List.mem_cons_of_mem c hd)]
    rfl

/-! ## What has been copied -/

/-- The words of `s` have been written to `o`, and possibly a space behind them. -/
def HasCopied (o : Output) (s : List Char) (p : Output) : Prop :=
  p = o.append (collapse s) ∨ p = (o.append (collapse s)).pushSpace

theorem hasCopied_cons_ink {c e : Char} (hc : isBlank c = false) (he : isBlank e = false)
    {s : List Char} {p : Output} (h : HasCopied (o.push c) (e :: s) p) :
    HasCopied o (c :: e :: s) p := by
  unfold HasCopied
  rwa [collapse_cons_ink hc he]

/-- A character, a space and the text behind it. -/
theorem hasCopied_cons_blank {c e : Char} (hc : isBlank c = false) (he : isBlank e = true)
    {s : List Char} {p : Output} (h : HasCopied (o.push c).pushSpace s p) :
    HasCopied o (c :: e :: s) p := by
  unfold HasCopied
  rw [collapse_cons_cons_blank hc he]
  by_cases hs : words s = []
  · have hnil : collapse s = [] := by
      rw [collapse, hs]
      rfl
    have hspace := pushSpace_of_endsInSpacing (endsInSpacing_pushSpace (o.push c))
    rw [if_pos hs]
    right
    rcases h with rfl | rfl
    · rw [hnil]
      rfl
    · rw [hnil]
      exact hspace
  · rw [if_neg hs]
    rwa [pushSpace_push hc] at h

/-- What has been copied behind white space, and behind a character. -/
theorem hasCopied_copy_and (s : List Char) :
    (∀ o : Output, o.endsInSpacing = true → HasCopied o s (o.copy s)) ∧
    (∀ (c : Char) (o : Output), isBlank c = false →
      HasCopied o (c :: s) ((o.push c).copy s)) := by
  -- A character leads from the first kind of place to the second, and a blank leads back; so both
  -- are proved in one induction.
  induction s with
  | nil =>
    refine ⟨fun o _ => .inl rfl, fun c o hc => .inl ?_⟩
    have hwords : words [c] = [[c]] := by simp [words, hc]
    rw [collapse, hwords, List.intercalate_singleton]
    rfl
  | cons e s ih =>
    by_cases he : isBlank e = true
    · refine ⟨fun o ho => ?_, fun c o hc => ?_⟩
      · rw [copy_cons_blank he, pushSpace_of_endsInSpacing ho, HasCopied, collapse_cons_blank he]
        exact ih.1 o ho
      · rw [copy_cons_blank he]
        exact hasCopied_cons_blank hc he (ih.1 _ (endsInSpacing_pushSpace _))
    · have he : isBlank e = false := Bool.eq_false_iff.2 he
      refine ⟨fun o _ => ?_, fun c o hc => ?_⟩
      · rw [copy_cons_ink he]
        exact ih.2 e o he
      · rw [copy_cons_ink he]
        exact hasCopied_cons_ink hc he (ih.2 e _ he)

/-- Behind white space a text is copied as its words, and a space may follow. -/
theorem hasCopied_copy (h : o.endsInSpacing = true) (s : List Char) : HasCopied o s (o.copy s) :=
  (hasCopied_copy_and s).1 o h

/-- A page that has been copied is finished as its words with one space in between. -/
theorem finish_copy (s : List Char) : (empty.copy s).finish = collapse s := by
  have hcopied : HasCopied empty s (empty.copy s) := hasCopied_copy rfl s
  -- Trimming takes the space behind the words, if there is one.
  have hwritten : ∃ b, (∀ c ∈ b, isBlank c = true) ∧
      written (empty.copy s).glyphs = [] ++ collapse s ++ b := by
    rcases hcopied with h | h
    · refine ⟨[], by simp, ?_⟩
      rw [h, written_output_append]
      simp [empty, written]
    · rw [h, pushSpace]
      split
      · refine ⟨[], by simp, ?_⟩
        rw [written_output_append]
        simp [empty, written]
      · refine ⟨[' '], List.all_eq_true.1 (by decide), ?_⟩
        rw [push, pushGlyph, written_cons, written_output_append]
        rfl
  obtain ⟨b, hb, hwritten⟩ := hwritten
  by_cases hs : words s = []
  · have hnil : collapse s = [] := by
      rw [collapse, hs]
      rfl
    rw [hnil, List.append_nil, List.nil_append] at hwritten
    rw [hnil, finish, contents, ← written, hwritten, trim, skipBlanks,
      List.dropWhile_eq_nil_iff.2 (by simpa using ⟨by decide, hb⟩)]
    rfl
  · exact finish_between_blanks hwritten (by simp) hb (inked_collapse hs)

end HtmlMarkdown.Output
