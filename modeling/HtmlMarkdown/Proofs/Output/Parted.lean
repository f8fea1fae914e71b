import HtmlMarkdown.Proofs.Draft.Layout
import HtmlMarkdown.Proofs.Output.Ink
import HtmlMarkdown.Proofs.Output.Merge

/-!
# Breaks that stay

An output is `Parted` behind some glyphs if a number of line feeds has been written behind them and
still stands there.  Writing keeps this.  Taking back the empty lines of a quotation keeps it as
well if ink has been written behind the line feeds (`Parted.stripQuoteTail`), and in any case as
many breaks that are asked for right afterwards bring it back (`Parted.separate`).
-/

namespace HtmlMarkdown

open Text

namespace Output

variable {c : Char} {m n : Nat} {gs hs : List Glyph} {seen : List Char} {o : Output}

/-! ## What stays behind ink -/

theorem suffix_append (o : Output) (s : List Char) : o.glyphs <:+ (o.append s).glyphs := by
  induction s generalizing o with
  | nil => exact List.suffix_refl _
  | cons c s ih => exact (List.suffix_cons _ _).trans (ih (o.push c))

/-- The glyphs up to the last one, if that is ink, stay where they are. -/
theorem layoutInvariant_suffix (h : isBlank c = false) (gs : List Glyph) :
    LayoutInvariant fun o => .char c :: gs <:+ o.glyphs where
  push _ h := h.trans (List.suffix_cons ..)
  pop {g hs} hg hsuffix := by
    rcases List.suffix_cons_iff.1 hsuffix with heq | hsuffix
    · obtain ⟨rfl, -⟩ := List.cons.inj heq
      rw [Glyph.isRemovable_of_not_blank h] at hg
      cases hg
    · exact hsuffix

/-! ## Parted outputs -/

/--
Behind `gs`, `n` line feeds have been written, with nothing to be seen in front of them but `seen`,
which includes what can be seen of `gs`.
-/
def Parted (n : Nat) (gs : List Glyph) (seen : List Char) (o : Output) : Prop :=
  ∃ new run, o.glyphs = new ++ (run ++ gs) ∧ n ≤ feeds run ∧ ink ⟨run ++ gs⟩ = seen

theorem parted_of_glyphs (hglyphs : o.glyphs = hs ++ gs) (hfeeds : n ≤ feeds hs) :
    Parted n gs o.ink o :=
  ⟨[], hs, hglyphs, hfeeds, congrArg (fun gs => ink ⟨gs⟩) hglyphs.symm⟩

theorem Parted.mono (h : Parted n gs seen o) (hmn : m ≤ n) : Parted m gs seen o := by
  obtain ⟨new, run, hglyphs, hfeeds, hink⟩ := h
  exact ⟨new, run, hglyphs, Nat.le_trans hmn hfeeds, hink⟩

theorem Parted.suffix (h : Parted n gs seen o) : gs <:+ o.glyphs := by
  obtain ⟨new, run, hglyphs, -, -⟩ := h
  exact ⟨new ++ run, by rw [hglyphs, List.append_assoc]⟩

theorem Parted.pushGlyph (h : Parted n gs seen o) (g : Glyph) :
    Parted n gs seen (o.pushGlyph g) := by
  obtain ⟨new, run, hglyphs, hfeeds, hink⟩ := h
  exact ⟨g :: new, run, congrArg (g :: ·) hglyphs, hfeeds, hink⟩

theorem Parted.append (h : Parted n gs seen o) (s : List Char) :
    Parted n gs seen (o.append s) := by
  induction s generalizing o with
  | nil => exact h
  | cons c s ih => exact ih (h.pushGlyph (.char c))

theorem writingInvariant_parted (hn : 0 < n) (gs : List Glyph) (seen : List Char) :
    WritingInvariant (Parted n gs seen) where
  push {_ g} _ h := h.pushGlyph g
  drop {hs} := by
    rintro ⟨new, run, hglyphs, hfeeds, hink⟩
    cases new with
    | cons g new => exact ⟨new, run, (List.cons.inj hglyphs).2, hfeeds, hink⟩
    | nil =>
      cases run with
      | nil => exact absurd hfeeds (Nat.not_le.2 hn)
      | cons g run =>
        obtain ⟨rfl, rfl⟩ := List.cons.inj hglyphs
        rw [feeds_cons_of_ne (by decide)] at hfeeds
        rw [List.cons_append, ink_cons_removable (by decide)] at hink
        exact ⟨[], run, rfl, hfeeds, hink⟩

theorem Parted.exists_contents (h : Parted n gs seen o) :
    ∃ between, o.contents = contents ⟨gs⟩ ++ between ∧ n ≤ between.count '\n' := by
  obtain ⟨new, run, hglyphs, hfeeds, -⟩ := h
  refine ⟨written (new ++ run), ?_, ?_⟩
  · rw [← contents_append_glyphs, List.append_assoc, ← hglyphs]
  · rw [count_written, feeds_append]
    exact Nat.le_trans hfeeds (Nat.le_add_left ..)

/-! ## Taking back -/

theorem ink_removable_append (h : ∀ g ∈ hs, g.isRemovable = true) (gs : List Glyph) :
    ink ⟨hs ++ gs⟩ = ink ⟨gs⟩ := by
  induction hs with
  | nil => rfl
  | cons g hs ih =>
    rw [List.forall_mem_cons] at h
    rw [List.cons_append, ink_cons_removable h.1, ih h.2]

/-- The empty lines of a quotation are taken back up to the last ink. -/
theorem Parted.stripQuoteTail (h : Parted n gs seen o)
    (hink : o.onFreshQuotedLine = true → o.ink ≠ seen) : Parted n gs seen o.stripQuoteTail := by
  unfold Output.stripQuoteTail
  split
  · next hfresh =>
    obtain ⟨new, run, hglyphs, hfeeds, hseen⟩ := h
    rcases o with ⟨hs⟩
    obtain rfl : hs = new ++ (run ++ gs) := hglyphs
    -- Ink behind the line feeds is not removable, so the removal ends there.
    have hstop : (new.dropWhile Glyph.isRemovable).isEmpty = false := by
      apply Bool.eq_false_iff.2
      intro hempty
      have hall := List.dropWhile_eq_nil_iff.1 (List.isEmpty_iff.1 hempty)
      exact hink hfresh ((ink_removable_append hall _).trans hseen)
    refine ⟨new.dropWhile Glyph.isRemovable, run, ?_, hfeeds, hseen⟩
    show (new ++ (run ++ gs)).dropWhile Glyph.isRemovable = _
    rw [List.dropWhile_append, hstop]
    rfl
  · exact h

/-! ## Asking for breaks -/

theorem feeds_breaks (n : Nat) : feeds (breaks false n) = n := by
  induction n with
  | zero => rfl
  | succ n ih =>
    show feeds (.char '\n' :: .char '\r' :: breaks false n) = n + 1
    rw [feeds_cons_feed, feeds_cons_of_ne (by decide), ih]

section Ink

variable (h : isBlank c = false)

include h

theorem isPassed_ink : (Glyph.char c).isPassed false = false := by
  simpa [Glyph.isPassed] using Glyph.isSpacing_of_not_blank h

/-- Breaks are counted up to the last ink at most. -/
theorem passedFeeds_append_ink_le (hs gs : List Glyph) :
    passedFeeds false (hs ++ .char c :: gs) ≤ feeds hs := by
  induction hs with
  | nil => exact Nat.le_of_eq (passedFeeds_cons_stop (isPassed_ink h))
  | cons g hs ih =>
    by_cases hg : g.isPassed false = true
    · by_cases hfeed : g = .char '\n'
      · subst hfeed
        rw [List.cons_append, passedFeeds_cons_feed, feeds_cons_feed]
        exact Nat.succ_le_succ ih
      · rw [List.cons_append, passedFeeds_cons_of_ne hg hfeed, feeds_cons_of_ne hfeed]
        exact ih
    · rw [List.cons_append, passedFeeds_cons_stop (Bool.eq_false_iff.2 hg)]
      exact Nat.zero_le _

theorem allPassed_append_ink (hs gs : List Glyph) :
    ¬ allPassed false (hs ++ .char c :: gs) = true := by
  intro hall
  have hc := List.all_eq_true.1 hall (.char c) (by simp)
  rw [isPassed_ink h] at hc
  cases hc

/-- A space that is taken back stands behind the last ink. -/
theorem exists_dropSpace (hglyphs : o.glyphs = hs ++ .char c :: gs) :
    ∃ hs', o.dropSpace.glyphs = hs' ++ .char c :: gs ∧ feeds hs' = feeds hs := by
  unfold dropSpace
  split
  · next rest hrest =>
    rw [hglyphs] at hrest
    cases hs with
    | nil =>
      obtain ⟨heq, -⟩ := List.cons.inj hrest
      cases heq
      cases h
    | cons g hs =>
      obtain ⟨rfl, rfl⟩ := List.cons.inj hrest
      exact ⟨hs, rfl, (feeds_cons_of_ne (by decide)).symm⟩
  · exact ⟨hs, hglyphs, rfl⟩

/-- Breaks that are asked for behind ink stand there. -/
theorem parted_separate (hn : 0 < n) (hsuffix : .char c :: gs <:+ o.glyphs) (keepSpace : Bool) :
    Parted n (.char c :: gs) o.ink (o.separate n false keepSpace) := by
  obtain ⟨hs, hglyphs⟩ := hsuffix
  have hstart : ∃ hs', (if keepSpace then o else o.dropSpace).glyphs = hs' ++ .char c :: gs ∧
      feeds hs' = feeds hs := by
    split
    · exact ⟨hs, hglyphs.symm, rfl⟩
    · exact exists_dropSpace h hglyphs.symm
  obtain ⟨hs', hglyphs', hfeeds⟩ := hstart
  have hmissing : n ≤ n - o.trailingBreaks n + feeds hs' := by
    have hle := passedFeeds_append_ink_le h hs gs
    rw [missingBreaks_eq hn, ← hglyphs, if_neg (allPassed_append_ink h hs gs)]
    omega
  have hseparate : (o.separate n false keepSpace).glyphs =
      breaks false (n - o.trailingBreaks n) ++ hs' ++ .char c :: gs := by
    rw [List.append_assoc, ← hglyphs']
    exact congrArg glyphs (glyphs_pushBreaks _ _)
  rw [← ink_separate o n false keepSpace]
  apply parted_of_glyphs hseparate
  rwa [feeds_append, feeds_breaks]

theorem Parted.suffix_stripQuoteTail (hparted : Parted n (.char c :: gs) seen o) :
    .char c :: gs <:+ o.stripQuoteTail.glyphs :=
  (layoutInvariant_suffix h gs).stripQuoteTail hparted.suffix

/-- Breaks that are asked for where the empty lines of a quotation are taken back. -/
theorem Parted.separate (hparted : Parted m (.char c :: gs) seen o) (hm : 0 < m) (hmn : m ≤ n)
    (keepSpace : Bool) :
    Parted m (.char c :: gs) seen (o.stripQuoteTail.separate n false keepSpace) := by
  by_cases hkeep : o.onFreshQuotedLine = true → o.ink ≠ seen
  · exact (writingInvariant_parted hm _ _).separate (hparted.stripQuoteTail hkeep) n false keepSpace
  · obtain ⟨-, hink⟩ := Classical.not_imp.1 hkeep
    have hagain := parted_separate h (Nat.lt_of_lt_of_le hm hmn) (hparted.suffix_stripQuoteTail h)
      keepSpace
    rw [ink_stripQuoteTail, not_not.1 hink] at hagain
    exact hagain.mono hmn

/-- A line ends behind ink, with a break of its own if two breaks are not there. -/
theorem parted_endLine (hsuffix : .char c :: gs <:+ o.glyphs) :
    Parted 1 (.char c :: gs) o.ink
      (if o.trailingBreaks 2 < 2 then o.dropSpace.pushBreak else o) := by
  obtain ⟨hs, hglyphs⟩ := hsuffix
  split
  · obtain ⟨hs', hglyphs', -⟩ := exists_dropSpace h hglyphs.symm
    have hline : o.dropSpace.pushBreak.glyphs =
        (.char '\n' :: .char '\r' :: hs') ++ .char c :: gs := by
      rw [List.cons_append, List.cons_append, ← hglyphs']
      rfl
    rw [← ink_dropSpace o, ← ink_pushBreak]
    apply parted_of_glyphs hline
    rw [feeds_cons_feed]
    exact Nat.succ_le_succ (Nat.zero_le _)
  · next htwo =>
    have hle := passedFeeds_append_ink_le h hs gs
    have hmissing := missingBreaks_eq Nat.two_pos o
    rw [← hglyphs, if_neg (allPassed_append_ink h hs gs)] at hmissing
    exact parted_of_glyphs hglyphs.symm (by omega)

end Ink

end Output

end HtmlMarkdown
