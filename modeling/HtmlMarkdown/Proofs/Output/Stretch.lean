import HtmlMarkdown.Proofs.Output.QuoteMarks

/-!
# Stretches without ink

A stretch is a run of blanks and marks.  Glyphs are `Compact` if none of their stretches has more
than two line feeds.  An output is `Spaced` if it is compact and ends with a stretch in which breaks
can be counted; then the breaks that are missing never bring a stretch beyond two line feeds
(`breaksFrom_stretch`), and neither kind of separation does (`Spaced.separate`,
`Spaced.separateQuoted`).
-/

namespace HtmlMarkdown

open Text

/-- The marks and the blanks. -/
def Glyph.isVacant (g : Glyph) : Bool := g == .mark || isBlank g.toChar

theorem Glyph.isVacant_blank {c : Char} (h : isBlank c = true) : (char c).isVacant = true := h

theorem Glyph.isVacant_ink {c : Char} (h : isBlank c = false) : (char c).isVacant = false := h

theorem Glyph.isVacant_removable {g : Glyph} (h : g.isRemovable = true) : g.isVacant = true := by
  cases g with
  | mark => rfl
  | char c => exact isVacant_blank (isBlank_of_isSpacing h)

/-- The number of line feeds. -/
def feeds (gs : List Glyph) : Nat := gs.count (.char '\n')

/-- No stretch has more than two line feeds. -/
def Compact (gs : List Glyph) : Prop :=
  ∀ run, run <:+: gs → (∀ g ∈ run, g.isVacant = true) → feeds run ≤ 2

/-- The stretch that glyphs start with. -/
def stretch (gs : List Glyph) : List Glyph := gs.takeWhile Glyph.isVacant

/-! ## The first stretch -/

variable {g : Glyph} {gs hs : List Glyph}

theorem stretch_cons_vacant (h : g.isVacant = true) : stretch (g :: gs) = g :: stretch gs :=
  List.takeWhile_cons_of_pos h

theorem stretch_cons_ink {c : Char} (h : isBlank c = false) : stretch (.char c :: gs) = [] :=
  List.takeWhile_cons_of_neg (by rw [Glyph.isVacant_ink h]; decide)

theorem feeds_cons_feed : feeds (.char '\n' :: gs) = feeds gs + 1 := List.count_cons_self

theorem feeds_cons_of_ne (h : g ≠ .char '\n') : feeds (g :: gs) = feeds gs :=
  List.count_cons_of_ne h

theorem feeds_append (gs hs : List Glyph) : feeds (gs ++ hs) = feeds gs + feeds hs :=
  List.count_append

theorem count_written (gs : List Glyph) : (Output.written gs).count '\n' = feeds gs := by
  induction gs with
  | nil => rfl
  | cons g gs ih =>
    rw [Output.written_cons, List.count_append, ih]
    by_cases hg : g = .char '\n'
    · subst hg
      exact feeds_cons_feed.symm
    · have hne : g.toChar ≠ '\n' := by
        cases g with
        | mark => decide
        | char c => exact fun h => hg (congrArg Glyph.char h)
      rw [feeds_cons_of_ne hg, List.count_singleton, if_neg (by simpa using hne), Nat.add_zero]

theorem feeds_stretch_cons_feed :
    feeds (stretch (.char '\n' :: gs)) = feeds (stretch gs) + 1 := by
  rw [stretch_cons_vacant (by decide), feeds_cons_feed]

theorem feeds_stretch_cons_le (h : g ≠ .char '\n') :
    feeds (stretch (g :: gs)) ≤ feeds (stretch gs) := by
  by_cases hg : g.isVacant = true
  · rw [stretch_cons_vacant hg, feeds_cons_of_ne h]
  · rw [stretch, List.takeWhile_cons_of_neg hg]
    exact Nat.zero_le _

/-! ## Compact glyphs -/

theorem compact_nil : Compact [] := by
  intro run hrun _
  rw [List.infix_nil.1 hrun]
  decide

theorem Compact.of_isInfix (h : Compact hs) (hin : gs <:+: hs) : Compact gs :=
  fun run hrun => h run (hrun.trans hin)

theorem Compact.feeds_stretch_le (h : Compact gs) : feeds (stretch gs) ≤ 2 :=
  h _ (List.takeWhile_prefix _).isInfix fun _ hg => List.mem_takeWhile_imp hg

theorem Compact.reverse (h : Compact gs) : Compact gs.reverse := by
  intro run hrun hvacant
  have hback : run.reverse <:+: gs := by simpa using List.reverse_infix.2 hrun
  have hfeeds := h run.reverse hback fun g hg => hvacant g (List.mem_reverse.1 hg)
  rwa [feeds, List.count_reverse] at hfeeds

/-- Only the stretch that a new glyph belongs to can become too long. -/
theorem Compact.cons (h : Compact gs) (hg : feeds (stretch (g :: gs)) ≤ 2) : Compact (g :: gs) := by
  intro run hrun hvacant
  rcases List.infix_cons_iff.1 hrun with ⟨rest, hpre⟩ | hin
  · have hstretch : stretch (g :: gs) = run ++ stretch rest := by
      rw [← hpre]
      exact List.takeWhile_append_of_pos hvacant
    rw [hstretch, feeds, List.count_append] at hg
    exact Nat.le_trans (Nat.le_add_right _ _) hg
  · exact h run hin hvacant

theorem Compact.cons_of_ne (h : Compact gs) (hg : g ≠ .char '\n') : Compact (g :: gs) :=
  h.cons (Nat.le_trans (feeds_stretch_cons_le hg) h.feeds_stretch_le)

namespace Output

/-! ## Spaced outputs -/

/-- No stretch is too long, and in the one at the end all breaks can be counted. -/
structure Spaced (o : Output) : Prop where
  /-- No stretch has more than two line feeds. -/
  compact : Compact o.glyphs
  /-- What stands behind the last ink may be taken back. -/
  removable : ∀ g ∈ stretch o.glyphs, g.isRemovable = true

variable {o : Output} {n : Nat}

theorem spaced_empty : empty.Spaced := ⟨compact_nil, by simp [stretch, empty]⟩

theorem Spaced.feeds_le (h : o.Spaced) : feeds (stretch o.glyphs) ≤ 2 := h.compact.feeds_stretch_le

/-- An output is also spaced when one more removable glyph fits on it. -/
theorem Spaced.pushGlyph (h : o.Spaced) {g : Glyph} (hg : g.isRemovable = true)
    (hfeeds : feeds (stretch (g :: o.glyphs)) ≤ 2) : (o.pushGlyph g).Spaced := by
  refine ⟨h.compact.cons hfeeds, fun g' hg' => ?_⟩
  unfold Output.pushGlyph stretch at hg'
  rw [List.takeWhile_cons] at hg'
  split at hg'
  · rcases List.mem_cons.1 hg' with rfl | hmem
    · exact hg
    · exact h.removable g' hmem
  · cases hg'

theorem Spaced.push_ink (h : Compact o.glyphs) {c : Char} (hc : isBlank c = false) :
    (o.push c).Spaced := by
  have hne : Glyph.char c ≠ .char '\n' := by
    intro heq
    cases heq
    cases hc
  refine ⟨h.cons_of_ne hne, ?_⟩
  show ∀ g ∈ stretch (.char c :: o.glyphs), _
  rw [stretch_cons_ink hc]
  simp

/-- The characters that may be written one by one: ink, and the blanks inside a line. -/
def isInline (c : Char) : Bool := !isBlank c || (Glyph.char c).isGap

theorem Spaced.push (h : o.Spaced) {c : Char} (hc : isInline c = true) : (o.push c).Spaced := by
  by_cases hb : isBlank c = true
  · have hgap : (Glyph.char c).isGap = true := by simpa [isInline, hb] using hc
    have hgap' : c = ' ' ∨ c = '\t' := by simpa [Glyph.isGap] using hgap
    have hremovable : (Glyph.char c).isRemovable = true := by
      rcases hgap' with rfl | rfl <;> decide
    have hne : Glyph.char c ≠ .char '\n' := by
      rcases hgap' with rfl | rfl <;> decide
    exact h.pushGlyph hremovable (Nat.le_trans (feeds_stretch_cons_le hne) h.feeds_le)
  · exact Spaced.push_ink h.compact (Bool.eq_false_iff.2 hb)

theorem Spaced.append (h : o.Spaced) {s : List Char} (hs : s.all isInline = true) :
    (o.append s).Spaced := by
  induction s generalizing o with
  | nil => exact h
  | cons c s ih =>
    rw [List.all_cons, Bool.and_eq_true] at hs
    exact ih (h.push hs.1) hs.2

theorem compact_append (h : Compact o.glyphs) {s : List Char} (hs : '\n' ∉ s) :
    Compact (o.append s).glyphs := by
  induction s generalizing o with
  | nil => exact h
  | cons c s ih =>
    rw [List.mem_cons, not_or] at hs
    have hne : Glyph.char c ≠ .char '\n' := fun heq => hs.1 (Glyph.char.inj heq).symm
    exact @ih (o.push c) (h.cons_of_ne hne) hs.2

/-! ## Breaks -/

theorem Spaced.dropSpace (h : o.Spaced) : o.dropSpace.Spaced := by
  unfold Output.dropSpace
  split
  · next gs hgs =>
    obtain ⟨hcompact, hremovable⟩ := h
    rw [hgs] at hcompact hremovable
    rw [stretch_cons_vacant (by decide)] at hremovable
    exact ⟨hcompact.of_isInfix (List.suffix_cons _ _).isInfix,
      fun g hg => hremovable g (List.mem_cons_of_mem _ hg)⟩
  · exact h

theorem feeds_dropSpace (o : Output) :
    feeds (stretch o.dropSpace.glyphs) = feeds (stretch o.glyphs) := by
  unfold Output.dropSpace
  split
  · next gs hgs => rw [hgs, stretch_cons_vacant (by decide), feeds_cons_of_ne (by decide)]
  · rfl

theorem feeds_pushBreak (o : Output) :
    feeds (stretch o.pushBreak.glyphs) = feeds (stretch o.glyphs) + 1 := by
  show feeds (stretch (.char '\n' :: .char '\r' :: o.glyphs)) = _
  rw [feeds_stretch_cons_feed, stretch_cons_vacant (by decide), feeds_cons_of_ne (by decide)]

theorem Spaced.pushBreak (h : o.Spaced) (hfeeds : feeds (stretch o.glyphs) + 1 ≤ 2) :
    o.pushBreak.Spaced := by
  have hcr : (o.push '\r').Spaced :=
    h.pushGlyph (by decide) (Nat.le_trans (feeds_stretch_cons_le (by decide)) h.feeds_le)
  refine hcr.pushGlyph (g := .char '\n') (by decide) ?_
  exact Nat.le_trans (Nat.le_of_eq (feeds_pushBreak o)) hfeeds

theorem feeds_pushMark (o : Output) :
    feeds (stretch o.pushMark.glyphs) = feeds (stretch o.glyphs) := by
  show feeds (stretch (.char ' ' :: .mark :: o.glyphs)) = _
  rw [stretch_cons_vacant (by decide), stretch_cons_vacant (by decide),
    feeds_cons_of_ne (by decide), feeds_cons_of_ne (by decide)]

theorem Spaced.pushMark (h : o.Spaced) : o.pushMark.Spaced := by
  have hmark : (o.pushGlyph .mark).Spaced :=
    h.pushGlyph (by decide) (Nat.le_trans (feeds_stretch_cons_le (by decide)) h.feeds_le)
  exact hmark.push (by decide)

theorem feeds_pushQuotedBreak (o : Output) :
    feeds (stretch o.pushQuotedBreak.glyphs) = feeds (stretch o.glyphs) + 1 := by
  rw [pushQuotedBreak, feeds_pushMark, feeds_pushBreak]

theorem Spaced.pushQuotedBreak (h : o.Spaced) (hfeeds : feeds (stretch o.glyphs) + 1 ≤ 2) :
    o.pushQuotedBreak.Spaced :=
  (h.pushBreak hfeeds).pushMark

theorem Spaced.pushBreaks (h : o.Spaced) (hfeeds : feeds (stretch o.glyphs) + n ≤ 2) :
    (Output.pushBreaks n o).Spaced := by
  induction n generalizing o with
  | zero => exact h
  | succ n ih =>
    apply ih (h.pushBreak (by omega))
    rw [feeds_pushBreak]
    omega

theorem Spaced.pushQuotedBreaks (h : o.Spaced) (hfeeds : feeds (stretch o.glyphs) + n ≤ 2) :
    (Output.pushQuotedBreaks n o).Spaced := by
  induction n generalizing o with
  | zero => exact h
  | succ n ih =>
    apply ih (h.pushQuotedBreak (by omega))
    rw [feeds_pushQuotedBreak]
    omega

/-! ## Counting -/

/-- All line feeds of the first stretch are counted, up to the limit. -/
theorem breaksFrom_stretch {passMarks : Bool} {limit count : Nat} {gs : List Glyph}
    (hremovable : ∀ g ∈ stretch gs, g.isRemovable = true)
    (hmarks : passMarks = true ∨ .mark ∉ stretch gs) (hcount : count < limit) :
    breaksFrom passMarks limit count gs = some (min (count + feeds (stretch gs)) limit) ∨
      breaksFrom passMarks limit count gs = none ∧ count + feeds (stretch gs) < limit := by
  induction gs generalizing count with
  | nil => exact .inr ⟨rfl, hcount⟩
  | cons g gs ih =>
    by_cases hg : g.isVacant = true
    · rw [stretch_cons_vacant hg] at hremovable hmarks ⊢
      have hrest := fun k => @ih k (fun g' hg' => hremovable g' (List.mem_cons_of_mem _ hg'))
        (hmarks.imp_right fun hno hmem => hno (List.mem_cons_of_mem _ hmem))
      cases g with
      | mark =>
        have hpass : passMarks = true := hmarks.resolve_right fun hno => hno (List.mem_cons_self ..)
        rw [feeds_cons_of_ne (by decide), breaksFrom, if_pos hpass]
        exact hrest count hcount
      | char c =>
        by_cases hc : c = '\n'
        · rw [hc, feeds_cons_feed, breaksFrom, if_pos (by decide)]
          split
          · have hmin : min (count + (feeds (stretch gs) + 1)) limit = count + 1 := by omega
            rw [hmin]
            exact .inl rfl
          · have hsum : count + (feeds (stretch gs) + 1) = count + 1 + feeds (stretch gs) := by omega
            rw [hsum]
            exact hrest (count + 1) (by omega)
        · have hspacing : (Glyph.char c).isSpacing = true := hremovable _ (List.mem_cons_self ..)
          rw [feeds_cons_of_ne (by simpa using hc), breaksFrom, if_neg (by simpa using hc),
            if_pos hspacing]
          exact hrest count hcount
    · cases g with
      | mark => exact absurd rfl hg
      | char c =>
        have hink : isBlank c = false := Bool.eq_false_iff.2 hg
        have hspacing := Glyph.isSpacing_of_not_blank hink
        have hmin : min (count + 0) limit = count := by omega
        rw [stretch_cons_ink hink, show feeds [] = 0 from rfl, hmin]
        simp [breaksFrom, hspacing, ne_feed_of_ink hink]

/-! ## Separation -/

/-- A tail that is taken back goes back to the last ink. -/
theorem stretch_dropWhile_removable {gs : List Glyph}
    (h : ∀ g ∈ stretch gs, g.isRemovable = true) :
    stretch (gs.dropWhile Glyph.isRemovable) = [] := by
  induction gs with
  | nil => rfl
  | cons g gs ih =>
    by_cases hg : g.isRemovable = true
    · rw [stretch_cons_vacant (Glyph.isVacant_removable hg)] at h
      rw [List.dropWhile_cons_of_pos hg]
      exact ih fun g' hg' => h g' (List.mem_cons_of_mem _ hg')
    · rw [List.dropWhile_cons_of_neg hg]
      refine List.takeWhile_cons_of_neg fun hvacant => hg ?_
      rw [stretch_cons_vacant hvacant] at h
      exact h g (List.mem_cons_self ..)

theorem Spaced.stripQuoteTail (h : o.Spaced) : o.stripQuoteTail.Spaced := by
  unfold Output.stripQuoteTail
  split
  · refine ⟨h.compact.of_isInfix (List.dropWhile_suffix _).isInfix, fun g hg => ?_⟩
    rw [stretch_dropWhile_removable h.removable] at hg
    cases hg
  · exact h

/-- Plain separation behind an output without live marks. -/
theorem Spaced.separate (h : o.Spaced) (hmarks : o.quoteMarks = []) (hpos : 0 < n) (hn : n ≤ 2)
    (keepSpace : Bool) : (o.separate n false keepSpace).Spaced := by
  have hstart : (if keepSpace then o else o.dropSpace).Spaced ∧
      feeds (stretch (if keepSpace then o else o.dropSpace).glyphs) = feeds (stretch o.glyphs) := by
    split
    · exact ⟨h, rfl⟩
    · exact ⟨h.dropSpace, feeds_dropSpace o⟩
  show (Output.pushBreaks (n - o.trailingBreaks n) _).Spaced
  apply hstart.1.pushBreaks
  rw [hstart.2]
  have hfeeds := h.feeds_le
  rcases breaksFrom_stretch h.removable (.inr ((quoteMarks_eq_nil_iff o).1 hmarks)) hpos with
    hcount | ⟨hcount, hlt⟩
  · rw [trailingBreaks, hcount, Option.getD_some]
    omega
  · rw [trailingBreaks, hcount, Option.getD_none]
    omega

theorem Spaced.separateQuoted (h : o.Spaced) (hpos : 0 < n) (hn : n ≤ 2) :
    (o.separateQuoted n).Spaced := by
  have hstart : (if o.endsInFeed then o.pushMark else o).Spaced := by
    split
    · exact h.pushMark
    · exact h
  unfold Output.separateQuoted
  generalize (if o.endsInFeed then o.pushMark else o) = p at hstart
  have hfeeds := hstart.feeds_le
  dsimp only
  rcases breaksFrom_stretch hstart.removable (.inl rfl) hpos with hcount | ⟨hcount, hlt⟩
  · rw [trailingQuotedBreaks?, hcount]
    dsimp only
    split
    · apply hstart.dropSpace.pushQuotedBreaks
      rw [feeds_dropSpace]
      omega
    · apply hstart.pushQuotedBreaks
      omega
  · rw [trailingQuotedBreaks?, hcount]
    dsimp only
    split
    · exact hstart
    · apply hstart.pushQuotedBreak
      omega

end Output

end HtmlMarkdown
