import HtmlMarkdown.Proofs.Output.SetOff
import HtmlMarkdown.Proofs.Output.Stretch

/-!
# Requests that follow each other

The breaks at the end of an output are the line feeds of the white space there (`breaksFrom_eq`).
So what a separation writes depends on this number, on whether anything but white space has been
written, and on little else (`fill`).

Two separations in a row come to the same as one that asks for the larger number of breaks
(`separateQuoted_separateQuoted`, `separate_separate`), and behind a separation the breaks are there
(`trailingQuotedBreaks?_separateQuoted`, `trailingBreaks_separate`).
-/

namespace HtmlMarkdown

/-- The glyphs at which a count of breaks goes on. -/
def Glyph.isPassed (passMarks : Bool) (g : Glyph) : Bool :=
  g.isSpacing || (passMarks && g == .mark)

namespace Output

variable {passMarks : Bool} {limit count m n : Nat} {g : Glyph} {gs : List Glyph} {o : Output}

/-! ## Counting -/

/-- The number of line feeds that are counted, whatever the limit. -/
def passedFeeds (passMarks : Bool) (gs : List Glyph) : Nat :=
  feeds (gs.takeWhile (Glyph.isPassed passMarks))

/-- Whether all glyphs are passed in the count. -/
def allPassed (passMarks : Bool) (gs : List Glyph) : Bool := gs.all (Glyph.isPassed passMarks)

theorem passedFeeds_cons_of_ne (hg : g.isPassed passMarks = true) (hne : g ≠ .char '\n') :
    passedFeeds passMarks (g :: gs) = passedFeeds passMarks gs := by
  rw [passedFeeds, List.takeWhile_cons_of_pos hg, feeds_cons_of_ne hne, passedFeeds]

theorem passedFeeds_cons_feed :
    passedFeeds passMarks (.char '\n' :: gs) = passedFeeds passMarks gs + 1 := by
  rw [passedFeeds, List.takeWhile_cons_of_pos rfl, feeds_cons_feed, passedFeeds]

theorem passedFeeds_cons_stop (hg : g.isPassed passMarks = false) :
    passedFeeds passMarks (g :: gs) = 0 := by
  rw [passedFeeds, List.takeWhile_cons_of_neg (by simp [hg])]
  rfl

theorem allPassed_cons (hg : g.isPassed passMarks = true) :
    allPassed passMarks (g :: gs) = allPassed passMarks gs := by
  rw [allPassed, List.all_cons, hg, Bool.true_and, allPassed]

theorem allPassed_cons_stop (hg : g.isPassed passMarks = false) :
    allPassed passMarks (g :: gs) = false := by
  rw [allPassed, List.all_cons, hg, Bool.false_and]

/-- The line feeds at the end are counted up to the limit, unless there is nothing before them. -/
theorem breaksFrom_eq (h : count < limit) :
    breaksFrom passMarks limit count gs =
      if allPassed passMarks gs = true ∧ count + passedFeeds passMarks gs < limit then none
      else some (min (count + passedFeeds passMarks gs) limit) := by
  induction gs generalizing count with
  | nil => exact (if_pos ⟨rfl, h⟩).symm
  | cons g gs ih =>
    by_cases hg : g.isPassed passMarks = true
    · rw [allPassed_cons hg]
      cases g with
      | mark =>
        have hpass : passMarks = true := by simpa [Glyph.isPassed, Glyph.isSpacing] using hg
        rw [passedFeeds_cons_of_ne hg (by decide), breaksFrom, if_pos hpass, ih h]
      | char c =>
        by_cases hc : c = '\n'
        · subst hc
          rw [passedFeeds_cons_feed, breaksFrom, if_pos (by decide)]
          by_cases hlimit : limit ≤ count + 1
          · have hfull : ¬ count + (passedFeeds passMarks gs + 1) < limit := by omega
            have hmin : min (count + (passedFeeds passMarks gs + 1)) limit = count + 1 := by omega
            rw [if_pos hlimit, if_neg fun hand => hfull hand.2, hmin]
          · have hsum : count + (passedFeeds passMarks gs + 1) =
                count + 1 + passedFeeds passMarks gs := by omega
            rw [if_neg hlimit, ih (by omega), hsum]
        · have hspacing : (Glyph.char c).isSpacing = true := by simpa [Glyph.isPassed] using hg
          rw [passedFeeds_cons_of_ne hg (by simpa using hc), breaksFrom, if_neg (by simpa using hc),
            if_pos hspacing, ih h]
    · have hstop : g.isPassed passMarks = false := Bool.eq_false_iff.2 hg
      have hmin : min (count + 0) limit = count := by omega
      rw [allPassed_cons_stop hstop, passedFeeds_cons_stop hstop, hmin, if_neg (by simp)]
      cases g with
      | mark =>
        have hpass : passMarks = false := by simpa [Glyph.isPassed, Glyph.isSpacing] using hstop
        rw [breaksFrom, hpass]
        rfl
      | char c =>
        have hspacing : (Glyph.char c).isSpacing = false := by simpa [Glyph.isPassed] using hstop
        exact breaksFrom_of_not_spacing hspacing passMarks limit count

/-! ## Breaks and spaces -/

section Breaks

variable {quoted : Bool} (hpass : quoted = true → passMarks = true)

include hpass

theorem passedFeeds_breaks (n : Nat) (gs : List Glyph) :
    passedFeeds passMarks (breaks quoted n ++ gs) = n + passedFeeds passMarks gs := by
  have hmark : quoted = true → Glyph.isPassed passMarks .mark = true := fun hq => by
    rw [hpass hq]
    rfl
  induction n with
  | zero => exact (Nat.zero_add _).symm
  | succ n ih =>
    have hbreak : passedFeeds passMarks (.char '\n' :: .char '\r' :: (breaks quoted n ++ gs)) =
        n + 1 + passedFeeds passMarks gs := by
      rw [passedFeeds_cons_feed, passedFeeds_cons_of_ne rfl (by decide), ih]
      omega
    cases quoted with
    | false => exact hbreak
    | true =>
      show passedFeeds passMarks (.char ' ' :: .mark ::
        .char '\n' :: .char '\r' :: (breaks true n ++ gs)) = _
      rw [passedFeeds_cons_of_ne rfl (by decide), passedFeeds_cons_of_ne (hmark rfl) (by decide),
        hbreak]

theorem allPassed_breaks (n : Nat) (gs : List Glyph) :
    allPassed passMarks (breaks quoted n ++ gs) = allPassed passMarks gs := by
  have hbreaks : (breaks quoted n).all (Glyph.isPassed passMarks) = true := by
    induction n with
    | zero => rfl
    | succ n ih =>
      cases quoted with
      | false => simpa [breaks, Glyph.isPassed, Glyph.isSpacing] using ih
      | true => simpa [breaks, Glyph.isPassed, Glyph.isSpacing, hpass rfl] using ih
  rw [allPassed, List.all_append, hbreaks, Bool.true_and, allPassed]

end Breaks

theorem passedFeeds_dropSpace (o : Output) :
    passedFeeds passMarks o.dropSpace.glyphs = passedFeeds passMarks o.glyphs := by
  unfold dropSpace
  split
  · next gs h => rw [h, passedFeeds_cons_of_ne rfl (by decide)]
  · rfl

theorem allPassed_dropSpace (o : Output) :
    allPassed passMarks o.dropSpace.glyphs = allPassed passMarks o.glyphs := by
  unfold dropSpace
  split
  · next gs h => rw [h, allPassed_cons rfl]
  · rfl

theorem counts_of_dropSpace (passMarks : Bool) {p : Output} (hp : p = o ∨ p = o.dropSpace) :
    passedFeeds passMarks p.glyphs = passedFeeds passMarks o.glyphs ∧
      allPassed passMarks p.glyphs = allPassed passMarks o.glyphs := by
  rcases hp with rfl | rfl
  · exact ⟨rfl, rfl⟩
  · exact ⟨passedFeeds_dropSpace o, allPassed_dropSpace o⟩

/-! ## Quoted breaks -/

/-- What quoted separation writes behind anything but a line feed. -/
theorem separateQuoted_eq (h : o.endsInFeed = false) (hn : 0 < n) :
    o.separateQuoted n =
      if allPassed true o.glyphs = true ∧ passedFeeds true o.glyphs < n then
        if o.onFreshQuotedLine then o else o.pushQuotedBreak
      else pushQuotedBreaks (n - passedFeeds true o.glyphs)
        (if passedFeeds true o.glyphs = 0 then o.dropSpace else o) := by
  have hcount : o.trailingQuotedBreaks? n = _ := breaksFrom_eq hn
  unfold separateQuoted
  rw [h, if_neg (by decide)]
  dsimp only
  rw [hcount, Nat.zero_add]
  by_cases hall : allPassed true o.glyphs = true ∧ passedFeeds true o.glyphs < n
  · rw [if_pos hall, if_pos hall]
  · have hmissing : n - min (passedFeeds true o.glyphs) n = n - passedFeeds true o.glyphs := by
      omega
    have hzero : min (passedFeeds true o.glyphs) n = 0 ↔ passedFeeds true o.glyphs = 0 := by omega
    rw [if_neg hall, if_neg hall]
    simp only [hmissing, hzero]

theorem separateQuoted_of_endsInFeed (h : o.endsInFeed = true) (n : Nat) :
    o.separateQuoted n = o.pushMark.separateQuoted n := by
  unfold separateQuoted
  rw [h]
  rfl

theorem endsInFeed_pushQuotedBreaks (hn : 0 < n) (o : Output) :
    (pushQuotedBreaks n o).endsInFeed = false := by
  induction n generalizing o with
  | zero => cases hn
  | succ n ih =>
    cases n with
    | zero => rfl
    | succ n => exact ih (Nat.succ_pos n) o.pushQuotedBreak

theorem separateQuoted_of_le (h : o.endsInFeed = false) (hn : 0 < n)
    (hle : n ≤ passedFeeds true o.glyphs) : o.separateQuoted n = o := by
  have hnot : ¬ (allPassed true o.glyphs = true ∧ passedFeeds true o.glyphs < n) :=
    fun hand => Nat.not_lt.2 hle hand.2
  rw [separateQuoted_eq h hn, if_neg hnot, if_neg (Nat.ne_of_gt (Nat.lt_of_lt_of_le hn hle)),
    Nat.sub_eq_zero_of_le hle]
  rfl

theorem separateQuoted_of_fresh (h : o.endsInFeed = false) (hn : 0 < n)
    (hall : allPassed true o.glyphs = true) (hfresh : o.onFreshQuotedLine = true) :
    o.separateQuoted n = o := by
  by_cases hlt : passedFeeds true o.glyphs < n
  · rw [separateQuoted_eq h hn, if_pos ⟨hall, hlt⟩, if_pos hfresh]
  · exact separateQuoted_of_le h hn (Nat.not_lt.1 hlt)

theorem separateQuoted_of_allPassed (h : o.endsInFeed = false) (hlt : passedFeeds true o.glyphs < n)
    (hall : allPassed true o.glyphs = true) (hfresh : ¬ o.onFreshQuotedLine = true) :
    o.separateQuoted n = o.pushQuotedBreak := by
  rw [separateQuoted_eq h (Nat.zero_lt_of_lt hlt), if_pos ⟨hall, hlt⟩, if_neg hfresh]

theorem separateQuoted_of_not_allPassed (h : o.endsInFeed = false) (hn : 0 < n)
    (hall : ¬ allPassed true o.glyphs = true) :
    o.separateQuoted n = pushQuotedBreaks (n - passedFeeds true o.glyphs)
      (if passedFeeds true o.glyphs = 0 then o.dropSpace else o) := by
  rw [separateQuoted_eq h hn, if_neg fun hand => hall hand.1]

theorem counts_separateQuoted (h : o.endsInFeed = false) (hn : 0 < n)
    (hall : ¬ allPassed true o.glyphs = true) :
    passedFeeds true (o.separateQuoted n).glyphs = max n (passedFeeds true o.glyphs) ∧
      allPassed true (o.separateQuoted n).glyphs = allPassed true o.glyphs := by
  rw [separateQuoted_of_not_allPassed h hn hall]
  generalize hp : (if passedFeeds true o.glyphs = 0 then o.dropSpace else o) = p
  have hsame := counts_of_dropSpace true (hp ▸ (ite_eq_or_eq _ o.dropSpace o).symm)
  rw [glyphs_pushQuotedBreaks _ p.glyphs, passedFeeds_breaks (fun _ => rfl),
    allPassed_breaks (fun _ => rfl), hsame.1, hsame.2]
  exact ⟨by omega, rfl⟩

section Quoted

variable (h : o.endsInFeed = false) (hlt : passedFeeds true o.glyphs < m) (hn : 0 < n)

include h hlt hn

/-- Two requests where only white space has been written. -/
theorem separateQuoted_twice_of_allPassed (hall : allPassed true o.glyphs = true) :
    (o.separateQuoted m).separateQuoted n = o.separateQuoted (max m n) := by
  have hm : 0 < m := Nat.zero_lt_of_lt hlt
  have hmax : passedFeeds true o.glyphs < max m n := by omega
  by_cases hfresh : o.onFreshQuotedLine = true
  · rw [separateQuoted_of_fresh h hm hall hfresh, separateQuoted_of_fresh h hn hall hfresh,
      separateQuoted_of_fresh h (Nat.zero_lt_of_lt hmax) hall hfresh]
  · have hone : allPassed true o.pushQuotedBreak.glyphs = true :=
      (@allPassed_breaks true true (fun _ => rfl) 1 o.glyphs).trans hall
    rw [separateQuoted_of_allPassed h hlt hall hfresh,
      separateQuoted_of_allPassed h hmax hall hfresh, separateQuoted_of_fresh rfl hn hone rfl]

/-- Two requests where something else has been written. -/
theorem separateQuoted_twice_of_not_allPassed (hall : ¬ allPassed true o.glyphs = true) :
    (o.separateQuoted m).separateQuoted n = o.separateQuoted (max m n) := by
  have hm : 0 < m := Nat.zero_lt_of_lt hlt
  have hmax : 0 < max m n := by omega
  have hpush : ∀ k (p : Output), pushQuotedBreaks k p = ⟨breaks true k ++ p.glyphs⟩ :=
    fun k p => glyphs_pushQuotedBreaks k p.glyphs
  obtain ⟨hfeeds, hsame⟩ := counts_separateQuoted h hm hall
  have hall' : ¬ allPassed true (o.separateQuoted m).glyphs = true := by rwa [hsame]
  have hfeed : (o.separateQuoted m).endsInFeed = false := by
    rw [separateQuoted_of_not_allPassed h hm hall]
    exact endsInFeed_pushQuotedBreaks (Nat.sub_pos_of_lt hlt) _
  have hsum : n - m + (m - passedFeeds true o.glyphs) = max m n - passedFeeds true o.glyphs := by
    omega
  rw [Nat.max_eq_left (Nat.le_of_lt hlt)] at hfeeds
  rw [separateQuoted_of_not_allPassed hfeed hn hall', hfeeds, if_neg (Nat.ne_of_gt hm),
    separateQuoted_of_not_allPassed h hm hall, separateQuoted_of_not_allPassed h hmax hall, hpush,
    hpush, hpush, ← List.append_assoc, breaks_append_breaks, hsum]

end Quoted

/-- A mark that is missing behind a line feed is written first, whatever is asked for. -/
theorem exists_separateQuoted_eq (o : Output) :
    ∃ p : Output, p.endsInFeed = false ∧ ∀ n, o.separateQuoted n = p.separateQuoted n := by
  by_cases hfeed : o.endsInFeed = true
  · exact ⟨o.pushMark, rfl, separateQuoted_of_endsInFeed hfeed⟩
  · exact ⟨o, Bool.eq_false_iff.2 hfeed, fun _ => rfl⟩

/-- Two requests for quoted breaks come to the larger one. -/
theorem separateQuoted_separateQuoted (hm : 0 < m) (hn : 0 < n) (o : Output) :
    (o.separateQuoted m).separateQuoted n = o.separateQuoted (max m n) := by
  obtain ⟨p, hfeed, hp⟩ := exists_separateQuoted_eq o
  rw [hp, hp]
  -- Where the breaks of the first request are there, only the second one counts.
  by_cases hle : m ≤ passedFeeds true p.glyphs
  · rw [separateQuoted_of_le hfeed hm hle]
    by_cases hle' : n ≤ passedFeeds true p.glyphs
    · rw [separateQuoted_of_le hfeed hn hle',
        separateQuoted_of_le hfeed (by omega) (Nat.max_le.2 ⟨hle, hle'⟩)]
    · rw [Nat.max_eq_right (by omega)]
  · have hlt : passedFeeds true p.glyphs < m := Nat.not_le.1 hle
    by_cases hall : allPassed true p.glyphs = true
    · exact separateQuoted_twice_of_allPassed hfeed hlt hn hall
    · exact separateQuoted_twice_of_not_allPassed hfeed hlt hn hall

/-- Behind a request the quoted breaks are counted, or nothing but white space and marks is. -/
theorem allPassed_or_le_separateQuoted (h : o.endsInFeed = false) (hn : 0 < n) :
    allPassed true (o.separateQuoted n).glyphs = true ∨
      n ≤ passedFeeds true (o.separateQuoted n).glyphs := by
  by_cases hall : allPassed true o.glyphs = true
  · by_cases hle : n ≤ passedFeeds true o.glyphs
    · rw [separateQuoted_of_le h hn hle]
      exact .inl hall
    · left
      by_cases hfresh : o.onFreshQuotedLine = true
      · rwa [separateQuoted_of_fresh h hn hall hfresh]
      · rw [separateQuoted_of_allPassed h (Nat.not_le.1 hle) hall hfresh]
        exact (@allPassed_breaks true true (fun _ => rfl) 1 o.glyphs).trans hall
  · right
    rw [(counts_separateQuoted h hn hall).1]
    exact Nat.le_max_left ..

theorem trailingQuotedBreaks?_separateQuoted (hn : 0 < n) (o : Output) :
    (o.separateQuoted n).trailingQuotedBreaks? n = none ∨
      (o.separateQuoted n).trailingQuotedBreaks? n = some n := by
  obtain ⟨p, hfeed, hp⟩ := exists_separateQuoted_eq o
  have hcount : (p.separateQuoted n).trailingQuotedBreaks? n = _ := breaksFrom_eq hn
  rw [hp, hcount, Nat.zero_add]
  split
  · exact .inl rfl
  · next hnot =>
    have hle : n ≤ passedFeeds true (p.separateQuoted n).glyphs := by
      rcases allPassed_or_le_separateQuoted hfeed hn with hall | hle
      · exact Nat.not_lt.1 fun hlt => hnot ⟨hall, hlt⟩
      · exact hle
    rw [Nat.min_eq_right hle]
    exact .inr rfl

/-! ## Plain breaks -/

/-- The plain breaks at the end are the line feeds there, unless there is nothing before them. -/
theorem trailingBreaks_eq (hn : 0 < n) (o : Output) :
    o.trailingBreaks n =
      if allPassed false o.glyphs = true then n else min (passedFeeds false o.glyphs) n := by
  have hcount : breaksFrom false n 0 o.glyphs = _ := breaksFrom_eq hn
  rw [trailingBreaks, hcount, Nat.zero_add]
  split
  · next hall => rw [if_pos hall.1, Option.getD_none]
  · next hnot =>
    rw [Option.getD_some]
    split
    · next hall => exact Nat.min_eq_right (Nat.not_lt.1 fun hlt => hnot ⟨hall, hlt⟩)
    · rfl

theorem missingBreaks_eq (hn : 0 < n) (o : Output) :
    n - o.trailingBreaks n =
      if allPassed false o.glyphs = true then 0 else n - passedFeeds false o.glyphs := by
  rw [trailingBreaks_eq hn]
  split <;> omega

theorem separate_eq_breaks (hn : 0 < n) (keepSpace : Bool) (o : Output) :
    o.separate n false keepSpace =
      ⟨breaks false
          (if allPassed false o.glyphs = true then 0 else n - passedFeeds false o.glyphs) ++
        (if keepSpace then o else o.dropSpace).glyphs⟩ := by
  rw [← missingBreaks_eq hn, ← glyphs_pushBreaks]
  rfl

/-- Where no two spaces stand at the end, one is taken back at most. -/
theorem dropSpace_dropSpace (h : ∀ gs, o.glyphs ≠ .char ' ' :: .char ' ' :: gs) :
    o.dropSpace.dropSpace = o.dropSpace := by
  rcases o with ⟨gs⟩
  by_cases hspace : ∃ hs, gs = .char ' ' :: hs
  · obtain ⟨hs, rfl⟩ := hspace
    show dropSpace ⟨hs⟩ = ⟨hs⟩
    unfold dropSpace
    split
    · next hs' heq => exact absurd (congrArg (.char ' ' :: ·) heq) (h hs')
    · rfl
  · have hkept : dropSpace ⟨gs⟩ = ⟨gs⟩ := by
      unfold dropSpace
      split
      · next hs heq => exact absurd ⟨hs, heq⟩ hspace
      · rfl
    rw [hkept, hkept]

theorem dropSpace_breaks_append (h : o.dropSpace = o) (n : Nat) :
    (⟨breaks false n ++ o.glyphs⟩ : Output).dropSpace = ⟨breaks false n ++ o.glyphs⟩ := by
  cases n with
  | zero => exact h
  | succ n => rfl

/--
Two requests for plain breaks come to the larger one, where one space at most stands at the end or
spaces are kept.
-/
theorem separate_separate (hm : 0 < m) (hn : 0 < n) {keepSpace : Bool}
    (hspace : keepSpace = true ∨ o.dropSpace.dropSpace = o.dropSpace) :
    (o.separate m false keepSpace).separate n false keepSpace =
      o.separate (max m n) false keepSpace := by
  have hmax : 0 < max m n := by omega
  have hsame := counts_of_dropSpace false (ite_eq_or_eq (keepSpace = true) o o.dropSpace)
  have hkept : keepSpace = true ∨
      (if keepSpace then o else o.dropSpace).dropSpace = if keepSpace then o else o.dropSpace := by
    by_cases hkeep : keepSpace = true
    · exact .inl hkeep
    · rw [if_neg hkeep]
      exact hspace
  rw [separate_eq_breaks hm, separate_eq_breaks hmax]
  generalize (if keepSpace then o else o.dropSpace) = p at hsame hkept
  have hagain : ∀ k, (if keepSpace then ⟨breaks false k ++ p.glyphs⟩
      else (⟨breaks false k ++ p.glyphs⟩ : Output).dropSpace) = ⟨breaks false k ++ p.glyphs⟩ := by
    intro k
    split
    · rfl
    · next hdrop => exact dropSpace_breaks_append (hkept.resolve_left hdrop) k
  rw [separate_eq_breaks hn, hagain, allPassed_breaks (by simp), passedFeeds_breaks (by simp),
    hsame.1, hsame.2, ← List.append_assoc, breaks_append_breaks]
  split
  · rfl
  · have hsum : n - (m - passedFeeds false o.glyphs + passedFeeds false o.glyphs) +
        (m - passedFeeds false o.glyphs) = max m n - passedFeeds false o.glyphs := by omega
    rw [hsum]

theorem trailingBreaks_separate (hn : 0 < n) (keepSpace : Bool) (o : Output) :
    (o.separate n false keepSpace).trailingBreaks n = n := by
  have hsame := counts_of_dropSpace false (ite_eq_or_eq (keepSpace = true) o o.dropSpace)
  rw [trailingBreaks_eq hn, separate_eq_breaks hn, allPassed_breaks (by simp),
    passedFeeds_breaks (by simp), hsame.1, hsame.2]
  split <;> omega

end Output

end HtmlMarkdown
