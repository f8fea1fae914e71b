import HtmlMarkdown.Proofs.Output.Finish
import HtmlMarkdown.Output.Separation

/-!
# Setting off

Behind ink, plain and quoted separation come to the same thing: a space at the end is replaced by
the line breaks that are missing, which are `breaks quoted n`, newest first.  `setOff` is either of
them; `setOff_breaks` and `setOff_space` say what it writes, and `setOff_feed` how a quotation
starts behind plain breaks.
-/

namespace HtmlMarkdown

open Text

namespace Output

/-- The glyphs of `n` line breaks, newest first; if quoted, each of them starts a quoted line. -/
def breaks (quoted : Bool) : Nat → List Glyph
  | 0 => []
  | n + 1 => (if quoted then [.char ' ', .mark] else []) ++ .char '\n' :: .char '\r' :: breaks quoted n

/-- Writes the breaks that are missing, in a quotation or outside. -/
def setOff (quoted : Bool) (n : Nat) (o : Output) : Output :=
  if quoted then o.separateQuoted n else o.stripQuoteTail.separate n false false

variable {quoted : Bool} {c : Char} {gs : List Glyph}

theorem breaks_append_breaks (quoted : Bool) (m n : Nat) :
    breaks quoted m ++ breaks quoted n = breaks quoted (m + n) := by
  induction m with
  | zero => rw [Nat.zero_add]; rfl
  | succ m ih =>
    rw [Nat.add_right_comm, breaks, breaks, ← ih]
    simp

theorem glyphs_pushBreaks (n : Nat) (gs : List Glyph) :
    pushBreaks n ⟨gs⟩ = ⟨breaks false n ++ gs⟩ := by
  induction n generalizing gs with
  | zero => rfl
  | succ n ih =>
    show pushBreaks n ⟨breaks false 1 ++ gs⟩ = _
    rw [ih, ← List.append_assoc, breaks_append_breaks]

theorem glyphs_pushQuotedBreaks (n : Nat) (gs : List Glyph) :
    pushQuotedBreaks n ⟨gs⟩ = ⟨breaks true n ++ gs⟩ := by
  induction n generalizing gs with
  | zero => rfl
  | succ n ih =>
    show pushQuotedBreaks n ⟨breaks true 1 ++ gs⟩ = _
    rw [ih, ← List.append_assoc, breaks_append_breaks]

theorem blank_written_breaks (n : Nat) : ∀ c ∈ written (breaks false n), isBlank c = true := by
  induction n with
  | zero => simp [written, breaks]
  | succ n ih =>
    have hcons : written (breaks false (n + 1)) = written (breaks false n) ++ ['\r', '\n'] :=
      written_append (breaks false 1) (breaks false n)
    have hbreak : ∀ c ∈ ['\r', '\n'], isBlank c = true := List.all_eq_true.1 (by decide)
    intro c hc
    rw [hcons] at hc
    exact (List.mem_append.1 hc).elim (ih c) (hbreak c)

/-! ## Breaks at the end -/

theorem breaksFrom_of_not_spacing (h : (Glyph.char c).isSpacing = false) (passMarks : Bool)
    (limit count : Nat) : breaksFrom passMarks limit count (.char c :: gs) = some count := by
  have hfeed : c ≠ '\n' := by
    rintro rfl
    cases h
  simp [breaksFrom, h, hfeed]

theorem breaksFrom_ink (h : isBlank c = false) (passMarks : Bool) (limit count : Nat) :
    breaksFrom passMarks limit count (.char c :: gs) = some count :=
  breaksFrom_of_not_spacing (Glyph.isSpacing_of_not_blank h) passMarks limit count

/-- The breaks behind ink are counted, as far as they are asked for. -/
theorem breaksFrom_breaks (h : isBlank c = false) {passMarks : Bool}
    (hpass : quoted = true → passMarks = true) {limit count : Nat} (n : Nat)
    (hcount : count < limit) :
    breaksFrom passMarks limit count (breaks quoted n ++ .char c :: gs) =
      some (min (count + n) limit) := by
  induction n generalizing count with
  | zero =>
    rw [Nat.add_zero, Nat.min_eq_left (Nat.le_of_lt hcount)]
    exact breaksFrom_ink h passMarks limit count
  | succ n ih =>
    have hbreak : breaksFrom passMarks limit count (breaks quoted (n + 1) ++ .char c :: gs) =
        breaksFrom passMarks limit count
          (.char '\n' :: .char '\r' :: (breaks quoted n ++ .char c :: gs)) := by
      cases quoted with
      | false => rfl
      | true =>
        cases hpass rfl
        rfl
    rw [hbreak, breaksFrom]
    -- The count stops at the limit, whatever stands before.
    by_cases hlimit : limit ≤ count + 1
    · have hmin : min (count + (n + 1)) limit = count + 1 := by omega
      simp [hlimit, hmin]
    · have hnext := @ih (count + 1) (by omega)
      have hsum : count + 1 + n = count + (n + 1) := by omega
      rw [hsum] at hnext
      simp [hlimit, breaksFrom, Glyph.isSpacing, hnext]

theorem endsInFeed_ink (h : isBlank c = false) (gs : List Glyph) :
    (⟨.char c :: gs⟩ : Output).endsInFeed = false := by
  apply beq_eq_false_iff_ne.2
  intro heq
  cases heq
  exact ne_feed_of_ink h rfl

theorem onFreshQuotedLine_ink (h : isBlank c = false) (gs : List Glyph) :
    (⟨.char c :: gs⟩ : Output).onFreshQuotedLine = false := by
  unfold onFreshQuotedLine
  rw [List.dropWhile_cons_of_neg (by simp [Glyph.isGap_of_not_blank h])]
  rfl

theorem onFreshQuotedLine_breaks (h : isBlank c = false) (n : Nat) :
    (⟨breaks quoted n ++ .char c :: gs⟩ : Output).onFreshQuotedLine = (quoted && n != 0) := by
  cases n with
  | zero => rw [bne_self_eq_false, Bool.and_false]; exact onFreshQuotedLine_ink h gs
  | succ n => cases quoted <;> rfl

theorem dropSpace_ink (h : isBlank c = false) (gs : List Glyph) :
    (⟨.char c :: gs⟩ : Output).dropSpace = ⟨.char c :: gs⟩ := by
  unfold dropSpace
  split
  · next heq =>
    cases heq
    cases h
  · rfl

theorem dropSpace_breaks (h : isBlank c = false) (n : Nat) :
    (⟨breaks false n ++ .char c :: gs⟩ : Output).dropSpace = ⟨breaks false n ++ .char c :: gs⟩ := by
  cases n with
  | zero => exact dropSpace_ink h gs
  | succ n => rfl

/-! ## Taking back -/

theorem stripQuoteTail_of_not_fresh {o : Output} (h : o.onFreshQuotedLine = false) :
    o.stripQuoteTail = o := by
  rw [stripQuoteTail, h]
  rfl

/-- Quoted breaks are taken back, plain ones are not. -/
theorem stripQuoteTail_breaks (h : isBlank c = false) (n : Nat) :
    (⟨breaks quoted n ++ .char c :: gs⟩ : Output).stripQuoteTail =
      if quoted then ⟨.char c :: gs⟩ else ⟨breaks quoted n ++ .char c :: gs⟩ := by
  cases quoted with
  | false => exact stripQuoteTail_of_not_fresh (onFreshQuotedLine_breaks h n)
  | true =>
    cases n with
    | zero => exact stripQuoteTail_of_not_fresh (onFreshQuotedLine_ink h gs)
    | succ n =>
      have hdrop : ∀ n, (breaks true n ++ .char c :: gs).dropWhile Glyph.isRemovable =
          .char c :: gs := by
        intro n
        induction n with
        | zero => exact List.dropWhile_cons_of_neg (by simp [Glyph.isRemovable_of_not_blank h])
        | succ n ih => exact ih
      rw [stripQuoteTail, onFreshQuotedLine_breaks h, hdrop]
      rfl

theorem stripQuoteTail_space (h : isBlank c = false) :
    (⟨.char ' ' :: .char c :: gs⟩ : Output).stripQuoteTail = ⟨.char ' ' :: .char c :: gs⟩ :=
  stripQuoteTail_of_not_fresh (onFreshQuotedLine_ink h gs)

/-! ## Setting off -/

theorem setOff_false_breaks (h : isBlank c = false) {n : Nat} (hn : 0 < n) (k : Nat) :
    setOff false n ⟨breaks false k ++ .char c :: gs⟩ =
      ⟨breaks false (n - min k n + k) ++ .char c :: gs⟩ := by
  have htrailing : (⟨breaks false k ++ .char c :: gs⟩ : Output).trailingBreaks n = min k n := by
    rw [trailingBreaks, breaksFrom_breaks h (by simp) k hn, Nat.zero_add]
    rfl
  show (stripQuoteTail _).separate n false false = _
  rw [stripQuoteTail_breaks h, if_neg (by decide)]
  show pushBreaks (n - trailingBreaks _ n) (dropSpace _) = _
  rw [htrailing, dropSpace_breaks h, glyphs_pushBreaks, ← List.append_assoc, breaks_append_breaks]

/-- Quoted breaks behind ink and quoted breaks. -/
theorem setOff_true_breaks (h : isBlank c = false) {n : Nat} (hn : 0 < n) (k : Nat) :
    setOff true n ⟨breaks true k ++ .char c :: gs⟩ =
      ⟨breaks true (n - min k n + k) ++ .char c :: gs⟩ := by
  have hfeed : (⟨breaks true k ++ .char c :: gs⟩ : Output).endsInFeed = false := by
    cases k with
    | zero => exact endsInFeed_ink h gs
    | succ k => rfl
  have htrailing : (⟨breaks true k ++ .char c :: gs⟩ : Output).trailingQuotedBreaks? n =
      some (min k n) := by
    rw [trailingQuotedBreaks?, breaksFrom_breaks h (by simp) k hn, Nat.zero_add]
  have hdrop : (if min k n = 0 then (⟨breaks true k ++ .char c :: gs⟩ : Output).dropSpace
      else ⟨breaks true k ++ .char c :: gs⟩) = ⟨breaks true k ++ .char c :: gs⟩ := by
    split
    · next hk =>
      obtain rfl : k = 0 := by omega
      exact dropSpace_ink h gs
    · rfl
  show separateQuoted _ n = _
  simp only [separateQuoted, hfeed, Bool.false_eq_true, if_false, htrailing, hdrop]
  rw [glyphs_pushQuotedBreaks, ← List.append_assoc, breaks_append_breaks]

theorem setOff_breaks (h : isBlank c = false) {n : Nat} (hn : 0 < n) (k : Nat) :
    setOff quoted n ⟨breaks quoted k ++ .char c :: gs⟩ =
      ⟨breaks quoted (max n k) ++ .char c :: gs⟩ := by
  have hsum : n - min k n + k = max n k := by omega
  rw [← hsum]
  cases quoted with
  | false => exact setOff_false_breaks h hn k
  | true => exact setOff_true_breaks h hn k

/-- A space behind ink gives way to the breaks. -/
theorem setOff_space (h : isBlank c = false) (n : Nat) :
    setOff quoted n ⟨.char ' ' :: .char c :: gs⟩ = ⟨breaks quoted n ++ .char c :: gs⟩ := by
  have hcount : ∀ pass, breaksFrom pass n 0 (.char ' ' :: .char c :: gs) = some 0 := by
    intro pass
    show breaksFrom pass n 0 (.char c :: gs) = some 0
    exact breaksFrom_ink h pass n 0
  cases quoted with
  | false =>
    show (stripQuoteTail _).separate n false false = _
    rw [stripQuoteTail_space h]
    show pushBreaks (n - (breaksFrom false n 0 _).getD n) ⟨.char c :: gs⟩ = _
    rw [hcount, glyphs_pushBreaks]
    rfl
  | true =>
    have hfeed : (⟨.char ' ' :: .char c :: gs⟩ : Output).endsInFeed = false := rfl
    have htrailing : (⟨.char ' ' :: .char c :: gs⟩ : Output).trailingQuotedBreaks? n = some 0 :=
      hcount true
    show separateQuoted _ n = _
    simp only [separateQuoted, hfeed, Bool.false_eq_true, if_false, htrailing, if_true]
    exact glyphs_pushQuotedBreaks n (.char c :: gs)

/-- In a quotation a first mark goes behind plain breaks, which are counted like quoted ones. -/
theorem setOff_mark (h : isBlank c = false) {n k : Nat} (hn : 0 < n) (hk : 0 < k) :
    setOff true n ⟨.char ' ' :: .mark :: (breaks false k ++ .char c :: gs)⟩ =
      ⟨breaks true (n - k) ++ .char ' ' :: .mark :: (breaks false k ++ .char c :: gs)⟩ := by
  have hfeed : (⟨.char ' ' :: .mark :: (breaks false k ++ .char c :: gs)⟩ : Output).endsInFeed =
      false := rfl
  have hcount : (⟨.char ' ' :: .mark :: (breaks false k ++ .char c :: gs)⟩ :
      Output).trailingQuotedBreaks? n = some (min k n) := by
    show breaksFrom true n 0 (breaks false k ++ .char c :: gs) = _
    rw [breaksFrom_breaks h (by simp) k hn, Nat.zero_add]
  have hsome : min k n ≠ 0 := by omega
  have hmissing : n - min k n = n - k := by omega
  show separateQuoted _ n = _
  simp only [separateQuoted, hfeed, Bool.false_eq_true, if_false, hcount, if_neg hsome, hmissing]
  rw [glyphs_pushQuotedBreaks]

theorem setOff_feed (h : isBlank c = false) {n k : Nat} (hn : 0 < n) (hk : 0 < k) :
    setOff true n ⟨breaks false k ++ .char c :: gs⟩ =
      ⟨breaks true (n - k) ++ .char ' ' :: .mark :: (breaks false k ++ .char c :: gs)⟩ := by
  have hfeed : (⟨breaks false k ++ .char c :: gs⟩ : Output).endsInFeed = true := by
    cases k with
    | zero => cases hk
    | succ k => rfl
  rw [← setOff_mark h hn hk]
  show separateQuoted _ n = separateQuoted _ n
  simp only [separateQuoted, hfeed, if_true]
  rfl

end Output

end HtmlMarkdown
