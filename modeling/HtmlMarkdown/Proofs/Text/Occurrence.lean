import HtmlMarkdown.Text.Blank
import HtmlMarkdown.Text.Search
import Mathlib.Data.List.Infix

/-!
# Occurrences of words

`after?` reads a word exactly where the text starts with a spelling of it, letter for letter
(`after?_exact_iff`) or up to case (`after?_sameLetter_iff`).  `locate?` finds the first place where
the word starts (`locate?_append`, `locate?_exact_iff`) and nothing if there is none
(`locate?_eq_none_iff`).

A word without a character cannot begin in front of this character and end behind it
(`after?_append_of_not_mem`).  So a text that goes on with such a character is searched in two parts
(`locate?_append_of_not_mem`).
-/

namespace HtmlMarkdown.Text

/-! ## Characters -/

/-- A place in two texts one after the other is a place in one of them. -/
theorem exists_of_append_eq_append_cons {c : Char} {s t x y : List Char}
    (h : s ++ t = x ++ c :: y) :
    (∃ a, x = s ++ a ∧ t = a ++ c :: y) ∨ ∃ a, s = x ++ c :: a ∧ y = a ++ t := by
  rcases List.append_eq_append_iff.1 h with hbehind | ⟨a, rfl, ha⟩
  · exact .inl hbehind
  · cases a with
    | nil => exact .inl ⟨[], by simp, ha.symm⟩
    | cons d a =>
      obtain ⟨rfl, rfl⟩ := List.cons.inj ha
      exact .inr ⟨a, rfl, rfl⟩

theorem cut?_append_of_not_mem {c : Char} {w : List Char} (h : c ∉ w) (s : List Char) :
    cut? c (w ++ s) = (cut? c s).map fun (x, y) => (w ++ x, y) := by
  induction w with
  | nil => simp
  | cons d w ih =>
    rw [List.mem_cons, not_or] at h
    rw [List.cons_append, cut?_cons_of_ne (Ne.symm h.1), ih h.2, Option.map_map]
    rfl

theorem cut?_append_of_not_mem_right {c : Char} {b : List Char} (hb : c ∉ b) (a : List Char) :
    cut? c (a ++ b) = (cut? c a).map fun p => (p.1, p.2 ++ b) := by
  cases h : cut? c a with
  | none =>
    have ha : c ∉ a := cut?_eq_none_iff.1 h
    exact cut?_eq_none_iff.2 (by simp [ha, hb])
  | some p =>
    obtain ⟨ha, hp⟩ := cut?_eq_some_iff.1 h
    exact cut?_eq_some_iff.2 ⟨by simp [ha], hp⟩

/-! ## Letters -/

/-- Only capital letters have another lower case. -/
theorem eq_of_toLower_eq {c d : Char} (h : c.toLower = d) (hd : d.isLower = false) : c = d := by
  unfold Char.toLower at h
  split at h
  · next hc =>
    subst h
    have h₁ : 65 ≤ c.val.toNat := hc.1
    have h₂ : c.val.toNat ≤ 90 := hc.2
    have hsum : (c.val + ('a'.val - 'A'.val)).toNat = c.val.toNat + 32 := by
      rw [UInt32.toNat_add, show ('a'.val - 'A'.val).toNat = 32 from rfl]
      omega
    have ha : 'a'.val ≤ c.val + ('a'.val - 'A'.val) := by
      rw [UInt32.le_iff_toNat_le, hsum, show 'a'.val.toNat = 97 from rfl]
      omega
    have hz : c.val + ('a'.val - 'A'.val) ≤ 'z'.val := by
      rw [UInt32.le_iff_toNat_le, hsum, show 'z'.val.toNat = 122 from rfl]
      omega
    -- the character is changed into a small letter
    have hlow : (decide ('a'.val ≤ c.val + ('a'.val - 'A'.val)) &&
        decide (c.val + ('a'.val - 'A'.val) ≤ 'z'.val)) = false := hd
    rw [decide_eq_true ha, decide_eq_true hz] at hlow
    cases hlow
  · exact h

theorem lower_cons (c : Char) (s : List Char) : lower (c :: s) = c.toLower :: lower s := rfl

theorem lower_append (s t : List Char) : lower (s ++ t) = lower s ++ lower t := List.map_append

theorem sameLetter_self (c : Char) : sameLetter c c = true := by
  simp [sameLetter]

theorem sameLetter_iff {c d : Char} : sameLetter c d = true ↔ c.toLower = d.toLower := by
  simp [sameLetter]

theorem eq_of_sameLetter {c d : Char} (h : sameLetter c d = true) (hd : d.toLower = d)
    (hlow : d.isLower = false) : c = d :=
  eq_of_toLower_eq ((sameLetter_iff.1 h).trans hd) hlow

theorem not_mem_of_lower {c : Char} {w word : List Char} (hw : lower w = word)
    (hc : c.toLower ∉ word) : c ∉ w := by
  intro hmem
  apply hc
  rw [← hw]
  exact List.mem_map_of_mem hmem

theorem mem_of_mem_lower {c : Char} {w : List Char} (h : c ∈ lower w) (hc : c.isLower = false) :
    c ∈ w := by
  obtain ⟨d, hd, hlow⟩ := List.mem_map.1 h
  exact eq_of_toLower_eq hlow hc ▸ hd

/-! ## Words at the start of a text -/

theorem after?_append {same : Char → Char → Bool} {word w : List Char}
    (h : after? same word w = some []) (r : List Char) : after? same word (w ++ r) = some r := by
  induction word generalizing w with
  | nil =>
    simp only [after?, Option.some.injEq] at h
    rw [h]
    rfl
  | cons c word ih =>
    cases w with
    | nil => simp [after?] at h
    | cons d w =>
      rw [after?] at h
      rw [List.cons_append, after?]
      split at h
      · next hcd =>
        rw [if_pos hcd]
        exact ih h
      · cases h

/-- What is read is a spelling of the word. -/
theorem exists_of_after? {same : Char → Char → Bool} {word s r : List Char}
    (h : after? same word s = some r) : ∃ w, s = w ++ r ∧ after? same word w = some [] := by
  induction word generalizing s with
  | nil =>
    refine ⟨[], ?_, rfl⟩
    simpa [after?] using h
  | cons c word ih =>
    cases s with
    | nil => simp [after?] at h
    | cons d s =>
      rw [after?] at h
      split at h
      · next hcd =>
        obtain ⟨w, hw, hread⟩ := ih h
        refine ⟨d :: w, by rw [hw, List.cons_append], ?_⟩
        rw [after?, if_pos hcd, hread]
      · cases h

theorem after?_exact_iff {word s r : List Char} :
    after? (· == ·) word s = some r ↔ s = word ++ r := by
  induction word generalizing s with
  | nil => simp [after?]
  | cons c word ih =>
    cases s with
    | nil => simp [after?]
    | cons d s =>
      by_cases hcd : c = d
      · simp [after?, hcd, ih]
      · simp [after?, hcd, Ne.symm hcd]

theorem after?_sameLetter_nil_iff {word w : List Char} :
    after? sameLetter word w = some [] ↔ lower w = lower word := by
  induction word generalizing w with
  | nil => simp [after?, lower]
  | cons c word ih =>
    cases w with
    | nil => simp [after?, lower]
    | cons d w =>
      by_cases hcd : c.toLower = d.toLower
      · have hread : after? sameLetter (c :: word) (d :: w) = after? sameLetter word w := by
          rw [after?, if_pos (sameLetter_iff.2 hcd)]
        rw [hread, ih]
        simp [lower, hcd]
      · have hread : after? sameLetter (c :: word) (d :: w) = none := by
          rw [after?, if_neg (mt sameLetter_iff.1 hcd)]
        simp [hread, lower, Ne.symm hcd]

theorem after?_sameLetter_iff {word s r : List Char} :
    after? sameLetter word s = some r ↔ ∃ w, s = w ++ r ∧ lower w = lower word := by
  constructor
  · intro h
    obtain ⟨w, hw, hread⟩ := exists_of_after? h
    exact ⟨w, hw, after?_sameLetter_nil_iff.1 hread⟩
  · rintro ⟨w, rfl, hw⟩
    exact after?_append (after?_sameLetter_nil_iff.2 hw) r

/-- A word without the character `d` is read from the text before the first `d`, if at all. -/
theorem after?_append_of_not_mem {same : Char → Char → Bool} {word : List Char} {d : Char}
    (hd : ∀ c ∈ word, same c d = false) (a b : List Char) :
    after? same word (a ++ d :: b) = (after? same word a).map (· ++ d :: b) := by
  induction word generalizing a with
  | nil => rfl
  | cons c word ih =>
    rw [List.forall_mem_cons] at hd
    cases a with
    | nil => simp [after?, hd.1]
    | cons e a =>
      rw [List.cons_append, after?, after?]
      split
      · exact ih hd.2 a
      · rfl

/-- Texts that are equal in lower case start with a word both or neither. -/
theorem after?_lower {word s t : List Char} (h : lower s = lower t) :
    (after? sameLetter word s).map lower = (after? sameLetter word t).map lower := by
  induction word generalizing s t with
  | nil => exact congrArg some h
  | cons w word ih =>
    cases s with
    | nil =>
      obtain rfl : t = [] := List.map_eq_nil_iff.1 h.symm
      rfl
    | cons c s =>
      obtain ⟨d, t, rfl, hd, ht⟩ := List.map_eq_cons_iff.1 h.symm
      rw [after?, after?, sameLetter, sameLetter, hd]
      split
      · exact ih ht.symm
      · rfl

/-! ## Words inside a text -/

/-- The first place where a word starts is found. -/
theorem locate?_append {same : Char → Char → Bool} {word a b : List Char} (hne : b ≠ [])
    (hb : (after? same word b).isSome = true)
    (ha : ∀ x y, a = x ++ y → y ≠ [] → after? same word (y ++ b) = none) :
    locate? same word (a ++ b) = some (a, b) := by
  induction a with
  | nil =>
    obtain ⟨c, s, rfl⟩ := List.exists_cons_of_ne_nil hne
    rw [List.nil_append, locate?, if_pos hb]
  | cons c a ih =>
    have hc : after? same word (c :: (a ++ b)) = none := ha [] (c :: a) rfl (by simp)
    have hrest := ih fun x y hxy hy => ha (c :: x) y (by rw [hxy, List.cons_append]) hy
    rw [List.cons_append, locate?, hc, hrest]
    rfl

theorem locate?_eq_none_iff {same : Char → Char → Bool} {word s : List Char} :
    locate? same word s = none ↔ ∀ a b, s = a ++ b → b ≠ [] → after? same word b = none := by
  induction s with
  | nil =>
    simp only [locate?, true_iff]
    intro a b hab hb
    exact absurd (List.append_eq_nil_iff.1 hab.symm).2 hb
  | cons c s ih =>
    rw [locate?]
    by_cases hc : (after? same word (c :: s)).isSome = true
    · rw [if_pos hc]
      simp only [reduceCtorEq, false_iff]
      intro h
      rw [h [] (c :: s) rfl (by simp)] at hc
      cases hc
    · rw [if_neg hc, Option.map_eq_none_iff, ih]
      constructor
      · intro h a b hab hb
        cases a with
        | nil =>
          rw [List.nil_append] at hab
          rw [← hab]
          exact Option.not_isSome_iff_eq_none.1 hc
        | cons d a =>
          rw [List.cons_append, List.cons.injEq] at hab
          exact h a b hab.2 hb
      · intro h a b hab hb
        exact h (c :: a) b (by rw [hab, List.cons_append]) hb

theorem locate?_eq_none_of_not_mem {c : Char} {word s : List Char} (hc : c ∈ word) (hs : c ∉ s) :
    locate? (· == ·) word s = none := by
  refine locate?_eq_none_iff.2 fun a b hab _ => Option.eq_none_iff_forall_ne_some.2 fun r hr => ?_
  rw [hab, after?_exact_iff.1 hr] at hs
  simp [hc] at hs

/-- No occurrence of a word starts in front of the one that is found. -/
theorem length_le_of_locate? {word s a b : List Char} (h : locate? (· == ·) word s = some (a, b))
    {x y : List Char} (hs : s = x ++ (word ++ y)) : a.length ≤ x.length := by
  induction s generalizing a x with
  | nil => cases h
  | cons c s ih =>
    rw [locate?] at h
    split at h
    · cases h
      exact Nat.zero_le _
    · next hstart =>
      obtain ⟨⟨a', b'⟩, hrest, heq⟩ := Option.map_eq_some_iff.1 h
      cases heq
      cases x with
      | nil =>
        have hread : after? (· == ·) word (c :: s) = some y := after?_exact_iff.2 hs
        exact absurd (Option.isSome_of_eq_some hread) hstart
      | cons d x => exact Nat.succ_le_succ (ih hrest (List.cons.inj hs).2)

/-- A word is found at the first place where it stands. -/
theorem locate?_exact_iff {word s a b : List Char} (hne : word ≠ []) :
    locate? (· == ·) word s = some (a, b) ↔
      s = a ++ b ∧ word <+: b ∧ ∀ x y, s = x ++ (word ++ y) → a.length ≤ x.length := by
  constructor
  · intro h
    obtain ⟨r, hr⟩ := Option.isSome_iff_exists.1 (after?_of_locate? h)
    exact ⟨append_of_locate? h, ⟨r, (after?_exact_iff.1 hr).symm⟩,
      fun x y => length_le_of_locate? h⟩
  · rintro ⟨rfl, ⟨r, rfl⟩, hfirst⟩
    refine locate?_append (by simp [hne]) (by rw [after?_exact_iff.2 rfl]; rfl) fun x y hxy hy => ?_
    refine Option.eq_none_iff_forall_ne_some.2 fun z hz => ?_
    have hearly := hfirst x z (by rw [hxy, List.append_assoc, after?_exact_iff.1 hz])
    have hpos := List.length_pos_iff.2 hy
    rw [hxy, List.length_append] at hearly
    omega

/--
Where a word that holds `d` at its start at most does not occur in front of a `d`, it is looked for
from there on.
-/
theorem locate?_append_of_not_mem {same : Char → Char → Bool} {w : Char} {word : List Char}
    {d : Char} (hd : ∀ c ∈ word, same c d = false) (a b : List Char) :
    locate? same (w :: word) (a ++ d :: b) =
      ((locate? same (w :: word) a).map fun p => (p.1, p.2 ++ d :: b)).or
        ((locate? same (w :: word) (d :: b)).map fun p => (a ++ p.1, p.2)) := by
  induction a with
  | nil => simp [locate?]
  | cons c a ih =>
    have hstart : (after? same (w :: word) (c :: (a ++ d :: b))).isSome =
        (after? same (w :: word) (c :: a)).isSome := by
      rw [after?, after?]
      split
      · rw [after?_append_of_not_mem hd, Option.isSome_map]
      · rfl
    rw [List.cons_append, locate?, locate?, hstart, ih]
    split
    · rfl
    · rw [Option.map_or, Option.map_map, Option.map_map, Option.map_map]
      rfl

/-- The end of a comment is found where the comment ends. -/
theorem locate?_commentEnd {s : List Char} (h : ¬ ['-', '-', '>'] <:+: s) (r : List Char) :
    locate? (· == ·) ['-', '-', '>'] (s ++ '-' :: '-' :: '>' :: r) =
      some (s, '-' :: '-' :: '>' :: r) := by
  apply locate?_append (by simp) (by simp [after?])
  intro x y hxy hy
  apply Option.eq_none_iff_forall_ne_some.2
  intro rest hrest
  rw [after?_exact_iff] at hrest
  match y, hxy, hy, hrest with
  | [a], _, _, hrest => simp at hrest
  | [a, b], _, _, hrest => simp at hrest
  | a :: b :: c :: y, hxy, _, hrest =>
    simp only [List.cons_append, List.nil_append, List.cons.injEq] at hrest
    obtain ⟨rfl, rfl, rfl, -⟩ := hrest
    exact h ⟨x, y, by rw [hxy]; simp⟩

theorem locate?_commentEnd_eq_none {s : List Char} (h : ¬ ['-', '-', '>'] <:+: s) :
    locate? (· == ·) ['-', '-', '>'] s = none := by
  apply locate?_eq_none_iff.2
  intro a b hab _
  apply Option.eq_none_iff_forall_ne_some.2
  intro rest hrest
  rw [after?_exact_iff] at hrest
  exact h ⟨a, rest, by rw [hab, hrest, List.append_assoc]⟩

/-! ## Words that start with `<` -/

theorem sameLetter_lt {c : Char} : sameLetter c '<' = true ↔ c = '<' :=
  ⟨fun h => eq_of_sameLetter h (by decide) (by decide), fun h => h ▸ sameLetter_self _⟩

theorem sameLetter_lt_of_not_mem {word : List Char} (h : '<' ∉ word) :
    ∀ c ∈ word, sameLetter c '<' = false :=
  fun _ hc => Bool.eq_false_iff.2 fun heq => h (sameLetter_lt.1 heq ▸ hc)

/-- No spelling of `word` occurs in the text. -/
def Avoids (word s : List Char) : Prop := ∀ w, lower w = lower word → ¬ w <:+: s

theorem avoids_iff {word s : List Char} : Avoids word s ↔ ¬ lower word <:+: lower s := by
  rw [lower, lower, List.infix_map_iff]
  constructor
  · rintro h ⟨w, hw, heq⟩
    exact h w heq.symm hw
  · intro h w hlow hw
    exact h ⟨w, hw, hlow.symm⟩

instance (word s : List Char) : Decidable (Avoids word s) := decidable_of_iff' _ avoids_iff

theorem after?_eq_none_of_avoids {word s : List Char} (h : Avoids word s) {a b : List Char}
    (hs : s = a ++ b) : after? sameLetter word b = none := by
  apply Option.eq_none_iff_forall_ne_some.2
  intro r hr
  obtain ⟨w, hw, hlow⟩ := after?_sameLetter_iff.1 hr
  exact h w hlow ⟨a, r, by rw [hs, hw, List.append_assoc]⟩

/-- A word with no `<` but the first is found where it first occurs. -/
theorem locate?_append_of_avoids {word a : List Char} (ha : Avoids ('<' :: word) a)
    (hword : '<' ∉ word) {w : List Char} (hw : lower w = lower word) (r : List Char) :
    locate? sameLetter ('<' :: word) (a ++ '<' :: w ++ r) = some (a, '<' :: w ++ r) := by
  have hread : after? sameLetter ('<' :: word) ('<' :: (w ++ r)) = some r :=
    after?_sameLetter_iff.2 ⟨'<' :: w, rfl, congrArg ('<'.toLower :: ·) hw⟩
  have hhere : locate? sameLetter ('<' :: word) ('<' :: (w ++ r)) = some ([], '<' :: (w ++ r)) := by
    rw [locate?, hread]
    rfl
  have hnone : locate? sameLetter ('<' :: word) a = none :=
    locate?_eq_none_iff.2 fun _ _ hxy _ => after?_eq_none_of_avoids ha hxy
  rw [List.append_assoc, List.cons_append,
    locate?_append_of_not_mem (sameLetter_lt_of_not_mem hword), hnone, hhere]
  simp

end HtmlMarkdown.Text
