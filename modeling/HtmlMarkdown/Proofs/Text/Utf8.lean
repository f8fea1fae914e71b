import HtmlMarkdown.Proofs.InPlace.Access
import Mathlib.Algebra.Group.Nat.Defs

/-!
# Reading bytes that may be faulty

An ASCII byte is no part of another character.  So whatever bytes stand in front of it, they are
read in the same way as without it, up to the kind of fault at their end, and the byte itself is
read as its character (`decodeLossy_append_ascii`).  In turn a `<` is read only where its byte
stands, since the values of longer characters lie beyond ASCII (`exists_value_of_readPiece`,
`not_mem_decodeLossy`).
-/

namespace HtmlMarkdown.Utf8

open InPlace

theorem lead?_bounds {n : Nat} {l : Lead} (h : lead? n = some l) :
    0x80 ≤ l.low ∧ l.high ≤ 0xBF ∧ 0 < l.count ∧
      0x80 ≤ (l.value * 64 + (l.low - 0x80)) * 64 ^ (l.count - 1) := by
  unfold lead? at h
  repeat' split at h
  all_goals cases h
  all_goals
    refine ⟨?_, ?_, ?_, ?_⟩ <;> dsimp only <;> omega

/-! ## Up to an ASCII byte -/

section Append

variable {b : UInt8} (hb : b.toNat < 0x80) (more : List UInt8)

include hb

/-- The tail of a character ends in front of an ASCII byte. -/
theorem readTail_append {n low high seen value : Nat} (hlow : 0x80 ≤ low) (bs : List UInt8) :
    ∃ p, p.toChar = (readTail n low high seen value bs).1.toChar ∧
      readTail n low high seen value (bs ++ b :: more) =
        (p, (readTail n low high seen value bs).2 ++ b :: more) := by
  fun_induction readTail n low high seen value bs with
  | case1 => exact ⟨_, rfl, by simp [readTail]⟩
  | case2 low high seen value n =>
    have hout : ¬ (low ≤ b.toNat ∧ b.toNat ≤ high) := by omega
    exact ⟨.malformed seen, rfl, by simp [readTail, hout]⟩
  | case3 n low high seen value c bs hc ih =>
    obtain ⟨p, hp, hread⟩ := ih (Nat.le_refl _)
    exact ⟨p, hp, by rw [List.cons_append, readTail, if_pos hc, hread]⟩
  | case4 n low high seen value c bs hc =>
    exact ⟨.malformed seen, rfl, by simp [readTail, hc]⟩

theorem readPiece_append (c : UInt8) (bs : List UInt8) :
    ∃ p, p.toChar = (readPiece c bs).1.toChar ∧
      readPiece c (bs ++ b :: more) = (p, (readPiece c bs).2 ++ b :: more) := by
  unfold readPiece
  split
  · exact ⟨_, rfl, rfl⟩
  · split
    · next l hl => exact readTail_append hb more (lead?_bounds hl).1 bs
    · exact ⟨_, rfl, rfl⟩

/-- An ASCII byte is read as its character, and the bytes on both sides of it on their own. -/
theorem decodeLossy_append_ascii (bs : List UInt8) :
    decodeLossy (bs ++ b :: more) =
      decodeLossy bs ++ Char.ofNat b.toNat :: decodeLossy more := by
  unfold decodeLossy
  fun_induction pieces bs with
  | case1 =>
    have hread : readPiece b more = (.char (Char.ofNat b.toNat), more) := if_pos hb
    rw [List.nil_append, pieces, hread]
    rfl
  | case2 c bs ih =>
    obtain ⟨p, hp, hread⟩ := readPiece_append hb more c bs
    rw [List.cons_append, pieces, hread, List.map_cons, hp, ih, List.map_cons, List.cons_append]

end Append

theorem toNat_toUInt8_ascii {c : Char} (h : c.toNat < 128) : c.val.toUInt8.toNat = c.toNat := by
  rw [← toNat_asChar, asChar_toUInt8 h]

theorem encode_cons_ascii {c : Char} (h : c.toNat < 128) (s : List Char) :
    encode (c :: s) = c.val.toUInt8 :: encode s := by
  rw [← List.singleton_append, encode_append, encode_ascii h, List.singleton_append]

theorem take_encode_ascii {s : List Char} (hs : ∀ c ∈ s, c.toNat < 128) (n : Nat) :
    (encode s).take n = encode (s.take n) := by
  induction s generalizing n with
  | nil => simp
  | cons c s ih =>
    rw [List.forall_mem_cons] at hs
    cases n with
    | zero => rfl
    | succ n =>
      rw [encode_cons_ascii hs.1, List.take_succ_cons, ih hs.2, List.take_succ_cons,
        encode_cons_ascii hs.1]

theorem decodeLossy_append_encode_cons {c : Char} (h : c.toNat < 128) (bs : List UInt8)
    (s : List Char) (more : List UInt8) :
    decodeLossy (bs ++ (encode (c :: s) ++ more)) =
      decodeLossy bs ++ c :: decodeLossy (encode s ++ more) := by
  have hnat := toNat_toUInt8_ascii h
  rw [encode_cons_ascii h, List.cons_append, decodeLossy_append_ascii (hnat ▸ h), hnat,
    Char.ofNat_toNat]

@[simp] theorem decodeLossy_nil : decodeLossy [] = [] := by
  rw [decodeLossy, pieces, List.map_nil]

theorem decodeLossy_encode_append {s : List Char} (hs : ∀ c ∈ s, c.toNat < 128)
    (more : List UInt8) : decodeLossy (encode s ++ more) = s ++ decodeLossy more := by
  induction s with
  | nil => rfl
  | cons c s ih =>
    rw [List.forall_mem_cons] at hs
    have hread := decodeLossy_append_encode_cons hs.1 [] s more
    rw [ih hs.2, decodeLossy_nil] at hread
    exact hread

/-! ## Characters of several bytes -/

/-- The value of a character grows with every byte. -/
theorem exists_value_of_readTail {n low high seen value : Nat} {bs rest : List UInt8} {c : Char}
    (h : readTail n low high seen value bs = (.char c, rest)) :
    ∃ v, c = Char.ofNat v ∧ value * 64 ^ n ≤ v := by
  fun_induction readTail n low high seen value bs with
  | case1 low high seen value bs =>
    cases h
    exact ⟨value, rfl, by simp⟩
  | case2 => cases h
  | case3 n low high seen value b bs hb ih =>
    obtain ⟨v, hv, hle⟩ := ih h
    refine ⟨v, hv, Nat.le_trans ?_ hle⟩
    rw [Nat.pow_succ, Nat.mul_comm (64 ^ n), ← Nat.mul_assoc]
    exact Nat.mul_le_mul_right _ (Nat.le_add_right ..)
  | case4 => cases h

/-- A character is one ASCII byte, or its value lies beyond ASCII. -/
theorem exists_value_of_readPiece {b : UInt8} {bs rest : List UInt8} {c : Char}
    (h : readPiece b bs = (.char c, rest)) :
    c = Char.ofNat b.toNat ∨ ∃ v, c = Char.ofNat v ∧ 0x80 ≤ v := by
  unfold readPiece at h
  split at h
  · cases h
    exact .inl rfl
  · right
    split at h
    · next l hl =>
      obtain ⟨hlow, hhigh, hcount, hvalue⟩ := lead?_bounds hl
      obtain ⟨k, hk⟩ := Nat.exists_eq_add_of_lt hcount
      cases bs with
      | nil => simp [hk, readTail] at h
      | cons d bs =>
        rw [hk, Nat.zero_add, readTail] at h
        split at h
        · next hd =>
          obtain ⟨v, hv, hle⟩ := exists_value_of_readTail h
          rw [hk, Nat.zero_add, Nat.add_sub_cancel] at hvalue
          have hfirst : l.value * 64 + (l.low - 0x80) ≤ l.value * 64 + d.toNat % 64 := by omega
          exact ⟨v, hv, Nat.le_trans hvalue (Nat.le_trans (Nat.mul_le_mul_right _ hfirst) hle)⟩
        · cases h
    · cases h

theorem suffix_readTail (n low high seen value : Nat) (bs : List UInt8) :
    (readTail n low high seen value bs).2 <:+ bs := by
  fun_induction readTail n low high seen value bs with
  | case1 | case2 | case4 => exact List.suffix_refl _
  | case3 n low high seen value b bs hb ih => exact ih.trans (List.suffix_cons b bs)

theorem suffix_readPiece (b : UInt8) (bs : List UInt8) : (readPiece b bs).2 <:+ bs := by
  unfold readPiece
  split
  · exact List.suffix_refl bs
  · split
    · exact suffix_readTail ..
    · exact List.suffix_refl bs

theorem ofNat_ne_lt {v : Nat} (h : 0x80 ≤ v) : Char.ofNat v ≠ '<' := by
  intro heq
  by_cases hvalid : v.isValidChar
  · rw [Char.ofNat, dif_pos hvalid] at heq
    have hv : v = 60 := congrArg Char.toNat heq
    omega
  · rw [Char.ofNat, dif_neg hvalid] at heq
    exact absurd heq (by decide)

theorem toChar_readPiece_ne_lt {b : UInt8} (hb : b ≠ 0x3C) (bs : List UInt8) :
    (readPiece b bs).1.toChar ≠ '<' := by
  cases hread : readPiece b bs with
  | mk p rest =>
    cases p with
    | char c =>
      rcases exists_value_of_readPiece hread with rfl | ⟨v, rfl, hv⟩
      · intro heq
        have hnat := toNat_asChar b
        rw [asChar, show Char.ofNat b.toNat = '<' from heq] at hnat
        exact hb (UInt8.toNat_inj.1 hnat.symm)
      · exact ofNat_ne_lt hv
    | malformed | truncated => exact (by decide : '\uFFFD' ≠ '<')

theorem not_mem_decodeLossy {bs : List UInt8} (h : 0x3C ∉ bs) : '<' ∉ decodeLossy bs := by
  unfold decodeLossy
  fun_induction pieces bs with
  | case1 => simp
  | case2 b bs ih =>
    rw [List.mem_cons, not_or] at h
    rw [List.map_cons, List.mem_cons, not_or]
    exact ⟨(toChar_readPiece_ne_lt (Ne.symm h.1) bs).symm,
      ih fun hmem => h.2 ((suffix_readPiece b bs).subset hmem)⟩

end HtmlMarkdown.Utf8
