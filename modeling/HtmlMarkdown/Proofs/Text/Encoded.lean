import HtmlMarkdown.Proofs.Text.Utf8
import Mathlib.Order.Bounds.Defs

/-!
# Reading encoded text

The bytes of a character are read as this character, and no other bytes are
(`readPiece_eq_char_iff`): a form that is longer than need be, half of a surrogate pair and a value
beyond the last character are all ruled out by the bounds of the second byte.

So any bytes are those of a text up to a point where no character starts (`Stuck`), and this text
is the longest one that they start with.  The bytes of a text are decoded (`decode_encode`), and for
all others the fault stands behind that text (`decode_fault`).
-/

namespace HtmlMarkdown.Utf8

open InPlace Text

/-! ## The bytes behind the first one -/

/-- The last `n` bytes of a character with value `v`. -/
def tailBytes : Nat → Nat → List UInt8
  | 0, _ => []
  | n + 1, v => UInt8.ofNat (v / 64 ^ n % 64 + 0x80) :: tailBytes n v

theorem toNat_ofNat {n : Nat} (h : n < 256) : (UInt8.ofNat n).toNat = n := by
  rw [UInt8.toNat_ofNat', Nat.mod_eq_of_lt h]

theorem eq_ofNat_iff {b : UInt8} {n : Nat} (h : n < 256) : b = UInt8.ofNat n ↔ b.toNat = n := by
  rw [← UInt8.toNat_inj, toNat_ofNat h]

/-- The tail of a character is read, and the bytes count as digits of its value. -/
theorem readTail_eq_char_iff {n low high seen value : Nat} {bs rest : List UInt8} {c : Char}
    (hlow : 0x80 ≤ low) (hhigh : high ≤ 0xBF) :
    readTail n low high seen value bs = (.char c, rest) ↔
      ∃ v, v / 64 ^ n = value ∧ c = Char.ofNat v ∧ bs = tailBytes n v ++ rest ∧
        (0 < n → low ≤ v / 64 ^ (n - 1) % 64 + 0x80 ∧ v / 64 ^ (n - 1) % 64 + 0x80 ≤ high) := by
  induction n generalizing low high seen value bs with
  | zero => simp [readTail, tailBytes, eq_comm]
  | succ n ih =>
    cases bs with
    | nil => simp [readTail, tailBytes]
    | cons b bs =>
      have hdigit : ∀ v, v / 64 ^ (n + 1) = v / 64 ^ n / 64 := fun v => by
        rw [Nat.pow_succ, Nat.div_div_eq_div_mul]
      simp only [tailBytes, List.cons_append, List.cons.injEq, Nat.add_sub_cancel, hdigit]
      rw [readTail]
      split
      · next hb =>
        rw [ih (Nat.le_refl _) (Nat.le_refl _)]
        refine exists_congr fun v => ?_
        rw [eq_ofNat_iff (by omega)]
        constructor
        · rintro ⟨hv, hc, hbs, -⟩
          exact ⟨by omega, hc, ⟨by omega, hbs⟩, fun _ => by omega⟩
        · rintro ⟨hv, hc, ⟨hfirst, hbs⟩, -⟩
          exact ⟨by omega, hc, hbs, fun _ => by omega⟩
      · next hb =>
        refine iff_of_false (by simp) ?_
        rintro ⟨v, -, -, ⟨hfirst, -⟩, hbound⟩
        rw [eq_ofNat_iff (by omega)] at hfirst
        exact hb (hfirst ▸ hbound (Nat.succ_pos n))

/-! ## The first byte -/

/-- A character with value `v` has the first byte `b` and `k` more bytes. -/
def Leads (b k v : Nat) : Prop :=
  v.isValidChar ∧
    (k = 1 ∧ 0x80 ≤ v ∧ v < 0x800 ∧ b = v / 64 + 0xC0 ∨
      k = 2 ∧ 0x800 ≤ v ∧ v < 0x10000 ∧ b = v / 64 ^ 2 + 0xE0 ∨
      k = 3 ∧ 0x10000 ≤ v ∧ b = v / 64 ^ 3 + 0xF0)

/-- The value lies within the bounds that the first byte sets. -/
def Lead.Fits (l : Lead) (k v : Nat) : Prop :=
  l.count = k ∧ v / 64 ^ k = l.value ∧ l.low ≤ v / 64 ^ (k - 1) % 64 + 0x80 ∧
    v / 64 ^ (k - 1) % 64 + 0x80 ≤ l.high

theorem lead?_ne_none {n : Nat} (hlow : 0xC2 ≤ n) (hhigh : n ≤ 0xF4) : lead? n ≠ none := by
  intro h
  unfold lead? at h
  repeat' split at h
  all_goals cases h
  all_goals omega

theorem Leads.bounds {b k v : Nat} (h : Leads b k v) : 0xC2 ≤ b ∧ b ≤ 0xF4 := by
  unfold Leads Nat.isValidChar at h
  omega

/-- The bounds of the first bytes admit no longer form of a character and no surrogate. -/
theorem Lead.Fits.leads {b k v : Nat} {l : Lead} (hl : lead? b = some l) (hfits : l.Fits k v) :
    Leads b k v := by
  obtain ⟨rfl, hvalue, hlow, hhigh⟩ := hfits
  unfold lead? at hl
  repeat' split at hl
  all_goals cases hl
  all_goals
    unfold Leads Nat.isValidChar
    dsimp only at *
    omega

theorem Leads.fits {b k v : Nat} {l : Lead} (hl : lead? b = some l) (h : Leads b k v) :
    l.Fits k v := by
  obtain ⟨hvalid, ⟨rfl, hv⟩ | ⟨rfl, hv⟩ | ⟨rfl, hv⟩⟩ := h
  all_goals
    unfold Nat.isValidChar at hvalid
    unfold lead? at hl
    repeat' split at hl
  all_goals cases hl
  all_goals
    unfold Lead.Fits
    dsimp only
    omega

/-! ## Characters -/

theorem encode_of_leads {b k : Nat} {c : Char} (h : Leads b k c.toNat) :
    encode [c] = UInt8.ofNat b :: tailBytes k c.toNat := by
  rw [encode_singleton, String.utf8EncodeChar.eq_1, show c.val.toNat = c.toNat from rfl]
  generalize c.toNat = v at h
  obtain ⟨hvalid, hv⟩ := h
  unfold Nat.isValidChar at hvalid
  rw [if_neg (by omega)]
  rcases hv with ⟨rfl, hlow, hhigh, rfl⟩ | ⟨rfl, hlow, hhigh, rfl⟩ | ⟨rfl, hlow, rfl⟩
  · rw [if_pos (by omega), Nat.mod_eq_of_lt (show v / 64 < 32 by omega)]
    simp [tailBytes]
  · rw [if_neg (by omega), if_pos (by omega), Nat.mod_eq_of_lt (show v / 4096 < 16 by omega)]
    simp [tailBytes]
  · rw [if_neg (by omega), if_neg (by omega), Nat.mod_eq_of_lt (show v / 262144 < 8 by omega)]
    simp [tailBytes]

theorem exists_leads {c : Char} (h : 128 ≤ c.toNat) : ∃ b k, Leads b k c.toNat := by
  have hvalid : c.toNat.isValidChar := c.valid
  rcases Nat.lt_or_ge c.toNat 0x800 with h1 | h1
  · exact ⟨_, _, hvalid, .inl ⟨rfl, h, h1, rfl⟩⟩
  rcases Nat.lt_or_ge c.toNat 0x10000 with h2 | h2
  · exact ⟨_, _, hvalid, .inr (.inl ⟨rfl, h1, h2, rfl⟩)⟩
  · exact ⟨_, _, hvalid, .inr (.inr ⟨rfl, h2, rfl⟩)⟩

/-- Behind a first byte that is not ASCII stand the other bytes of its character. -/
theorem readPiece_eq_char_iff_leads {b : UInt8} (hb : ¬ b.toNat < 0x80) {bs rest : List UInt8}
    {c : Char} :
    readPiece b bs = (.char c, rest) ↔
      ∃ k, Leads b.toNat k c.toNat ∧ bs = tailBytes k c.toNat ++ rest := by
  rw [readPiece, if_neg hb]
  cases hl : lead? b.toNat with
  | none =>
    refine iff_of_false (by simp) ?_
    rintro ⟨k, hleads, -⟩
    exact lead?_ne_none hleads.bounds.1 hleads.bounds.2 hl
  | some l =>
    obtain ⟨hlow, hhigh, hcount, -⟩ := lead?_bounds hl
    dsimp only
    rw [readTail_eq_char_iff hlow hhigh]
    constructor
    · rintro ⟨v, hvalue, rfl, hbs, hbound⟩
      have hleads : Leads b.toNat l.count v := Lead.Fits.leads hl ⟨rfl, hvalue, hbound hcount⟩
      have hnat : (Char.ofNat v).toNat = v := by
        rw [Char.ofNat, dif_pos hleads.1]
        rfl
      exact ⟨l.count, by rwa [hnat], by rwa [hnat]⟩
    · rintro ⟨k, hleads, hbs⟩
      obtain ⟨rfl, hvalue, hbound⟩ := Leads.fits hl hleads
      exact ⟨c.toNat, hvalue, (Char.ofNat_toNat c).symm, hbs, fun _ => hbound⟩

theorem encode_asChar {b : UInt8} (hb : b.toNat < 0x80) : encode [asChar b] = [b] := by
  have hc : (asChar b).toNat < 128 := by rwa [toNat_asChar]
  rw [encode_ascii hc, UInt8.toNat_inj.1 ((toNat_toUInt8_ascii hc).trans (toNat_asChar b))]

theorem encode_map_asChar {bs : List UInt8} (h : ∀ b ∈ bs, b.toNat < 0x80) :
    encode (bs.map asChar) = bs := by
  induction bs with
  | nil => rfl
  | cons b bs ih =>
    rw [List.forall_mem_cons] at h
    rw [List.map_cons, ← List.singleton_append, encode_append, encode_asChar h.1, ih h.2]
    rfl

/-- Just the bytes of a character are read as this character. -/
theorem readPiece_eq_char_iff {b : UInt8} {bs rest : List UInt8} {c : Char} :
    readPiece b bs = (.char c, rest) ↔ b :: bs = encode [c] ++ rest := by
  by_cases hb : b.toNat < 0x80
  · rw [readPiece, if_pos hb, Prod.mk.injEq, Piece.char.injEq]
    constructor
    · rintro ⟨rfl, rfl⟩
      exact congrArg (· ++ bs) (encode_asChar hb).symm
    · intro h
      rcases Nat.lt_or_ge c.toNat 128 with hc | hc
      · rw [encode_ascii hc] at h
        cases h
        exact ⟨asChar_toUInt8 hc, rfl⟩
      · obtain ⟨d, ds, hd⟩ := exists_encode_eq_cons c
        rw [hd] at h
        cases h
        have hbeyond := beyond_of_mem_encode hc (hd ▸ List.mem_cons_self)
        rw [toNat_asChar] at hbeyond
        omega
  · rw [readPiece_eq_char_iff_leads hb]
    constructor
    · rintro ⟨k, hleads, rfl⟩
      rw [encode_of_leads hleads, UInt8.ofNat_toNat, List.cons_append]
    · intro h
      rcases Nat.lt_or_ge c.toNat 128 with hc | hc
      · rw [encode_ascii hc] at h
        cases h
        exact absurd (toNat_toUInt8_ascii hc ▸ hc) hb
      · obtain ⟨d, k, hleads⟩ := exists_leads hc
        rw [encode_of_leads hleads, List.cons_append, List.cons.injEq,
          eq_ofNat_iff (by have := hleads.bounds; omega)] at h
        exact ⟨k, h.1 ▸ hleads, h.2⟩

/-! ## Texts -/

theorem encode_append_inj {c d : Char} {x y : List UInt8}
    (h : encode [c] ++ x = encode [d] ++ y) : c = d ∧ x = y := by
  obtain ⟨b, bs, hb⟩ := exists_encode_eq_cons c
  have hc : readPiece b (bs ++ x) = (.char c, x) := by
    rw [readPiece_eq_char_iff, hb, List.cons_append]
  have hd : readPiece b (bs ++ x) = (.char d, y) := by
    rw [readPiece_eq_char_iff, ← h, hb, List.cons_append]
  cases hc.symm.trans hd
  exact ⟨rfl, rfl⟩

/-- No character starts the bytes. -/
def Stuck (bs : List UInt8) : Prop := ∀ c, ¬ encode [c] <+: bs

/-- Any bytes are the bytes of a text up to a point where no character starts. -/
theorem exists_eq_encode_append (bs : List UInt8) :
    ∃ s rest, bs = encode s ++ rest ∧ Stuck rest := by
  fun_induction pieces bs with
  | case1 =>
    refine ⟨[], [], rfl, fun c hc => ?_⟩
    obtain ⟨b, bs, hb⟩ := exists_encode_eq_cons c
    rw [hb, List.prefix_nil] at hc
    cases hc
  | case2 b bs ih =>
    by_cases h : Stuck (b :: bs)
    · exact ⟨[], b :: bs, rfl, h⟩
    · obtain ⟨c, hc⟩ := Classical.not_forall.1 h
      obtain ⟨rest, hrest⟩ := Classical.not_not.1 hc
      rw [readPiece_eq_char_iff.2 hrest.symm] at ih
      obtain ⟨s, stuck, rfl, hstuck⟩ := ih
      refine ⟨c :: s, stuck, ?_, hstuck⟩
      rw [← hrest, ← List.append_assoc, ← encode_append, List.singleton_append]

/-- The text in front of the point where no character starts is the longest one. -/
theorem Stuck.prefix_of_encode_prefix {rest : List UInt8} (hstuck : Stuck rest) {s t : List Char}
    (h : encode t <+: encode s ++ rest) : t <+: s := by
  induction s generalizing t with
  | nil =>
    cases t with
    | nil => exact List.nil_prefix
    | cons c t =>
      rw [← List.singleton_append, encode_append] at h
      exact absurd ((List.prefix_append _ _).trans h) (hstuck c)
  | cons d s ih =>
    cases t with
    | nil => exact List.nil_prefix
    | cons c t =>
      obtain ⟨more, hmore⟩ := h
      rw [← List.singleton_append, encode_append, List.append_assoc,
        ← List.singleton_append (l := s), encode_append, List.append_assoc] at hmore
      obtain ⟨rfl, hrest⟩ := encode_append_inj hmore
      exact List.cons_prefix_cons.2 ⟨rfl, ih ⟨more, hrest⟩⟩

/-! ## Decoding -/

theorem pieces_encode_append (s : List Char) (rest : List UInt8) :
    pieces (encode s ++ rest) = s.map .char ++ pieces rest := by
  induction s with
  | nil => rfl
  | cons c s ih =>
    obtain ⟨b, bs, hb⟩ := exists_encode_eq_cons c
    have hread : readPiece b (bs ++ (encode s ++ rest)) = (.char c, encode s ++ rest) := by
      rw [readPiece_eq_char_iff, hb, List.cons_append]
    rw [← List.singleton_append, encode_append, List.append_assoc, hb, List.cons_append, pieces,
      hread, ih]
    rfl

theorem textOf_chars_append (n : Nat) (s : List Char) (ps : List Piece) :
    textOf n (s.map .char ++ ps) = (textOf (n + byteSize s) ps).map (s ++ ·) := by
  induction s generalizing n with
  | nil =>
    cases hps : textOf n ps <;> simp [hps, Except.map]
  | cons c s ih =>
    rw [List.map_cons, List.cons_append, textOf, ih, byteSize_cons, Nat.add_assoc]
    cases textOf (n + (c.utf8Size + byteSize s)) ps <;> rfl

theorem decode_encode (s : List Char) : decode (encode s) = .ok s := by
  have hread := pieces_encode_append s []
  rw [List.append_nil] at hread
  rw [decode, hread, textOf_chars_append, pieces, textOf, Except.map, List.append_nil]

theorem decode_ascii {bs : List UInt8} (h : ∀ b ∈ bs, b.toNat < 0x80) :
    decode bs = .ok (bs.map asChar) := by
  rw [← encode_map_asChar h, decode_encode, encode_map_asChar h]

theorem Stuck.textOf_pieces {rest : List UInt8} (hstuck : Stuck rest) (hne : rest ≠ []) (n : Nat) :
    ∃ size?, textOf n (pieces rest) = .error ⟨n, size?⟩ := by
  obtain ⟨b, bs, rfl⟩ := List.exists_cons_of_ne_nil hne
  rw [pieces]
  cases hread : readPiece b bs with
  | mk p more =>
    cases p with
    | char c => exact absurd ⟨more, (readPiece_eq_char_iff.1 hread).symm⟩ (hstuck c)
    | malformed size => exact ⟨some size, rfl⟩
    | truncated => exact ⟨none, rfl⟩

/-- Other bytes are refused, with the length of the longest text that they start with. -/
theorem decode_fault {bs : List UInt8} (h : ∀ s, bs ≠ encode s) :
    ∃ n size?, decode bs = .error ⟨n, size?⟩ ∧
      IsGreatest {k | ∃ s, encode s <+: bs ∧ (encode s).length = k} n := by
  obtain ⟨s, rest, rfl, hstuck⟩ := exists_eq_encode_append bs
  have hne : rest ≠ [] := by
    rintro rfl
    exact h s (List.append_nil _)
  obtain ⟨size?, hfault⟩ := hstuck.textOf_pieces hne (0 + byteSize s)
  refine ⟨0 + byteSize s, size?, ?_, ⟨s, List.prefix_append _ _, ?_⟩, ?_⟩
  · rw [decode, pieces_encode_append, textOf_chars_append, hfault]
    rfl
  · rw [length_encode, Nat.zero_add]
  · rintro k ⟨t, ht, rfl⟩
    obtain ⟨u, rfl⟩ := hstuck.prefix_of_encode_prefix ht
    rw [← length_encode, encode_append, List.length_append]
    omega

end HtmlMarkdown.Utf8
