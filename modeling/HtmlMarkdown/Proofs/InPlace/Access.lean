import HtmlMarkdown.InPlace.Access

/-!
# Good places

The place between `a` and `b` in the text `a ++ b` has the offset `byteSize a`, and at such an
offset a text can be cut (`splitAt?_append`).  An ASCII character is one byte, which stands for it,
and the bytes of any other character stand for characters beyond ASCII (`beyond_of_mem_encode`).  So
a loop over bytes whose test is constant beyond ASCII passes whole characters, and stops at a good
place (`skipWhile?_append`).
-/

namespace HtmlMarkdown.InPlace

open Text Utf8

/-! ## Cuts -/

@[simp] theorem byteSize_nil : byteSize [] = 0 := rfl

@[simp] theorem byteSize_cons (c : Char) (s : List Char) :
    byteSize (c :: s) = c.utf8Size + byteSize s := rfl

theorem byteSize_lt_append_cons (a : List Char) (c : Char) (m : List Char) :
    byteSize a < byteSize (a ++ c :: m) := by
  have hpos := Char.utf8Size_pos c
  rw [byteSize_append, byteSize_cons]
  omega

theorem byteSize_append_ascii {c : Char} (hc : c.toNat < 128) (a : List Char) :
    byteSize (a ++ [c]) = byteSize a + 1 := by
  rw [byteSize_append, byteSize_cons, Char.utf8Size_eq_one_iff.2 (Nat.le_of_lt_succ hc)]
  rfl

theorem splitAt?_append (a b : List Char) : splitAt? (byteSize a) (a ++ b) = some (a, b) := by
  induction a with
  | nil => rw [byteSize_nil, splitAt?, List.nil_append]
  | cons c a ih =>
    obtain ⟨n, hn⟩ := Nat.exists_eq_succ_of_ne_zero (Nat.pos_iff_ne_zero.1 (Char.utf8Size_pos c))
    have hsize : byteSize (c :: a) = n + byteSize a + 1 := by
      rw [byteSize_cons, hn]
      omega
    have hrest : n + byteSize a + 1 - c.utf8Size = byteSize a := by omega
    rw [hsize, List.cons_append, splitAt?, if_pos (by omega), hrest, ih]
    rfl

/-- The offset of the end `rest` of a text. -/
def offset (s rest : List Char) : Nat := byteSize s - byteSize rest

theorem offset_append (a b : List Char) : offset (a ++ b) b = byteSize a := by
  rw [offset, byteSize_append, Nat.add_sub_cancel_right]

theorem slice?_append (a m b : List Char) :
    slice? (a ++ m ++ b) (byteSize a) (byteSize (a ++ m)) = some m := by
  unfold slice?
  rw [byteSize_append, if_pos (Nat.le_add_right ..), List.append_assoc, splitAt?_append,
    Nat.add_sub_cancel_left]
  show ((splitAt? (byteSize m) (m ++ b)).bind fun r => some r.1) = some m
  rw [splitAt?_append]
  rfl

theorem slice?_through {c : Char} (hc : c.toNat < 128) (a m b : List Char) :
    slice? (a ++ m ++ c :: b) (byteSize a) (byteSize (a ++ m) + 1) = some (m ++ [c]) := by
  have hslice := slice?_append a (m ++ [c]) b
  rwa [← List.append_assoc, byteSize_append_ascii hc, ← List.append_cons] at hslice

/-! ## Bytes -/

@[simp] theorem encode_nil : encode [] = [] := rfl

theorem encode_cons (c : Char) (s : List Char) :
    encode (c :: s) = String.utf8EncodeChar c ++ encode s := rfl

@[simp] theorem encode_append (s t : List Char) : encode (s ++ t) = encode s ++ encode t :=
  List.flatMap_append

theorem encode_singleton (c : Char) : encode [c] = String.utf8EncodeChar c := List.append_nil _

@[simp] theorem length_encode (s : List Char) : (encode s).length = byteSize s := by
  induction s with
  | nil => rfl
  | cons c s ih =>
    rw [encode_cons, List.length_append, String.length_utf8EncodeChar, ih, byteSize_cons]

theorem utf8Size_ascii {c : Char} (h : c.toNat < 128) : c.utf8Size = 1 :=
  Char.utf8Size_eq_one_iff.2 (Nat.le_of_lt_succ h)

theorem byteSize_ascii {s : List Char} (h : ∀ c ∈ s, c.toNat < 128) : byteSize s = s.length := by
  induction s with
  | nil => rfl
  | cons c s ih =>
    rw [List.forall_mem_cons] at h
    rw [byteSize_cons, utf8Size_ascii h.1, ih h.2, List.length_cons, Nat.add_comm]

theorem length_le_byteSize (s : List Char) : s.length ≤ byteSize s := by
  induction s with
  | nil => exact Nat.le_refl _
  | cons c s ih =>
    have hpos := Char.utf8Size_pos c
    rw [byteSize_cons, List.length_cons]
    omega

theorem ascii_of_all {s : List Char} (h : (s.all fun c => c.toNat < 128) = true) :
    ∀ c ∈ s, c.toNat < 128 := by
  simpa using h

theorem encode_ascii {c : Char} (h : c.toNat < 128) : encode [c] = [c.val.toUInt8] := by
  rw [encode_singleton, String.utf8EncodeChar_eq_singleton (utf8Size_ascii h)]

theorem asChar_toUInt8 {c : Char} (h : c.toNat < 128) : asChar c.val.toUInt8 = c := by
  have hnat : c.val.toUInt8.toNat = c.toNat := by
    show c.val.toNat % 256 = c.val.toNat
    exact Nat.mod_eq_of_lt (Nat.lt_trans h (by decide))
  rw [asChar, hnat, Char.ofNat_toNat]

theorem toNat_asChar (b : UInt8) : (asChar b).toNat = b.toNat := by
  have hb : b.toNat < 256 := b.toNat_lt
  have hvalid : b.toNat.isValidChar := .inl (by omega)
  rw [asChar, Char.ofNat, dif_pos hvalid]
  rfl

/-- The bytes of a character that is not ASCII stand for characters beyond ASCII. -/
theorem beyond_of_mem_encode {c : Char} (h : 128 ≤ c.toNat) {b : UInt8} (hb : b ∈ encode [c]) :
    128 ≤ (asChar b).toNat := by
  have hbyte : ∀ n, 128 ≤ n → n < 256 → 128 ≤ (UInt8.ofNat n).toNat := by
    intro n hlow hhigh
    rwa [UInt8.toNat_ofNat', Nat.mod_eq_of_lt hhigh]
  rw [toNat_asChar]
  rw [encode_singleton, String.utf8EncodeChar] at hb
  have hval : ¬ c.val.toNat ≤ 127 := by
    show ¬ c.toNat ≤ 127
    omega
  simp only [hval, if_false] at hb
  split at hb
  · simp only [List.mem_cons, List.not_mem_nil, or_false] at hb
    rcases hb with rfl | rfl <;> exact hbyte _ (by omega) (by omega)
  · split at hb
    · simp only [List.mem_cons, List.not_mem_nil, or_false] at hb
      rcases hb with rfl | rfl | rfl <;> exact hbyte _ (by omega) (by omega)
    · simp only [List.mem_cons, List.not_mem_nil, or_false] at hb
      rcases hb with rfl | rfl | rfl | rfl <;> exact hbyte _ (by omega) (by omega)

theorem exists_encode_eq_cons (c : Char) : ∃ b bs, encode [c] = b :: bs := by
  apply List.exists_cons_of_ne_nil
  intro hnil
  have hlen := length_encode [c]
  rw [hnil, byteSize_cons] at hlen
  have hpos := Char.utf8Size_pos c
  simp only [List.length_nil] at hlen
  omega

theorem exists_encode_concat (s : List Char) (c : Char) :
    ∃ bs x, encode (s ++ [c]) = bs ++ [x] ∧ x ∈ encode [c] := by
  obtain ⟨y, ys, hy⟩ := exists_encode_eq_cons c
  have hne : encode [c] ≠ [] := by rw [hy]; exact List.cons_ne_nil y ys
  refine ⟨encode s ++ (encode [c]).dropLast, (encode [c]).getLast hne, ?_, List.getLast_mem hne⟩
  rw [encode_append, List.append_assoc, List.dropLast_concat_getLast hne]

/-! ## Tests -/

/-- A test is constant beyond ASCII. -/
def Constant (p : Char → Bool) : Prop := ∀ c d : Char, 128 ≤ c.toNat → 128 ≤ d.toNat → p c = p d

theorem Constant.of_mem_encode {p : Char → Bool} (hp : Constant p) {c : Char} {b : UInt8}
    (hb : b ∈ encode [c]) : p (asChar b) = p c := by
  by_cases hc : c.toNat < 128
  · rw [encode_ascii hc] at hb
    rw [List.mem_singleton.1 hb, asChar_toUInt8 hc]
  · have hc : 128 ≤ c.toNat := Nat.le_of_not_lt hc
    exact hp _ _ (beyond_of_mem_encode hc hb) hc

theorem Constant.of_false {p : Char → Bool} (h : ∀ c, 128 ≤ c.toNat → p c = false) : Constant p :=
  fun c d hc hd => (h c hc).trans (h d hd).symm

theorem Constant.not {p : Char → Bool} (h : Constant p) : Constant (!p ·) :=
  fun c d hc hd => congrArg Bool.not (h c d hc hd)

theorem Constant.or {p q : Char → Bool} (hp : Constant p) (hq : Constant q) :
    Constant fun c => p c || q c :=
  fun c d hc hd => congr (congrArg Bool.or (hp c d hc hd)) (hq c d hc hd)

theorem beq_beyond {c d : Char} (hc : c.toNat < 128) (hd : 128 ≤ d.toNat) : (d == c) = false := by
  apply beq_eq_false_iff_ne.2
  rintro rfl
  exact absurd hc (Nat.not_lt_of_le hd)

theorem constant_beq {c : Char} (hc : c.toNat < 128) : Constant (· == c) :=
  .of_false fun _ hd => beq_beyond hc hd

theorem isBlank_beyond {c : Char} (h : 128 ≤ c.toNat) : isBlank c = false := by
  cases hc : isBlank c with
  | false => rfl
  | true =>
    rcases eq_of_isBlank hc with rfl | rfl | rfl | rfl | rfl <;> exact absurd h (by decide)

theorem constant_isBlank : Constant isBlank := .of_false fun _ => isBlank_beyond

theorem isAlpha_beyond {c : Char} (h : 128 ≤ c.toNat) : c.isAlpha = false := by
  have hupper : c.isUpper = false := decide_eq_false fun hc =>
    absurd (Nat.le_trans h hc.2) (by decide)
  have hlower : c.isLower = false := by
    have hnot : ¬ c.val ≤ 'z'.val := fun hc => absurd (Nat.le_trans h hc) (by decide)
    show (_ && decide (c.val ≤ 'z'.val)) = false
    rw [decide_eq_false hnot, Bool.and_false]
  show (c.isUpper || c.isLower) = false
  rw [hupper, hlower, Bool.or_self]

theorem isAlphanum_beyond {c : Char} (h : 128 ≤ c.toNat) : c.isAlphanum = false := by
  have hdigit : c.isDigit = false := by
    have hnot : ¬ c.val ≤ '9'.val := fun hc => absurd (Nat.le_trans h hc) (by decide)
    rw [Char.isDigit, decide_eq_false hnot, Bool.and_false]
  rw [Char.isAlphanum, isAlpha_beyond h, hdigit, Bool.or_self]

theorem getElem?_append_length {α : Type} (x : List α) (b : α) (y : List α) :
    (x ++ b :: y)[x.length]? = some b := by
  rw [List.getElem?_append_right (Nat.le_refl _), Nat.sub_self, List.getElem?_cons_zero]

/-- The first byte of a character that stands at a good place. -/
theorem exists_getElem?_encode (a : List Char) (c : Char) (m : List Char) :
    ∃ x, (encode (a ++ c :: m))[byteSize a]? = some x ∧ x ∈ encode [c] := by
  obtain ⟨x, xs, hx⟩ := exists_encode_eq_cons c
  have hbytes : encode (a ++ c :: m) = encode a ++ x :: (xs ++ encode m) := by
    rw [encode_append, ← List.singleton_append, encode_append, hx]
    rfl
  refine ⟨x, ?_, hx ▸ List.mem_cons_self ..⟩
  rw [hbytes, ← length_encode]
  exact getElem?_append_length _ _ _

/-- The same for a character in a stretch of a text. -/
theorem exists_getElem?_encode_inner (a : List Char) (c : Char) (m b : List Char) :
    ∃ x, (encode (a ++ c :: m ++ b))[byteSize a]? = some x ∧ x ∈ encode [c] := by
  rw [List.append_assoc]
  exact exists_getElem?_encode a c (m ++ b)

/-- A test of the next byte of a stretch `m` of a text is a test of its first character. -/
theorem testNext?_append {p : Char → Bool} (hp : Constant p) (a m b : List Char) :
    (if byteSize (a ++ m) ≤ byteSize a then some false
      else ((encode (a ++ m ++ b))[byteSize a]?).bind fun x => some (p (asChar x))) =
      some (m.head?.any p) := by
  cases m with
  | nil =>
    rw [List.append_nil, if_pos (Nat.le_refl _)]
    rfl
  | cons c m =>
    obtain ⟨x, hbyte, hx⟩ := exists_getElem?_encode_inner a c m b
    rw [if_neg (Nat.not_le_of_lt (byteSize_lt_append_cons a c m)), hbyte, Option.bind_some,
      hp.of_mem_encode hx]
    rfl

theorem sub?_append (a m b : List Char) :
    sub? (encode (a ++ m ++ b)) (byteSize a) (byteSize (a ++ m)) = some (encode m) := by
  have hsize : byteSize (a ++ m) - byteSize a = byteSize m := by
    rw [byteSize_append, Nat.add_sub_cancel_left]
  have hlast : byteSize (a ++ m) ≤ (encode (a ++ m ++ b)).length := by
    rw [length_encode, byteSize_append (a ++ m)]
    exact Nat.le_add_right _ _
  have hfirst : byteSize a ≤ byteSize (a ++ m) := by
    rw [byteSize_append]
    exact Nat.le_add_right _ _
  have hdrop : (encode (a ++ m ++ b)).drop (byteSize a) = encode m ++ encode b := by
    rw [List.append_assoc, encode_append, encode_append, ← length_encode, List.drop_left]
  rw [sub?, if_pos ⟨hfirst, hlast⟩, hsize, hdrop, ← length_encode, List.take_left]

/-- A loop passes bytes that satisfy its test. -/
theorem skipWhile?_pass {p : Char → Bool} {x w y : List UInt8} {stop : Nat}
    (hw : ∀ b ∈ w, p (asChar b) = true) (hstop : x.length + w.length ≤ stop) :
    skipWhile? p (x ++ w ++ y) stop x.length =
      skipWhile? p (x ++ w ++ y) stop (x.length + w.length) := by
  induction w generalizing x with
  | nil => rfl
  | cons b w ih =>
    rw [List.forall_mem_cons] at hw
    rw [List.length_cons] at hstop
    have hbyte : (x ++ b :: w ++ y)[x.length]? = some b := by
      rw [List.append_assoc]
      exact getElem?_append_length x b (w ++ y)
    have hassoc : x ++ b :: w ++ y = x ++ [b] ++ w ++ y := by simp
    have hlen : (x ++ [b]).length = x.length + 1 := by simp
    rw [skipWhile?, if_pos (by omega), hbyte]
    show (if p (asChar b) = true then skipWhile? p _ stop (x.length + 1) else _) = _
    rw [if_pos hw.1, hassoc, ← hlen, ih hw.2 (by omega), hlen, List.length_cons, Nat.add_assoc,
      Nat.add_comm 1]

/-- A loop over a stretch `m` of a text passes the characters that satisfy its test. -/
theorem skipWhile?_append {p : Char → Bool} (hp : Constant p) (a m b : List Char) :
    skipWhile? p (encode (a ++ m ++ b)) (byteSize (a ++ m)) (byteSize a) =
      some (byteSize (a ++ m.takeWhile p)) := by
  induction m generalizing a with
  | nil =>
    rw [skipWhile?, if_neg (by simp)]
    simp
  | cons c m ih =>
    have hbytes : encode (a ++ c :: m ++ b) = encode a ++ encode [c] ++ encode (m ++ b) := by
      rw [← encode_append, ← encode_append]
      simp
    have hsize := byteSize_append a (c :: m)
    have hone : (encode [c]).length = c.utf8Size := by simp
    rw [byteSize_cons] at hsize
    by_cases hc : p c = true
    · have hpass : ∀ b ∈ encode [c], p (asChar b) = true := fun b hb => (hp.of_mem_encode hb).trans hc
      have hassoc : a ++ c :: m ++ b = a ++ [c] ++ m ++ b := by simp
      have hstep : byteSize a + c.utf8Size = byteSize (a ++ [c]) := by
        rw [byteSize_append]
        simp
      have hle : (encode a).length + (encode [c]).length ≤ byteSize (a ++ c :: m) := by
        rw [length_encode, hone, hsize]
        omega
      have hskip := skipWhile?_pass (y := encode (m ++ b)) hpass hle
      rw [← hbytes, length_encode, hone, hstep] at hskip
      have hih := ih (a ++ [c])
      rw [← hassoc, List.append_assoc a [c] m, List.append_assoc a [c] (m.takeWhile p)] at hih
      rw [hskip, List.takeWhile_cons_of_pos hc]
      exact hih
    · obtain ⟨x, hbyte, hx⟩ := exists_getElem?_encode a c (m ++ b)
      have hstop : ¬ p (asChar x) = true := by rwa [hp.of_mem_encode hx]
      rw [← List.cons_append, ← List.append_assoc] at hbyte
      have hlt : byteSize a < byteSize (a ++ c :: m) := by
        have hpos := Char.utf8Size_pos c
        omega
      rw [skipWhile?, if_pos hlt, hbyte, List.takeWhile_cons_of_neg hc, List.append_nil]
      exact if_neg hstop

theorem skipWhile?_end {p : Char → Bool} (hp : Constant p) (a m : List Char) :
    skipWhile? p (encode (a ++ m)) (encode (a ++ m)).length (byteSize a) =
      some (byteSize (a ++ m.takeWhile p)) := by
  have hskip := skipWhile?_append hp a m []
  rwa [List.append_nil, ← length_encode (a ++ m)] at hskip

end HtmlMarkdown.InPlace
