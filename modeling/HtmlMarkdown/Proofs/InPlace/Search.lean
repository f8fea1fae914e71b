import HtmlMarkdown.InPlace.Scan
import HtmlMarkdown.Proofs.InPlace.Access
import HtmlMarkdown.Proofs.Text.Occurrence

/-!
# Searching a stored text

The searches look at bytes, each of which they take for a character (`spread`).  An ASCII character
is spread to itself, and any other to characters beyond ASCII, none of which is a delimiter.  So a
search for ASCII characters finds in the bytes what it finds in the text, at a good place
(`findByte?_append`, `findExact?_append`, `findAnyCase?_append`).
-/

namespace HtmlMarkdown.InPlace

open Text Utf8 Offset

/-- The characters that the bytes of a text are taken for. -/
def spread (s : List Char) : List Char := view (encode s)

@[simp] theorem spread_nil : spread [] = [] := rfl

theorem spread_append (s t : List Char) : spread (s ++ t) = spread s ++ spread t := by
  rw [spread, encode_append, view, List.map_append, spread, spread, view, view]

theorem spread_cons (c : Char) (s : List Char) : spread (c :: s) = spread [c] ++ spread s :=
  spread_append [c] s

@[simp] theorem length_spread (s : List Char) : (spread s).length = byteSize s := by
  rw [spread, length_view, length_encode]

theorem spread_ascii {c : Char} (h : c.toNat < 128) : spread [c] = [c] := by
  rw [spread, encode_ascii h]
  exact congrArg (· :: []) (asChar_toUInt8 h)

theorem spread_cons_ascii {c : Char} (h : c.toNat < 128) (s : List Char) :
    spread (c :: s) = c :: spread s := by
  rw [spread_cons, spread_ascii h, List.singleton_append]

theorem spread_of_ascii {s : List Char} (h : ∀ c ∈ s, c.toNat < 128) : spread s = s := by
  induction s with
  | nil => rfl
  | cons c s ih =>
    rw [List.forall_mem_cons] at h
    rw [spread_cons_ascii h.1, ih h.2]

theorem spread_beyond {c d : Char} (h : 128 ≤ c.toNat) (hd : d ∈ spread [c]) : 128 ≤ d.toNat := by
  obtain ⟨b, hb, rfl⟩ := List.mem_map.1 hd
  exact beyond_of_mem_encode h hb

theorem viewFrom_encode (a m : List Char) : viewFrom (encode (a ++ m)) (byteSize a) = spread m := by
  rw [viewFrom, ← length_spread, ← spread, spread_append, List.drop_left]

/-! ## One character -/

theorem cut?_spread {c : Char} (hc : c.toNat < 128) (m : List Char) :
    cut? c (spread m) = (cut? c m).map fun (x, y) => (spread x, spread y) := by
  induction m with
  | nil => rfl
  | cons d m ih =>
    by_cases hd : d.toNat < 128
    · rw [spread_cons_ascii hd]
      by_cases heq : d = c
      · rw [heq, cut?_cons_self, cut?_cons_self]
        rfl
      · rw [cut?_cons_of_ne heq, cut?_cons_of_ne heq, ih, Option.map_map, Option.map_map]
        congr 1
        funext xy
        exact congrArg (·, spread xy.2) (spread_cons_ascii hd xy.1).symm
    · have hbeyond : 128 ≤ d.toNat := Nat.le_of_not_lt hd
      have hnot : c ∉ spread [d] := fun hmem =>
        absurd (spread_beyond hbeyond hmem) (Nat.not_le_of_lt hc)
      have hne : d ≠ c := fun heq => hd (heq ▸ hc)
      rw [spread_cons, cut?_append_of_not_mem hnot, ih, cut?_cons_of_ne hne, Option.map_map,
        Option.map_map]
      congr 1
      funext xy
      exact congrArg (·, spread xy.2) (spread_cons d xy.1).symm

theorem mem_spread_iff {c : Char} (hc : c.toNat < 128) {m : List Char} :
    c ∈ spread m ↔ c ∈ m := by
  rw [← not_iff_not, ← cut?_eq_none_iff, ← cut?_eq_none_iff, cut?_spread hc, Option.map_eq_none_iff]

theorem findByte?_append {c : Char} (hc : c.toNat < 128) (a m : List Char) :
    findByte? (byteOf c) (encode (a ++ m)) (byteSize a) =
      (cut? c m).map fun (x, _) => byteSize (a ++ x) := by
  have hchar : Char.ofNat (byteOf c).toNat = c := asChar_toUInt8 hc
  rw [findByte?, viewFrom_encode, hchar, cut?_spread hc, Option.map_map]
  congr 1
  funext ⟨x, y⟩
  show byteSize a + (spread x).length = byteSize (a ++ x)
  rw [length_spread, byteSize_append]

/-! ## Words -/

section Word

variable {same : Char → Char → Bool} {word : List Char}
  (h : ∀ w ∈ word, ∀ c : Char, 128 ≤ c.toNat → same w c = false)

include h

/-- A word of ASCII characters is read from the bytes as it is from the text. -/
theorem after?_spread (m : List Char) :
    after? same word (spread m) = (after? same word m).map spread := by
  induction word generalizing m with
  | nil => rfl
  | cons w word ih =>
    rw [List.forall_mem_cons] at h
    cases m with
    | nil => rfl
    | cons d m =>
      by_cases hd : d.toNat < 128
      · rw [spread_cons_ascii hd, after?, after?]
        split
        · exact ih h.2 m
        · rfl
      · have hbeyond : 128 ≤ d.toNat := Nat.le_of_not_lt hd
        obtain ⟨b, bs, hb⟩ := exists_encode_eq_cons d
        have hspread : spread [d] = asChar b :: view bs := by
          rw [spread, hb]
          rfl
        have hfirst := h.1 (asChar b) (beyond_of_mem_encode hbeyond (hb ▸ List.mem_cons_self ..))
        rw [spread_cons, hspread, List.cons_append, after?, after?, hfirst, h.1 d hbeyond]
        rfl

theorem locate?_skip (hne : word ≠ []) {x : List Char} (hx : ∀ c ∈ x, 128 ≤ c.toNat)
    (s : List Char) :
    locate? same word (x ++ s) = (locate? same word s).map fun (a, b) => (x ++ a, b) := by
  obtain ⟨w, ws, rfl⟩ := List.exists_cons_of_ne_nil hne
  induction x with
  | nil => simp
  | cons c x ih =>
    rw [List.forall_mem_cons] at hx
    have hnone : after? same (w :: ws) (c :: (x ++ s)) = none := by
      rw [after?, h w (List.mem_cons_self ..) c hx.1]
      rfl
    rw [List.cons_append, locate?, hnone, ih hx.2]
    show Option.map _ (Option.map _ _) = _
    rw [Option.map_map]
    rfl

/-- A word of ASCII characters is found in the bytes where it is in the text. -/
theorem locate?_spread (hne : word ≠ []) (m : List Char) :
    locate? same word (spread m) = (locate? same word m).map fun (x, y) => (spread x, spread y) := by
  induction m with
  | nil => rfl
  | cons d m ih =>
    by_cases hd : d.toNat < 128
    · have hafter := after?_spread h (d :: m)
      rw [spread_cons_ascii hd] at hafter ⊢
      rw [locate?, locate?, hafter, Option.isSome_map, ih]
      split
      · exact congrArg (fun y => some ([], y)) (spread_cons_ascii hd m).symm
      · rw [Option.map_map, Option.map_map]
        congr 1
        funext xy
        exact congrArg (·, spread xy.2) (spread_cons_ascii hd xy.1).symm
    · have hbeyond : 128 ≤ d.toNat := Nat.le_of_not_lt hd
      have hone := locate?_skip h hne (x := [d]) (by simpa using hbeyond) m
      rw [List.singleton_append] at hone
      rw [spread_cons, locate?_skip h hne (fun c hc => spread_beyond hbeyond hc), ih, hone,
        Option.map_map, Option.map_map]
      congr 1
      funext xy
      exact congrArg (·, spread xy.2) (spread_cons d xy.1).symm

end Word

theorem find?_append {same : Char → Char → Bool} {word : List Char}
    (h : ∀ w ∈ word, ∀ c : Char, 128 ≤ c.toNat → same w c = false)
    (hword : ∀ c ∈ word, c.toNat < 128) (hne : word ≠ []) (a m : List Char) :
    find? same (encode word) (encode (a ++ m)) (byteSize a) =
      (locate? same word m).map fun (x, _) => byteSize (a ++ x) := by
  have hview : view (encode word) = word := spread_of_ascii hword
  have hbytes : (encode word).isEmpty = false := by
    obtain ⟨c, s, rfl⟩ := List.exists_cons_of_ne_nil hne
    obtain ⟨b, bs, hb⟩ := exists_encode_eq_cons c
    rw [← List.singleton_append, encode_append, hb]
    rfl
  rw [find?, hbytes, hview, viewFrom_encode, locate?_spread h hne]
  show Option.map _ (Option.map _ _) = _
  rw [Option.map_map]
  congr 1
  funext ⟨x, y⟩
  show byteSize a + (spread x).length = byteSize (a ++ x)
  rw [length_spread, byteSize_append]

theorem findExact?_append {word : List Char} (hword : ∀ c ∈ word, c.toNat < 128) (hne : word ≠ [])
    (a m : List Char) :
    findExact? (encode word) (encode (a ++ m)) (byteSize a) =
      (locate? (· == ·) word m).map fun (x, _) => byteSize (a ++ x) := by
  refine find?_append (fun w hw c hc => ?_) hword hne a m
  apply beq_eq_false_iff_ne.2
  rintro rfl
  exact absurd (hword w hw) (Nat.not_lt_of_le hc)

theorem toLower_ascii {c : Char} (h : c.toNat < 128) : c.toLower.toNat < 128 := by
  have hall : ∀ n < 128, (Char.ofNat n).toLower.toNat < 128 := by decide
  have hc := hall c.toNat h
  rwa [Char.ofNat_toNat] at hc

theorem toLower_beyond {c : Char} (h : 128 ≤ c.toNat) : c.toLower = c := by
  unfold Char.toLower
  split
  · next hc =>
    have hle : c.val.toNat ≤ 90 := hc.2
    exact absurd (Nat.le_trans h hle) (by decide)
  · rfl

theorem sameLetter_beyond {w c : Char} (hw : w.toNat < 128) (hc : 128 ≤ c.toNat) :
    sameLetter w c = false := by
  apply Bool.eq_false_iff.2
  intro h
  have hlower := toLower_ascii hw
  rw [sameLetter_iff.1 h, toLower_beyond hc] at hlower
  exact absurd hlower (Nat.not_lt_of_le hc)

theorem ascii_of_lower {w word : List Char} (h : lower w = lower word)
    (hword : ∀ c ∈ word, c.toNat < 128) : ∀ c ∈ w, c.toNat < 128 := by
  intro c hc
  apply Nat.lt_of_not_le
  intro hbeyond
  have hmem : c ∈ lower word := by
    rw [← h, ← toLower_beyond hbeyond]
    exact List.mem_map_of_mem hc
  obtain ⟨d, hd, rfl⟩ := List.mem_map.1 hmem
  exact absurd (toLower_ascii (hword d hd)) (Nat.not_lt_of_le hbeyond)

theorem byteSize_of_lower {w word : List Char} (h : lower w = lower word)
    (hword : ∀ c ∈ word, c.toNat < 128) : byteSize w = word.length := by
  have hlen := congrArg List.length h
  rw [lower, lower, List.length_map, List.length_map] at hlen
  rw [byteSize_ascii (ascii_of_lower h hword), hlen]

theorem findAnyCase?_append {word : List Char} (hword : ∀ c ∈ word, c.toNat < 128) (hne : word ≠ [])
    (a m : List Char) :
    findAnyCase? (encode word) (encode (a ++ m)) (byteSize a) =
      (locate? sameLetter word m).map fun (x, _) => byteSize (a ++ x) :=
  find?_append (fun w hw _ hc => sameLetter_beyond (hword w hw) hc) hword hne a m

end HtmlMarkdown.InPlace
