import HtmlMarkdown.Proofs.InPlace.Search
import HtmlMarkdown.Proofs.Source.Tag

/-!
# Any bytes

Bytes need not be a text, and an offset may lie beyond them.  What the readers see from an offset on
is `viewFrom`, one character for each byte: a search finds the first place of a byte
(`findByte?_eq_some_iff`), a loop passes the characters that satisfy its test
(`skipWhile?_viewFrom`), and scanning a tag in place is scanning the view (`scanTag?_eq`).
-/

namespace HtmlMarkdown

open Text TagName

/-! ## The view -/

namespace Offset

open InPlace

variable {bs : List UInt8} {start : Nat}

theorem asChar_injective {b c : UInt8} (h : asChar b = asChar c) : b = c := by
  have hnat := congrArg Char.toNat h
  rwa [toNat_asChar, toNat_asChar, UInt8.toNat_inj] at hnat

theorem getElem?_viewFrom (bs : List UInt8) (start i : Nat) :
    (viewFrom bs start)[i]? = bs[start + i]?.map asChar := by
  rw [viewFrom, List.getElem?_drop, view, List.getElem?_map]
  rfl

theorem length_viewFrom (bs : List UInt8) (start : Nat) :
    (viewFrom bs start).length = bs.length - start := by
  rw [viewFrom, List.length_drop, length_view]

theorem viewFrom_add (bs : List UInt8) (start n : Nat) :
    viewFrom bs (start + n) = (viewFrom bs start).drop n := by
  rw [viewFrom, viewFrom, List.drop_drop]

theorem viewFrom_add_length {x y : List Char} (h : viewFrom bs start = x ++ y) :
    viewFrom bs (start + x.length) = y := by
  rw [viewFrom_add, h, List.drop_left]

theorem exists_getElem?_of_viewFrom {x y : List Char} {c : Char}
    (h : viewFrom bs start = x ++ c :: y) : ∃ b, bs[start + x.length]? = some b ∧ asChar b = c := by
  have hget := getElem?_viewFrom bs start x.length
  rw [h, getElem?_append_length] at hget
  exact Option.map_eq_some_iff.1 hget.symm

/-! ## Searches -/

/-- The first place from an offset on where a byte stands. -/
structure FirstAt (b : UInt8) (bs : List UInt8) (start i : Nat) : Prop where
  /-- The place is not in front of the offset. -/
  le : start ≤ i
  /-- The byte stands there. -/
  found : bs[i]? = some b
  /-- It does not stand anywhere before. -/
  first : ∀ j, start ≤ j → j < i → bs[j]? ≠ some b

theorem FirstAt.unique {b : UInt8} {i j : Nat} (hi : FirstAt b bs start i)
    (hj : FirstAt b bs start j) : i = j := by
  rcases Nat.lt_trichotomy i j with hlt | rfl | hlt
  · exact absurd hi.found (hj.first i hi.le hlt)
  · rfl
  · exact absurd hj.found (hi.first j hj.le hlt)

theorem mem_viewFrom_iff {b : UInt8} :
    asChar b ∈ viewFrom bs start ↔ ∃ i, start ≤ i ∧ bs[i]? = some b := by
  rw [List.mem_iff_getElem?]
  constructor
  · rintro ⟨i, hi⟩
    rw [getElem?_viewFrom] at hi
    obtain ⟨c, hc, heq⟩ := Option.map_eq_some_iff.1 hi
    exact ⟨start + i, Nat.le_add_right .., asChar_injective heq ▸ hc⟩
  · rintro ⟨i, hle, hi⟩
    refine ⟨i - start, ?_⟩
    rw [getElem?_viewFrom, Nat.add_sub_cancel' hle, hi]
    rfl

theorem findByte?_eq_none_iff {b : UInt8} :
    findByte? b bs start = none ↔ ∀ i, start ≤ i → bs[i]? ≠ some b := by
  show (cut? (asChar b) (viewFrom bs start)).map _ = none ↔ _
  rw [Option.map_eq_none_iff, cut?_eq_none_iff, mem_viewFrom_iff]
  simp

/-- What a search finds is the first place. -/
theorem firstAt_of_findByte? {b : UInt8} {i : Nat} (h : findByte? b bs start = some i) :
    FirstAt b bs start i := by
  obtain ⟨⟨x, y⟩, hcut, rfl⟩ := Option.map_eq_some_iff.1 h
  obtain ⟨hview, hx⟩ := eq_of_cut? hcut
  show FirstAt b bs start (start + x.length)
  refine ⟨Nat.le_add_right .., ?_, fun j hle hlt hj => ?_⟩
  · obtain ⟨c, hc, heq⟩ := exists_getElem?_of_viewFrom hview
    exact asChar_injective heq ▸ hc
  · have hbefore := getElem?_viewFrom bs start (j - start)
    rw [Nat.add_sub_cancel' hle, hj, hview, List.getElem?_append_left (by omega)] at hbefore
    exact hx (List.mem_of_getElem? hbefore)

theorem findByte?_eq_some_iff {b : UInt8} {i : Nat} :
    findByte? b bs start = some i ↔ FirstAt b bs start i := by
  refine ⟨firstAt_of_findByte?, fun h => ?_⟩
  cases hfind : findByte? b bs start with
  | none => exact absurd h.found (findByte?_eq_none_iff.1 hfind i h.le)
  | some j => exact congrArg some ((firstAt_of_findByte? hfind).unique h)

/-- The place that a search finds, counted from the end of the bytes. -/
theorem findByte?_eq_cut? {c : Char} (hc : c.toNat < 128) (bs : List UInt8) (start : Nat) :
    findByte? (byteOf c) bs start =
      (cut? c (viewFrom bs start)).map fun (_, after) => bs.length - (after.length + 1) := by
  have hchar : Char.ofNat (byteOf c).toNat = c := asChar_toUInt8 hc
  rw [findByte?, hchar]
  cases hcut : cut? c (viewFrom bs start) with
  | none => rfl
  | some xy =>
    obtain ⟨x, y⟩ := xy
    have hlen := length_viewFrom bs start
    rw [(eq_of_cut? hcut).1, List.length_append, List.length_cons] at hlen
    show some (start + x.length) = some (bs.length - (y.length + 1))
    congr 1
    omega

end Offset

/-! ## Scanning in place -/

namespace InPlace

open Offset

variable {bs : List UInt8} {start : Nat}

/-- A loop to the end of the bytes passes those that satisfy its test. -/
theorem skipWhile?_viewFrom (p : Char → Bool) (bs : List UInt8) (start : Nat) :
    skipWhile? p bs bs.length start =
      some (start + ((viewFrom bs start).takeWhile p).length) := by
  have hlen := length_viewFrom bs start
  generalize hview : viewFrom bs start = s at hlen
  induction s generalizing start with
  | nil =>
    rw [List.length_nil] at hlen
    rw [skipWhile?, if_neg (by omega)]
    rfl
  | cons c s ih =>
    rw [List.length_cons] at hlen
    obtain ⟨b, hbyte, rfl⟩ := exists_getElem?_of_viewFrom (x := []) hview
    have hnext : viewFrom bs (start + 1) = s := viewFrom_add_length (x := [asChar b]) hview
    rw [skipWhile?, if_pos (by omega), show bs[start]? = some b from hbyte]
    show (if p (asChar b) = true then skipWhile? p bs bs.length (start + 1) else _) = _
    by_cases hb : p (asChar b) = true
    · rw [if_pos hb, List.takeWhile_cons_of_pos hb, ih (start + 1) hnext (by omega),
        List.length_cons, Nat.add_assoc, Nat.add_comm 1]
    · rw [if_neg hb, List.takeWhile_cons_of_neg hb]
      rfl

/-- What scanning finds, with the offset of the `>` that ends the tag. -/
def closing (bs : List UInt8) : TagName.Scan → TagEnd
  | .named name after => .named name (bs.length - (after.length + 1))
  | .nameless after => .nameless (bs.length - (after.length + 1))
  | .unclosed => .unclosed

theorem scanTag_eq_closing (bs : List UInt8) (start : Nat) :
    Offset.scanTag bs start = closing bs (scan (viewFrom bs start)) := by
  rw [Offset.scanTag]
  cases scan (viewFrom bs start) <;> rfl

theorem closing_ofRun (bs : List UInt8) (run after : List Char) :
    closing bs (ofRun run after) =
      if run.head?.any isNameStart then .named (lower run) (bs.length - (after.length + 1))
      else .nameless (bs.length - (after.length + 1)) := by
  unfold ofRun
  split <;> rfl

/-- A run of bytes is a name if it starts like one. -/
theorem finishName?_viewFrom {run rest : List Char} (hview : viewFrom bs start = run ++ rest)
    (after : List Char) :
    finishName? bs start (start + run.length) (bs.length - (after.length + 1)) =
      some (closing bs (ofRun run after)) := by
  rw [closing_ofRun]
  generalize bs.length - (after.length + 1) = close
  cases run with
  | nil => exact if_pos rfl
  | cons c run =>
    have hlen := length_viewFrom bs start
    rw [hview, List.length_append] at hlen
    have hpos : 0 < (c :: run).length := Nat.zero_lt_succ _
    obtain ⟨b, hbyte, hb⟩ := exists_getElem?_of_viewFrom (x := []) hview
    have hsub : sub? bs start (start + (c :: run).length) =
        some ((bs.drop start).take (c :: run).length) := by
      rw [sub?, if_pos ⟨Nat.le_add_right .., by omega⟩, Nat.add_sub_cancel_left]
    have hname : ((bs.drop start).take (c :: run).length).map asChar = c :: run := by
      rw [List.map_take, List.map_drop]
      show (viewFrom bs start).take _ = _
      rw [hview, List.take_left]
    rw [finishName?, if_neg (by omega), show bs[start]? = some b from hbyte]
    show (if isNameStart (asChar b) = true then (sub? _ _ _).bind _ else _) = _
    rw [hb, hsub, Option.bind_some, hname, List.head?_cons, Option.any_some]
    split <;> rfl

/-- Scanning a tag in place fails at no access, and scans what is seen from there. -/
theorem scanTag?_eq (bs : List UInt8) (start : Nat) :
    scanTag? bs start = some (Offset.scanTag bs start) := by
  obtain ⟨run, rest, hview, hrun, hhead⟩ := exists_run isNameChar (viewFrom bs start)
  have hopen : '>' ∉ run := not_mem_of_nameChars (by decide) hrun
  have hlen := length_viewFrom bs start
  rw [hview, List.length_append] at hlen
  rw [scanTag?, skipWhile?_viewFrom, scanTag_eq_closing, hview, takeWhile_append_of_head hrun hhead]
  show (if bs.length ≤ start + run.length then _ else _) = _
  cases rest with
  | nil =>
    rw [List.length_nil] at hlen
    rw [if_pos (by omega), List.append_nil, scan_eq_unclosed hopen]
    rfl
  | cons c r =>
    rw [List.length_cons] at hlen
    have hname : isNameChar c = false := by simpa using hhead
    obtain ⟨b, hbyte, rfl⟩ := exists_getElem?_of_viewFrom hview
    have hrest : viewFrom bs (start + run.length) = asChar b :: r := viewFrom_add_length hview
    rw [if_neg (by omega), hbyte]
    show (if (asChar b == '>') = true then _ else _) = _
    by_cases hc : asChar b = '>'
    · have hclose : start + run.length = bs.length - (r.length + 1) := by omega
      rw [if_pos (by simpa using hc), hc, scan_run_close hrun, ← finishName?_viewFrom hview r, ← hclose]
    · rw [if_neg (by simpa using hc), findByte?_eq_cut? (by decide), hrest, cut?_cons_of_ne hc]
      cases hcut : cut? '>' r with
      | none =>
        have hnot : '>' ∉ run ++ asChar b :: r := by
          simp [hopen, Ne.symm hc, cut?_eq_none_iff.1 hcut]
        rw [scan_eq_unclosed hnot]
        rfl
      | some ya =>
        obtain ⟨y, after⟩ := ya
        obtain ⟨rfl, hy⟩ := eq_of_cut? hcut
        rw [scan_run_rest hrun hname hc hy]
        show (if (asChar b == '/' || isBlank (asChar b)) = true then finishName? _ _ _ _ else _) = _
        rw [finishName?_viewFrom hview]
        split <;> rfl

end InPlace

end HtmlMarkdown
