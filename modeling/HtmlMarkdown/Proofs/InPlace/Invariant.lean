import HtmlMarkdown.Proofs.InPlace.Buffer
import HtmlMarkdown.Proofs.Output.Ink

/-!
# What holds of a buffer

Whatever operations have been performed, in any order, a buffer is `WellFormed`: it starts with the
space at the start, the offsets of its marks ascend, a `>` stands at each of them, and only blanks
stand between and behind them.

What can be seen in a buffer is kept from what the operations have emitted: the ink that they have
been given, all of it and in order, and some of the marks that they have written
(`run?_wellFormed`).
-/

namespace HtmlMarkdown

open Text Utf8 InPlace

/-! ## Marks -/

/-- The text of a buffer and the offsets of its marks fit together. -/
structure Buffer.WellFormed (b : Buffer) : Prop where
  /-- The buffer is not empty: it starts with a space. -/
  sentinel : b.bytes.head? = some ' '.val.toUInt8
  /-- The offsets of the marks ascend. -/
  ascending : b.marks.Pairwise (· < ·)
  /-- A `>` stands at each offset. -/
  marked : ∀ i ∈ b.marks, b.bytes[i]? = some '>'.val.toUInt8
  /-- Behind the first mark there are only blanks and marks. -/
  vacant : ∀ m ∈ b.marks.head?, ∀ i x, m < i → b.bytes[i]? = some x →
    isBlank (asChar x) = true ∨ i ∈ b.marks

namespace Output

variable {gs : List Glyph}

theorem getElem?_contents_cons {i : Nat} (g : Glyph) (hi : i < extent gs) :
    (encode (contents ⟨g :: gs⟩))[i]? = (encode (contents ⟨gs⟩))[i]? := by
  rw [contents_cons, encode_append, List.getElem?_append_left]
  rwa [length_encode]

theorem getElem?_extent {g : Glyph} (hg : g.toChar.toNat < 128) (gs : List Glyph) :
    (encode (contents ⟨g :: gs⟩))[extent gs]? = some g.toChar.val.toUInt8 := by
  rw [contents_cons, encode_append, encode_ascii hg, extent, ← length_encode]
  exact getElem?_append_length _ _ []

theorem le_extent_of_getElem? {g : Glyph} (hg : g.toChar.toNat < 128) {i : Nat} {x : UInt8}
    (h : (encode (contents ⟨g :: gs⟩))[i]? = some x) : i ≤ extent gs := by
  obtain ⟨hi, -⟩ := List.getElem?_eq_some_iff.1 h
  have hlen : (encode (contents ⟨g :: gs⟩)).length = extent gs + 1 := by
    rw [length_encode, ← extent, extent_cons, utf8Size_ascii hg]
  omega

/-- A `>` stands where a live mark is. -/
theorem getElem?_of_mem_liveMarks {i : Nat} (h : i ∈ liveMarks gs) :
    (encode (contents ⟨gs⟩))[i]? = some '>'.val.toUInt8 := by
  induction gs with
  | nil => cases h
  | cons g gs ih =>
    have hold : ∀ hi : i ∈ liveMarks gs,
        (encode (contents ⟨g :: gs⟩))[i]? = some '>'.val.toUInt8 := fun hi =>
      (getElem?_contents_cons g (lt_extent_of_mem_liveMarks hi)).trans (ih hi)
    cases g with
    | mark =>
      rw [liveMarks, List.mem_append, List.mem_singleton] at h
      rcases h with hi | rfl
      · exact hold hi
      · exact getElem?_extent (g := .mark) (by decide) gs
    | char c =>
      rw [liveMarks] at h
      split at h
      · exact hold h
      · cases h

/-- Behind a live mark there are only blanks and live marks. -/
theorem vacant_behind_liveMarks {m i : Nat} {x : UInt8} (hm : m ∈ liveMarks gs) (hi : m < i)
    (hx : (encode (contents ⟨gs⟩))[i]? = some x) :
    isBlank (asChar x) = true ∨ i ∈ liveMarks gs := by
  induction gs with
  | nil => cases hm
  | cons g gs ih =>
    have hold : i < extent gs → m ∈ liveMarks gs →
        isBlank (asChar x) = true ∨ i ∈ liveMarks gs :=
      fun hlt hm => ih hm (getElem?_contents_cons g hlt ▸ hx)
    cases g with
    | mark =>
      have hle := le_extent_of_getElem? (g := .mark) (by decide) hx
      rw [liveMarks, List.mem_append, List.mem_singleton] at hm ⊢
      by_cases hlt : i < extent gs
      · have hm : m ∈ liveMarks gs := hm.resolve_right fun heq => by
          rw [heq] at hi
          exact Nat.lt_asymm hi hlt
        exact (hold hlt hm).imp id .inl
      · exact .inr (.inr (Nat.le_antisymm hle (Nat.le_of_not_lt hlt)))
    | char c =>
      by_cases hc : isBlank c = true
      · have hascii : c.toNat < 128 := by
          rcases eq_of_isBlank hc with rfl | rfl | rfl | rfl | rfl <;> decide
        have hle := le_extent_of_getElem? (g := .char c) hascii hx
        rw [liveMarks_blank hc] at hm ⊢
        by_cases hlt : i < extent gs
        · exact hold hlt hm
        · left
          have heq : i = extent gs := Nat.le_antisymm hle (Nat.le_of_not_lt hlt)
          rw [heq, getElem?_extent (g := .char c) hascii] at hx
          obtain rfl := Option.some.inj hx
          exact (congrArg isBlank (asChar_toUInt8 hascii)).trans hc
      · rw [liveMarks_ink (Bool.eq_false_iff.2 hc)] at hm
        cases hm

theorem wellFormed_buffer (o : Output) : o.buffer.WellFormed where
  sentinel := rfl
  ascending := pairwise_liveMarks o.glyphs
  marked _ hi := getElem?_of_mem_liveMarks hi
  vacant _ hm _ _ hi hx := vacant_behind_liveMarks (List.mem_of_mem_head? hm) hi hx

/-! ## What can be seen -/

/-- The marks and the ink, in order. -/
def shown (o : Output) : List Glyph := o.glyphs.reverse.filter fun g => !isBlank g.toChar

theorem map_toChar_shown (o : Output) : o.shown.map Glyph.toChar = visible o.contents := by
  rw [contents, visible_cons_blank (by decide), visible, List.filter_map]
  rfl

theorem shown_pushGlyph (o : Output) (g : Glyph) :
    (o.pushGlyph g).shown = o.shown ++ [g].filter fun g => !isBlank g.toChar := by
  rw [shown, pushGlyph, List.reverse_cons, List.filter_append, shown]

theorem shown_append (o : Output) (s : List Char) :
    (o.append s).shown = o.shown ++ (visible s).map .char := by
  induction s generalizing o with
  | nil => exact (List.append_nil _).symm
  | cons c s ih =>
    show ((o.push c).append s).shown = _
    rw [ih, push, shown_pushGlyph, List.append_assoc]
    by_cases hc : isBlank c = true <;> simp [Glyph.toChar, visible, hc]

/-- `p` shows what `o` shows and `n` more marks, which are live. -/
structure Marks (o : Output) (n : Nat) (p : Output) : Prop where
  /-- Nothing else is shown. -/
  shown_eq : p.shown = o.shown ++ List.replicate n .mark
  /-- The marks are live. -/
  length_eq : p.quoteMarks.length = o.quoteMarks.length + n

namespace Marks

variable {o p q : Output} {m n : Nat}

theorem refl (o : Output) : o.Marks 0 o := ⟨(List.append_nil _).symm, rfl⟩

theorem trans (h : o.Marks m p) (h' : p.Marks n q) : o.Marks (m + n) q := by
  constructor
  · rw [h'.shown_eq, h.shown_eq, List.append_assoc, List.replicate_append_replicate]
  · rw [h'.length_eq, h.length_eq, Nat.add_assoc]

theorem push_blank {c : Char} (hc : isBlank c = true) (o : Output) : o.Marks 0 (o.push c) := by
  constructor
  · rw [push, shown_pushGlyph]
    simp [Glyph.toChar, hc]
  · exact congrArg List.length (quoteMarks_push_blank hc o)

theorem pushBreak (o : Output) : o.Marks 0 o.pushBreak :=
  (push_blank (by decide) o).trans (push_blank (by decide) _)

theorem pushMark (o : Output) : o.Marks 1 o.pushMark := by
  have hglyph : o.Marks 1 (o.pushGlyph .mark) := by
    constructor
    · rw [shown_pushGlyph]
      rfl
    · show (liveMarks o.glyphs ++ [_]).length = _
      rw [List.length_append]
      rfl
  exact hglyph.trans (push_blank (by decide) _)

theorem pushQuotedBreak (o : Output) : o.Marks 1 o.pushQuotedBreak :=
  (pushBreak o).trans (pushMark _)

theorem pushBreaks (n : Nat) (o : Output) : o.Marks 0 (Output.pushBreaks n o) := by
  induction n generalizing o with
  | zero => exact refl o
  | succ n ih => exact (pushBreak o).trans (ih _)

theorem pushQuotedBreaks (n : Nat) (o : Output) : o.Marks n (Output.pushQuotedBreaks n o) := by
  induction n generalizing o with
  | zero => exact refl o
  | succ n ih =>
    have hadd := (pushQuotedBreak o).trans (ih o.pushQuotedBreak)
    rwa [Nat.add_comm] at hadd

theorem pushSpace (o : Output) : o.Marks 0 o.pushSpace := by
  unfold Output.pushSpace
  split
  · exact refl o
  · exact push_blank (by decide) o

theorem dropSpace (o : Output) : o.Marks 0 o.dropSpace := by
  refine ⟨?_, congrArg List.length (quoteMarks_dropSpace o)⟩
  unfold Output.dropSpace
  split
  · next gs h =>
    rw [shown, shown, h, List.reverse_cons, List.filter_append]
    simp [Glyph.toChar, isBlank]
  · exact (List.append_nil _).symm

theorem separateQuoted (n : Nat) (o : Output) : ∃ k, o.Marks k (o.separateQuoted n) := by
  obtain ⟨k, hstart⟩ : ∃ k, o.Marks k (if o.endsInFeed then o.pushMark else o) := by
    split
    · exact ⟨1, pushMark o⟩
    · exact ⟨0, refl o⟩
  unfold Output.separateQuoted
  generalize (if o.endsInFeed then o.pushMark else o) = p at hstart
  dsimp only
  split
  · split
    · exact ⟨k, hstart⟩
    · exact ⟨k + 1, hstart.trans (pushQuotedBreak p)⟩
  · next existing _ =>
    refine ⟨k + (0 + (n - existing)), hstart.trans (.trans ?_ (pushQuotedBreaks _ _))⟩
    split
    · exact dropSpace p
    · exact refl p

theorem separate (n : Nat) (quoted keepSpace : Bool) (o : Output) :
    ∃ k, o.Marks k (o.separate n quoted keepSpace) := by
  unfold Output.separate
  split
  · exact separateQuoted n o
  · refine ⟨0, .trans (m := 0) ?_ (pushBreaks _ _)⟩
    split
    · exact refl o
    · exact dropSpace o

end Marks

theorem exists_stripQuoteTail_eq {o : Output} (hfresh : o.onFreshQuotedLine = true) :
    ∃ pre gs, o.glyphs = pre ++ gs ∧ o.stripQuoteTail = ⟨gs⟩ ∧
      (∀ g ∈ pre, g.isRemovable = true) ∧ gs.head?.all (!·.isRemovable) = true := by
  obtain ⟨pre, gs, ho, hpre, hhead⟩ := exists_run Glyph.isRemovable o.glyphs
  refine ⟨pre, gs, ho, ?_, hpre, hhead⟩
  rw [stripQuoteTail, if_pos hfresh, ho, dropWhile_append_of_head hpre hhead]

/-- Leaving a quotation takes back marks, and nothing else that is shown. -/
theorem exists_shown_stripQuoteTail (o : Output) :
    ∃ k, o.shown = o.stripQuoteTail.shown ++ List.replicate k .mark ∧
      o.stripQuoteTail.quoteMarks.length ≤ o.quoteMarks.length := by
  by_cases hfresh : o.onFreshQuotedLine = true
  · obtain ⟨pre, gs, hsplit, hstrip, hpre, -⟩ := exists_stripQuoteTail_eq hfresh
    have hmarks : ∀ g ∈ pre.reverse.filter (fun g => !isBlank g.toChar), g = .mark := by
      intro g hg
      obtain ⟨hmem, hink⟩ := List.mem_filter.1 hg
      have hremovable := hpre g (List.mem_reverse.1 hmem)
      cases g with
      | mark => rfl
      | char c =>
        rw [show isBlank (Glyph.char c).toChar = true from Glyph.isBlank_of_isSpacing hremovable]
          at hink
        cases hink
    obtain ⟨later, hlater, -⟩ :=
      exists_liveMarks_append (fun g hg => Glyph.isVacant_removable (hpre g hg)) gs
    rw [hstrip]
    refine ⟨(pre.reverse.filter fun g => !isBlank g.toChar).length, ?_, ?_⟩
    · rw [shown, hsplit, List.reverse_append, List.filter_append, ← List.eq_replicate_of_mem hmarks]
      rfl
    · rw [quoteMarks, quoteMarks, hsplit, hlater, List.length_append]
      exact Nat.le_add_right _ _
  · rw [stripQuoteTail, if_neg hfresh]
    exact ⟨0, (List.append_nil _).symm, Nat.le_refl _⟩

end Output

/-! ## Operations -/

namespace Buffer

/-- What an operation does to an output. -/
def Op.write (o : Output) : Op → Output
  | append s => o.append s
  | push c => o.push c
  | quotedBreak => o.pushQuotedBreak
  | mark => o.pushMark
  | space => o.pushSpace
  | dropSpace => o.dropSpace
  | separate required quoted keepSpace => o.separate required quoted keepSpace
  | stripQuoteTail => o.stripQuoteTail

/-- The text that an operation is given. -/
def Op.supplied : Op → List Char
  | append s => s
  | push c => [c]
  | _ => []

/--
What can be seen of what an operation writes on the way from `b` to `b'`: the ink it is given, and
one mark for each offset that it notes.
-/
def Op.emitted (b b' : Buffer) (op : Op) : List Glyph :=
  (visible op.supplied).map .char ++ List.replicate (b'.marks.length - b.marks.length) .mark

/-- Performs operations in turn, and gives back what they have emitted. -/
def run? (b : Buffer) : List Op → Option (Buffer × List Glyph)
  | [] => return (b, [])
  | op :: ops => do
    let next ← op.apply? b
    let (last, emitted) ← run? next ops
    return (last, op.emitted b next ++ emitted)

theorem Op.apply?_buffer (o : Output) (op : Op) :
    op.apply? o.buffer = some (op.write o).buffer := by
  cases op with
  | append s => exact congrArg some (append_buffer o s)
  | push c => exact congrArg some (push_buffer o c)
  | quotedBreak => exact congrArg some (pushQuotedBreak_buffer o)
  | mark => exact congrArg some (pushMark_buffer o)
  | space => exact congrArg some (pushSpace_buffer o)
  | dropSpace => exact congrArg some (dropSpace_buffer o)
  | separate required quoted keepSpace => exact separate?_buffer o required quoted keepSpace
  | stripQuoteTail => exact stripQuoteTail?_buffer o

/-- `shown` is what is left of `emitted` when some marks are taken back. -/
def Kept (emitted shown : List Glyph) : Prop :=
  shown.Sublist emitted ∧ shown.filterMap Glyph.ink? = emitted.filterMap Glyph.ink?

theorem Kept.append {emitted shown : List Glyph} (h : Kept emitted shown) (later : List Glyph) :
    Kept (emitted ++ later) (shown ++ later) := by
  refine ⟨h.1.append_right later, ?_⟩
  rw [List.filterMap_append, List.filterMap_append, h.2]

theorem Kept.trans {a b c : List Glyph} (h : Kept a b) (h' : Kept b c) : Kept a c :=
  ⟨h'.1.trans h.1, h'.2.trans h.2⟩

theorem Kept.of_marks {a b : List Glyph} {n : Nat} (h : a = b ++ List.replicate n .mark) :
    Kept a b := by
  rw [h]
  refine ⟨List.sublist_append_left .., ?_⟩
  rw [List.filterMap_append, List.filterMap_replicate_of_none rfl, List.append_nil]

theorem Op.emitted_of_marks {o p : Output} {n : Nat} (h : o.Marks n p) {op : Op}
    (hop : op.supplied = []) : op.emitted o.buffer p.buffer = List.replicate n .mark := by
  have hlen : p.buffer.marks.length - o.buffer.marks.length = n := by
    show p.quoteMarks.length - o.quoteMarks.length = n
    rw [h.length_eq, Nat.add_sub_cancel_left]
  rw [emitted, hop, hlen]
  rfl

/-- What is shown after an operation is kept from what was shown before and what is emitted. -/
theorem Op.kept_write (o : Output) (op : Op) :
    Kept (o.shown ++ op.emitted o.buffer (op.write o).buffer) (op.write o).shown := by
  have htext : ∀ s, (o.append s).buffer.marks.length - o.buffer.marks.length = 0 := by
    intro s
    rw [← append_buffer, Buffer.append]
    split <;> simp
  have hadds : ∀ {n p}, o.Marks n p → op.supplied = [] → p = op.write o →
      Kept (o.shown ++ op.emitted o.buffer (op.write o).buffer) (op.write o).shown := by
    rintro n p h hop rfl
    rw [emitted_of_marks h hop, h.shown_eq]
    exact ⟨List.Sublist.refl _, rfl⟩
  cases op with
  | append s =>
    rw [write, emitted, htext, Output.shown_append]
    exact ⟨by simp [supplied], by simp [supplied]⟩
  | push c =>
    have hpush : o.push c = o.append [c] := rfl
    rw [write, hpush, emitted, htext, Output.shown_append]
    exact ⟨by simp [supplied], by simp [supplied]⟩
  | quotedBreak => exact hadds (.pushQuotedBreak o) rfl rfl
  | mark => exact hadds (.pushMark o) rfl rfl
  | space => exact hadds (.pushSpace o) rfl rfl
  | dropSpace => exact hadds (.dropSpace o) rfl rfl
  | separate required quoted keepSpace =>
    obtain ⟨k, h⟩ := Output.Marks.separate required quoted keepSpace o
    exact hadds h rfl rfl
  | stripQuoteTail =>
    obtain ⟨k, hshown, hlen⟩ := o.exists_shown_stripQuoteTail
    have hnone : o.stripQuoteTail.buffer.marks.length - o.buffer.marks.length = 0 :=
      Nat.sub_eq_zero_of_le hlen
    rw [write, emitted, hnone]
    refine .of_marks (n := k) ?_
    rw [← hshown]
    simp [supplied]

theorem ink_visible (s : List Char) :
    ((visible s).map Glyph.char).filterMap Glyph.ink? = visible s := by
  induction s with
  | nil => rfl
  | cons c s ih =>
    by_cases hc : isBlank c = true
    · rwa [visible_cons_blank hc]
    · have hc : isBlank c = false := Bool.eq_false_iff.2 hc
      rw [visible_cons_ink hc, List.map_cons, List.filterMap_cons_some (Glyph.ink?_ink hc), ih]

/-- Operations in turn do not fail, and what is shown is kept from what has been emitted. -/
theorem run?_buffer (o : Output) (ops : List Op) :
    ∃ emitted, run? o.buffer ops = some ((ops.foldl Op.write o).buffer, emitted) ∧
      emitted.filterMap Glyph.ink? = visible (ops.flatMap Op.supplied) ∧
      Kept (o.shown ++ emitted) (ops.foldl Op.write o).shown := by
  induction ops generalizing o with
  | nil => exact ⟨[], rfl, rfl, .of_marks (n := 0) (by simp)⟩
  | cons op ops ih =>
    obtain ⟨emitted, hrun, hink, hkept⟩ := ih (op.write o)
    refine ⟨op.emitted o.buffer (op.write o).buffer ++ emitted, ?_, ?_, ?_⟩
    · rw [run?, Op.apply?_buffer]
      show (do let (last, emitted) ← run? (op.write o).buffer ops; _) = _
      rw [hrun]
      rfl
    · rw [List.filterMap_append, hink, Op.emitted, List.filterMap_append, ink_visible,
        List.filterMap_replicate_of_none rfl, List.append_nil, ← visible_append, List.flatMap_cons]
    · rw [← List.append_assoc]
      exact ((op.kept_write o).append emitted).trans hkept

/--
Operations on an empty page, whatever they are and in whatever order, do not fail.  They leave a
well-formed buffer, the one of the output that they write.  What can be seen in it is what they have
emitted without some of the marks: all the ink that they have been given, in order, and marks in
between.
-/
theorem run?_wellFormed (ops : List Op) :
    ∃ (b : Buffer) (emitted shown : List Glyph), run? start ops = some (b, emitted) ∧
      b = (ops.foldl Op.write Output.empty).buffer ∧
      b.WellFormed ∧
      emitted.filterMap Glyph.ink? = visible (ops.flatMap Op.supplied) ∧
      shown.map Glyph.toChar = visible b.text ∧
      shown.Sublist emitted ∧
      shown.filterMap Glyph.ink? = emitted.filterMap Glyph.ink? := by
  obtain ⟨emitted, hrun, hink, hkept⟩ := run?_buffer .empty ops
  let o := ops.foldl Op.write Output.empty
  exact ⟨o.buffer, emitted, o.shown, hrun, rfl, o.wellFormed_buffer, hink, o.map_toChar_shown, hkept⟩

end Buffer

end HtmlMarkdown
