import HtmlMarkdown.InPlace.Buffer
import HtmlMarkdown.Proofs.InPlace.Access
import HtmlMarkdown.Proofs.Output.Offsets

/-!
# The buffer of an output

Each output is stored as one buffer (`Output.buffer`): its text, and the offsets of its live marks.
An operation of buffers does to this buffer what the operation of outputs does to the output, and no
access fails (`append_buffer` to `stripQuoteTail?_buffer`).  Looking back over the last bytes comes
to the same as looking back over the last glyphs, since a mark that the scan reaches is live, and no
other `>` stands at the offset of a live mark.
-/

namespace HtmlMarkdown

open Text Utf8 InPlace

/-- What is stored of an output. -/
def Output.buffer (o : Output) : Buffer := ⟨o.contents, o.quoteMarks⟩

namespace Buffer

open Output

variable (o : Output)

theorem start_eq_buffer : start = Output.empty.buffer := rfl

theorem finish_buffer : o.buffer.finish = o.finish := rfl

/-! ## Writing -/

@[simp] theorem push_buffer (c : Char) : o.buffer.push c = (o.push c).buffer := by
  have hmarks : (o.push c).quoteMarks = if isBlank c then o.quoteMarks else [] := rfl
  rw [push, Output.buffer, Output.buffer, contents_push, hmarks]

theorem append_cons (b : Buffer) (c : Char) (s : List Char) :
    b.append (c :: s) = (b.push c).append s := by
  unfold append push
  cases hc : isBlank c <;> simp [hc]

@[simp] theorem append_buffer (s : List Char) : o.buffer.append s = (o.append s).buffer := by
  induction s generalizing o with
  | nil => simp [append, Output.append, Output.buffer]
  | cons c s ih =>
    rw [append_cons, push_buffer, ih]
    rfl

@[simp] theorem pushBreak_buffer : o.buffer.pushBreak = o.pushBreak.buffer := by
  have hmarks : o.pushBreak.quoteMarks = o.quoteMarks :=
    (quoteMarks_push_blank (by decide) _).trans (quoteMarks_push_blank (by decide) _)
  rw [pushBreak, Output.buffer, Output.buffer, contents_pushBreak, hmarks]

@[simp] theorem pushMark_buffer : o.buffer.pushMark = o.pushMark.buffer := by
  have hmarks : o.pushMark.quoteMarks = o.quoteMarks ++ [byteSize o.contents] :=
    quoteMarks_push_blank (by decide) _
  rw [pushMark, Output.buffer, Output.buffer, contents_pushMark, hmarks]

@[simp] theorem pushQuotedBreak_buffer : o.buffer.pushQuotedBreak = o.pushQuotedBreak.buffer := by
  rw [pushQuotedBreak, pushBreak_buffer, pushMark_buffer, Output.pushQuotedBreak]

@[simp] theorem pushBreaks_buffer (n : Nat) :
    pushBreaks n o.buffer = (Output.pushBreaks n o).buffer := by
  induction n generalizing o with
  | zero => rfl
  | succ n ih => rw [pushBreaks, pushBreak_buffer, ih, Output.pushBreaks]

@[simp] theorem pushQuotedBreaks_buffer (n : Nat) :
    pushQuotedBreaks n o.buffer = (Output.pushQuotedBreaks n o).buffer := by
  induction n generalizing o with
  | zero => rfl
  | succ n ih => rw [pushQuotedBreaks, pushQuotedBreak_buffer, ih, Output.pushQuotedBreaks]

/-! ## The last byte -/

theorem toNat_lt_of_isSpacing {c : Char} (h : isSpacing c = true) : c.toNat < 128 := by
  rcases eq_of_isBlank (Glyph.isBlank_of_isSpacing h) with rfl | rfl | rfl | rfl | rfl <;> decide

theorem isSpacing_beyond {c : Char} (h : 128 ≤ c.toNat) : isSpacing c = false := by
  cases hc : isSpacing c with
  | false => rfl
  | true => exact absurd (toNat_lt_of_isSpacing hc) (Nat.not_lt_of_le h)

theorem constant_isSpacing : Constant isSpacing := .of_false fun _ => isSpacing_beyond

theorem endsInSpacing_buffer : o.buffer.endsInSpacing = o.endsInSpacing := by
  have hlast : ∀ s c, (⟨s ++ [c], o.quoteMarks⟩ : Buffer).endsInSpacing = isSpacing c := by
    intro s c
    obtain ⟨bs, x, hbytes, hx⟩ := exists_encode_concat s c
    rw [endsInSpacing, bytes, hbytes, List.getLast?_concat]
    exact constant_isSpacing.of_mem_encode hx
  rcases o with ⟨gs⟩
  cases gs with
  | nil => exact hlast [] ' '
  | cons g gs =>
    rw [Output.buffer, contents_cons, hlast, Output.endsInSpacing, List.head?_cons, Option.all_some]
    cases g <;> rfl

@[simp] theorem pushSpace_buffer : o.buffer.pushSpace = o.pushSpace.buffer := by
  unfold pushSpace Output.pushSpace
  rw [endsInSpacing_buffer]
  split
  · rfl
  · rw [← push_buffer]
    rfl

theorem getLast?_contents (g : Glyph) (gs : List Glyph) :
    (contents ⟨g :: gs⟩).getLast? = some g.toChar := by
  rw [contents_cons, List.getLast?_concat]

@[simp] theorem dropSpace_buffer : o.buffer.dropSpace = o.dropSpace.buffer := by
  rcases o with ⟨gs⟩
  unfold dropSpace
  cases gs with
  | nil => rfl
  | cons g gs =>
    have hsize : 1 < byteSize (contents ⟨g :: gs⟩) :=
      Nat.lt_of_le_of_lt (extent_pos gs) (extent_lt_cons g gs)
    by_cases hg : g = .char ' '
    · subst hg
      have hlast : (contents ⟨.char ' ' :: gs⟩).getLast? = some ' ' := getLast?_contents _ gs
      have htext : (contents ⟨.char ' ' :: gs⟩).dropLast = contents ⟨gs⟩ := by
        rw [contents_cons, List.dropLast_concat]
      have hmarks : quoteMarks ⟨.char ' ' :: gs⟩ = quoteMarks ⟨gs⟩ := liveMarks_blank (by decide) gs
      rw [if_pos ⟨hsize, hlast⟩, Output.buffer, Output.dropSpace, Output.buffer]
      simp only [htext, hmarks]
    · have hlast : (contents ⟨g :: gs⟩).getLast? ≠ some ' ' := by
        rw [getLast?_contents]
        cases g with
        | mark => decide
        | char c =>
          intro h
          exact hg (congrArg Glyph.char (Option.some.inj h))
      have hdrop : Output.dropSpace ⟨g :: gs⟩ = ⟨g :: gs⟩ := by
        unfold Output.dropSpace
        split
        · next hs h => exact absurd (List.cons.inj h).1 hg
        · rfl
      rw [if_neg (fun h => hlast h.2), hdrop]

/-! ## Looking back -/

theorem isMark?_buffer (i : Nat) : o.buffer.isMark? i = some (decide (i ∈ o.quoteMarks)) := by
  have hpairwise : o.buffer.marks.Pairwise (· < ·) := pairwise_liveMarks o.glyphs
  rw [isMark?, if_pos hpairwise, List.contains_eq_mem]
  rfl

/-- Looking back over bytes sees the glyphs in which marks are not white space. -/
theorem breaksFrom_reverse (limit count : Nat) (gs : List Glyph) :
    breaksFrom limit count (encode (contents ⟨gs⟩)).reverse =
      (Output.breaksFrom false limit count gs).getD limit := by
  induction gs generalizing count with
  | nil => rfl
  | cons g gs ih =>
    have hcons : ∀ c, c.toNat < 128 → g.toChar = c →
        (encode (contents ⟨g :: gs⟩)).reverse =
          c.val.toUInt8 :: (encode (contents ⟨gs⟩)).reverse := by
      rintro c hc rfl
      rw [contents_cons, encode_append, encode_ascii hc, List.reverse_append]
      rfl
    cases g with
    | mark =>
      rw [hcons '>' (by decide) rfl]
      rfl
    | char c =>
      by_cases hc : c.toNat < 128
      · rw [hcons c hc rfl, breaksFrom, asChar_toUInt8 hc, Output.breaksFrom]
        split
        · split
          · rfl
          · exact ih (count + 1)
        · show (if isSpacing c = true then _ else _) = Option.getD (if isSpacing c = true then _ else _) _
          split
          · exact ih count
          · rfl
      · have hbeyond : 128 ≤ c.toNat := Nat.le_of_not_lt hc
        obtain ⟨bs, x, hbytes, hx⟩ := exists_encode_concat (contents ⟨gs⟩) c
        have hfeed : (c == '\n') = false := beq_beyond (by decide) hbeyond
        have hspacing : (Glyph.char c).isSpacing = false := isSpacing_beyond hbeyond
        rw [contents_cons, Glyph.toChar, hbytes, List.reverse_append, List.reverse_singleton,
          List.singleton_append, breaksFrom, (constant_beq (by decide)).of_mem_encode hx,
          constant_isSpacing.of_mem_encode hx, Output.breaksFrom, hfeed, hspacing,
          isSpacing_beyond hbeyond]
        rfl

theorem exists_last_byte {pre gs : List Glyph} {g : Glyph} (ho : o.glyphs = pre ++ g :: gs) :
    ∃ i x, extent (g :: gs) = i + 1 ∧ o.buffer.bytes[i]? = some x ∧ x ∈ encode [g.toChar] := by
  obtain ⟨bs, x, hbytes, hx⟩ := exists_encode_concat (contents ⟨gs⟩) g.toChar
  refine ⟨bs.length, x, ?_, ?_, hx⟩
  · rw [extent, contents_cons, ← length_encode, hbytes, List.length_append]
    rfl
  · have htext : o.contents = contents ⟨gs⟩ ++ [g.toChar] ++ written pre := by
      rw [← contents_cons, ← contents_append_glyphs, ← ho]
    rw [bytes, Output.buffer, htext, encode_append, hbytes, List.append_assoc]
    exact getElem?_append_length bs x _

/-- Where only blanks and marks follow a glyph, a mark is noted at its last byte if it is one. -/
theorem isMark?_last {pre gs : List Glyph} {g : Glyph} (ho : o.glyphs = pre ++ g :: gs)
    (hpre : ∀ h ∈ pre, h.isVacant = true) :
    o.buffer.isMark? (extent (g :: gs) - 1) = some (decide (g = .mark)) := by
  have hlt := extent_lt_cons g gs
  rw [isMark?_buffer]
  congr 1
  cases g with
  | mark =>
    have hsize : extent (.mark :: gs) - 1 = extent gs := by
      rw [extent_cons]
      rfl
    exact decide_eq_decide.2 (iff_of_true (hsize ▸ mem_quoteMarks_of_mark ho hpre) rfl)
  | char c =>
    have hnot : extent (.char c :: gs) - 1 ∉ o.quoteMarks :=
      not_mem_quoteMarks_of_char ho hpre (by omega) (by omega)
    exact decide_eq_decide.2 (iff_of_false hnot Glyph.noConfusion)

/-- Where only blanks and marks follow, looking back over bytes sees the glyphs. -/
theorem quotedBreaksFrom?_extent (limit count : Nat) {pre gs : List Glyph}
    (ho : o.glyphs = pre ++ gs) (hpre : ∀ g ∈ pre, g.isVacant = true) :
    o.buffer.quotedBreaksFrom? limit count (extent gs) =
      some (Output.breaksFrom true limit count gs) := by
  induction gs generalizing pre count with
  | nil => rfl
  | cons g gs ih =>
    obtain ⟨i, x, hi, hbyte, hx⟩ := exists_last_byte o ho
    have hfeed : (asChar x == '\n') = (g.toChar == '\n') :=
      (constant_beq (by decide)).of_mem_encode hx
    have hangle : (asChar x == '>') = (g.toChar == '>') :=
      (constant_beq (by decide)).of_mem_encode hx
    have hspacing : isSpacing (asChar x) = isSpacing g.toChar := constant_isSpacing.of_mem_encode hx
    have hmark : o.buffer.isMark? i = some (decide (g = .mark)) := by
      have hlast := isMark?_last o ho hpre
      rwa [hi] at hlast
    have hnext : g.toChar.toNat < 128 → i = extent gs := by
      intro hascii
      rw [extent_cons, utf8Size_ascii hascii] at hi
      exact (Nat.add_right_cancel hi).symm
    have hback : g.isVacant = true → g.toChar.toNat < 128 → ∀ count,
        o.buffer.quotedBreaksFrom? limit count i = some (Output.breaksFrom true limit count gs) := by
      intro hg hascii count
      rw [hnext hascii]
      refine ih count (by rw [ho, List.append_cons]) fun h hh => ?_
      rcases List.mem_append.1 hh with hh | hh
      · exact hpre h hh
      · exact List.mem_singleton.1 hh ▸ hg
    rw [hi, quotedBreaksFrom?, hbyte]
    show (if (asChar x == '\n') = true then _ else _) = _
    rw [hfeed, hspacing, hangle]
    cases g with
    | mark =>
      rw [hmark]
      exact hback rfl (by decide) count
    | char c =>
      rw [Output.breaksFrom]
      show (if (c == '\n') = true then _ else if isSpacing c = true then _ else _) = _
      split
      · next hc =>
        obtain rfl := eq_of_beq hc
        split
        · rfl
        · exact hback rfl (by decide) (count + 1)
      · split
        · next hc =>
          rw [if_pos (show (Glyph.char c).isSpacing = true from hc)]
          exact hback (Glyph.isBlank_of_isSpacing hc) (toNat_lt_of_isSpacing hc) count
        · next hc =>
          rw [if_neg (show ¬ (Glyph.char c).isSpacing = true from hc)]
          show (if (c == '>') = true then _ else _) = _
          split
          · rw [hmark]
            rfl
          · rfl

theorem trailingQuotedBreaks?_buffer (limit : Nat) :
    o.buffer.trailingQuotedBreaks? limit = some (o.trailingQuotedBreaks? limit) := by
  have hlen : o.buffer.bytes.length = extent o.glyphs := length_encode _
  rw [trailingQuotedBreaks?, hlen]
  exact quotedBreaksFrom?_extent o limit 0 (List.nil_append _).symm (by simp)

theorem trailingBreaks_buffer (limit : Nat) :
    o.buffer.trailingBreaks limit = o.trailingBreaks limit :=
  breaksFrom_reverse limit 0 o.glyphs

/-! ## The text without its end -/

/-- Trimming the text drops glyphs, or everything with the space at the start. -/
theorem dropEndWhile_contents {p : Char → Bool} {q : Glyph → Bool} (hspace : p ' ' = true)
    (hchar : ∀ c, q (.char c) = p c) (hmark : q .mark = p '>') (gs : List Glyph) :
    dropEndWhile p (contents ⟨gs⟩) =
      if gs.dropWhile q = [] then [] else contents ⟨gs.dropWhile q⟩ := by
  have hq : ∀ g : Glyph, q g = p g.toChar := by
    intro g
    cases g with
    | mark => exact hmark
    | char c => exact hchar c
  induction gs with
  | nil => simp [dropEndWhile, contents, hspace]
  | cons g gs ih =>
    rw [dropEndWhile, contents_cons, List.reverse_append, List.reverse_singleton,
      List.singleton_append]
    by_cases hg : p g.toChar = true
    · rw [List.dropWhile_cons_of_pos hg, List.dropWhile_cons_of_pos ((hq g).trans hg)]
      exact ih
    · rw [List.dropWhile_cons_of_neg hg, List.dropWhile_cons_of_neg (by rwa [hq]),
        if_neg (List.cons_ne_nil g gs), List.reverse_cons, List.reverse_reverse, contents_cons]

theorem dropEndWhile_isGap (gs : List Glyph) :
    dropEndWhile isGap (contents ⟨gs⟩) =
      if gs.dropWhile Glyph.isGap = [] then [] else contents ⟨gs.dropWhile Glyph.isGap⟩ :=
  dropEndWhile_contents rfl (fun _ => rfl) rfl gs

theorem dropEndWhile_isSpacing (gs : List Glyph) :
    dropEndWhile isSpacing (contents ⟨gs⟩) =
      if gs.dropWhile Glyph.isSpacing = [] then [] else contents ⟨gs.dropWhile Glyph.isSpacing⟩ :=
  dropEndWhile_contents rfl (fun _ => rfl) rfl gs

theorem isVacant_of_isSpacing {g : Glyph} (h : g.isSpacing = true) : g.isVacant = true :=
  Glyph.isVacant_removable (Bool.or_eq_true_iff.2 (.inr h))

theorem exists_gap (gs : List Glyph) :
    ∃ pre, gs = pre ++ gs.dropWhile Glyph.isGap ∧ ∀ g ∈ pre, g.isSpacing = true :=
  ⟨gs.takeWhile Glyph.isGap, List.takeWhile_append_dropWhile.symm,
    fun _ hg => Glyph.isSpacing_of_isGap (List.mem_takeWhile_imp hg)⟩

theorem trimmedSize_buffer :
    o.buffer.trimmedSize =
      if o.glyphs.dropWhile Glyph.isGap = [] then 0 else extent (o.glyphs.dropWhile Glyph.isGap) := by
  rw [trimmedSize, Output.buffer, dropEndWhile_isGap]
  split <;> rfl

@[simp] theorem onFreshQuotedLine?_buffer :
    o.buffer.onFreshQuotedLine? = some o.onFreshQuotedLine := by
  obtain ⟨pre, ho, hpre⟩ := exists_gap o.glyphs
  rw [onFreshQuotedLine?, trimmedSize_buffer, Output.onFreshQuotedLine]
  generalize o.glyphs.dropWhile Glyph.isGap = gs at ho
  cases gs with
  | nil => rfl
  | cons g gs =>
    rw [if_neg (List.cons_ne_nil g gs), if_pos (extent_pos (g :: gs)),
      isMark?_last o ho fun h hh => isVacant_of_isSpacing (hpre h hh)]
    cases g <;> rfl

theorem endsInQuotedBlankLine?_buffer :
    o.buffer.endsInQuotedBlankLine? = some o.endsInQuotedBlankLine := by
  rw [endsInQuotedBlankLine?, trailingQuotedBreaks?_buffer]
  rfl

/-! ## Separation -/

@[simp] theorem separateQuoted?_buffer (n : Nat) :
    o.buffer.separateQuoted? n = some (o.separateQuoted n).buffer := by
  have hfeed : o.contents.getLast? = some '\n' ↔ o.endsInFeed = true := by
    rcases o with ⟨gs⟩
    cases gs with
    | nil => decide
    | cons g gs =>
      rw [getLast?_contents, endsInFeed, List.head?_cons]
      cases g with
      | mark => decide
      | char c => simp [Glyph.toChar]
  have hstart : (if o.buffer.text.getLast? = some '\n' then o.buffer.pushMark else o.buffer) =
      (if o.endsInFeed then o.pushMark else o).buffer := by
    rw [Output.buffer]
    simp only [hfeed]
    split
    · exact pushMark_buffer o
    · rfl
  unfold separateQuoted? Output.separateQuoted
  rw [hstart]
  generalize (if o.endsInFeed then o.pushMark else o) = p
  dsimp only
  rw [trailingQuotedBreaks?_buffer]
  cases p.trailingQuotedBreaks? n with
  | none =>
    show (do if ← p.buffer.onFreshQuotedLine? then _ else _) = _
    rw [onFreshQuotedLine?_buffer]
    show (if p.onFreshQuotedLine = true then some p.buffer else some p.buffer.pushQuotedBreak) = _
    rw [pushQuotedBreak_buffer]
    split <;> rfl
  | some existing =>
    show some (pushQuotedBreaks (n - existing) (if existing = 0 then _ else _)) = _
    rw [dropSpace_buffer, ← apply_ite Output.buffer, pushQuotedBreaks_buffer]

@[simp] theorem separate?_buffer (n : Nat) (quoted keepSpace : Bool) :
    o.buffer.separate? n quoted keepSpace = some (o.separate n quoted keepSpace).buffer := by
  unfold separate? Output.separate
  split
  · exact separateQuoted?_buffer o n
  · rw [trailingBreaks_buffer, dropSpace_buffer, ← apply_ite Output.buffer]
    dsimp only
    rw [pushBreaks_buffer]
    rfl

/-! ## Leaving a quotation -/

/-- Cutting the text in front of blanks and marks leaves the glyphs before them. -/
theorem truncate?_buffer {pre gs : List Glyph} (ho : o.glyphs = pre ++ gs)
    (hpre : ∀ g ∈ pre, g.isVacant = true) :
    o.buffer.truncate? (extent gs) = some (Output.buffer ⟨gs⟩) := by
  have htext : o.contents = contents ⟨gs⟩ ++ written pre := by
    rw [← contents_append_glyphs, ← ho]
  have hmarks : o.quoteMarks.filter (· < extent gs) = quoteMarks ⟨gs⟩ := by
    rw [quoteMarks, ho]
    exact filter_liveMarks hpre gs
  rw [truncate?, Output.buffer, htext, extent, splitAt?_append]
  show some (⟨_, o.quoteMarks.filter (· < extent gs)⟩ : Buffer) = _
  rw [hmarks]
  rfl

/-- Taking back one empty quoted line takes back glyphs that may be taken back. -/
theorem stripQuoteTail_of_fresh {pre hs : List Glyph} (ho : o.glyphs = pre ++ hs)
    (hfresh : o.onFreshQuotedLine = true) (hpre : ∀ g ∈ pre, g.isRemovable = true)
    (hhs : hs.head?.all (!·.isSpacing) = true) :
    o.stripQuoteTail = Output.stripQuoteTail ⟨hs⟩ := by
  have hdrop : o.glyphs.dropWhile Glyph.isRemovable = hs.dropWhile Glyph.isRemovable := by
    rw [ho, List.dropWhile_append_of_pos hpre]
  rw [stripQuoteTail, if_pos hfresh, hdrop, stripQuoteTail]
  split
  · rfl
  · next hstop =>
    cases hs with
    | nil => rfl
    | cons g hs =>
      have hg : ¬ g.isRemovable = true := by
        cases g with
        | mark => exact absurd rfl hstop
        | char c => simpa [Glyph.isRemovable] using hhs
      rw [List.dropWhile_cons_of_neg hg]

/-- A fresh quoted line is a mark with a gap behind it, and the text in front of it ends there. -/
theorem exists_of_onFreshQuotedLine (h : o.onFreshQuotedLine = true) :
    ∃ gap rest, o.glyphs = gap ++ .mark :: rest ∧ (∀ g ∈ gap, g.isSpacing = true) ∧
      o.buffer.trimmedSize - 1 = extent rest := by
  obtain ⟨gap, ho, hgap⟩ := exists_gap o.glyphs
  have hsize := trimmedSize_buffer o
  rw [Output.onFreshQuotedLine] at h
  generalize o.glyphs.dropWhile Glyph.isGap = gs at ho hsize h
  cases gs with
  | nil => cases h
  | cons g rest =>
    obtain rfl : g = .mark := by simpa using h
    refine ⟨gap, rest, ho, hgap, ?_⟩
    rw [hsize, if_neg (List.cons_ne_nil _ _), extent_cons]
    rfl

theorem size_dropEndWhile_isSpacing (gs : List Glyph) :
    max 1 (byteSize (dropEndWhile isSpacing (contents ⟨gs⟩))) = extent (gs.dropWhile Glyph.isSpacing) := by
  rw [dropEndWhile_isSpacing]
  split
  · next hnil =>
    rw [hnil]
    rfl
  · exact Nat.max_eq_right (extent_pos _)

/-- Taking back one empty quoted line of the text cuts it in front of the white space before it. -/
theorem stripQuoteTail?_of_fresh {gap rest : List Glyph} (hfresh : o.onFreshQuotedLine = true)
    (ho : o.glyphs = gap ++ .mark :: rest)
    (hsize : o.buffer.trimmedSize - 1 = extent rest) :
    o.buffer.stripQuoteTail? =
      (o.buffer.truncate? (extent (rest.dropWhile Glyph.isSpacing))).bind stripQuoteTail? := by
  have htext : o.contents = contents ⟨rest⟩ ++ written (gap ++ [.mark]) := by
    rw [← contents_append_glyphs, List.append_assoc, List.singleton_append, ← ho]
  rw [stripQuoteTail?, onFreshQuotedLine?_buffer, hfresh, hsize, show o.buffer.text = o.contents from rfl,
    htext, extent, splitAt?_append, ← size_dropEndWhile_isSpacing]
  rfl

@[simp] theorem stripQuoteTail?_buffer :
    o.buffer.stripQuoteTail? = some o.stripQuoteTail.buffer := by
  -- Each round takes back at least the mark of the last line.
  induction hlen : o.glyphs.length using Nat.strong_induction_on generalizing o with
  | _ n ih =>
    by_cases hfresh : o.onFreshQuotedLine = true
    · obtain ⟨gap, rest, ho, hgap, hsize⟩ := exists_of_onFreshQuotedLine o hfresh
      have hsplit : o.glyphs = (gap ++ .mark :: rest.takeWhile Glyph.isSpacing) ++
          rest.dropWhile Glyph.isSpacing := by
        rw [List.append_assoc, List.cons_append, List.takeWhile_append_dropWhile, ← ho]
      have hpre : ∀ g ∈ gap ++ .mark :: rest.takeWhile Glyph.isSpacing, g.isRemovable = true := by
        intro g hg
        rcases List.mem_append.1 hg with hg | hg
        · exact Bool.or_eq_true_iff.2 (.inr (hgap g hg))
        · rcases List.mem_cons.1 hg with rfl | hg
          · rfl
          · exact Bool.or_eq_true_iff.2 (.inr (List.mem_takeWhile_imp hg))
      have hshort : (rest.dropWhile Glyph.isSpacing).length < n := by
        rw [← hlen, hsplit, List.length_append, List.length_append, List.length_cons]
        omega
      rw [stripQuoteTail?_of_fresh o hfresh ho hsize,
        truncate?_buffer o hsplit fun g hg => Glyph.isVacant_removable (hpre g hg),
        stripQuoteTail_of_fresh o hsplit hfresh hpre (head?_dropWhile Glyph.isSpacing rest)]
      exact ih _ hshort ⟨_⟩ rfl
    · rw [stripQuoteTail?, onFreshQuotedLine?_buffer, Output.stripQuoteTail, if_neg hfresh,
        Bool.eq_false_iff.2 hfresh]
      rfl

end Buffer

end HtmlMarkdown
