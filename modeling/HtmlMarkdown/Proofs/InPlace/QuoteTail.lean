import HtmlMarkdown.Proofs.InPlace.Invariant

/-!
# The tail of a quotation

When a quotation is left, the empty quoted lines at the end are taken back one by one, each with the
white space before it.  Whatever operations have been performed, this comes to an end, and what it
leaves is the text in front of all that may be taken back: the last character left is neither white
space nor a mark, but for the space at the start (`run?_takesBackQuoteTail`).

The rounds of the loop come to a single cut of the output (`Buffer.stripQuoteTail?_buffer`), so that
what is taken back is known glyph by glyph.
-/

namespace HtmlMarkdown

open Text InPlace Output

/-- `b'` is left of `b` when the quoted lines at its end are taken back, and `tail` is taken. -/
structure Buffer.TakesBack (b b' : Buffer) (tail : List Char) : Prop where
  /-- The text is cut between two characters. -/
  split : b.text = b'.text ++ tail
  /-- Something is left. -/
  kept : b'.text ≠ []
  /-- Something is taken. -/
  taken : tail ≠ []
  /-- What is taken is white space, or a `>` at whose offset a mark is noted. -/
  vacant : ∀ u c v, tail = u ++ c :: v →
    isSpacing c = true ∨ c = '>' ∧ byteSize (b'.text ++ u) ∈ b.marks
  /-- The marks in the text that is left stay. -/
  marks : b'.marks = b.marks.filter (· < byteSize b'.text)
  /-- The last line is no empty quoted line any more. -/
  settled : b'.onFreshQuotedLine? = some false
  /-- Behind the space at the start, nothing is left at the end that could be taken, too. -/
  whole : ∀ s c, s ≠ [] → b'.text = s ++ [c] → isSpacing c = false ∧ byteSize s ∉ b.marks

namespace Output

variable {o : Output} {pre gs : List Glyph}

/-- Where nothing can be taken back at the end, the last line is no fresh quoted line. -/
theorem not_fresh_of_head (h : gs.head?.all (!·.isRemovable) = true) :
    onFreshQuotedLine ⟨gs⟩ = false := by
  cases gs with
  | nil => rfl
  | cons g gs =>
    have hg : g.isRemovable = false := by simpa using h
    cases g with
    | mark => cases hg
    | char c =>
      have hgap : ¬ (Glyph.char c).isGap = true := fun hgap => by
        rw [Glyph.isRemovable, Glyph.isSpacing_of_isGap hgap, Bool.or_true] at hg
        cases hg
      rw [onFreshQuotedLine, List.dropWhile_cons_of_neg hgap]
      rfl

/-- What is written of glyphs that may be taken back: white space, and marks that are live. -/
theorem spacing_or_mark_of_written (ho : o.glyphs = pre ++ gs)
    (hpre : ∀ g ∈ pre, g.isRemovable = true) {u v : List Char} {c : Char}
    (h : written pre = u ++ c :: v) :
    Buffer.isSpacing c = true ∨ c = '>' ∧ byteSize (contents ⟨gs⟩ ++ u) ∈ o.quoteMarks := by
  obtain ⟨before, l, hrev, rfl, hl⟩ := List.map_eq_append_iff.1 h
  obtain ⟨g, later, rfl, rfl, -⟩ := List.map_eq_cons_iff.1 hl
  obtain rfl : pre = later.reverse ++ g :: before.reverse := by
    rw [← List.reverse_reverse pre, hrev]
    simp
  rw [List.append_assoc, List.cons_append] at ho
  cases g with
  | char c =>
    have hc := hpre (.char c) (by simp)
    exact .inl hc
  | mark =>
    have hlive := mem_quoteMarks_of_mark ho fun g hg =>
      Glyph.isVacant_removable (hpre g (List.mem_append_left _ hg))
    rw [extent, contents_append_glyphs, written, List.reverse_reverse] at hlive
    exact .inr ⟨rfl, hlive⟩

/-- On a fresh quoted line, the text of the glyphs that may be taken back is taken. -/
theorem exists_takesBack_of_fresh (hfresh : o.onFreshQuotedLine = true) :
    ∃ tail, o.buffer.TakesBack o.stripQuoteTail.buffer tail := by
  obtain ⟨pre, gs, ho, hstrip, hpre, hhead⟩ := exists_stripQuoteTail_eq hfresh
  have hvacant : ∀ g ∈ pre, g.isVacant = true := fun g hg => Glyph.isVacant_removable (hpre g hg)
  have hsettled : onFreshQuotedLine ⟨gs⟩ = false := not_fresh_of_head hhead
  have hne : pre ≠ [] := by
    rintro rfl
    rw [show o = ⟨gs⟩ from congrArg Output.mk ho, hsettled] at hfresh
    cases hfresh
  rw [hstrip]
  exact
    ⟨written pre,
      { split := by
          show o.contents = contents ⟨gs⟩ ++ written pre
          rw [← contents_append_glyphs, ← ho]
        kept := List.cons_ne_nil _ _
        taken := by simpa [written] using hne
        vacant := fun u c v h => spacing_or_mark_of_written ho hpre h
        marks := by
          show liveMarks gs = o.quoteMarks.filter (· < extent gs)
          rw [quoteMarks, ho, filter_liveMarks hvacant]
        settled := by rw [Buffer.onFreshQuotedLine?_buffer, hsettled]
        whole := by
          intro s c hs htext
          replace htext : contents ⟨gs⟩ = s ++ [c] := htext
          cases gs with
          | nil =>
            have hlen := congrArg List.length htext
            rw [List.length_append] at hlen
            exact absurd (List.length_eq_zero_iff.1 (Nat.succ.inj hlen).symm) hs
          | cons g gs =>
            rw [contents_cons] at htext
            obtain ⟨rfl, hc⟩ := List.append_inj' htext rfl
            obtain rfl : g.toChar = c := (List.cons.inj hc).1
            have hg : g.isRemovable = false := by simpa using hhead
            cases g with
            | mark => cases hg
            | char c =>
              exact ⟨hg, not_mem_quoteMarks_of_char ho hvacant (Nat.le_refl _) (extent_lt_cons _ gs)⟩ }⟩

end Output

namespace Buffer

/--
Whatever operations have been performed, taking back the quoted lines at the end comes to an end and
fails at no access.  It changes nothing if the last line is no empty quoted line.  If it is one, the
tail of white space and marks is taken back as a whole, and nothing else.
-/
theorem run?_takesBackQuoteTail (ops : List Op) :
    ∃ b b' emitted, run? start ops = some (b, emitted) ∧ b.stripQuoteTail? = some b' ∧
      (b.onFreshQuotedLine? = some false ∧ b' = b ∨
        b.onFreshQuotedLine? = some true ∧ ∃ tail, b.TakesBack b' tail) := by
  obtain ⟨emitted, hrun, -, -⟩ := run?_buffer .empty ops
  refine ⟨_, _, emitted, hrun, stripQuoteTail?_buffer _, ?_⟩
  generalize ops.foldl Op.write Output.empty = o
  rw [onFreshQuotedLine?_buffer]
  cases hfresh : o.onFreshQuotedLine with
  | false =>
    left
    rw [stripQuoteTail, hfresh]
    exact ⟨rfl, rfl⟩
  | true => exact .inr ⟨rfl, exists_takesBack_of_fresh hfresh⟩

/-- Two empty quoted lines behind a word and a space. -/
def quotedLines : Buffer := ⟨" a \r\n> \r\n> ".toList, [5, 9]⟩

/-- Both lines are taken back, in two rounds. -/
theorem run?_takesBackQuoteTail_quotedLines :
    (run? start [.push 'a', .space, .quotedBreak, .quotedBreak]).map Prod.fst = some quotedLines ∧
      ∃ b' tail, quotedLines.stripQuoteTail? = some b' ∧ quotedLines.TakesBack b' tail := by
  obtain ⟨b, b', emitted, hrun, hstrip, htail⟩ :=
    run?_takesBackQuoteTail [.push 'a', .space, .quotedBreak, .quotedBreak]
  have hb : (run? start [.push 'a', .space, .quotedBreak, .quotedBreak]).map Prod.fst =
      some quotedLines := by decide +kernel
  obtain rfl : b = quotedLines := by
    rw [hrun] at hb
    exact Option.some.inj hb
  have hfresh : quotedLines.onFreshQuotedLine? = some true := by decide +kernel
  rw [hfresh] at htail
  obtain ⟨hnot, -⟩ | ⟨-, tail, htakes⟩ := htail
  · cases hnot
  · exact ⟨hb, b', tail, hstrip, htakes⟩

end Buffer

end HtmlMarkdown
