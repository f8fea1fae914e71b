import HtmlMarkdown.Proofs.InPlace.Invariant
import HtmlMarkdown.Proofs.Output.Merge

/-!
# Requests for breaks

Whatever operations have been performed, in any order, two requests for breaks in a row come to the
larger one (`run?_mergesRequests`), and behind a request the breaks are there.  The operations write
an `Output`, of which this is known; what is left is to read it off the buffer that stores it.

One space is taken back at most, and behind two of them the second request would take back the other
one.
-/

namespace HtmlMarkdown

open Output

/-- Requests for breaks at the end of a buffer do not add up. -/
structure Buffer.MergesRequests (b : Buffer) : Prop where
  /-- Two requests come to the larger one, with the same text and the same marks. -/
  merge : ∀ (m n : Nat) (quoted keepSpace : Bool), 0 < m → 0 < n →
    quoted = true ∨ keepSpace = true ∨ ¬ [' ', ' '] <:+ b.text →
    ∃ b', b.separate? (max m n) quoted keepSpace = some b' ∧
      (b.separate? m quoted keepSpace).bind (·.separate? n quoted keepSpace) = some b'
  /-- Plain breaks that are asked for are there. -/
  plain : ∀ (n : Nat) (keepSpace : Bool), 0 < n →
    ∃ b', b.separate? n false keepSpace = some b' ∧ b'.trailingBreaks n = n
  /-- So are quoted breaks, unless there is nothing but white space and marks. -/
  quoted : ∀ (n : Nat) (keepSpace : Bool), 0 < n →
    ∃ b' found, b.separate? n true keepSpace = some b' ∧ b'.trailingQuotedBreaks? n = some found ∧
      (found = none ∨ found = some n)

namespace Output

variable {o : Output} {m n : Nat} {quoted keepSpace : Bool}

theorem dropSpace_dropSpace_of_contents (h : ¬ [' ', ' '] <:+ o.contents) :
    o.dropSpace.dropSpace = o.dropSpace := by
  apply dropSpace_dropSpace
  intro gs hgs
  exact h ⟨contents ⟨gs⟩, by simp [contents, hgs, Glyph.toChar]⟩

theorem separate_max (hm : 0 < m) (hn : 0 < n)
    (h : quoted = true ∨ keepSpace = true ∨ ¬ [' ', ' '] <:+ o.contents) :
    (o.separate m quoted keepSpace).separate n quoted keepSpace =
      o.separate (max m n) quoted keepSpace := by
  cases quoted with
  | true => exact separateQuoted_separateQuoted hm hn o
  | false =>
    exact separate_separate hm hn
      ((h.resolve_left (by decide)).imp_right dropSpace_dropSpace_of_contents)

theorem mergesRequests_buffer (o : Output) : o.buffer.MergesRequests where
  merge m n quoted keepSpace hm hn h := by
    refine ⟨(o.separate (max m n) quoted keepSpace).buffer, Buffer.separate?_buffer .., ?_⟩
    rw [Buffer.separate?_buffer, Option.bind_some, Buffer.separate?_buffer, separate_max hm hn h]
  plain n keepSpace hn := by
    refine ⟨(o.separate n false keepSpace).buffer, Buffer.separate?_buffer .., ?_⟩
    rw [Buffer.trailingBreaks_buffer, trailingBreaks_separate hn]
  quoted n keepSpace hn :=
    ⟨(o.separateQuoted n).buffer, _, Buffer.separate?_buffer ..,
      Buffer.trailingQuotedBreaks?_buffer .., trailingQuotedBreaks?_separateQuoted hn o⟩

end Output

namespace Buffer

/--
Operations on an empty page, whatever they are and in whatever order, do not fail, and leave a
buffer at whose end two requests for breaks come to the larger one.
-/
theorem run?_mergesRequests (ops : List Op) :
    ∃ b emitted, run? start ops = some (b, emitted) ∧ b.MergesRequests := by
  obtain ⟨emitted, hrun, -, -⟩ := run?_buffer .empty ops
  exact ⟨_, emitted, hrun, mergesRequests_buffer _⟩

/-- A quoted line that has just been started. -/
def quotedLine : Buffer := ⟨" a\r\n> ".toList, [4]⟩

/-- One space stands behind the mark, and whichever request comes first takes it back. -/
theorem run?_mergesRequests_quotedLine :
    (run? start [.push 'a', .quotedBreak]).map Prod.fst = some quotedLine ∧
      ∃ b, quotedLine.separate? 2 false false = some b ∧
        (quotedLine.separate? 1 false false).bind (·.separate? 2 false false) = some b := by
  obtain ⟨b, emitted, hrun, hmerge⟩ := run?_mergesRequests [.push 'a', .quotedBreak]
  have hb : (run? start [.push 'a', .quotedBreak]).map Prod.fst = some quotedLine := by
    decide +kernel
  obtain rfl : b = quotedLine := by
    rw [hrun] at hb
    exact Option.some.inj hb
  have hspace : ¬ [' ', ' '] <:+ quotedLine.text := by decide +kernel
  exact ⟨hb, hmerge.merge 1 2 false false (by decide) (by decide) (.inr (.inr hspace))⟩

end Buffer

end HtmlMarkdown
