import HtmlMarkdown.Convert
import HtmlMarkdown.Proofs.InPlace.Round

/-!
# The loop in place

At each head of the loop (`Head`) the cursor has written the tokens of the text in front of it
(`Faithful`), so its offset is a good one, and by `Cursor.step?_round` no access fails in the round
that follows.  A round that does not end the loop moves the offset forward, therefore there are at
most as many rounds as bytes.  The page that is left at the end is the one that the tokens of the
whole text give.
-/

namespace HtmlMarkdown

open Text InPlace

/-- An offset between two characters of a text, or at one of its ends. -/
def IsPlace (s : List Char) (i : Nat) : Prop := ∃ a b, s = a ++ b ∧ byteSize a = i

namespace Cursor

/-- The cursors at the heads of the loop, with the number of rounds before. -/
inductive Head (mode : Mode) (s : List Char) : Nat → Cursor → Prop
  /-- The start of the page. -/
  | start : Head mode s 0 .start
  /-- Where a round leads that does not end the loop. -/
  | next {n : Nat} {c e : Cursor} (h : Head mode s n c) (hstep : c.step? mode s = some (some e)) :
    Head mode s (n + 1) e

/-- The tokens of the text in front of the offset have been written. -/
def Faithful (mode : Mode) (s : List Char) (c : Cursor) : Prop :=
  ∃ a m ts, s = a ++ m ∧ tokens mode s = ts ++ tokens mode m ∧
    c = (Draft.empty.addAll mode ts).cursor (byteSize a)

variable {mode : Mode} {s : List Char} {c e : Cursor} {n : Nat}

theorem faithful_start : Faithful mode s .start := ⟨[], s, [], rfl, rfl, start_eq_cursor⟩

theorem Faithful.isPlace (h : Faithful mode s c) : IsPlace s c.pos := by
  obtain ⟨a, m, ts, hs, -, rfl⟩ := h
  exact ⟨a, m, hs, rfl⟩

theorem Faithful.pos_le (h : Faithful mode s c) : c.pos ≤ byteSize s := by
  obtain ⟨a, m, ts, rfl, -, rfl⟩ := h
  rw [byteSize_append]
  exact Nat.le_add_right _ _

/-- From a good place a round either ends the loop or moves the offset to a good place behind. -/
theorem Faithful.step (h : Faithful mode s c) :
    (c.step? mode s = some none ∧ c.output.finish = convertTokens mode s) ∨
    ∃ e, c.step? mode s = some (some e) ∧ Faithful mode s e ∧ c.pos < e.pos := by
  obtain ⟨a, m, ts, rfl, htokens, rfl⟩ := h
  have hpadded : (Draft.empty.addAll mode ts).output.Padded :=
    Draft.padded_addAll Output.padded_empty ts
  have hround : Round mode a m (Draft.empty.addAll mode ts)
      (step? mode (a ++ m) ((Draft.empty.addAll mode ts).cursor (byteSize a))) := step?_round hpadded
  generalize step? mode (a ++ m) ((Draft.empty.addAll mode ts).cursor (byteSize a)) = r at hround ⊢
  cases hround with
  | stop h =>
    refine .inl ⟨rfl, ?_⟩
    rw [convertTokens, htokens, render, Draft.addAll_append, h]
    exact Buffer.finish_buffer _
  | next x rest us hx hm ht =>
    obtain ⟨c, y, rfl⟩ := List.exists_cons_of_ne_nil hx
    refine .inr ⟨_, rfl, ⟨a ++ c :: y, rest, ts ++ us, ?_, ?_, ?_⟩, byteSize_lt_append_cons a c y⟩
    · rw [hm, List.append_assoc]
    · rw [htokens, ht, List.append_assoc]
    · rw [Draft.addAll_append]

theorem Head.faithful (h : Head mode s n c) : Faithful mode s c ∧ n ≤ c.pos := by
  induction h with
  | start => exact ⟨faithful_start, Nat.le_refl 0⟩
  | next h hstep ih =>
    obtain ⟨hfaithful, hle⟩ := ih
    rcases hfaithful.step with ⟨hend, -⟩ | ⟨e, hnext, he, hlt⟩
    · rw [hend] at hstep
      cases hstep
    · rw [hnext] at hstep
      cases hstep
      exact ⟨he, Nat.le_trans (Nat.succ_le_succ hle) hlt⟩

/-- Every head of the loop is followed by its last one. -/
theorem Head.exists_last (h : Head mode s n c) :
    ∃ k e, Head mode s k e ∧ e.step? mode s = some none ∧ run? mode s c = some e.output ∧
      e.output.finish = convertTokens mode s := by
  have hfaithful := h.faithful.1
  induction hleft : byteSize s - c.pos using Nat.strong_induction_on generalizing n c with
  | _ left ih =>
    rcases hfaithful.step with ⟨hend, hfinish⟩ | ⟨e, hnext, he, hlt⟩
    · refine ⟨n, c, h, hend, ?_, hfinish⟩
      rw [run?, hend]
      rfl
    · have hle := he.pos_le
      obtain ⟨k, f, hf, hend, hrun, hfinish⟩ :=
        ih (byteSize s - e.pos) (by omega) (h.next hnext) he rfl
      refine ⟨k, f, hf, hend, ?_, hfinish⟩
      rw [run?, hnext]
      exact hrun

/--
No access fails in the loop, for any text and in both modes.  At each head the offset is a good
place of the text; a round that does not end the loop moves it forward, so the loop ends after at
most as many rounds as there are bytes; and what it has written then is the conversion of the text.
-/
theorem loop_advances_to_the_end (mode : Mode) (s : List Char) :
    (∀ n c, Head mode s n c →
      c.pos ≤ byteSize s ∧ IsPlace s c.pos ∧ n ≤ byteSize s ∧
      ∃ r, c.step? mode s = some r ∧ ∀ e, r = some e → c.pos < e.pos) ∧
    (∃ n c, n ≤ byteSize s ∧ Head mode s n c ∧ c.step? mode s = some none) ∧
    (run? mode s .start).map Buffer.finish = some (convertTokens mode s) := by
  have hhead : ∀ n c, Head mode s n c → c.pos ≤ byteSize s ∧ n ≤ byteSize s := by
    intro n c h
    obtain ⟨hfaithful, hle⟩ := h.faithful
    exact ⟨hfaithful.pos_le, Nat.le_trans hle hfaithful.pos_le⟩
  have hstart : Head mode s 0 .start := .start
  obtain ⟨k, e, hlast, hend, hrun, hfinish⟩ := hstart.exists_last
  refine ⟨fun n c h => ?_, ⟨k, e, (hhead k e hlast).2, hlast, hend⟩, ?_⟩
  · refine ⟨(hhead n c h).1, h.faithful.1.isPlace, (hhead n c h).2, ?_⟩
    rcases h.faithful.1.step with ⟨hend, -⟩ | ⟨f, hnext, -, hlt⟩
    · exact ⟨none, hend, fun e he => nomatch he⟩
    · refine ⟨some f, hnext, fun e he => ?_⟩
      cases he
      exact hlt
  · rw [hrun, ← hfinish]
    rfl

end Cursor

end HtmlMarkdown
