import HtmlMarkdown.Proofs.Output.QuoteMarks
import HtmlMarkdown.Token

/-!
# Strokes

What has been written is a sequence of strokes (`Drawn`): ink and spaces, whole links, line breaks,
and line breaks with the mark and the space of a quoted line.  No operation leaves a part of a
stroke, neither one that writes nor one that takes back.

The danger is the space at the end of a quoted break, which must not be taken back alone.  An
operation that takes back a space either meets no live mark, or it has counted no line feed behind
the last ink, or it writes a space again.
-/

namespace HtmlMarkdown.Output

open Text

variable {ts : List Token} {o : Output} {gs : List Glyph}

/-- An output of whole strokes, with links that are among the tokens. -/
inductive Drawn (ts : List Token) : Output → Prop
  | empty : Drawn ts .empty
  | ink {o : Output} {c : Char} (hc : isBlank c = false) (h : Drawn ts o) : Drawn ts (o.push c)
  | space {o : Output} (h : Drawn ts o) : Drawn ts (o.push ' ')
  | lineBreak {o : Output} (h : Drawn ts o) : Drawn ts o.pushBreak
  | quotedBreak {o : Output} (h : Drawn ts o) : Drawn ts o.pushQuotedBreak
  | link {o : Output} {l : Link} (hl : Token.link l ∈ ts) (h : Drawn ts o) :
      Drawn ts (o.append l.markdown)

/-! ## The last stroke -/

theorem exists_append_markdown_eq_push (l : Link) (o : Output) :
    ∃ p : Output, o.append l.markdown = p.push ')' := by
  refine ⟨o.append ('[' :: l.text ++ [']', '('] ++ l.target), ?_⟩
  rw [Link.markdown, append, List.foldl_append]
  rfl

/-- In front of a space stand whole strokes, unless it belongs to a quoted break. -/
theorem Drawn.of_space (h : Drawn ts ⟨.char ' ' :: gs⟩) :
    Drawn ts ⟨gs⟩ ∨ ∃ hs, gs = .mark :: .char '\n' :: .char '\r' :: hs := by
  generalize ho : (⟨.char ' ' :: gs⟩ : Output) = o at h
  cases h with
  | empty => cases ho
  | ink hc h =>
    cases ho
    cases hc
  | space h =>
    cases ho
    exact .inl h
  | lineBreak h => cases ho
  | quotedBreak h =>
    cases ho
    exact .inr ⟨_, rfl⟩
  | @link p l hl h =>
    obtain ⟨q, hlink⟩ := exists_append_markdown_eq_push l p
    rw [hlink] at ho
    cases ho

theorem Drawn.of_feed (h : Drawn ts ⟨.char '\n' :: gs⟩) :
    ∃ hs, gs = .char '\r' :: hs ∧ Drawn ts ⟨hs⟩ := by
  generalize ho : (⟨.char '\n' :: gs⟩ : Output) = o at h
  cases h with
  | empty => cases ho
  | ink hc h =>
    cases ho
    cases hc
  | space h => cases ho
  | lineBreak h =>
    cases ho
    exact ⟨_, rfl, h⟩
  | quotedBreak h => cases ho
  | @link p l hl h =>
    obtain ⟨q, hlink⟩ := exists_append_markdown_eq_push l p
    rw [hlink] at ho
    cases ho

theorem Drawn.dropRemovable (h : Drawn ts o) :
    Drawn ts ⟨o.glyphs.dropWhile Glyph.isRemovable⟩ := by
  have hkeep {p : Output} {c : Char} (hc : isBlank c = false) (h : Drawn ts (p.push c)) :
      Drawn ts ⟨(p.push c).glyphs.dropWhile Glyph.isRemovable⟩ := by
    have hink : ¬ (Glyph.char c).isRemovable = true := by
      rw [Glyph.isRemovable_of_not_blank hc]
      decide
    show Drawn ts ⟨(.char c :: p.glyphs).dropWhile Glyph.isRemovable⟩
    rwa [List.dropWhile_cons_of_neg hink]
  induction h with
  | empty => exact .empty
  | ink hc h ih => exact hkeep hc (h.ink hc)
  | space h ih | lineBreak h ih | quotedBreak h ih => exact ih
  | @link p l hl h ih =>
    obtain ⟨q, hlink⟩ := exists_append_markdown_eq_push l p
    have hdrawn := h.link hl
    rw [hlink] at hdrawn ⊢
    exact hkeep (by decide) hdrawn

theorem Drawn.stripQuoteTail (h : Drawn ts o) : Drawn ts o.stripQuoteTail := by
  unfold Output.stripQuoteTail
  split
  · exact h.dropRemovable
  · exact h

/-! ## Writing -/

theorem Drawn.pushBreaks (h : Drawn ts o) (n : Nat) : Drawn ts (Output.pushBreaks n o) := by
  induction n generalizing o with
  | zero => exact h
  | succ n ih => exact ih h.lineBreak

theorem Drawn.pushQuotedBreaks (h : Drawn ts o) (n : Nat) :
    Drawn ts (Output.pushQuotedBreaks n o) := by
  induction n generalizing o with
  | zero => exact h
  | succ n ih => exact ih h.quotedBreak

/-! ## Taking back a space -/

theorem Drawn.dropSpace (h : Drawn ts o)
    (hbreak : ∀ gs, o.glyphs ≠ .char ' ' :: .mark :: .char '\n' :: .char '\r' :: gs) :
    Drawn ts o.dropSpace := by
  unfold Output.dropSpace
  split
  · next gs hgs =>
    have hspace : Drawn ts ⟨.char ' ' :: gs⟩ := hgs ▸ h
    rcases hspace.of_space with hdrawn | ⟨hs, rfl⟩
    · exact hdrawn
    · exact absurd hgs (hbreak hs)
  · exact h

theorem Drawn.dropSpace_of_quoteMarks_eq_nil (h : Drawn ts o) (hnil : o.quoteMarks = []) :
    Drawn ts o.dropSpace := by
  refine h.dropSpace fun gs hgs => ?_
  rw [quoteMarks, hgs, liveMarks_blank (by decide)] at hnil
  exact liveMarks_mark_ne_nil _ hnil

theorem Drawn.dropSpace_append_spaces (h : Drawn ts o) :
    Drawn ts (o.dropSpace.append [' ', ' ']) := by
  unfold Output.dropSpace
  split
  · next gs hgs =>
    have hspace : Drawn ts ⟨.char ' ' :: gs⟩ := hgs ▸ h
    exact hspace.space
  · exact h.space.space

/-! ## Separation -/

theorem Drawn.separate (h : Drawn ts o) (hnil : o.quoteMarks = []) (n : Nat)
    (keepSpace : Bool) : Drawn ts (o.separate n false keepSpace) := by
  refine Drawn.pushBreaks ?_ _
  split
  · exact h
  · exact h.dropSpace_of_quoteMarks_eq_nil hnil

theorem le_of_breaksFrom {passMarks : Bool} {limit count k : Nat}
    (h : breaksFrom passMarks limit count gs = some k) : count ≤ k := by
  fun_induction breaksFrom passMarks limit count gs with
  | case1 => cases h
  | case2 count gs hpass ih => exact ih h
  | case3 count gs hpass => exact Nat.le_of_eq (Option.some.inj h)
  | case4 count c gs hc hlimit =>
    have hk : count + 1 = k := Option.some.inj h
    omega
  | case5 count c gs hc hlimit ih =>
    have hk := ih h
    omega
  | case6 count c gs hc hspacing ih => exact ih h
  | case7 count c gs hc hspacing => exact Nat.le_of_eq (Option.some.inj h)

theorem pos_of_breaksFrom_quotedBreak {limit k : Nat}
    (h : breaksFrom true limit 0 (.char ' ' :: .mark :: .char '\n' :: gs) = some k) : 0 < k := by
  have hfeed : breaksFrom true limit 0 (.char ' ' :: .mark :: .char '\n' :: gs) =
      if limit ≤ 1 then some 1 else breaksFrom true limit 1 gs := rfl
  rw [hfeed] at h
  split at h
  · cases h
    exact Nat.one_pos
  · exact le_of_breaksFrom h

theorem Drawn.pushMark (h : Drawn ts o) (hfeed : o.endsInFeed = true) :
    Drawn ts o.pushMark := by
  obtain ⟨gs⟩ := o
  obtain ⟨gs, rfl⟩ := List.head?_eq_some_iff.1 (eq_of_beq hfeed)
  obtain ⟨hs, rfl, hdrawn⟩ := h.of_feed
  exact hdrawn.quotedBreak

theorem Drawn.separateQuoted (h : Drawn ts o) (n : Nat) : Drawn ts (o.separateQuoted n) := by
  have hstart : Drawn ts (if o.endsInFeed then o.pushMark else o) := by
    split
    · next hfeed => exact h.pushMark hfeed
    · exact h
  unfold Output.separateQuoted
  generalize (if o.endsInFeed then o.pushMark else o) = p at hstart
  dsimp only
  split
  · split
    · exact hstart
    · exact hstart.quotedBreak
  · next k hk =>
    refine Drawn.pushQuotedBreaks ?_ _
    split
    · next hzero =>
      refine hstart.dropSpace fun gs hgs => ?_
      rw [trailingQuotedBreaks?, hgs] at hk
      exact absurd hzero (Nat.ne_of_gt (pos_of_breaksFrom_quotedBreak hk))
    · exact hstart

end HtmlMarkdown.Output
