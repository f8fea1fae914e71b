import HtmlMarkdown.Draft
import HtmlMarkdown.Proofs.Output.SetOff

/-!
# Blocks set off

In Markdown a block with quotable breaks is set off from what stands before it by `Output.setOff`,
in a quotation or outside, and outside quotations so is every block.  A quotation that is left gives
up the breaks at its end for one break of its own.
-/

namespace HtmlMarkdown.Draft

open Text Output

theorem separate_eq {d : Draft} {quotable : Bool}
    (h : quotable = true ∨ d.context.inQuotation = false) (n : Nat) (closing : Bool) :
    d.separate .markdown n quotable closing =
      { d with output := d.output.setOff d.context.inQuotation n } := by
  unfold separate
  cases hin : d.context.inQuotation with
  | true =>
    rw [hin] at h
    obtain rfl := h.resolve_right (by decide)
    rfl
  | false => cases quotable <;> cases closing <;> rfl

/-! ## The end of a quotation -/

variable {c : Char} {gs : List Glyph} {ctx : Context}

theorem leaveQuotation_eq {d : Draft} {o : Output} (hstrip : d.output.stripQuoteTail = o)
    (htrailing : o.trailingBreaks 2 = 0) (hdrop : o.dropSpace = ⟨gs⟩) :
    d.leaveQuotation = ⟨⟨breaks false 1 ++ gs⟩, d.context.close true⟩ := by
  unfold leaveQuotation
  rw [hstrip]
  dsimp only
  rw [htrailing, hdrop]
  rfl

theorem leaveQuotation_breaks (h : isBlank c = false) (n : Nat) :
    (⟨⟨breaks true n ++ .char c :: gs⟩, ctx⟩ : Draft).leaveQuotation =
      ⟨⟨breaks false 1 ++ .char c :: gs⟩, ctx.close true⟩ := by
  refine leaveQuotation_eq (stripQuoteTail_breaks h n) ?_ (dropSpace_ink h gs)
  show (breaksFrom false 2 0 (.char c :: gs)).getD 2 = 0
  rw [breaksFrom_ink h]
  rfl

theorem leaveQuotation_space (h : isBlank c = false) :
    (⟨⟨.char ' ' :: .char c :: gs⟩, ctx⟩ : Draft).leaveQuotation =
      ⟨⟨breaks false 1 ++ .char c :: gs⟩, ctx.close true⟩ := by
  refine leaveQuotation_eq (stripQuoteTail_space h) ?_ rfl
  show (breaksFrom false 2 0 (.char c :: gs)).getD 2 = 0
  rw [breaksFrom_ink h]
  rfl

end HtmlMarkdown.Draft
