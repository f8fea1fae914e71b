import HtmlMarkdown.Proofs.Draft.Prose
import HtmlMarkdown.Proofs.Draft.Step
import HtmlMarkdown.Proofs.Output.Ink

/-!
# The ink of a page

Each token has a text of its own (`Token.written`): a character stands for itself, behind a
backslash where it has a meaning in Markdown, the tags of some elements have a marker, and a link is
written out.  Adding a token adds the visible characters of this text to the ink and changes the ink
in no other way (`ink_add`), whatever has been written before.

Quotation marks come from quotations only: where none is opened, none is written
(`Unmarked.addAll`).
-/

namespace HtmlMarkdown

open Text

/-- What stands for the start tag of an element in Markdown, breaks apart. -/
def Element.startText : Element → List Char
  | strong => ['*', '*']
  | emphasis => ['*']
  | underline => ['_']
  | heading rank => List.replicate (rank + 1) '#'
  | item => ['*']
  | rule => ['*', ' ', '*', ' ', '*']
  | _ => []

/-- What stands for the end tag of an element in Markdown, breaks apart. -/
def Element.endText : Element → List Char
  | strong => ['*', '*']
  | emphasis => ['*']
  | underline => ['_']
  | _ => []

theorem Element.startText_eq_nil (e : Element) (hm : e.marker? = none) (hs : e.spacing? = none)
    (hr : e ≠ .rule) : e.startText = [] := by
  cases e with
  | strong | emphasis | underline => cases hm
  | heading _ | item => cases hs
  | rule => exact absurd rfl hr
  | _ => rfl

theorem Element.endText_eq_nil (e : Element) (hm : e.marker? = none) : e.endText = [] := by
  cases e with
  | strong | emphasis | underline => cases hm
  | _ => rfl

theorem Element.endText_eq_startText (e : Element) {m : List Char} (hm : e.marker? = some m) :
    e.endText = e.startText := by
  cases e with
  | heading _ | item | rule => cases hm
  | _ => rfl

/-- What is written for a token, breaks and spaces around it apart. -/
def Token.written (mode : Mode) : Token → List Char
  | char c => mode.text [c]
  | startTag e _ => mode.markup e.startText
  | endTag e => mode.markup e.endText
  | link l => l.markdown
  | _ => []

theorem Context.inQuotation_openBlock {ctx : Context} {e : Element} (he : e ≠ .quotation)
    (h : ctx.inQuotation = false) : (ctx.openBlock e).inQuotation = false := by
  cases e with
  | quotation => exact absurd rfl he
  | bulletList | numberedList | preformatted => rfl
  | _ => exact h

namespace Draft

variable (mode : Mode) (d : Draft)

/-! ## Ink -/

@[simp] theorem ink_space : d.space.output.ink = d.output.ink := Output.ink_pushSpace _

@[simp] theorem ink_markup (s : List Char) :
    (d.markup mode s).output.ink = d.output.ink ++ visible (mode.markup s) := by
  cases mode with
  | markdown => exact Output.ink_append _ s
  | plain => exact (List.append_nil _).symm

theorem ink_char (c : Char) :
    (d.char mode c).output.ink = d.output.ink ++ visible (mode.text [c]) := by
  have hspecial : isSpecial c = true → mode = .markdown →
      mode.text [c] = mode.markup ['\\'] ++ [c] := by
    rintro hc rfl
    rw [Mode.text, escape_singleton, if_pos hc]
    rfl
  unfold char
  dsimp only
  rw [Output.ink_push]
  split
  · next hc =>
    rw [ink_markup, List.append_assoc, ← visible_append]
    cases mode with
    | markdown => rw [hspecial hc rfl]
    | plain => rfl
  · next hc =>
    cases mode with
    | markdown => rw [Mode.text, escape_singleton, if_neg hc]
    | plain => rfl

@[simp] theorem ink_separate (n : Nat) (quotable closing : Bool) :
    (d.separate mode n quotable closing).output.ink = d.output.ink := by
  unfold separate
  dsimp only
  rw [Output.ink_separate]
  split
  · rfl
  · exact Output.ink_stripQuoteTail _

@[simp] theorem ink_lineBreak : (d.lineBreak mode).output.ink = d.output.ink := by
  have hspaces : (d.output.dropSpace.append [' ', ' ']).ink = d.output.ink := by
    rw [Output.ink_append, Output.ink_dropSpace]
    exact List.append_nil _
  cases mode with
  | plain => exact (Output.ink_pushBreak _).trans (Output.ink_dropSpace _)
  | markdown =>
    unfold lineBreak
    dsimp only
    split
    · split
      · rfl
      · exact (Output.ink_pushQuotedBreak _).trans hspaces
    · exact (Output.ink_pushBreak _).trans hspaces

@[simp] theorem ink_leaveQuotation : d.leaveQuotation.output.ink = d.output.ink := by
  unfold leaveQuotation
  dsimp only
  split <;> simp

@[simp] theorem ink_openBlock (e : Element) (s : Spacing) :
    (d.openBlock mode e s).output.ink = d.output.ink ++ visible (mode.markup e.opener) := by
  unfold openBlock
  rw [ink_markup, ink_separate]

@[simp] theorem ink_closeBlock (s : Spacing) :
    (d.closeBlock mode s).output.ink = d.output.ink := by
  unfold closeBlock
  rw [ink_separate]

@[simp] theorem ink_rule :
    (d.rule mode).output.ink = d.output.ink ++ visible (mode.markup ruleText) := by
  cases mode with
  | plain => simp [rule, Mode.markup]
  | markdown => simp [rule]

theorem visible_opener (e : Element) (h : e.marker? = none) (hr : e ≠ .rule) :
    visible (mode.markup e.opener) = visible (mode.markup e.startText) := by
  cases mode with
  | plain => rfl
  | markdown =>
    cases e with
    | heading rank =>
      show visible (List.replicate (rank + 1) '#' ++ [' ']) = _
      rw [visible_append, visible_cons_blank (by decide), visible_nil, List.append_nil]
      rfl
    | item => decide
    | rule => exact absurd rfl hr
    | strong | emphasis | underline => cases h
    | _ => rfl

theorem ink_inline {e : Element} {m : List Char} (h : e.marker? = some m) :
    (d.inline mode e m).output.ink = d.output.ink ++ visible (mode.markup e.startText) := by
  unfold inline
  split
  · rw [ink_space]
    exact (List.append_nil _).symm
  · rw [ink_markup]
    cases e <;> cases h <;> rfl

theorem ink_startTag (e : Element) (ahead : Bool) :
    (d.startTag mode e ahead).output.ink =
      d.output.ink ++ visible (mode.markup e.startText) := by
  have hnil : e.startText = [] → d.output.ink =
      d.output.ink ++ visible (mode.markup e.startText) := by
    intro h
    rw [h]
    cases mode <;> exact (List.append_nil _).symm
  unfold startTag
  split
  · next hm => exact ink_inline mode d hm
  · next hm hs =>
    rw [ink_openBlock, visible_opener mode e hm]
    rintro rfl
    cases hs
  · next hm hs =>
    split
    · exact ink_rule mode d
    · exact (ink_lineBreak mode d).trans (hnil rfl)
    · next hrule hbreak =>
      exact (ink_space d).trans (hnil (e.startText_eq_nil hm hs hrule))

theorem ink_endTag (e : Element) :
    (d.endTag mode e).output.ink = d.output.ink ++ visible (mode.markup e.endText) := by
  have hnil : e.marker? = none → d.output.ink =
      d.output.ink ++ visible (mode.markup e.endText) := by
    intro h
    rw [e.endText_eq_nil h]
    cases mode <;> exact (List.append_nil _).symm
  unfold endTag
  split
  · next hm =>
    rw [ink_inline mode d hm, e.endText_eq_startText hm]
  · next hm _ =>
    split
    · exact (ink_leaveQuotation d).trans (hnil hm)
    · exact (ink_closeBlock mode d _).trans (hnil hm)
  · next hm _ => exact (ink_space d).trans (hnil hm)

theorem ink_add (t : Token) :
    (d.add mode t).output.ink = d.output.ink ++ visible (t.written mode) := by
  cases t with
  | char c => exact ink_char mode d c
  | blank | rawText _ => exact (ink_space d).trans (List.append_nil _).symm
  | declaration | nameless => exact (List.append_nil _).symm
  | link l => exact Output.ink_append _ _
  | startTag e ahead => exact ink_startTag mode d e ahead
  | endTag e => exact ink_endTag mode d e

theorem ink_addAll (ts : List Token) :
    (d.addAll mode ts).output.ink =
      d.output.ink ++ visible (ts.flatMap (Token.written mode)) := by
  induction ts generalizing d with
  | nil => exact (List.append_nil _).symm
  | cons t ts ih =>
    rw [addAll_cons, ih, ink_add, List.append_assoc, ← visible_append, List.flatMap_cons]

/-! ## Marks -/

variable {mode d}

/-- No quotation mark has been written, and none can be written in the place reached. -/
structure Unmarked (mode : Mode) (d : Draft) : Prop where
  /-- No mark has been written. -/
  unmarked : .mark ∉ d.output.glyphs
  /-- Marks are written in Markdown and inside quotations only. -/
  outside : mode = .plain ∨ d.context.inQuotation = false

theorem Unmarked.markup (h : d.Unmarked mode) (s : List Char) : (d.markup mode s).Unmarked mode := by
  cases mode with
  | markdown => exact ⟨Output.unmarked_append h.unmarked s, h.outside⟩
  | plain => exact h

theorem Unmarked.char (h : d.Unmarked mode) (c : Char) : (d.char mode c).Unmarked mode := by
  unfold Draft.char
  dsimp only
  split
  · exact ⟨Output.unmarked_append (h.markup _).unmarked [c], (h.markup _).outside⟩
  · exact ⟨Output.unmarked_append h.unmarked [c], h.outside⟩

theorem Unmarked.separate (h : d.Unmarked mode) (n : Nat) (quotable closing : Bool) :
    (d.separate mode n quotable closing).Unmarked mode := by
  rw [separate_of_not_quoted (.inr h.outside)]
  exact ⟨Output.unmarked_separate (Output.unmarked_stripQuoteTail h.unmarked) n _, h.outside⟩

theorem Unmarked.lineBreak (h : d.Unmarked mode) : (d.lineBreak mode).Unmarked mode := by
  have hdrop := Output.unmarked_dropSpace h.unmarked
  cases mode with
  | plain => exact ⟨Output.unmarked_append hdrop ['\r', '\n'], h.outside⟩
  | markdown =>
    have hout : d.context.inQuotation = false := h.outside.resolve_left (by decide)
    simp only [Draft.lineBreak, hout, Bool.false_eq_true, if_false]
    exact ⟨Output.unmarked_append hdrop [' ', ' ', '\r', '\n'], .inr hout⟩

theorem Unmarked.leaveQuotation (h : d.Unmarked mode) : d.leaveQuotation.Unmarked mode := by
  have hstrip := Output.unmarked_stripQuoteTail h.unmarked
  refine ⟨?_, .inr rfl⟩
  unfold Draft.leaveQuotation
  dsimp only
  split
  · exact Output.unmarked_append (Output.unmarked_dropSpace hstrip) ['\r', '\n']
  · exact hstrip

/-- Only the start of a quotation lets marks be written. -/
theorem Unmarked.add (h : d.Unmarked mode) {t : Token}
    (ht : mode = .plain ∨ ∀ ahead, t ≠ .startTag .quotation ahead) :
    (d.add mode t).Unmarked mode := by
  refine add_rule t (fun c _ => h.char c) ?_ h (fun e m _ => h.markup m) ?_ ?_
    (fun _ => h.leaveQuotation)
    ?_ (fun _ _ => h.lineBreak) ?_
  · exact ⟨Output.unmarked_pushSpace h.unmarked, h.outside⟩
  · intro e s n ahead he _ _
    refine (Unmarked.separate (d := { d with context := d.context.openBlock e })
      ⟨h.unmarked, ?_⟩ ..).markup _
    rcases h.outside with hplain | hout
    · exact .inl hplain
    · exact ht.imp id fun hne =>
        Context.inQuotation_openBlock (fun hq => hne ahead (hq ▸ he)) hout
  · intro e s _ _ _
    refine Unmarked.separate (d := { d with context := d.context.close s.container })
      ⟨h.unmarked, h.outside.imp id fun hout => ?_⟩ ..
    cases s.container with
    | true => rfl
    | false => exact hout
  · cases mode with
    | plain => exact h.separate 1 true false
    | markdown => exact ((h.separate 1 true false).markup _).separate 2 true true
  · exact fun l _ => ⟨Output.unmarked_append h.unmarked _, h.outside⟩

theorem Unmarked.addAll (h : d.Unmarked mode) {ts : List Token}
    (hts : mode = .plain ∨ ∀ ahead, .startTag .quotation ahead ∉ ts) :
    (d.addAll mode ts).Unmarked mode :=
  addAll_rule h fun _ _ ht hd => hd.add <|
    hts.imp id fun hno ahead heq => hno ahead (heq ▸ ht)

end Draft

end HtmlMarkdown
