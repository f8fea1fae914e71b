import HtmlMarkdown.Proofs.Draft.Step

/-!
# Layout

Apart from its characters and links, a page is laid out with white space, quotation marks and the
signs of Markdown, of which only white space and marks are taken back.  A property of outputs that
writing and taking back such glyphs keeps is a `LayoutInvariant`; all tokens but characters and
links keep it (`add_layout`), whatever the mode and the context.

Most of it is writing, where no more than a space is taken back.  What this much keeps is a
`WritingInvariant`; only where a quotation is left more may be lost.
-/

namespace HtmlMarkdown

/-- The signs that Markdown is written with. -/
def Glyph.isSign : Glyph → Bool
  | char c => c == '*' || c == '_' || c == '#' || c == '\\'
  | mark => false

/-- What is written apart from the characters and links of a page. -/
def Glyph.isLayout (g : Glyph) : Bool := g.isRemovable || g.isSign

namespace Output

/-- What writing keeps. -/
structure WritingInvariant (P : Output → Prop) : Prop where
  /-- Writing white space, a mark or a sign. -/
  push {o : Output} {g : Glyph} (hg : g.isLayout = true) (h : P o) : P (o.pushGlyph g)
  /-- Taking back a space. -/
  drop {gs : List Glyph} (h : P ⟨.char ' ' :: gs⟩) : P ⟨gs⟩

/-- What laying out a page keeps. -/
structure LayoutInvariant (P : Output → Prop) : Prop where
  /-- Writing white space, a mark or a sign. -/
  push {o : Output} {g : Glyph} (hg : g.isLayout = true) (h : P o) :
    P (o.pushGlyph g)
  /-- Taking back white space or a mark. -/
  pop {g : Glyph} {gs : List Glyph} (hg : g.isRemovable = true) (h : P ⟨g :: gs⟩) : P ⟨gs⟩

namespace WritingInvariant

variable {P : Output → Prop} (hP : WritingInvariant P) {o : Output}

include hP

/-! ## Writing -/

theorem pushSpace (h : P o) : P o.pushSpace := by
  unfold Output.pushSpace
  split
  · exact h
  · exact hP.push rfl h

theorem dropSpace (h : P o) : P o.dropSpace := by
  unfold Output.dropSpace
  split
  · next gs hgs =>
    have hspace : P ⟨.char ' ' :: gs⟩ := by
      rw [← hgs]
      exact h
    exact hP.drop hspace
  · exact h

theorem pushBreak (h : P o) : P o.pushBreak := hP.push rfl (hP.push rfl h)

theorem pushMark (h : P o) : P o.pushMark := hP.push rfl (hP.push rfl h)

theorem pushQuotedBreak (h : P o) : P o.pushQuotedBreak := hP.pushMark (hP.pushBreak h)

theorem pushBreaks (h : P o) (n : Nat) : P (Output.pushBreaks n o) := by
  induction n generalizing o with
  | zero => exact h
  | succ n ih => exact ih (hP.pushBreak h)

theorem pushQuotedBreaks (h : P o) (n : Nat) : P (Output.pushQuotedBreaks n o) := by
  induction n generalizing o with
  | zero => exact h
  | succ n ih => exact ih (hP.pushQuotedBreak h)

theorem append (h : P o) {s : List Char}
    (hs : s.all (fun c => (Glyph.char c).isLayout) = true) :
    P (o.append s) := by
  induction s generalizing o with
  | nil => exact h
  | cons c s ih =>
    rw [List.all_cons, Bool.and_eq_true] at hs
    exact ih (hP.push hs.1 h) hs.2

/-! ## Separation -/

theorem separateQuoted (h : P o) (n : Nat) : P (o.separateQuoted n) := by
  have hstart : P (if o.endsInFeed then o.pushMark else o) := by
    split
    · exact hP.pushMark h
    · exact h
  unfold Output.separateQuoted
  generalize (if o.endsInFeed then o.pushMark else o) = p at hstart
  dsimp only
  split
  · split
    · exact hstart
    · exact hP.pushQuotedBreak hstart
  · apply hP.pushQuotedBreaks
    split
    · exact hP.dropSpace hstart
    · exact hstart

theorem separate (h : P o) (n : Nat) (quoted keepSpace : Bool) :
    P (o.separate n quoted keepSpace) := by
  unfold Output.separate
  split
  · exact hP.separateQuoted h n
  · apply hP.pushBreaks
    split
    · exact h
    · exact hP.dropSpace h

end WritingInvariant

namespace LayoutInvariant

variable {P : Output → Prop} (hP : LayoutInvariant P) {o : Output}

include hP

theorem writing : WritingInvariant P := ⟨hP.push, hP.pop rfl⟩

theorem dropRemovable {gs : List Glyph} (h : P ⟨gs⟩) : P ⟨gs.dropWhile Glyph.isRemovable⟩ := by
  induction gs with
  | nil => exact h
  | cons g gs ih =>
    by_cases hg : g.isRemovable = true
    · rw [List.dropWhile_cons_of_pos hg]
      exact ih (hP.pop hg h)
    · rwa [List.dropWhile_cons_of_neg hg]

theorem stripQuoteTail (h : P o) : P o.stripQuoteTail := by
  unfold Output.stripQuoteTail
  split
  · exact hP.dropRemovable h
  · exact h

end LayoutInvariant

end Output

namespace Draft

variable {P : Output → Prop} {mode : Mode} {d : Draft}

/-! ## Drafts -/

section Writing

variable (hP : Output.WritingInvariant P)

include hP

theorem markup_writing (h : P d.output) {s : List Char}
    (hs : s.all (fun c => (Glyph.char c).isLayout) = true) :
    P (d.markup mode s).output := by
  cases mode with
  | markdown => exact hP.append h hs
  | plain => exact h

theorem lineBreak_writing (h : P d.output) : P (d.lineBreak mode).output := by
  have hdrop := hP.dropSpace h
  have hspaces : P (d.output.dropSpace.append [' ', ' ']) := hP.append hdrop (by decide)
  unfold lineBreak
  split
  · exact hP.pushBreak hdrop
  · split
    · split
      · exact h
      · exact hP.pushQuotedBreak hspaces
    · exact hP.pushBreak hspaces

end Writing

section Layout

variable (hP : Output.LayoutInvariant P)

include hP

theorem separate_layout (h : P d.output) (n : Nat) (quotable closing : Bool) :
    P (d.separate mode n quotable closing).output := by
  apply hP.writing.separate
  split
  · exact h
  · exact hP.stripQuoteTail h

theorem leaveQuotation_layout (h : P d.output) : P d.leaveQuotation.output := by
  have hstrip := hP.stripQuoteTail h
  unfold leaveQuotation
  dsimp only
  split
  · exact hP.writing.pushBreak (hP.writing.dropSpace hstrip)
  · exact hstrip

theorem rule_layout (h : P d.output) : P (d.rule mode).output := by
  have hsep : P (d.separate mode 1 true false).output := separate_layout hP h 1 true false
  cases mode with
  | plain => exact hsep
  | markdown =>
    exact separate_layout hP (markup_writing hP.writing hsep (by decide)) 2 true true

/-- What laying out a page keeps, every token keeps that is no character and no link. -/
theorem add_layout (h : P d.output) (t : Token)
    (hchar : ∀ c o, t = .char c → P o → P (o.push c))
    (hlink : ∀ l, t = .link l → P (d.output.append l.markdown)) : P (d.add mode t).output := by
  refine add_rule (P := fun e => P e.output) t ?_ (hP.writing.pushSpace h) h ?_ ?_ ?_
    (fun _ => leaveQuotation_layout hP h) (rule_layout hP h)
    (fun _ _ => lineBreak_writing hP.writing h) hlink
  · intro c hc
    apply hchar c _ hc
    split
    · exact markup_writing hP.writing h (by decide)
    · exact h
  · intro e m hm
    exact markup_writing hP.writing h (Element.all_marker (by decide) hm)
  · intro e s n _ _ _ _
    have hsep : P (separate mode n s.quotable false ⟨d.output, d.context.openBlock e⟩).output :=
      separate_layout (d := ⟨d.output, d.context.openBlock e⟩) hP h n s.quotable false
    exact markup_writing hP.writing hsep (e.all_opener (by decide))
  · intro e s _ _ _
    exact separate_layout (d := ⟨d.output, d.context.close s.container⟩) hP h s.lines _ _

end Layout

end Draft

end HtmlMarkdown
