import HtmlMarkdown.Proofs.Draft.Prose
import HtmlMarkdown.Proofs.Draft.SetOff
import HtmlMarkdown.Proofs.Output.Finish
import HtmlMarkdown.Proofs.Text.Lines

/-!
# A page and the same page quoted

Let the same tokens be written twice, on an empty page and behind the start of a quotation.  Then
the second output mirrors the first (`Mirror`): it starts with a quoted line, has a quoted break for
each break of the first, and is the same otherwise.  Each token of an element that can stand in a
quotation keeps this (`Mirrors.add`), although the breaks are counted and written in two different
ways, and it makes the second text the first one with its lines quoted (`Mirror.written`).
-/

namespace HtmlMarkdown

open Text Output

/-- The elements that can stand in a quotation: lists, links and line breaks cannot. -/
def Element.quotable : Element → Bool
  | strong | emphasis | underline | span | paragraph | division | heading _ | rule => true
  | raw _ | other => true
  | anchor | bulletList | numberedList | preformatted | quotation | item | lineBreak => false

/-- The tokens of such elements, and what is no tag. -/
inductive Token.Quotable : Token → Prop
  | char {c : Char} (h : isBlank c = false) : Quotable (.char c)
  | blank : Quotable .blank
  | declaration : Quotable .declaration
  | nameless : Quotable .nameless
  | rawText (kind : RawText) : Quotable (.rawText kind)
  | startTag {e : Element} (h : e.quotable = true) (ahead : Bool) : Quotable (.startTag e ahead)
  | endTag {e : Element} (h : e.quotable = true) : Quotable (.endTag e)

/-! ## Outputs -/

/-- The glyphs of a page and those of the same page in a quotation. -/
inductive Mirror : List Glyph → List Glyph → Prop
  | start : Mirror [] (breaks true 1)
  | ink {p q : List Glyph} {c : Char} (hc : isBlank c = false) (n : Nat) (h : Mirror p q) :
      Mirror (breaks false n ++ .char c :: p) (breaks true n ++ .char c :: q)
  | space {p q : List Glyph} {c : Char} (hc : isBlank c = false) (h : Mirror p q) :
      Mirror (.char ' ' :: .char c :: p) (.char ' ' :: .char c :: q)

namespace Mirror

variable {p q : List Glyph}

theorem pushSpace (h : Mirror p q) : Mirror (pushSpace ⟨p⟩).glyphs (pushSpace ⟨q⟩).glyphs := by
  cases h with
  | start => exact .start
  | space hc h => exact .space hc h
  | ink hc n h =>
    cases n with
    | zero =>
      have hspacing : ∀ gs : List Glyph, (⟨.char _ :: gs⟩ : Output).endsInSpacing = false :=
        fun gs => Glyph.isSpacing_of_not_blank hc
      simp only [breaks, List.nil_append, Output.pushSpace, hspacing]
      exact .space hc h
    | succ n => exact .ink hc (n + 1) h

theorem append (h : Mirror p q) {s : List Char} (hs : ∀ c ∈ s, isBlank c = false) :
    Mirror (append ⟨p⟩ s).glyphs (append ⟨q⟩ s).glyphs := by
  induction s generalizing p q with
  | nil => exact h
  | cons c s ih =>
    exact ih (.ink (hs c (List.mem_cons_self ..)) 0 h) fun d hd => hs d (List.mem_cons_of_mem c hd)

theorem setOff (h : Mirror p q) {n : Nat} (h₁ : 0 < n) (h₂ : n ≤ 2) :
    Mirror (setOff false n ⟨p⟩).glyphs (setOff true n ⟨q⟩).glyphs := by
  cases h with
  | start =>
    obtain rfl | rfl : n = 1 ∨ n = 2 := by omega
    · exact .start
    · exact .start
  | ink hc k h =>
    rw [setOff_breaks hc h₁, setOff_breaks hc h₁]
    exact .ink hc _ h
  | space hc h =>
    rw [setOff_space hc, setOff_space hc]
    exact .ink hc n h

/-! ## Texts -/

theorem written_breaks (n : Nat) (h : written q = newLine ++ quoteLines (written p)) :
    written (breaks true n ++ q) = newLine ++ quoteLines (written (breaks false n ++ p)) := by
  induction n with
  | zero => exact h
  | succ n ih =>
    have hquoted : written (breaks true (n + 1) ++ q) =
        written (breaks true n ++ q) ++ newLine ++ ['>', ' '] := by
      show written (breaks true 1 ++ (breaks true n ++ q)) = _
      rw [written_append, List.append_assoc]
      rfl
    have hplain : written (breaks false (n + 1) ++ p) =
        written (breaks false n ++ p) ++ newLine ++ [] := by
      show written (breaks false 1 ++ (breaks false n ++ p)) = _
      rw [written_append, List.append_nil]
      rfl
    rw [hquoted, hplain, ih, quoteLines_append]
    simp only [List.append_assoc]
    rfl

theorem written_char {c : Char} (hc : c ≠ '\n') (h : written q = newLine ++ quoteLines (written p)) :
    written (.char c :: q) = newLine ++ quoteLines (written (.char c :: p)) := by
  rw [written_cons, written_cons, h, Glyph.toChar, quoteLines_snoc _ hc, List.append_assoc]

theorem written (h : Mirror p q) : written q = newLine ++ quoteLines (Output.written p) := by
  induction h with
  | start => rfl
  | ink hc n h ih => exact written_breaks n (written_char (ne_feed_of_ink hc) ih)
  | space hc h ih => exact written_char (by decide) (written_char (ne_feed_of_ink hc) ih)

theorem head_written (h : Mirror p q) (s : List Char) {c : Char} (hc : isBlank c = false) :
    (Output.written p ++ c :: s).head?.any (!isBlank ·) = true := by
  induction h generalizing s c with
  | start => simp [Output.written, hc]
  | ink hd n h ih =>
    rw [written_append, written_cons, List.append_assoc, List.append_assoc]
    exact ih _ hd
  | space hd h ih =>
    rw [written_cons, written_cons, List.append_assoc, List.append_assoc]
    exact ih _ hd

section Finish

variable {c : Char} (hc : isBlank c = false) (h : Mirror p q)

include hc h

theorem inked_written : Inked (Output.written (.char c :: p)) := by
  rw [written_cons]
  exact ⟨h.head_written [] hc, by simp [Glyph.toChar, hc]⟩

/-- The finished text reaches to the last ink. -/
theorem finish {o : Output} {b : List Char} (hb : ∀ c ∈ b, isBlank c = true)
    (ho : Output.written o.glyphs = Output.written (.char c :: p) ++ b) :
    o.finish = Output.written (.char c :: p) :=
  finish_between_blanks (a := []) ho (by simp) hb (h.inked_written hc)

theorem finish_quoted {o : Output} (ho : o.glyphs = breaks false 1 ++ .char c :: q) :
    o.finish = quoteLines (Output.written (.char c :: p)) := by
  have hwritten : Output.written (.char c :: q) =
      newLine ++ quoteLines (Output.written (.char c :: p)) := (Mirror.ink hc 0 h).written
  have hblank : ∀ c ∈ newLine, isBlank c = true := List.all_eq_true.1 (by decide)
  refine finish_between_blanks ?_ hblank hblank ?_
  · rw [ho, written_append, hwritten]
    rfl
  · exact (h.inked_written hc).quoteLines

end Finish

end Mirror

/-! ## Drafts -/

namespace Draft

/-- A draft outside quotations, and its mirror inside one. -/
structure Mirrors (d e : Draft) : Prop where
  /-- The second output mirrors the first. -/
  glyphs : Mirror d.output.glyphs e.output.glyphs
  /-- The first draft stands outside quotations. -/
  outside : d.context.inQuotation = false
  /-- The second draft stands in a quotation. -/
  inside : e.context.inQuotation = true

namespace Mirrors

variable {d e : Draft}

theorem space (h : d.Mirrors e) : d.space.Mirrors e.space :=
  ⟨h.glyphs.pushSpace, h.outside, h.inside⟩

theorem markup (h : d.Mirrors e) {s : List Char} (hs : ∀ c ∈ s, isBlank c = false) :
    (d.markup .markdown s).Mirrors (e.markup .markdown s) :=
  ⟨h.glyphs.append hs, h.outside, h.inside⟩

theorem char (h : d.Mirrors e) {c : Char} (hc : isBlank c = false) :
    (d.char .markdown c).Mirrors (e.char .markdown c) := by
  unfold Draft.char
  dsimp only
  split
  · exact (h.markup (s := ['\\']) (by simp [isBlank])).markup (s := [c]) (by simpa using hc)
  · exact h.markup (s := [c]) (by simpa using hc)

theorem separate (h : d.Mirrors e) {n : Nat} (h₁ : 0 < n) (h₂ : n ≤ 2) (closing : Bool) :
    (d.separate .markdown n true closing).Mirrors (e.separate .markdown n true closing) := by
  rw [separate_eq (.inl rfl), separate_eq (.inl rfl), h.outside, h.inside]
  exact ⟨h.glyphs.setOff h₁ h₂, h.outside, h.inside⟩

theorem rule (h : d.Mirrors e) : (d.rule .markdown).Mirrors (e.rule .markdown) := by
  have hsep := h.separate (n := 1) (by decide) (by decide) false
  have htext : ((d.separate .markdown 1 true false).markup .markdown ruleText).Mirrors
      ((e.separate .markdown 1 true false).markup .markdown ruleText) :=
    ⟨.ink (by decide) 0 (.space (by decide) (.space (by decide) hsep.glyphs)),
      hsep.outside, hsep.inside⟩
  exact htext.separate (by decide) (by decide) true

/-- What a heading starts with ends in a space. -/
theorem heading (h : d.Mirrors e) (rank : Fin 6) :
    (d.markup .markdown (Element.heading rank).opener).Mirrors
      (e.markup .markdown (Element.heading rank).opener) := by
  have hink : ∀ c ∈ List.replicate rank.val '#', isBlank c = false := by
    intro c hc
    rw [List.eq_of_mem_replicate hc]
    decide
  have hopener : (Element.heading rank).opener = List.replicate rank.val '#' ++ ['#', ' '] := by
    show List.replicate (rank.val + 1) '#' ++ [' '] = _
    rw [List.replicate_succ', List.append_assoc]
    rfl
  rw [hopener, markup_append, markup_append]
  exact ⟨.space (by decide) (h.markup hink).glyphs, h.outside, h.inside⟩

theorem openBlock (h : d.Mirrors e) {x : Element} (hx : x.quotable = true) {s : Spacing}
    (hs : x.spacing? = some s) {n : Nat} (h₁ : 0 < n) (h₂ : n ≤ 2) :
    (d.openBlock .markdown x { s with lines := n }).Mirrors
      (e.openBlock .markdown x { s with lines := n }) := by
  have hleaf : ∀ l, Mirrors { d with context := d.context.enterLeaf l }
      { e with context := e.context.enterLeaf l } := fun l => ⟨h.glyphs, h.outside, h.inside⟩
  cases x with
  | paragraph | division =>
    cases hs
    exact (hleaf _).separate h₁ h₂ false
  | heading rank =>
    cases hs
    exact ((hleaf _).separate h₁ h₂ false).heading rank
  | bulletList | numberedList | preformatted | quotation | item => cases hx
  | _ => cases hs

theorem closeBlock (h : d.Mirrors e) {x : Element} (hx : x.quotable = true) {s : Spacing}
    (hs : x.spacing? = some s) :
    (d.closeBlock .markdown s).Mirrors (e.closeBlock .markdown s) := by
  have hleaf : Mirrors { d with context := d.context.close false }
      { e with context := e.context.close false } := ⟨h.glyphs, h.outside, h.inside⟩
  cases x with
  | paragraph | division | heading rank =>
    cases hs
    exact hleaf.separate (by decide) (by decide) true
  | bulletList | numberedList | preformatted | quotation | item => cases hx
  | _ => cases hs

theorem startTag (h : d.Mirrors e) {x : Element} (hx : x.quotable = true) (ahead : Bool) :
    (d.startTag .markdown x ahead).Mirrors (e.startTag .markdown x ahead) := by
  cases x with
  | strong | emphasis | underline => exact h.markup (by simp [isBlank])
  | span => exact h
  | paragraph | division | heading rank =>
    cases ahead with
    | true => exact h.openBlock hx (s := ⟨false, 2, true⟩) rfl (n := 1) (by decide) (by decide)
    | false => exact h.openBlock hx (s := ⟨false, 2, true⟩) rfl (n := 2) (by decide) (by decide)
  | rule => exact h.rule
  | raw kind => exact h.space
  | other => exact h.space
  | _ => cases hx

theorem endTag (h : d.Mirrors e) {x : Element} (hx : x.quotable = true) :
    (d.endTag .markdown x).Mirrors (e.endTag .markdown x) := by
  cases x with
  | strong | emphasis | underline => exact h.markup (by simp [isBlank])
  | span => exact h
  | paragraph | division | heading rank => exact h.closeBlock hx rfl
  | rule => exact h.space
  | raw kind => exact h.space
  | other => exact h.space
  | _ => cases hx

/-- Each token that can stand in a quotation keeps the mirror. -/
theorem add (h : d.Mirrors e) {t : Token} (ht : t.Quotable) :
    (d.add .markdown t).Mirrors (e.add .markdown t) := by
  cases ht with
  | char hc => exact h.char hc
  | blank => exact h.space
  | declaration => exact h
  | nameless => exact h
  | rawText kind => exact h.space
  | startTag hx ahead => exact h.startTag hx ahead
  | endTag hx => exact h.endTag hx

theorem addAll (h : d.Mirrors e) {ts : List Token} (hts : ∀ t ∈ ts, t.Quotable) :
    (d.addAll .markdown ts).Mirrors (e.addAll .markdown ts) := by
  induction ts generalizing d e with
  | nil => exact h
  | cons t ts ih =>
    exact ih (h.add (hts t (List.mem_cons_self ..))) fun u hu => hts u (List.mem_cons_of_mem t hu)

end Mirrors

end Draft

end HtmlMarkdown
