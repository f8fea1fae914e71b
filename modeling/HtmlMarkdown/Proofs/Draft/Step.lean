import HtmlMarkdown.Draft

/-!
# What a token can do

`Draft.add` tells the tokens apart by two tables and a few names.  `Draft.add_rule` says once what
can come of it: a property holds of the draft after any token if it holds after each of the writing
operations.  Properties of whole pages follow by `Draft.addAll_rule`.

Breaks are quoted only in a quotation in Markdown, and only for blocks that allow it; the others are
all written by `Draft.separate_of_not_quoted`.
-/

namespace HtmlMarkdown

theorem Element.lines_of_spacing {e : Element} {s : Spacing} (h : e.spacing? = some s) :
    0 < s.lines ∧ s.lines ≤ 2 := by
  cases e <;> simp only [Element.spacing?, Option.some.injEq, reduceCtorEq] at h <;> subst h <;>
    decide

theorem Element.marker?_of_spacing {e : Element} {s : Spacing} (h : e.spacing? = some s) :
    e.marker? = none := by
  cases e with
  | strong | emphasis | underline | span | anchor => cases h
  | _ => rfl

namespace Draft

variable {mode : Mode} {d : Draft}

/-! ## Blocks -/

theorem startTag_of_spacing {e : Element} {s : Spacing} (he : e.spacing? = some s) (d : Draft) :
    d.startTag mode e false = d.openBlock mode e s := by
  unfold startTag
  rw [Element.marker?_of_spacing he, he]
  rfl

theorem endTag_of_spacing {e : Element} {s : Spacing} (he : e.spacing? = some s)
    (hne : e ≠ .quotation) (d : Draft) : d.endTag mode e = d.closeBlock mode s := by
  unfold endTag
  rw [Element.marker?_of_spacing he, he]
  cases e with
  | quotation => exact absurd rfl hne
  | _ => rfl

/-- Breaks that are not quoted end the quoted lines. -/
theorem separate_of_not_quoted {quotable : Bool}
    (h : quotable = false ∨ mode = .plain ∨ d.context.inQuotation = false) (n : Nat)
    (closing : Bool) :
    d.separate mode n quotable closing =
      { d with output :=
          d.output.stripQuoteTail.separate n false (closing && d.context.inQuotation) } := by
  have hquoted : (quotable && mode == .markdown && d.context.inQuotation) = false := by
    rcases h with rfl | rfl | hout
    · rfl
    · rw [show (Mode.plain == Mode.markdown) = false from rfl, Bool.and_false, Bool.false_and]
    · rw [hout, Bool.and_false]
  unfold separate
  dsimp only
  rw [hquoted]
  rfl

/-! ## Tokens -/

/-- What an anchor leaves as a tag of its own, or a marker. -/
theorem inline_rule {P : Draft → Prop} {e : Element} {m : List Char} (hspace : P d.space)
    (hmarker : P (d.markup mode m)) : P (d.inline mode e m) := by
  unfold inline
  split
  · exact hspace
  · exact hmarker

/-- What can come of a token. -/
theorem add_rule {P : Draft → Prop} (t : Token)
    (hchar : ∀ c, t = .char c → P (d.char mode c))
    (hspace : P d.space)
    (hskip : P d)
    (hmarker : ∀ (e : Element) m, e.marker? = some m → P (d.markup mode m))
    (hopen : ∀ e s n ahead, t = .startTag e ahead → e.spacing? = some s →
      ahead = true ∧ n = 1 ∨ n = s.lines → P (d.openBlock mode e { s with lines := n }))
    (hclose : ∀ e s, t = .endTag e → e.spacing? = some s → e ≠ .quotation →
      P (d.closeBlock mode s))
    (hleave : t = .endTag .quotation → P d.leaveQuotation)
    (hrule : P (d.rule mode))
    (hbreak : ∀ ahead, t = .startTag .lineBreak ahead → P (d.lineBreak mode))
    (hlink : ∀ l, t = .link l → P { d with output := d.output.append l.markdown }) :
    P (d.add mode t) := by
  cases t with
  | char c => exact hchar c rfl
  | blank => exact hspace
  | declaration => exact hskip
  | nameless => exact hskip
  | rawText kind => exact hspace
  | link l => exact hlink l rfl
  | startTag e ahead =>
    show P (d.startTag mode e ahead)
    unfold startTag
    split
    · next m hm => exact inline_rule hspace (hmarker e m hm)
    · next s hm hs =>
      cases ahead with
      | true => exact hopen e s 1 true rfl hs (.inl ⟨rfl, rfl⟩)
      | false => exact hopen e s s.lines false rfl hs (.inr rfl)
    · split
      · exact hrule
      · exact hbreak ahead rfl
      · exact hspace
  | endTag e =>
    show P (d.endTag mode e)
    unfold endTag
    split
    · next m hm => exact inline_rule hspace (hmarker e m hm)
    · next s hm hs =>
      split
      · exact hleave rfl
      · next hne => exact hclose e s rfl hs hne
    · exact hspace

theorem forall_place_iff {P : List Token → Token → Prop} {ts : List Token} :
    (∀ us t vs, ts = us ++ t :: vs → P us t) ↔
      ∀ i : Fin ts.length, P (ts.take i) (ts.get i) := by
  constructor
  · intro h i
    apply h (ts.take i) (ts.get i) (ts.drop (i + 1))
    exact (List.take_append_drop i ts).symm.trans (by rw [List.drop_eq_getElem_cons i.isLt]; rfl)
  · rintro h us t vs rfl
    simpa using h ⟨us.length, by simp⟩

/-- A property that each token of a page keeps holds of the finished draft. -/
theorem addAll_rule {P : Draft → Prop} {ts : List Token} (h : P d)
    (hadd : ∀ d t, t ∈ ts → P d → P (d.add mode t)) : P (d.addAll mode ts) := by
  induction ts generalizing d with
  | nil => exact h
  | cons t ts ih =>
    rw [addAll_cons]
    exact ih (hadd d t (List.mem_cons_self ..) h)
      fun d u hu => hadd d u (List.mem_cons_of_mem t hu)

end Draft

end HtmlMarkdown
