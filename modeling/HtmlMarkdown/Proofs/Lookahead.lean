import HtmlMarkdown.Convert
import HtmlMarkdown.Proofs.Draft.Plain
import HtmlMarkdown.Proofs.Draft.Spacing
import HtmlMarkdown.Proofs.Source.Ahead
import HtmlMarkdown.Proofs.Source.Lexing
import HtmlMarkdown.Proofs.Source.Reading

/-!
# Looking ahead leaves no trace

A quotation asks for one break instead of two where it sees the start tag of a block with quotable
breaks ahead.  The page does not show it: what is seen is read next (`exists_of_ahead`), the blanks
in between leave no trace, and the two breaks that the block asks for cover what the quotation asks
for, be it one break or two (`openBlock_quotation_openBlock`).  In a chain of quotations each one is
covered by the next, and the last one by a block that does not look ahead; so the argument goes
through the tokens from the end (`addAll_withoutAhead`).
-/

namespace HtmlMarkdown

open Text

/-- The token with nothing said about what is ahead. -/
def Token.withoutAhead : Token → Token
  | startTag e _ => startTag e false
  | t => t

/-! ## What is seen is read next -/

/-- The tokens go on, after blanks, with the start tag of a block with quotable breaks. -/
def StartsQuotable (ts : List Token) : Prop :=
  ∃ (g : List Char) (e : Element) (s : Spacing) (ahead : Bool) (rest : List Token),
    (∀ c ∈ g, isBlank c = true) ∧ e.spacing? = some s ∧ s.quotable = true ∧
      ts = g.map Token.ofChar ++ .startTag e ahead :: rest

theorem ofStartTag_of_quotable {e : Element} (h : e.spacing?.any (·.quotable) = true) (mode : Mode)
    (s after : List Char) :
    ∃ ahead, Token.ofStartTag mode e s after = (.startTag e ahead, after) := by
  cases e with
  | paragraph | division | heading _ => exact ⟨false, rfl⟩
  | quotation => exact ⟨Token.quotableAhead after, rfl⟩
  | _ => cases h

/-- A block that is seen ahead is read next. -/
theorem startsQuotable_of_quotableAhead {s : List Char} (h : Token.quotableAhead s = true)
    (mode : Mode) : StartsQuotable (tokens mode s) := by
  obtain ⟨g, t, rest, hg, rfl, ht⟩ := exists_of_quotableAhead h
  obtain ⟨sp, hsp, hquotable⟩ := (Option.any_eq_true ..).1 ht
  obtain ⟨ahead, hahead⟩ := ofStartTag_of_quotable ht mode (t.inner ++ '>' :: rest) rest
  have hopen : '<' ∉ g := fun hmem => absurd (hg '<' hmem) (by decide)
  have hnext : Token.next? mode ('<' :: (t.inner ++ '>' :: rest)) =
      some (.startTag t.element ahead, rest) := by
    rw [next?_bracket, markup?_tag, hahead]
  refine ⟨g, t.element, sp, ahead, tokens mode rest, hg, hsp, hquotable, ?_⟩
  rw [tokens_text mode hopen, tokens_of_next?_eq_some hnext]

theorem Token.quotableAhead_of_next? {mode : Mode} {s rest : List Char} {e : Element}
    (h : next? mode s = some (.startTag e true, rest)) :
    e = .quotation ∧ quotableAhead rest = true := by
  cases s with
  | nil => cases h
  | cons c s =>
    rw [next?] at h
    split at h
    · unfold markup? at h
      split at h
      · obtain ⟨r, -, hr⟩ := Option.map_eq_some_iff.1 h
        cases hr
      · split at h <;> cases h
      · split at h
        · unfold ofStartTag at h
          split at h
          · cases h
          · split at h <;> cases h
          · simp only [Option.some.injEq, Prod.mk.injEq, startTag.injEq] at h
            obtain ⟨⟨rfl, hahead⟩, rfl⟩ := h
            exact ⟨rfl, hahead⟩
          · cases h
        · cases h
        · cases h
    · split at h <;> cases h

/-- Only a quotation looks ahead, and what it sees is read next. -/
theorem exists_of_ahead {mode : Mode} {page : List Char} {us vs : List Token} {e : Element}
    (h : tokens mode page = us ++ .startTag e true :: vs) :
    e = .quotation ∧ StartsQuotable vs := by
  fun_induction tokens mode page generalizing us with
  | case1 => simp at h
  | case2 s t rest hnext ih =>
    cases us with
    | nil =>
      obtain ⟨rfl, rfl⟩ := List.cons.inj h
      obtain ⟨he, hahead⟩ := Token.quotableAhead_of_next? hnext
      exact ⟨he, startsQuotable_of_quotableAhead hahead mode⟩
    | cons u us => exact ih (List.cons.inj h).2

/-! ## One request covers the other -/

/-- Writes the breaks that a block with quotable breaks asks for in a quotation. -/
def Output.request (mode : Mode) (n : Nat) (o : Output) : Output :=
  match mode with
  | .markdown => o.separateQuoted n
  | .plain => o.separate n false false

namespace Draft

variable {mode : Mode} {d : Draft}

/-- What holds of the output at every place of a page. -/
structure Neat (mode : Mode) (o : Output) : Prop where
  /-- No mark stands at the end. -/
  padded : o.Padded
  /-- In plain text there are neither marks nor two spaces in a row. -/
  plain : mode = .plain → o.Plain False

theorem neat_empty (mode : Mode) : Neat mode .empty :=
  ⟨Output.padded_empty, fun _ => Output.plain_empty⟩

theorem Neat.unmarked {o : Output} (h : Neat mode o) (hp : mode = .plain) : .mark ∉ o.glyphs :=
  (h.plain hp).unmarked

theorem Neat.add (h : Neat mode d.output) {t : Token} (hchar : ∀ c, t = .char c → isBlank c = false)
    (hlink : mode = .plain → ∀ l, t ≠ .link l) : Neat mode (d.add mode t).output where
  padded := padded_add h.padded t
  plain := by
    rintro rfl
    exact (Plain.add ⟨h.plain rfl, False.elim⟩ hchar (hlink rfl) False.elim).output

theorem unmarked_request {o : Output} (h : mode = .plain → .mark ∉ o.glyphs) (n : Nat) :
    mode = .plain → .mark ∉ (o.request mode n).glyphs := by
  rintro rfl
  exact Output.unmarked_separate (h rfl) n false

theorem request_request {o : Output} {m n : Nat} (hm : 0 < m) (hn : 0 < n)
    (h : mode = .plain → o.Plain False) :
    (o.request mode m).request mode n = o.request mode (max m n) := by
  cases mode with
  | markdown => exact Output.separateQuoted_separateQuoted hm hn o
  | plain => exact Output.separate_separate hm hn (.inr (h rfl).dropSpace_dropSpace)

/-- In a quotation a quotable separation writes what is asked for, and nothing else. -/
theorem separate_of_inQuotation (hin : d.context.inQuotation = true)
    (h : mode = .plain → .mark ∉ d.output.glyphs) (n : Nat) :
    d.separate mode n true false = { d with output := d.output.request mode n } := by
  cases mode with
  | markdown =>
    unfold separate
    dsimp only
    rw [hin]
    rfl
  | plain =>
    rw [separate_of_not_quoted (.inr (.inl rfl)),
      Output.stripQuoteTail_of_not_fresh (Output.not_fresh_of_unmarked (h rfl))]
    rfl

theorem inQuotation_openBlock_of_quotable {e : Element} {s : Spacing} (he : e.spacing? = some s)
    (hs : s.quotable = true) {ctx : Context} (h : ctx.inQuotation = true) :
    (ctx.openBlock e).inQuotation = true := by
  cases e with
  | paragraph | division | heading _ => exact h
  | quotation => rfl
  | item | bulletList | numberedList | preformatted =>
    cases he
    cases hs
  | _ => cases he

theorem openBlock_of_inQuotation {e : Element} {s : Spacing} (hs : s.quotable = true)
    (hin : (d.context.openBlock e).inQuotation = true)
    (h : mode = .plain → .mark ∉ d.output.glyphs) :
    d.openBlock mode e s =
      (⟨d.output.request mode s.lines, d.context.openBlock e⟩ : Draft).markup mode e.opener := by
  have hseparate := separate_of_inQuotation (d := { d with context := d.context.openBlock e }) hin h
    s.lines
  unfold openBlock
  rw [hs, hseparate]

/--
What a quotation asks for is covered by the block right behind its start, unless the block asks for
less.
-/
theorem openBlock_quotation_openBlock (h : Neat mode d.output) {e : Element} {s q : Spacing}
    (he : e.spacing? = some s) (hs : s.quotable = true) (hq : q.quotable = true)
    (hpos : 0 < q.lines) (hle : q.lines ≤ s.lines) :
    (d.openBlock mode .quotation q).openBlock mode e s =
      (⟨d.output, d.context.openBlock .quotation⟩ : Draft).openBlock mode e s := by
  have hin : ((d.context.openBlock .quotation).openBlock e).inQuotation = true :=
    inQuotation_openBlock_of_quotable he hs rfl
  have hopen : d.openBlock mode .quotation q =
      ⟨d.output.request mode q.lines, d.context.openBlock .quotation⟩ := by
    rw [openBlock_of_inQuotation hq rfl h.unmarked]
    cases mode <;> rfl
  rw [hopen, openBlock_of_inQuotation hs hin (unmarked_request h.unmarked _),
    openBlock_of_inQuotation (d := ⟨d.output, d.context.openBlock .quotation⟩) hs hin h.unmarked]
  dsimp only
  rw [request_request hpos (Nat.lt_of_lt_of_le hpos hle) h.plain, Nat.max_eq_right hle]

theorem lines_of_quotable {e : Element} {s : Spacing} (he : e.spacing? = some s)
    (hs : s.quotable = true) : s.lines = 2 := by
  cases e <;> simp only [Element.spacing?, Option.some.injEq, reduceCtorEq] at he <;> subst he <;>
    first | rfl | cases hs

theorem startTag_quotation_eq (ahead : Bool) (d : Draft) :
    d.startTag mode .quotation ahead =
      d.openBlock mode .quotation ⟨true, if ahead then 1 else 2, true⟩ := by
  cases ahead <;> rfl

/-- Whether a quotation looks ahead does not show behind the block that it sees. -/
theorem addAll_startTag_quotation (h : Neat mode d.output) {ts : List Token}
    (hts : StartsQuotable ts) :
    (d.startTag mode .quotation true).addAll mode (ts.map Token.withoutAhead) =
      (d.startTag mode .quotation false).addAll mode (ts.map Token.withoutAhead) := by
  obtain ⟨g, e, s, ahead, rest, hg, he, hs, rfl⟩ := hts
  have hblanks : (g.map Token.ofChar).map Token.withoutAhead = g.map Token.ofChar := by
    rw [List.map_map]
    refine List.map_congr_left fun c hc => ?_
    rw [Function.comp_apply, Token.ofChar, if_pos (hg c hc)]
    rfl
  have hcover : ∀ early : Bool,
      ((d.startTag mode .quotation early).addAll mode (g.map Token.ofChar)).startTag mode e false =
        (⟨d.output, d.context.openBlock .quotation⟩ : Draft).openBlock mode e s := by
    intro early
    have hpos : 0 < if early then 1 else 2 := by cases early <;> decide
    have hle : (if early then 1 else 2) ≤ s.lines := by
      rw [lines_of_quotable he hs]
      cases early <;> decide
    rw [startTag_quotation_eq, addAll_blanks (endsInSpacing_openBlock h.padded _ hpos) hg,
      startTag_of_spacing he, openBlock_quotation_openBlock h he hs rfl hpos hle]
  rw [List.map_append, hblanks, List.map_cons, addAll_append, addAll_append, addAll_cons,
    addAll_cons]
  exact congrArg (addAll mode · _) ((hcover true).trans (hcover false).symm)

/-! ## Whole pages -/

/-- Looking ahead leaves no trace behind tokens that keep what has been seen. -/
theorem addAll_withoutAhead (h : Neat mode d.output) {ts : List Token}
    (hahead : ∀ us e vs, ts = us ++ .startTag e true :: vs → e = .quotation ∧ StartsQuotable vs)
    (hchar : ∀ c, .char c ∈ ts → isBlank c = false)
    (hlink : mode = .plain → ∀ l, .link l ∉ ts) :
    d.addAll mode (ts.map Token.withoutAhead) = d.addAll mode ts := by
  induction ts generalizing d with
  | nil => rfl
  | cons t ts ih =>
    have hnext : (d.add mode t).addAll mode (ts.map Token.withoutAhead) =
        (d.add mode t).addAll mode ts := by
      apply ih (h.add (fun c hc => hchar c (hc ▸ List.mem_cons_self ..))
        fun hp l hl => hlink hp l (hl ▸ List.mem_cons_self ..))
      · intro us e vs hts
        exact hahead (t :: us) e vs (congrArg (t :: ·) hts)
      · exact fun c hc => hchar c (List.mem_cons_of_mem t hc)
      · exact fun hp l hl => hlink hp l (List.mem_cons_of_mem t hl)
    rw [List.map_cons, addAll_cons, addAll_cons, ← hnext]
    -- Only a quotation that sees a block ahead is written in another way.
    cases t with
    | startTag e ahead =>
      cases ahead with
      | false => rfl
      | true =>
        obtain ⟨rfl, hts⟩ := hahead [] e ts rfl
        exact (addAll_startTag_quotation h hts).symm
    | _ => rfl

theorem addAll_tokens_withoutAhead (mode : Mode) (page : List Char) :
    empty.addAll mode ((tokens mode page).map Token.withoutAhead) =
      empty.addAll mode (tokens mode page) := by
  refine addAll_withoutAhead (neat_empty mode) (fun _ _ _ => exists_of_ahead)
    (fun _ => not_blank_of_mem_tokens) ?_
  rintro rfl l hl
  exact absurd (read?_of_link_mem_tokens hl).1 (by decide)

end Draft

/--
A page comes out the same if no quotation looks ahead, to the last glyph and with the same blocks
around its end.  Only quotations look ahead, and what they see is read next.
-/
theorem lookahead_leaves_no_trace (mode : Mode) (page : List Char) :
    Draft.empty.addAll mode ((tokens mode page).map Token.withoutAhead) =
        Draft.empty.addAll mode (tokens mode page) ∧
      render mode ((tokens mode page).map Token.withoutAhead) = convertTokens mode page ∧
      ∀ us e vs, tokens mode page = us ++ .startTag e true :: vs →
        e = .quotation ∧ StartsQuotable vs := by
  have hdraft := Draft.addAll_tokens_withoutAhead mode page
  exact ⟨hdraft, congrArg (Output.finish ∘ Draft.output) hdraft, fun _ _ _ => exists_of_ahead⟩

example : tokens .markdown "<blockquote> <blockquote><p>".toList =
    [.startTag .quotation true, .blank, .startTag .quotation true, .startTag .paragraph false] := by
  decide +kernel

end HtmlMarkdown
