import HtmlMarkdown.Proofs.Draft.QuoteMarks
import HtmlMarkdown.Proofs.Lookahead
import HtmlMarkdown.Proofs.Output.Parted

/-!
# Breaks that are asked for stay

Between two texts of a page, paragraphs, headings, lists and other blocks ask for two line breaks.
Outside quotations these are written behind the last ink (`parted_add_of_asksForTwo`).  The tokens
that follow keep one of them in any case and mostly both (`parted_add`, `parted_addAll`): most
tokens only write, and a block that first takes back the empty lines of a quotation asks for its own
two breaks afterwards.

Only the end of a quotation and an item of a list ask for less.  In a quotation they take back all
that stands behind the last ink, and that includes the breaks in front of the quotation if nothing
has been written in it.
-/

namespace HtmlMarkdown

open Text

/-! ## Tokens -/

/-- The elements whose tags ask for two breaks, whether they start or end. -/
def Element.asksForTwo : Element → Bool
  | paragraph | division | heading _ | bulletList | numberedList | preformatted => true
  | _ => false

namespace Token

/-- Whether a token asks for two breaks at a place outside quotations. -/
def asksForTwo : Token → Bool
  | startTag e _ | endTag e => e.asksForTwo
  | _ => false

/-- Whether a token ends the quoted lines of a quotation and then asks for one break only. -/
def endsQuotedLines : Token → Bool
  | startTag .item _ | endTag .item | endTag .quotation => true
  | _ => false

/-- Whether a token is text of the page. -/
def isText : Token → Bool
  | char _ | link _ => true
  | _ => false

/-- What holds of the tokens that are read. -/
structure Regular (t : Token) : Prop where
  /-- Characters are ink. -/
  ink : ∀ c, t = .char c → isBlank c = false
  /-- Only a quotation looks ahead. -/
  ahead : ∀ e, t = .startTag e true → e = .quotation

theorem regular_of_mem {mode : Mode} {page : List Char} {t : Token} (h : t ∈ tokens mode page) :
    t.Regular := by
  refine ⟨?_, ?_⟩
  · rintro c rfl
    exact not_blank_of_mem_tokens h
  · rintro e rfl
    obtain ⟨us, vs, hsplit⟩ := List.append_of_mem h
    exact (exists_of_ahead hsplit).1

/-- What is written for text starts and ends with ink. -/
theorem inked_written {x : Token} (hx : x.isText = true) (h : x.Regular) :
    Inked (x.written .markdown) := by
  cases x with
  | char c =>
    obtain ⟨hne, hink⟩ := escape_ink (h.ink c rfl)
    exact inked_of_ink hne hink
  | link l =>
    have hlink := Inked.append (s := ['[']) (t := [')']) ⟨rfl, rfl⟩ ⟨rfl, rfl⟩
      (l.text ++ [']', '('] ++ l.target)
    exact hlink
  | _ => cases hx

end Token

namespace Element

variable {e : Element} {s : Spacing}

theorem spacing?_of_asksForTwo (h : e.asksForTwo = true) :
    e ≠ .quotation ∧ ∃ s, e.spacing? = some s ∧ s.lines = 2 := by
  cases e with
  | paragraph | division | heading _ | bulletList | numberedList | preformatted =>
    exact ⟨Element.noConfusion, _, rfl, rfl⟩
  | _ => cases h

/-- Among the blocks whose breaks are never quoted, only items ask for one break. -/
theorem lines_of_not_quotable (h : e.spacing? = some s) (hs : s.quotable = false) :
    e ≠ .quotation ∧ (e = .item ∧ s.lines = 1 ∨ s.lines = 2) := by
  cases e with
  | item =>
    cases h
    exact ⟨by decide, .inl ⟨rfl, rfl⟩⟩
  | bulletList | numberedList | preformatted =>
    cases h
    exact ⟨by decide, .inr rfl⟩
  | paragraph | division | heading _ | quotation =>
    cases h
    cases hs
  | _ => cases h

/-- A block that ends with quotable breaks leaves no container, unless it is a quotation. -/
theorem not_container_of_quotable (h : e.spacing? = some s) (hs : s.quotable = true)
    (hne : e ≠ .quotation) : s.container = false := by
  cases e with
  | quotation => exact absurd rfl hne
  | paragraph | division | heading _ => cases h; rfl
  | item | bulletList | numberedList | preformatted =>
    cases h
    cases hs
  | _ => cases h

end Element

/-! ## Drafts -/

namespace Draft

open Output

variable {mode : Mode} {c : Char} {m n : Nat} {gs : List Glyph} {seen : List Char} {d : Draft}

theorem Orderly.not_fresh (h : d.Orderly) (hout : d.context.inQuotation = false) :
    d.output.onFreshQuotedLine = false :=
  not_fresh_of_quoteMarks_eq_nil (h.outside hout)

theorem Orderly.withContext (h : d.Orderly) {ctx : Context}
    (hctx : d.context.inQuotation = true → ctx.inQuotation = true) :
    Orderly ⟨d.output, ctx⟩ := by
  refine ⟨h.clean, fun hout => h.outside (Bool.eq_false_iff.2 fun hin => ?_)⟩
  exact absurd ((hctx hin).symm.trans hout) (by decide)

theorem parted_markup (h : Parted m gs seen d.output) (s : List Char) :
    Parted m gs seen (d.markup mode s).output := by
  cases mode with
  | markdown => exact h.append s
  | plain => exact h

/-! ## Separation -/

/-- Quotable breaks take nothing back: what is not quoted stands outside quotations. -/
theorem parted_separate_quotable (hd : d.Orderly) (hm : 0 < m) (h : Parted m gs seen d.output)
    (n : Nat) (closing : Bool) : Parted m gs seen (d.separate .markdown n true closing).output := by
  have hP := writingInvariant_parted hm gs seen
  cases hin : d.context.inQuotation with
  | true =>
    unfold separate
    dsimp only
    rw [hin]
    exact hP.separate h n true _
  | false =>
    rw [separate_of_not_quoted (.inr (.inr hin)), stripQuoteTail_of_not_fresh (hd.not_fresh hin)]
    exact hP.separate h n false _

/-- Other breaks take back no more than they ask for, if they ask for enough or behind ink. -/
theorem parted_separate_plain (hc : isBlank c = false) (hm : 0 < m)
    (h : Parted m (.char c :: gs) seen d.output)
    (hkeep : m ≤ n ∨ (d.output.onFreshQuotedLine = true → d.output.ink ≠ seen)) (closing : Bool) :
    Parted m (.char c :: gs) seen (d.separate .markdown n false closing).output := by
  rw [separate_of_not_quoted (.inl rfl)]
  rcases hkeep with hmn | hink
  · exact h.separate hc hm hmn _
  · exact (writingInvariant_parted hm _ _).separate (h.stripQuoteTail hink) n false _

theorem parted_separate_of_not_inQuotation (hc : isBlank c = false) (hn : 0 < n)
    (hsuffix : .char c :: gs <:+ d.output.glyphs) (hout : d.context.inQuotation = false)
    (quotable closing : Bool) :
    Parted n (.char c :: gs) d.output.ink (d.separate .markdown n quotable closing).output := by
  have hstrip := (layoutInvariant_suffix hc gs).stripQuoteTail hsuffix
  rw [separate_of_not_quoted (.inr (.inr hout)), ← ink_stripQuoteTail]
  exact parted_separate hc hn hstrip _

/-! ## Steps -/

section Steps

variable (hc : isBlank c = false)

include hc

/-- A tag that asks for two breaks gets them where it leads outside quotations. -/
theorem parted_add_of_asksForTwo (hsuffix : .char c :: gs <:+ d.output.glyphs) {t : Token}
    (ht : t.asksForTwo = true) (hregular : t.Regular)
    (hout : (d.add .markdown t).context.inQuotation = false) :
    Parted 2 (.char c :: gs) d.output.ink (d.add .markdown t).output := by
  cases t with
  | startTag e ahead =>
    obtain ⟨hne, s, hs, hlines⟩ := Element.spacing?_of_asksForTwo ht
    obtain rfl : ahead = false := Bool.eq_false_iff.2 fun h => hne (hregular.ahead e (h ▸ rfl))
    have hopen : d.add .markdown (.startTag e false) = d.openBlock .markdown e s :=
      startTag_of_spacing hs d
    rw [hopen] at hout ⊢
    have hsep := parted_separate_of_not_inQuotation
      (d := ⟨d.output, d.context.openBlock e⟩) hc Nat.two_pos hsuffix hout s.quotable false
    exact parted_markup (hlines ▸ hsep) _
  | endTag e =>
    obtain ⟨hne, s, hs, hlines⟩ := Element.spacing?_of_asksForTwo ht
    have hclose : d.add .markdown (.endTag e) = d.closeBlock .markdown s :=
      endTag_of_spacing hs hne d
    rw [hclose] at hout ⊢
    have hsep := parted_separate_of_not_inQuotation
      (d := ⟨d.output, d.context.close s.container⟩) hc Nat.two_pos hsuffix hout s.quotable true
    exact hlines ▸ hsep
  | _ => cases ht

section Kept

variable (hm : 0 < m) (hle : m ≤ 2) (h : Parted m (.char c :: gs) seen d.output)

include hm hle h

/-- A block whose breaks are never quoted asks for enough, unless it is an item. -/
theorem parted_separate_block {e : Element} {s : Spacing} (hs : e.spacing? = some s)
    (hq : s.quotable = false)
    (hitem : e = .item → 1 < m → d.output.onFreshQuotedLine = true → d.output.ink ≠ seen)
    (closing : Bool) :
    Parted m (.char c :: gs) seen (d.separate .markdown s.lines false closing).output := by
  apply parted_separate_plain hc hm h
  rcases (Element.lines_of_not_quotable hs hq).2 with ⟨rfl, hone⟩ | htwo
  · by_cases hlt : 1 < m
    · exact .inr (hitem rfl hlt)
    · exact .inl (hone ▸ Nat.not_lt.1 hlt)
  · exact .inl (htwo ▸ hle)

theorem parted_openBlock (hd : d.Orderly) {e : Element} {s : Spacing} (hs : e.spacing? = some s)
    (hn : e ≠ .quotation → n = s.lines)
    (hitem : e = .item → 1 < m → d.output.onFreshQuotedLine = true → d.output.ink ≠ seen) :
    Parted m (.char c :: gs) seen (d.openBlock .markdown e { s with lines := n }).output := by
  refine parted_markup ?_ _
  show Parted _ _ _ (separate .markdown n s.quotable false ⟨d.output, d.context.openBlock e⟩).output
  cases hq : s.quotable with
  | true =>
    have hctx := hd.withContext fun hin => inQuotation_openBlock_of_quotable hs hq hin
    exact parted_separate_quotable hctx hm h n false
  | false =>
    rw [hn (Element.lines_of_not_quotable hs hq).1]
    exact parted_separate_block (d := ⟨d.output, d.context.openBlock e⟩) hc hm hle h hs hq hitem
      false

theorem parted_closeBlock (hd : d.Orderly) {e : Element} {s : Spacing} (hs : e.spacing? = some s)
    (hne : e ≠ .quotation)
    (hitem : e = .item → 1 < m → d.output.onFreshQuotedLine = true → d.output.ink ≠ seen) :
    Parted m (.char c :: gs) seen (d.closeBlock .markdown s).output := by
  show Parted _ _ _
    (separate .markdown s.lines s.quotable true ⟨d.output, d.context.close s.container⟩).output
  cases hq : s.quotable with
  | true =>
    have hctx : Orderly ⟨d.output, d.context.close s.container⟩ := by
      rw [Element.not_container_of_quotable hs hq hne]
      exact hd.withContext id
    exact parted_separate_quotable hctx hm h s.lines true
  | false =>
    exact parted_separate_block (d := ⟨d.output, d.context.close s.container⟩) hc hm hle h hs hq
      hitem true

omit hc hle in
theorem parted_rule (hd : d.Orderly) : Parted m (.char c :: gs) seen (d.rule .markdown).output := by
  have hfirst : (d.separate .markdown 1 true false).Orderly :=
    Orderly.separate hd.clean 1 true false
  have htext : ((d.separate .markdown 1 true false).markup .markdown ruleText).Orderly :=
    hfirst.markup fun _ => quoteMarks_append_ink (by decide) _ _
  exact parted_separate_quotable htext hm
    (parted_markup (parted_separate_quotable hd hm h 1 false) ruleText) 2 true

omit hle in
theorem parted_leaveQuotation
    (hink : 1 < m → d.output.onFreshQuotedLine = true → d.output.ink ≠ seen) :
    Parted m (.char c :: gs) seen d.leaveQuotation.output := by
  unfold leaveQuotation
  dsimp only
  by_cases hkeep : d.output.onFreshQuotedLine = true → d.output.ink ≠ seen
  · have hP := writingInvariant_parted hm (.char c :: gs) seen
    have hstrip := h.stripQuoteTail hkeep
    split
    · exact hP.pushBreak (hP.dropSpace hstrip)
    · exact hstrip
  · -- All breaks may be gone, and the end of the quotation writes one.
    have hone : m ≤ 1 := Nat.not_lt.1 fun hlt => hkeep (hink hlt)
    have hline := parted_endLine hc (h.suffix_stripQuoteTail hc)
    rw [ink_stripQuoteTail, not_not.1 (Classical.not_imp.1 hkeep).2] at hline
    exact hline.mono hone

/--
A token keeps one break, and it keeps both, unless it ends the quoted lines of a quotation and
nothing has been written behind the breaks.
-/
theorem parted_add (hd : d.Orderly) {t : Token} (hregular : t.Regular)
    (hink : 1 < m → t.endsQuotedLines = true → d.context.inQuotation = true →
      d.output.ink ≠ seen) :
    Parted m (.char c :: gs) seen (d.add .markdown t).output := by
  have hP := writingInvariant_parted hm (.char c :: gs) seen
  -- Empty quoted lines stand in quotations only.
  have hfresh : t.endsQuotedLines = true → 1 < m → d.output.onFreshQuotedLine = true →
      d.output.ink ≠ seen := by
    intro ht hlt hfresh
    refine hink hlt ht (Bool.of_not_eq_false fun hout => ?_)
    rw [hd.not_fresh hout] at hfresh
    cases hfresh
  refine add_rule (P := fun e => Parted m (.char c :: gs) seen e.output) t ?_ (hP.pushSpace h) h
    (fun _ s _ => parted_markup h s) ?_ ?_ ?_ (parted_rule hm h hd) ?_ (fun l _ => h.append _)
  · intro x _
    unfold char
    dsimp only
    split
    · exact (parted_markup h ['\\']).pushGlyph (.char x)
    · exact h.pushGlyph (.char x)
  · rintro e s n ahead rfl hs hn
    refine parted_openBlock hc hm hle h hd hs (fun hne => hn.resolve_left ?_) ?_
    · rintro ⟨rfl, -⟩
      exact hne (hregular.ahead e rfl)
    · rintro rfl
      exact hfresh rfl
  · rintro e s rfl hs hne
    refine parted_closeBlock hc hm hle h hd hs hne ?_
    rintro rfl
    exact hfresh rfl
  · rintro rfl
    exact parted_leaveQuotation hc hm h (hfresh rfl)
  · exact fun _ _ => lineBreak_writing hP h

/-- Tokens keep one break, and both if those that end quoted lines do so behind ink. -/
theorem parted_addAll (hd : d.Orderly) {ts : List Token} (hregular : ∀ t ∈ ts, t.Regular)
    (hink : 1 < m → ∀ us t vs, ts = us ++ t :: vs → t.endsQuotedLines = true →
      (d.addAll .markdown us).context.inQuotation = true →
        (d.addAll .markdown us).output.ink ≠ seen) :
    Parted m (.char c :: gs) seen (d.addAll .markdown ts).output := by
  induction ts generalizing d with
  | nil => exact h
  | cons t ts ih =>
    rw [List.forall_mem_cons] at hregular
    have hadd := parted_add hc hm hle h hd hregular.1 fun hlt => hink hlt [] t ts rfl
    rw [addAll_cons]
    refine ih hadd (hd.add hregular.1.ink) hregular.2 ?_
    intro hlt us u vs hts
    exact hink hlt (t :: us) u vs (congrArg (t :: ·) hts)

end Kept

end Steps

theorem suffix_addAll (hc : isBlank c = false) (h : .char c :: gs <:+ d.output.glyphs)
    (mode : Mode) (ts : List Token) : .char c :: gs <:+ (d.addAll mode ts).output.glyphs := by
  apply addAll_rule (P := fun d => .char c :: gs <:+ d.output.glyphs) h
  intro d t _ hd
  refine add_layout (layoutInvariant_suffix hc gs) hd t (fun x _ _ ho => ho.trans ?_)
    fun l _ => hd.trans ?_
  · exact List.suffix_cons ..
  · exact suffix_append d.output l.markdown

/-! ## Texts -/

theorem output_add_of_isText {x : Token} (hx : x.isText = true) (d : Draft) :
    (d.add .markdown x).output = d.output.append (x.written .markdown) := by
  cases x with
  | char c =>
    show (d.char .markdown c).output = d.output.append (escape [c])
    rw [escape_singleton]
    unfold char
    dsimp only
    split <;> rfl
  | link l => rfl
  | _ => cases hx

variable {before after : List Token} {x t : Token}

theorem exists_ink_of_isText (hx : x.isText = true) (hregular : x.Regular) (d : Draft) :
    ∃ c gs, isBlank c = false ∧ .char c :: gs <:+ (d.add .markdown x).output.glyphs ∧
      contents ⟨.char c :: gs⟩ = d.output.contents ++ x.written .markdown := by
  obtain ⟨c, gs, hc, hglyphs⟩ := exists_glyphs_append (Token.inked_written hx hregular) d.output
  refine ⟨c, gs, hc, ?_, ?_⟩
  · rw [output_add_of_isText hx, hglyphs]
  · rw [← hglyphs, ← contents_append]

theorem exists_contents_addAll (hx : x.isText = true) (hregular : x.Regular) (d : Draft)
    (ts : List Token) :
    ∃ rest, (d.addAll .markdown (x :: ts)).output.contents =
      d.output.contents ++ (x.written .markdown ++ rest) := by
  obtain ⟨c, gs, hc, hsuffix, hcontents⟩ := exists_ink_of_isText hx hregular d
  obtain ⟨new, hnew⟩ := suffix_addAll hc hsuffix .markdown ts
  refine ⟨written new, ?_⟩
  rw [← List.append_assoc, ← hcontents, ← contents_append_glyphs, hnew, addAll_cons]

/-- What ends the quoted lines of a quotation among the tokens does so behind some ink of theirs. -/
def EndsBehindInk (d : Draft) (ts : List Token) : Prop :=
  ∀ us t vs, ts = us ++ t :: vs → t.endsQuotedLines = true →
    (d.addAll .markdown us).context.inQuotation = true →
      visible (us.flatMap (Token.written .markdown)) ≠ []

instance (d : Draft) : DecidablePred d.EndsBehindInk := fun _ =>
  decidable_of_iff _ (forall_place_iff (P := fun us t => t.endsQuotedLines = true →
    (d.addAll .markdown us).context.inQuotation = true →
      visible (us.flatMap (Token.written .markdown)) ≠ [])).symm

/-- A tag that asks for two breaks, and the tokens behind it. -/
theorem parted_addAll_of_asksForTwo (hc : isBlank c = false) (hm : 0 < m) (hle : m ≤ 2)
    (hsuffix : .char c :: gs <:+ d.output.glyphs) (hd : d.Orderly) (ht : t.asksForTwo = true)
    (hregular : ∀ u ∈ t :: after, u.Regular)
    (hout : (d.add .markdown t).context.inQuotation = false)
    (hends : 1 < m → d.EndsBehindInk (t :: after)) :
    Parted m (.char c :: gs) d.output.ink (d.addAll .markdown (t :: after)).output := by
  rw [List.forall_mem_cons] at hregular
  have hparted := parted_add_of_asksForTwo hc hsuffix ht hregular.1 hout
  rw [addAll_cons]
  refine parted_addAll hc hm hle (hparted.mono hle) (hd.add hregular.1.ink) hregular.2 ?_
  intro hlt us u vs hsplit hu hin hink
  rw [← addAll_cons, ink_addAll] at hink
  exact hends hlt (t :: us) u vs (congrArg (t :: ·) hsplit) hu hin
    (List.append_right_eq_self.1 hink)

/-- Between a text and the place reached stand the breaks that a tag has asked for. -/
theorem exists_between (hd : d.Orderly) (hx : x.isText = true) (ht : t.asksForTwo = true)
    (hregular : ∀ u ∈ x :: before ++ t :: after, u.Regular)
    (hout : ((d.addAll .markdown (x :: before)).add .markdown t).context.inQuotation = false) :
    ∃ between, (d.addAll .markdown (x :: before ++ t :: after)).output.contents =
        d.output.contents ++ (x.written .markdown ++ between) ∧ 1 ≤ between.count '\n' ∧
      ((d.addAll .markdown (x :: before)).EndsBehindInk (t :: after) → 2 ≤ between.count '\n') := by
  rw [List.forall_mem_append] at hregular
  obtain ⟨hfront, hback⟩ := hregular
  obtain ⟨c, gs, hc, hsuffix, hcontents⟩ :=
    exists_ink_of_isText hx (hfront x (List.mem_cons_self ..)) d
  have horderly : (d.addAll .markdown (x :: before)).Orderly :=
    hd.addAll fun c hc => (hfront _ hc).ink c rfl
  have hbreaks : ∀ m, 0 < m → m ≤ 2 →
      (1 < m → (d.addAll .markdown (x :: before)).EndsBehindInk (t :: after)) →
      ∃ between, (d.addAll .markdown (x :: before ++ t :: after)).output.contents =
        d.output.contents ++ (x.written .markdown ++ between) ∧ m ≤ between.count '\n' := by
    intro m hm hle hends
    have hparted := parted_addAll_of_asksForTwo hc hm hle (suffix_addAll hc hsuffix _ before)
      horderly ht hback hout hends
    obtain ⟨between, hbetween, hfeeds⟩ := hparted.exists_contents
    refine ⟨between, ?_, hfeeds⟩
    rw [← List.append_assoc, ← hcontents, addAll_append]
    exact hbetween
  by_cases hends : (d.addAll .markdown (x :: before)).EndsBehindInk (t :: after)
  · obtain ⟨between, hbetween, hfeeds⟩ := hbreaks 2 (by decide) (by decide) fun _ => hends
    exact ⟨between, hbetween, Nat.le_of_succ_le hfeeds, fun _ => hfeeds⟩
  · obtain ⟨between, hbetween, hfeeds⟩ := hbreaks 1 (by decide) (by decide) (absurd · (by decide))
    exact ⟨between, hbetween, hfeeds, fun h => absurd h hends⟩

end Draft

/-! ## Whole pages -/

/--
Breaks that are asked for stay.  Let a paragraph, a division, a heading, a list or preformatted text
start or end between two texts of a page, at a place that is then outside quotations.  In Markdown
at least one line feed stands between what is written for the texts, and at least two do if whatever
ends the quoted lines of a quotation behind the tag does so behind ink.
-/
theorem requested_breaks_stay (page : List Char) {us before after vs : List Token} {x t y : Token}
    (hpage : tokens .markdown page = us ++ (x :: before ++ t :: after) ++ y :: vs)
    (hx : x.isText = true) (hy : y.isText = true) (ht : t.asksForTwo = true)
    (hout : (Draft.empty.addAll .markdown
      (us ++ (x :: before ++ [t]))).context.inQuotation = false) :
    ∃ between rest,
      (Draft.empty.addAll .markdown (us ++ (x :: before ++ t :: after))).output.contents =
        (Draft.empty.addAll .markdown us).output.contents ++ (x.written .markdown ++ between) ∧
      (convert {} (String.ofList page)).toList =
        skipBlanks (Draft.empty.addAll .markdown us).output.contents ++
          (x.written .markdown ++ between ++ y.written .markdown) ++ rest ∧
      1 ≤ between.count '\n' ∧
      ((Draft.empty.addAll .markdown (us ++ x :: before)).EndsBehindInk (t :: after) →
        2 ≤ between.count '\n') := by
  have hregular : ∀ u ∈ us ++ (x :: before ++ t :: after) ++ y :: vs, u.Regular := by
    rw [← hpage]
    exact fun u => Token.regular_of_mem
  obtain ⟨hfront, hback⟩ := List.forall_mem_append.1 hregular
  obtain ⟨hus, hmiddle⟩ := List.forall_mem_append.1 hfront
  have hyregular : y.Regular := hback y (List.mem_cons_self ..)
  have horderly : (Draft.empty.addAll .markdown us).Orderly :=
    Draft.orderly_empty.addAll fun c hc => (hus _ hc).ink c rfl
  simp only [Draft.addAll_append Mode.markdown Draft.empty us] at hout ⊢
  rw [Draft.addAll_append] at hout
  obtain ⟨between, hbetween, hfeeds⟩ := Draft.exists_between horderly hx ht hmiddle hout
  obtain ⟨rest, hrest⟩ := Draft.exists_contents_addAll hy hyregular
    ((Draft.empty.addAll .markdown us).addAll .markdown (x :: before ++ t :: after)) vs
  have hink := (Token.inked_written hx (hmiddle x (by simp))).append
    (Token.inked_written hy hyregular) between
  refine ⟨between, dropEndWhile isBlank rest, hbetween, ?_, hfeeds⟩
  have hfinish : (convert {} (String.ofList page)).toList = trim
      ((Draft.empty.addAll .markdown us).output.contents ++
        (x.written .markdown ++ between ++ y.written .markdown) ++ rest) := by
    rw [toList_convert rfl rfl]
    show trim (Draft.empty.addAll .markdown (tokens .markdown page)).output.contents = _
    rw [hpage, Draft.addAll_append, Draft.addAll_append, hrest, hbetween]
    simp only [List.append_assoc]
  rw [hfinish, trim_around_ink hink]

/-- The blank line that a paragraph asks for is taken back with an empty quotation. -/
theorem requested_breaks_stay_emptyQuotation :
    tokens .markdown "<p>a</p><blockquote></blockquote>b".toList =
        [.startTag .paragraph false] ++ ([.char 'a'] ++ .endTag .paragraph ::
          [.startTag .quotation false, .endTag .quotation]) ++ [.char 'b'] ∧
      Token.asksForTwo (.endTag .paragraph) = true ∧
      (Draft.empty.addAll .markdown
        [.startTag .paragraph false, .char 'a', .endTag .paragraph]).context.inQuotation = false ∧
      convert {} "<p>a</p><blockquote></blockquote>b" = "a\r\nb" := by
  decide +kernel

/-- A quotation with a marker and an item, between a list and a line break. -/
def markedQuotation : List Char :=
  "<p>a</p><ul></ul><blockquote><b></b><li></blockquote><br>b".toList

theorem requested_breaks_stay_markedQuotation :
    ∃ between rest, (convert {} (String.ofList markedQuotation)).toList =
        [] ++ (['a'] ++ between ++ ['b']) ++ rest ∧ 2 ≤ between.count '\n' := by
  have hpage : tokens .markdown markedQuotation =
      [.startTag .paragraph false] ++ (.char 'a' :: [.endTag .paragraph] ++
        .startTag .bulletList false :: [.endTag .bulletList, .startTag .quotation false,
          .startTag .strong false, .endTag .strong, .startTag .item false, .endTag .quotation,
          .startTag .lineBreak false]) ++ .char 'b' :: [] := by
    decide +kernel
  obtain ⟨between, rest, -, hconvert, -, htwo⟩ :=
    requested_breaks_stay markedQuotation hpage rfl rfl rfl (by decide)
  exact ⟨between, rest, hconvert, htwo (by decide +kernel)⟩

end HtmlMarkdown
