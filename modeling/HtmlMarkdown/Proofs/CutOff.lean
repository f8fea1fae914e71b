import HtmlMarkdown.Convert
import HtmlMarkdown.Proofs.Source.Lexing

/-!
# Constructs that are cut off

A `<` that no `>` follows leaves no trace, whatever stands before it (`convert_cutOff`).

Much of what is read looks ahead: a link, the end tag of an element without text, the end of a
comment, the block behind the start of a quotation.  All of it ends with a `>`, which a search that
comes as far as the `<` does not find any more, and no search stops at the `<` that would go on
without it.  So each token is read as if the text ended in front of the `<` (`next?_append`), and
there is none from there on.
-/

namespace HtmlMarkdown

open Text

/-! ## Tags -/

namespace TagName

/-- The same scan with more text behind the tag. -/
def Scan.goesOn (s : List Char) : Scan → Scan
  | named name after => .named name (after ++ s)
  | nameless after => .nameless (after ++ s)
  | unclosed => .unclosed

theorem ofRun_append (run after s : List Char) :
    ofRun run (after ++ s) = (ofRun run after).goesOn s := by
  unfold ofRun
  split <;> rfl

/-- Scanning goes on to the first `>`, and does not see what is behind it. -/
theorem scan_append {s : List Char} (hs : '>' ∉ s) (a : List Char) :
    scan (a ++ s) = (scan a).goesOn s := by
  by_cases ha : '>' ∈ a
  · obtain ⟨run, u, rfl, hrun, hhead⟩ := exists_run isNameChar a
    have hu : '>' ∈ u :=
      (List.mem_append.1 ha).resolve_left (not_mem_of_nameChars (by decide) hrun)
    obtain ⟨c, rest, rfl⟩ := List.exists_cons_of_ne_nil (List.ne_nil_of_mem hu)
    have hc : isNameChar c = false := by simpa using hhead
    by_cases hclose : c = '>'
    · subst hclose
      rw [List.append_assoc, List.cons_append, scan_run_close hrun, scan_run_close hrun,
        ofRun_append]
    · obtain ⟨r, after, rfl, hr⟩ :=
        List.eq_append_cons_of_mem ((List.mem_cons.1 hu).resolve_left (Ne.symm hclose))
      rw [List.append_assoc, List.cons_append, List.append_assoc, List.cons_append,
        scan_run_rest hrun hc hclose hr, scan_run_rest hrun hc hclose hr]
      split
      · exact ofRun_append ..
      · rfl
  · rw [scan_eq_unclosed ha, scan_eq_unclosed (by simp [ha, hs])]
    rfl

end TagName

/--
The same token is read, and what is left behind it goes on with `s`, unless nothing is left in
either case.
-/
def Token.ReadAlike (s : List Char) (x y : Option (Token × List Char)) : Prop :=
  y = x.map (fun p => (p.1, p.2 ++ s)) ∨ ∃ t, x = some (t, []) ∧ y = some (t, [])

section Searches

variable {s : List Char} (hs : '>' ∉ s)

include hs

theorem not_mem_bracket : '>' ∉ '<' :: s := by
  simp [hs]

/-! ## Searches that look ahead -/

/-- A comment does not end behind the `<`. -/
theorem locate?_commentEnd_append (a : List Char) :
    (locate? (· == ·) ['-', '-', '>'] (a ++ '<' :: s)).map (·.2.drop 3) =
      ((locate? (· == ·) ['-', '-', '>'] a).map (·.2.drop 3)).map (· ++ '<' :: s) := by
  have hend : ∀ c ∈ ['-', '>'], (c == '<') = false := by simp
  have hbehind : locate? (· == ·) ['-', '-', '>'] ('<' :: s) = none := by
    apply locate?_commentEnd_eq_none
    intro hmem
    exact not_mem_bracket hs (hmem.subset (by simp))
  rw [locate?_append_of_not_mem hend, hbehind]
  cases hfound : locate? (· == ·) ['-', '-', '>'] a with
  | none => rfl
  | some p =>
    obtain ⟨r, hr⟩ := Option.isSome_iff_exists.1 (after?_of_locate? hfound)
    rw [after?_exact_iff] at hr
    simp [hr]

theorem declaration_after?_append (a : List Char) :
    Declaration.after? ('<' :: a ++ '<' :: s) =
      (Declaration.after? ('<' :: a)).map (· ++ '<' :: s) := by
  have hword : ∀ c ∈ ['!', '-', '-'], (c == '<') = false := by simp
  have hstart : Text.after? (· == ·) "<!--".toList ('<' :: a ++ '<' :: s) =
      (Text.after? (· == ·) "<!--".toList ('<' :: a)).map (· ++ '<' :: s) :=
    after?_append_of_not_mem hword a s
  unfold Declaration.after?
  rw [hstart, cut?_append_of_not_mem_right (not_mem_bracket hs)]
  cases Text.after? (· == ·) "<!--".toList ('<' :: a) with
  | none =>
    dsimp only [Option.map_none]
    rw [Option.map_map, Option.map_map]
    rfl
  | some comment =>
    exact locate?_commentEnd_append hs comment

/-- The end tag of an element without text is found in front of the `<`, or not at all. -/
theorem afterRawText_append (kind : RawText) (a : List Char) :
    Token.afterRawText kind (a ++ '<' :: s) = Token.afterRawText kind a ++ '<' :: s ∨
      Token.afterRawText kind a = [] ∧ Token.afterRawText kind (a ++ '<' :: s) = [] := by
  have hopen := not_mem_bracket hs
  have hword : '<' ∉ '/' :: kind.name := by cases kind <;> decide
  have hname : ['<', '/'] ++ kind.name = '<' :: '/' :: kind.name := rfl
  unfold Token.afterRawText
  rw [hname, locate?_append_of_not_mem (sameLetter_lt_of_not_mem hword)]
  cases locate? sameLetter ('<' :: '/' :: kind.name) a with
  | none =>
    -- What looks like an end tag behind the `<` has no `>`.
    right
    refine ⟨rfl, ?_⟩
    rw [Option.map_none, Option.none_or]
    cases hbehind : locate? sameLetter ('<' :: '/' :: kind.name) ('<' :: s) with
    | none => rfl
    | some p =>
      have hstop : '>' ∉ p.2 := fun hmem => hopen ((suffix_of_locate? hbehind).subset hmem)
      dsimp only [Option.map_some]
      rw [cut?_eq_none_iff.2 hstop]
  | some p =>
    dsimp only [Option.map_some, Option.some_or]
    rw [cut?_append_of_not_mem_right hopen]
    cases cut? '>' p.2 with
    | none => exact .inr ⟨rfl, rfl⟩
    | some q => exact .inl rfl

/-- What is ahead of a quotation is seen in front of the `<`. -/
theorem quotableAhead_append (a : List Char) :
    Token.quotableAhead (a ++ '<' :: s) = Token.quotableAhead a := by
  unfold Token.quotableAhead skipBlanks
  rw [List.dropWhile_append]
  cases a.dropWhile isBlank with
  | nil => simp [isBlank, cut?_eq_none_iff.2 hs]
  | cons c t =>
    by_cases hc : c = '<'
    · subst hc
      simp only [List.isEmpty_cons, Bool.false_eq_true, if_false, List.cons_append]
      rw [cut?_append_of_not_mem_right (not_mem_bracket hs)]
      cases cut? '>' t <;> rfl
    · simp [hc]

/-- A link ends in front of the `<`. -/
theorem link_read?_append (a : List Char) :
    Link.read? (a ++ '<' :: s) = (Link.read? a).map fun p => (p.1, p.2 ++ '<' :: s) := by
  unfold Link.read?
  rw [cut?_append_of_not_mem_right (not_mem_bracket hs)]
  cases cut? '>' a with
  | none => rfl
  | some p =>
    obtain ⟨tag, u⟩ := p
    dsimp only [Option.map_some]
    cases hcut : cut? '<' u with
    | none =>
      -- The text goes on to the `<`, and behind it there is no end tag.
      have hu : '<' ∉ u := cut?_eq_none_iff.1 hcut
      have hend : after? sameLetter "/a>".toList s = none := by
        apply Option.eq_none_iff_forall_ne_some.2
        intro r hr
        obtain ⟨w, rfl, hw⟩ := after?_sameLetter_iff.1 hr
        have hmem : '>' ∈ w := mem_of_mem_lower (hw ▸ by decide) (by decide)
        exact hs (List.mem_append_left r hmem)
      rw [cut?_append hu]
      dsimp only
      rw [hend]
      split <;> rfl
    | some p =>
      obtain ⟨text, v⟩ := p
      obtain ⟨hu, htext⟩ := cut?_eq_some_iff.1 hcut
      have hgo : cut? '<' (u ++ '<' :: s) = some (text, v ++ '<' :: s) :=
        cut?_eq_some_iff.2 ⟨by simp [hu], htext⟩
      have hend : '<' ∉ "/a>".toList := by decide
      rw [hgo]
      dsimp only
      rw [after?_append_of_not_mem (sameLetter_lt_of_not_mem hend)]
      split
      · rfl
      · cases after? sameLetter "/a>".toList v <;> cases Link.target? tag <;> rfl

/-! ## Tokens -/

theorem ofStartTag_append (mode : Mode) (e : Element) (a after : List Char) :
    Token.ReadAlike ('<' :: s) (some (Token.ofStartTag mode e a after))
      (some (Token.ofStartTag mode e (a ++ '<' :: s) (after ++ '<' :: s))) := by
  cases e with
  | raw kind =>
    unfold Token.ofStartTag
    dsimp only
    rcases afterRawText_append hs kind after with h | ⟨hnil, h⟩
    · exact .inl (by rw [h]; rfl)
    · exact .inr ⟨.rawText kind, by rw [hnil], by rw [h]⟩
  | anchor =>
    left
    cases mode with
    | plain => rfl
    | markdown =>
      unfold Token.ofStartTag
      rw [← List.cons_append, link_read?_append hs]
      cases Link.read? ('<' :: a) <;> rfl
  | quotation =>
    left
    unfold Token.ofStartTag
    dsimp only
    rw [quotableAhead_append hs]
    rfl
  | _ => exact .inl rfl

theorem markup?_append (mode : Mode) (a : List Char) :
    Token.ReadAlike ('<' :: s) (Token.markup? mode a) (Token.markup? mode (a ++ '<' :: s)) := by
  cases a with
  | nil =>
    left
    rw [markup?_eq_none mode List.not_mem_nil, List.nil_append,
      markup?_eq_none mode (not_mem_bracket hs)]
    rfl
  | cons c a =>
    by_cases hbang : c = '!'
    · subst hbang
      left
      have hafter := declaration_after?_append hs ('!' :: a)
      rw [List.cons_append, List.cons_append] at hafter
      rw [List.cons_append, Token.markup?, Token.markup?, hafter, Option.map_map, Option.map_map]
      rfl
    · by_cases hslash : c = '/'
      · subst hslash
        left
        rw [List.cons_append, Token.markup?, Token.markup?,
          TagName.scan_append (not_mem_bracket hs)]
        cases TagName.scan a <;> rfl
      · have hscan := TagName.scan_append (not_mem_bracket hs) (c :: a)
        rw [List.cons_append] at hscan
        rw [List.cons_append, Token.markup?, Token.markup?, hscan]
        · cases TagName.scan (c :: a) with
          | named name after => exact ofStartTag_append hs mode (.ofName name) (c :: a) after
          | nameless after => exact .inl rfl
          | unclosed => exact .inl rfl
        -- Neither text starts like a declaration or an end tag.
        all_goals simpa

/-- A token is read as if the text ended in front of the `<`. -/
theorem next?_append (mode : Mode) (a : List Char) :
    Token.ReadAlike ('<' :: s) (Token.next? mode a) (Token.next? mode (a ++ '<' :: s)) := by
  cases a with
  | nil =>
    left
    exact markup?_eq_none mode hs
  | cons c a =>
    rw [List.cons_append, Token.next?, Token.next?]
    split
    · exact markup?_append hs mode a
    · exact .inl rfl

/-- Behind the `<` no token is read, and in front of it none is read in another way. -/
theorem tokens_append_bracket (mode : Mode) (a : List Char) :
    tokens mode (a ++ '<' :: s) = tokens mode a := by
  -- What a token leaves goes on with the `<`, unless an element without text has taken all of it.
  fun_induction tokens mode a with
  | case1 a hnext =>
    rcases next?_append hs mode a with h | ⟨u, hend, -⟩
    · rw [hnext] at h
      exact tokens_of_next?_eq_none h
    · rw [hnext] at hend
      cases hend
  | case2 a t rest hnext ih =>
    rcases next?_append hs mode a with h | ⟨u, hend, h⟩
    · rw [hnext] at h
      rw [tokens_of_next?_eq_some h, ih]
    · rw [tokens_of_next?_eq_some h]
      rw [hnext] at hend
      obtain ⟨rfl, rfl⟩ := Prod.mk.inj (Option.some.inj hend)
      rfl

end Searches

/--
A construct in brackets that the end of the page cuts off contributes nothing, whatever stands in
front of it: text, an element without text that is not closed, a quotation, or a construct that is
cut off as well.
-/
theorem convert_cutOff {o : Options} (hdecode : o.decodeReferences = false)
    (hkeep : o.keepTagless = false) (page : String) {s : String} (hs : '>' ∉ s.toList) :
    convert o (page ++ "<" ++ s) = convert o page := by
  have hpage : (page ++ "<" ++ s).toList = page.toList ++ '<' :: s.toList := by simp
  simp [convert, convertText, Options.decode, hdecode, hkeep, convertTokens, hpage,
    tokens_append_bracket hs]

/-- The end tag of a link is cut off, so that there is no link in the quotation. -/
theorem convert_cutOff_linkEnd :
    convert {} ("<blockquote><a href=\"u\">x" ++ "<" ++ "/A") = "> x" := by
  rw [convert_cutOff rfl rfl _ (by decide)]
  decide +kernel

end HtmlMarkdown
