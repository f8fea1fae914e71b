import HtmlMarkdown.Proofs.Output.Strokes
import HtmlMarkdown.Proofs.Separation

/-!
# Line breaks

A page is written in whole strokes, whatever its tokens (`Draft.drawn_add`).  So its line breaks are
those of the output, with both characters, and each mark stands behind a break.

Only a link may bring in another line break, in its target, which is copied from the page; its text
is collapsed.  That the characters of breaks are `Paired` apart from such places is kept when texts
are put together and when the blanks at both ends are taken away, and therefore holds of every
converted page (`convert_breaks`).
-/

namespace HtmlMarkdown

open Text Output

/-! ## Drafts -/

namespace Draft

variable {mode : Mode} {d : Draft} {ts : List Token}

theorem blockInvariant_drawn (ts : List Token) : BlockInvariant (Drawn ts) where
  ink h hc := h.ink hc
  space h := h.space
  strip h := h.stripQuoteTail
  plain h hmarks _ _ keepSpace := h.separate hmarks _ keepSpace
  quoted h _ _ := h.separateQuoted _

theorem drawn_leaveQuotation (h : d.output.Drawn ts) (hclean : d.output.Clean) :
    d.leaveQuotation.output.Drawn ts := by
  have hstrip := h.stripQuoteTail
  unfold leaveQuotation
  dsimp only
  split
  · exact (hstrip.dropSpace_of_quoteMarks_eq_nil hclean.quoteMarks_stripQuoteTail).lineBreak
  · exact hstrip

/-- Plain text has no quoted breaks, and Markdown writes two spaces in front of its breaks. -/
theorem drawn_lineBreak (h : d.output.Drawn ts) (htidy : d.Tidy mode) :
    (d.lineBreak mode).output.Drawn ts := by
  unfold lineBreak
  split
  · exact (h.dropSpace_of_quoteMarks_eq_nil htidy).lineBreak
  · split
    · split
      · exact h
      · exact h.dropSpace_append_spaces.quotedBreak
    · exact h.dropSpace_append_spaces.lineBreak

theorem drawn_add (h : d.output.Drawn ts) (htidy : d.Tidy mode) {t : Token} (ht : t ∈ ts)
    (hchar : ∀ c, t = .char c → isBlank c = false) : (d.add mode t).output.Drawn ts := by
  refine add_block (blockInvariant_drawn ts) h htidy.clean t hchar
    (fun _ => drawn_leaveQuotation h htidy.clean) (fun _ _ => drawn_lineBreak h htidy) ?_
  rintro l rfl
  exact h.link ht

theorem drawn_page (mode : Mode) (page : List Char) :
    (empty.addAll mode (tokens mode page)).output.Drawn (tokens mode page) := by
  have hboth : (empty.addAll mode (tokens mode page)).output.Drawn (tokens mode page) ∧
      (empty.addAll mode (tokens mode page)).Tidy mode := by
    refine addAll_rule (P := fun d => d.output.Drawn (tokens mode page) ∧ d.Tidy mode)
      ⟨.empty, tidy_empty mode⟩ fun d t ht ⟨hd, htidy⟩ => ?_
    have hchar : ∀ c, t = .char c → isBlank c = false := by
      rintro c rfl
      exact not_blank_of_mem_tokens ht
    exact ⟨drawn_add hd htidy ht hchar, htidy.add hchar⟩
  exact hboth.1

end Draft

/-! ## Both characters of a break -/

/-- The character `c` between `x` and `y` is copied from the target of the link. -/
def Link.InTarget (l : Link) (x : List Char) (c : Char) (y : List Char) : Prop :=
  ∃ a p q b, l.target = p ++ c :: q ∧ x = a ++ '[' :: (l.text ++ [']', '('] ++ p) ∧
    y = q ++ ')' :: b

/-- Carriage returns and line feeds stand together, apart from those in targets of links. -/
def Paired (ts : List Token) (s : List Char) : Prop :=
  ∀ x c y, s = x ++ c :: y → c = '\r' ∨ c = '\n' →
    c = '\r' ∧ y.head? = some '\n' ∨ c = '\n' ∧ x.getLast? = some '\r' ∨
      ∃ l, .link l ∈ ts ∧ l.InTarget x c y

variable {ts : List Token} {l : Link} {s w a b x y : List Char} {c : Char}

theorem paired_of_not_mem (hreturn : '\r' ∉ s) (hfeed : '\n' ∉ s) : Paired ts s := by
  rintro x c y rfl (rfl | rfl)
  · exact absurd (by simp) hreturn
  · exact absurd (by simp) hfeed

theorem paired_break (ts : List Token) : Paired ts ['\r', '\n'] := by
  intro x c y hxy hc
  cases x with
  | nil =>
    obtain ⟨rfl, rfl⟩ := List.cons.inj hxy
    exact .inl ⟨rfl, rfl⟩
  | cons d x =>
    obtain ⟨rfl, hfeed⟩ := List.cons.inj hxy
    obtain ⟨rfl, hcons⟩ := List.append_eq_singleton_iff.1 hfeed.symm |>.resolve_right (by simp)
    cases hcons
    exact .inr (.inl ⟨rfl, rfl⟩)

theorem Link.InTarget.append (h : l.InTarget x c y) (a b : List Char) :
    l.InTarget (a ++ x) c (y ++ b) := by
  obtain ⟨u, p, q, v, htarget, rfl, rfl⟩ := h
  exact ⟨a ++ u, p, q, v ++ b, htarget, by simp, by simp⟩

theorem Paired.append (hs : Paired ts s) (hw : Paired ts w) : Paired ts (s ++ w) := by
  intro x c y hxy hc
  rcases exists_of_append_eq_append_cons hxy with ⟨a, rfl, ha⟩ | ⟨a, ha, rfl⟩
  · rcases hw a c y ha hc with hreturn | ⟨rfl, hfeed⟩ | ⟨l, hl, htarget⟩
    · exact .inl hreturn
    · exact .inr (.inl ⟨rfl, by rw [List.getLast?_append, hfeed, Option.some_or]⟩)
    · exact .inr (.inr ⟨l, hl, by simpa using htarget.append s []⟩)
  · rcases hs x c a ha hc with ⟨rfl, hreturn⟩ | hfeed | ⟨l, hl, htarget⟩
    · exact .inl ⟨rfl, by rw [List.head?_append, hreturn, Option.some_or]⟩
    · exact .inr (.inl hfeed)
    · exact .inr (.inr ⟨l, hl, by simpa using htarget.append [] w⟩)

theorem Link.InTarget.of_between_blanks (h : l.InTarget (a ++ x) c (y ++ b))
    (ha : ∀ d ∈ a, isBlank d = true) (hb : ∀ d ∈ b, isBlank d = true) : l.InTarget x c y := by
  obtain ⟨u, p, q, v, htarget, hx, hy⟩ := h
  rcases exists_of_append_eq_append_cons hx with ⟨u', -, hx'⟩ | ⟨u', hmem, -⟩
  · rcases exists_of_append_eq_append_cons hy with ⟨v', -, hmem⟩ | ⟨v', hy', -⟩
    · cases hb ')' (hmem ▸ by simp)
    · exact ⟨u', p, q, v', htarget, hx', hy'⟩
  · cases ha '[' (hmem ▸ by simp)

/-- No break is cut in two where blanks end. -/
theorem Paired.trim (h : Paired ts s) : Paired ts (Text.trim s) := by
  obtain ⟨a, b, hsplit, ha, hb⟩ := exists_append_trim s
  intro x c y hxy hc
  have hs : s = (a ++ x) ++ c :: (y ++ b) := by
    rw [hxy] at hsplit
    simpa using hsplit
  rcases h _ _ _ hs hc with ⟨rfl, hfeed⟩ | ⟨rfl, hreturn⟩ | ⟨l, hl, htarget⟩
  · have hlast := getLast?_trim_not_blank s
    cases y with
    | nil => simp [hxy, isBlank] at hlast
    | cons d y => exact .inl ⟨rfl, hfeed⟩
  · have hhead := head?_trim_not_blank s
    rcases List.eq_nil_or_concat x with rfl | ⟨x, d, rfl⟩
    · simp [hxy, isBlank] at hhead
    · exact .inr (.inl ⟨rfl, by simpa using hreturn⟩)
  · exact .inr (.inr ⟨l, hl, htarget.of_between_blanks ha hb⟩)

theorem paired_markdown (hl : .link l ∈ ts)
    (htext : ∀ c ∈ l.text, c = ' ' ∨ isBlank c = false) : Paired ts l.markdown := by
  intro x c y hxy hc
  have hsplit : l.markdown = ('[' :: (l.text ++ [']', '('])) ++ (l.target ++ [')']) := by
    simp [Link.markdown]
  rcases exists_of_append_eq_append_cons (hsplit ▸ hxy) with ⟨p, rfl, hp⟩ | ⟨p, hmem, -⟩
  · rcases exists_of_append_eq_append_cons hp with ⟨q, -, hmem⟩ | ⟨q, htarget, rfl⟩
    · have hclose : c = ')' := by
        have : c ∈ [')'] := hmem ▸ by simp
        exact List.mem_singleton.1 this
      rcases hc with rfl | rfl <;> cases hclose
    · exact .inr (.inr ⟨l, hl, [], p, q, [], htarget, by simp, rfl⟩)
  · have hopen : c ∈ '[' :: (l.text ++ [']', '(']) := hmem ▸ by simp
    have hno : ∀ d ∈ '[' :: (l.text ++ [']', '(']), d = ' ' ∨ isBlank d = false := by
      simpa [or_imp, forall_and, isBlank] using htext
    rcases hc with rfl | rfl <;> exact absurd (hno _ hopen) (by decide)

theorem Output.Drawn.paired {o : Output} (h : o.Drawn ts)
    (htext : ∀ l, .link l ∈ ts → ∀ c ∈ l.text, c = ' ' ∨ isBlank c = false) :
    Paired ts o.contents := by
  induction h with
  | empty => exact paired_of_not_mem (by decide) (by decide)
  | @ink o c hc h ih =>
    rw [contents_push]
    refine ih.append (paired_of_not_mem ?_ ?_)
    all_goals
      rw [List.mem_singleton]
      rintro rfl
      cases hc
  | space h ih =>
    rw [contents_push]
    exact ih.append (paired_of_not_mem (by decide) (by decide))
  | lineBreak h ih =>
    rw [contents_pushBreak]
    exact ih.append (paired_break ts)
  | quotedBreak h ih =>
    rw [pushQuotedBreak, contents_pushMark, contents_pushBreak]
    exact (ih.append (paired_break ts)).append (paired_of_not_mem (by decide) (by decide))
  | @link o l hl h ih =>
    rw [contents_append]
    exact ih.append (paired_markdown hl (htext l hl))

/-! ## Marks -/

/-- Each mark stands behind a break and in front of a space; the glyphs come newest first. -/
def MarksLines (gs : List Glyph) : Prop :=
  ∀ x y, gs = y ++ .mark :: x → [.char '\n', .char '\r'] <+: x ∧ [.char ' '] <:+ y

variable {gs : List Glyph}

theorem MarksLines.cons (h : MarksLines gs) (c : Char) : MarksLines (.char c :: gs) := by
  intro x y hxy
  cases y with
  | nil => cases hxy
  | cons d y =>
    obtain ⟨hbreak, hspace⟩ := h x y (List.cons.inj hxy).2
    exact ⟨hbreak, hspace.trans (List.suffix_cons d y)⟩

theorem MarksLines.append {o : Output} (h : MarksLines o.glyphs) (s : List Char) :
    MarksLines (o.append s).glyphs := by
  induction s generalizing o with
  | nil => exact h
  | cons c s ih => exact @ih (o.push c) (h.cons c)

theorem MarksLines.quotedBreak {o : Output} (h : MarksLines o.glyphs) :
    MarksLines o.pushQuotedBreak.glyphs := by
  have hbreak : MarksLines o.pushBreak.glyphs := (h.cons '\r').cons '\n'
  intro x y hxy
  rcases y with _ | ⟨d, _ | ⟨e, y⟩⟩
  · cases hxy
  · obtain ⟨rfl, hmark⟩ := List.cons.inj hxy
    obtain rfl := (List.cons.inj hmark).2
    exact ⟨⟨o.glyphs, rfl⟩, List.suffix_refl _⟩
  · obtain ⟨hfeed, hspace⟩ := hbreak x y (List.cons.inj (List.cons.inj hxy).2).2
    exact ⟨hfeed, hspace.trans ((List.suffix_cons e y).trans (List.suffix_cons d _))⟩

theorem Output.Drawn.marksLines {o : Output} (h : o.Drawn ts) : MarksLines o.glyphs := by
  induction h with
  | empty =>
    intro x y hxy
    simp [Output.empty] at hxy
  | ink hc h ih => exact ih.cons _
  | space h ih => exact ih.cons _
  | lineBreak h ih => exact (ih.cons _).cons _
  | quotedBreak h ih => exact ih.quotedBreak
  | link hl h ih => exact ih.append _

theorem head?_printed_not_blank (o : Output) :
    o.printed.head?.all (fun g => !isBlank g.toChar) = true := by
  have hhead := head?_trim_not_blank o.contents
  rw [← finish, ← o.map_toChar_printed, List.head?_map] at hhead
  cases hg : o.printed.head? with
  | none => rfl
  | some g => simpa [hg] using hhead

/-- The marks that are printed stand at the start of their lines, with a space behind them. -/
theorem MarksLines.printed {o : Output} (h : MarksLines o.glyphs) {x y : List Glyph}
    (hxy : o.printed = x ++ .mark :: y) :
    (x = [] ∨ [.char '\r', .char '\n'] <:+ x) ∧ (y = [] ∨ [.char ' '] <+: y) := by
  obtain ⟨a, b, hab⟩ := o.isInfix_printed
  have hglyphs : o.glyphs = (b.reverse ++ y.reverse) ++ .mark :: (x.reverse ++ a.reverse) := by
    rw [← List.reverse_reverse o.glyphs, ← hab, hxy]
    simp
  obtain ⟨hbreak, hspace⟩ := h _ _ hglyphs
  constructor
  · have hhead := head?_printed_not_blank o
    rcases List.eq_nil_or_concat x with rfl | ⟨x, d, rfl⟩
    · exact .inl rfl
    rw [List.concat_eq_append, List.reverse_append] at hbreak
    obtain ⟨rfl, hreturn⟩ := List.cons_prefix_cons.1 hbreak
    rcases List.eq_nil_or_concat x with rfl | ⟨x, e, rfl⟩
    -- A break is not cut in two, since no line feed is printed first.
    · simp [hxy, Glyph.toChar, isBlank] at hhead
    rw [List.concat_eq_append, List.reverse_append] at hreturn
    obtain ⟨rfl, -⟩ := List.cons_prefix_cons.1 hreturn
    exact .inr ⟨x, by simp⟩
  · rcases y with _ | ⟨d, y⟩
    · exact .inl rfl
    rw [← List.reverse_append] at hspace
    have hfirst : [Glyph.char ' '] <+: d :: (y ++ b) := List.reverse_suffix.1 hspace
    obtain ⟨rfl, -⟩ := List.cons_prefix_cons.1 hfirst
    exact .inr ⟨y, rfl⟩

/-! ## Whole pages -/

/--
The output of a page consists of whole strokes, and each mark that is printed stands at the start of
a line, with a space behind it.  In the converted page a line feed stands behind each carriage
return and a carriage return in front of each line feed, except that Markdown may have either of
them in the target of a link, which is copied from the page.
-/
theorem convert_breaks (plainText : Bool) (page : String) :
    let mode := Options.mode { plainText }
    let ts := tokens mode page.toList
    let o := (Draft.empty.addAll mode ts).output
    let s := (convert { plainText } page).toList
    o.Drawn ts ∧ o.printed.map Glyph.toChar = s ∧
      (∀ x y, o.printed = x ++ .mark :: y →
        (x = [] ∨ [.char '\r', .char '\n'] <:+ x) ∧ (y = [] ∨ [.char ' '] <+: y)) ∧
      ∀ x c y, s = x ++ c :: y → c = '\r' ∨ c = '\n' →
        c = '\r' ∧ y.head? = some '\n' ∨ c = '\n' ∧ x.getLast? = some '\r' ∨
          plainText = false ∧ ∃ l, .link l ∈ ts ∧ l.InTarget x c y := by
  intro mode ts o s
  have hdrawn : o.Drawn ts := Draft.drawn_page mode page.toList
  have hfinish : o.finish = s := by
    have hconvert := toList_convert (o := { plainText }) rfl rfl page.toList
    rw [String.ofList_toList] at hconvert
    exact hconvert.symm
  refine ⟨hdrawn, (o.map_toChar_printed).trans hfinish,
    fun x y hxy => hdrawn.marksLines.printed hxy, fun x c y hxy hc => ?_⟩
  have hpaired : Paired ts o.contents := hdrawn.paired fun l hl c => space_or_ink_of_link_mem hl
  rcases hpaired.trim x c y (hfinish.trans hxy) hc with hreturn | hfeed | ⟨l, hl, htarget⟩
  · exact .inl hreturn
  · exact .inr (.inl hfeed)
  · have hmode : Options.mode { plainText } = .markdown := (read?_of_link_mem_tokens hl).1
    exact .inr (.inr ⟨by simpa [Options.mode] using hmode, l, hl, htarget⟩)

/-- A line feed in the target of a link is copied as it is. -/
theorem convert_breaks_feedInTarget :
    convert {} "<a href=\"u\nv\">x</a>" = "[x](u\nv)" ∧
      ¬ ∀ x y, (convert {} "<a href=\"u\nv\">x</a>").toList = x ++ '\n' :: y →
        x.getLast? = some '\r' := by
  have hconvert : convert {} "<a href=\"u\nv\">x</a>" = "[x](u\nv)" := by decide +kernel
  refine ⟨hconvert, fun h => ?_⟩
  rw [hconvert] at h
  cases h "[x](u".toList "v)".toList (by decide)

end HtmlMarkdown
