import HtmlMarkdown.Proofs.Draft.Blocks
import HtmlMarkdown.Proofs.Draft.Prose
import HtmlMarkdown.Proofs.Output.Stretch
import HtmlMarkdown.Proofs.Source.Links

/-!
# Separation never stacks

Blocks ask for breaks one after the other, in two ways of counting and from several places, but the
breaks do not add up: no stretch of blanks and marks has more than two line feeds.  Only two things
of a page could bring in more: a line break, unless it is met in a quotation in Markdown, and a line
feed in the target of a link.

The draft stays spaced with each token (`Draft.spaced_add`), given that its marks are tidy, and so
along the whole page (`Draft.spaced_addAll`).
-/

namespace HtmlMarkdown

open Text Output

/-! ## Texts without line feeds -/

theorem space_or_ink_of_link_mem {mode : Mode} {s : List Char} {l : Link}
    (h : .link l ∈ tokens mode s) {c : Char} (hc : c ∈ l.text) : c = ' ' ∨ isBlank c = false := by
  obtain ⟨-, t, after, hread⟩ := read?_of_link_mem_tokens h
  obtain ⟨tag, text, w, -, -, -, -, htext, -⟩ := Link.exists_of_read? hread
  rw [htext] at hc
  exact space_or_ink_of_mem_collapse hc

theorem feed_not_mem_of_link_mem {mode : Mode} {s : List Char} {l : Link}
    (h : .link l ∈ tokens mode s) : mode = .markdown ∧ '\n' ∉ l.text :=
  ⟨(read?_of_link_mem_tokens h).1, fun hmem => absurd (space_or_ink_of_link_mem h hmem) (by decide)⟩

/-! ## Drafts -/

namespace Draft

variable {mode : Mode} {d : Draft}

/-- The live marks are where the mode has them. -/
def Tidy : Mode → Draft → Prop
  | .markdown, d => d.Orderly
  | .plain, d => d.output.quoteMarks = []

theorem tidy_empty (mode : Mode) : empty.Tidy mode := by
  cases mode with
  | markdown => exact orderly_empty
  | plain => rfl

theorem Tidy.clean (h : d.Tidy mode) : d.output.Clean := by
  cases mode with
  | markdown => exact Orderly.clean h
  | plain => exact clean_of_quoteMarks_eq_nil h

theorem Tidy.add (h : d.Tidy mode) {t : Token} (ht : ∀ c, t = .char c → isBlank c = false) :
    (d.add mode t).Tidy mode := by
  cases mode with
  | markdown => exact Orderly.add h ht
  | plain => exact quoteMarks_add_plain h ht

theorem blockInvariant_spaced : BlockInvariant Spaced where
  ink h hc := Spaced.push_ink h.compact hc
  space h := h.push (by decide)
  strip h := h.stripQuoteTail
  plain h hmarks hpos hn keepSpace := h.separate hmarks hpos hn keepSpace
  quoted h hpos hn := h.separateQuoted hpos hn

/-- A quotation is left with no more than the two breaks that it looks for. -/
theorem spaced_leaveQuotation (h : d.output.Spaced) (hclean : d.output.Clean) :
    d.leaveQuotation.output.Spaced := by
  have hstrip := h.stripQuoteTail
  have hmarks := (quoteMarks_eq_nil_iff _).1 hclean.quoteMarks_stripQuoteTail
  unfold leaveQuotation
  dsimp only
  split
  · next hlt =>
    apply hstrip.dropSpace.pushBreak
    rw [feeds_dropSpace]
    rcases breaksFrom_stretch hstrip.removable (.inr hmarks) Nat.zero_lt_two with
      hcount | ⟨hcount, -⟩
    · rw [trailingBreaks, hcount, Option.getD_some] at hlt
      omega
    · rw [trailingBreaks, hcount, Option.getD_none] at hlt
      omega
  · exact hstrip

/-- In a quotation a line break is left out where it would be the third. -/
theorem spaced_lineBreak (h : d.output.Spaced) (hin : d.context.inQuotation = true) :
    (d.lineBreak .markdown).output.Spaced := by
  unfold lineBreak
  dsimp only
  rw [if_pos hin]
  split
  · exact h
  · next hblank =>
    have hline : ((d.output.dropSpace.append [' ', ' ']).glyphs) =
        .char ' ' :: .char ' ' :: d.output.dropSpace.glyphs := rfl
    apply (h.dropSpace.append (s := [' ', ' ']) (by decide)).pushQuotedBreak
    rw [hline, stretch_cons_vacant (by decide), stretch_cons_vacant (by decide),
      feeds_cons_of_ne (by decide), feeds_cons_of_ne (by decide), feeds_dropSpace]
    rcases breaksFrom_stretch h.removable (.inl rfl) Nat.zero_lt_two with
      hcount | ⟨hcount, -⟩
    · rw [endsInQuotedBlankLine, trailingQuotedBreaks?, hcount, Option.all_some,
        decide_eq_true_eq] at hblank
      omega
    · rw [endsInQuotedBlankLine, trailingQuotedBreaks?, hcount] at hblank
      exact absurd rfl hblank

theorem spaced_link (h : d.output.Spaced) {l : Link} (htext : '\n' ∉ l.text)
    (htarget : '\n' ∉ l.target) : (d.output.append l.markdown).Spaced := by
  have hline : '\n' ∉ '[' :: l.text ++ [']', '('] ++ l.target := by
    simp [htext, htarget]
  have hlink : d.output.append l.markdown =
      (d.output.append ('[' :: l.text ++ [']', '('] ++ l.target)).push ')' := by
    rw [Link.markdown, Output.append, List.foldl_append]
    rfl
  rw [hlink]
  exact Spaced.push_ink (compact_append h.compact hline) (by decide)

/-- What a page may bring in besides the breaks that blocks ask for. -/
structure Bounded (mode : Mode) (d : Draft) (t : Token) : Prop where
  /-- Characters are ink. -/
  ink : ∀ c, t = .char c → isBlank c = false
  /-- A line break is met in a quotation. -/
  quoted : ∀ ahead, t = .startTag .lineBreak ahead →
    mode = .markdown ∧ d.context.inQuotation = true
  /-- A link stands on one line. -/
  line : ∀ l, t = .link l → '\n' ∉ l.text ∧ '\n' ∉ l.target

theorem spaced_add (h : d.output.Spaced) (hclean : d.output.Clean) {t : Token}
    (ht : Bounded mode d t) : (d.add mode t).output.Spaced := by
  refine add_block blockInvariant_spaced h hclean t ht.ink
    (fun _ => spaced_leaveQuotation h hclean) (fun ahead hbr => ?_)
    fun l hl => spaced_link h (ht.line l hl).1 (ht.line l hl).2
  obtain ⟨rfl, hin⟩ := ht.quoted ahead hbr
  exact spaced_lineBreak h hin

/-- A page of such tokens is spaced. -/
theorem spaced_addAll (h : d.output.Spaced) (htidy : d.Tidy mode) {ts : List Token}
    (hts : ∀ us t vs, ts = us ++ t :: vs → Bounded mode (d.addAll mode us) t) :
    (d.addAll mode ts).output.Spaced := by
  induction ts generalizing d with
  | nil => exact h
  | cons t ts ih =>
    have ht : Bounded mode d t := hts [] t ts rfl
    rw [addAll_cons]
    refine ih (spaced_add h htidy.clean ht) (htidy.add ht.ink) fun us u vs hsplit => ?_
    have hu := hts (t :: us) u vs (by rw [hsplit, List.cons_append])
    rwa [addAll_cons] at hu

end Draft

/-! ## Whole pages -/

/-- Each start tag of a line break is met in a quotation. -/
def BreaksInQuotation (ts : List Token) : Prop :=
  ∀ us ahead vs, ts = us ++ .startTag .lineBreak ahead :: vs →
    (Draft.empty.addAll .markdown us).context.container = some .quotation

theorem breaksInQuotation_iff {ts : List Token} :
    BreaksInQuotation ts ↔ ∀ (i : Fin ts.length) (ahead : Bool),
      ts[i] = .startTag .lineBreak ahead →
        (Draft.empty.addAll .markdown (ts.take i)).context.container = some .quotation := by
  refine Iff.trans ?_ (Draft.forall_place_iff (P := fun us t => ∀ ahead,
    t = .startTag .lineBreak ahead →
      (Draft.empty.addAll .markdown us).context.container = some .quotation))
  constructor
  · rintro h us t vs rfl ahead rfl
    exact h us ahead vs rfl
  · rintro h us ahead vs rfl
    exact h us _ vs rfl ahead rfl

instance : DecidablePred BreaksInQuotation := fun _ => decidable_of_iff _ breaksInQuotation_iff.symm

/-- The targets of the links stand on one line each. -/
def TargetsOnLine (ts : List Token) : Prop := ∀ l, .link l ∈ ts → '\n' ∉ l.target

namespace Draft

variable {page : List Char}

theorem bounded_plain (hbreaks : ∀ ahead, .startTag .lineBreak ahead ∉ tokens .plain page)
    {t : Token} (hmem : t ∈ tokens .plain page) (d : Draft) : d.Bounded .plain t := by
  refine ⟨?_, ?_, ?_⟩
  · rintro c rfl
    exact not_blank_of_mem_tokens hmem
  · rintro ahead rfl
    exact absurd hmem (hbreaks ahead)
  · rintro l rfl
    cases (feed_not_mem_of_link_mem hmem).1

theorem bounded_markdown (hbreaks : BreaksInQuotation (tokens .markdown page))
    (htargets : TargetsOnLine (tokens .markdown page)) {us vs : List Token} {t : Token}
    (h : tokens .markdown page = us ++ t :: vs) :
    (empty.addAll .markdown us).Bounded .markdown t := by
  have hmem : t ∈ tokens .markdown page := h ▸ List.mem_append_right us (List.mem_cons_self ..)
  refine ⟨?_, ?_, ?_⟩
  · rintro c rfl
    exact not_blank_of_mem_tokens hmem
  · rintro ahead rfl
    exact ⟨rfl, beq_iff_eq.2 (hbreaks us ahead vs h)⟩
  · rintro l rfl
    exact ⟨(feed_not_mem_of_link_mem hmem).2, htargets l hmem⟩

theorem spaced_plain (hbreaks : ∀ ahead, .startTag .lineBreak ahead ∉ tokens .plain page) :
    (empty.addAll .plain (tokens .plain page)).output.Spaced :=
  spaced_addAll spaced_empty (tidy_empty .plain) fun us _ _ h =>
    bounded_plain hbreaks (h ▸ List.mem_append_right us (List.mem_cons_self ..)) _

theorem spaced_markdown (hbreaks : BreaksInQuotation (tokens .markdown page))
    (htargets : TargetsOnLine (tokens .markdown page)) {ts : List Token}
    (hts : ts <+: tokens .markdown page) : (empty.addAll .markdown ts).output.Spaced := by
  obtain ⟨rest, hrest⟩ := hts
  refine spaced_addAll spaced_empty (tidy_empty .markdown) fun us t vs h => ?_
  have hpage : tokens .markdown page = us ++ t :: (vs ++ rest) := by
    rw [← hrest, h, List.append_assoc, List.cons_append]
  exact bounded_markdown hbreaks htargets hpage

/-- Any number of line breaks in a quotation. -/
theorem spaced_lineBreaks {d : Draft} (h : d.output.Spaced)
    (hin : d.context.inQuotation = true) (n : Nat) :
    (d.addAll .markdown (List.replicate n (.startTag .lineBreak false))).output.Spaced := by
  induction n generalizing d with
  | zero => exact h
  | succ n ih =>
    rw [List.replicate_succ, addAll_cons]
    refine ih (spaced_lineBreak h hin) ?_
    show (d.lineBreak .markdown).context.inQuotation = true
    unfold lineBreak
    dsimp only
    rw [if_pos hin]
    split <;> exact hin

end Draft

theorem Output.Spaced.compact_printed {o : Output} (h : o.Spaced) : Compact o.printed :=
  h.compact.reverse.of_isInfix (isInfix_printed o)

/--
Separation never stacks: no stretch of blanks and marks of the finished text has more than two line
feeds.  In plain mode this holds if the page has no line breaks, and in Markdown if it has line
breaks in quotations only and no target of a link has a line feed; there it still holds when any
number of line breaks is met in a quotation.
-/
theorem separation_never_stacks (page : List Char) :
    (∀ o, o = (Draft.empty.addAll .plain (tokens .plain page)).output →
      o.printed.map Glyph.toChar = (convert { plainText := true } (String.ofList page)).toList ∧
      ((∀ ahead, .startTag .lineBreak ahead ∉ tokens .plain page) → Compact o.printed)) ∧
    (∀ o, o = (Draft.empty.addAll .markdown (tokens .markdown page)).output →
      o.printed.map Glyph.toChar = (convert {} (String.ofList page)).toList ∧
      (BreaksInQuotation (tokens .markdown page) → TargetsOnLine (tokens .markdown page) →
        Compact o.printed)) ∧
    (BreaksInQuotation (tokens .markdown page) → TargetsOnLine (tokens .markdown page) →
      ∀ ts n d, ts <+: tokens .markdown page → d = Draft.empty.addAll .markdown ts →
        d.context.container = some .quotation →
        Compact (d.addAll .markdown
          (List.replicate n (.startTag .lineBreak false))).output.printed) := by
  refine ⟨?_, ?_, ?_⟩
  · rintro o rfl
    refine ⟨?_, fun hbreaks => (Draft.spaced_plain hbreaks).compact_printed⟩
    rw [toList_convert rfl rfl, map_toChar_printed]
    rfl
  · rintro o rfl
    refine ⟨?_, fun hbreaks htargets =>
      (Draft.spaced_markdown hbreaks htargets (List.prefix_refl _)).compact_printed⟩
    rw [toList_convert rfl rfl, map_toChar_printed]
    rfl
  · rintro hbreaks htargets ts n d hts rfl hin
    have hspaced := Draft.spaced_markdown hbreaks htargets hts
    exact (Draft.spaced_lineBreaks hspaced (beq_iff_eq.2 hin) n).compact_printed

/-- A quotation with three line breaks, the last of which is left out, and a link. -/
def crowdedQuotation : List Char :=
  "<blockquote>a<br><br><br><a href=\"u\">b</a><p>c</blockquote>".toList

theorem separation_never_stacks_crowdedQuotation :
    BreaksInQuotation (tokens .markdown crowdedQuotation) ∧
    TargetsOnLine (tokens .markdown crowdedQuotation) ∧
    Compact (Draft.empty.addAll .markdown (tokens .markdown crowdedQuotation)).output.printed ∧
    ((∀ ahead, .startTag .lineBreak ahead ∉ tokens .plain "a<hr><p>b".toList) ∧
      Compact (Draft.empty.addAll .plain (tokens .plain "a<hr><p>b".toList)).output.printed) := by
  have hbreaks : BreaksInQuotation (tokens .markdown crowdedQuotation) := by decide +kernel
  have hlinks : tokens .markdown crowdedQuotation =
      [.startTag .quotation false, .char 'a', .startTag .lineBreak false,
        .startTag .lineBreak false, .startTag .lineBreak false, .link ⟨['b'], ['u']⟩,
        .startTag .paragraph false, .char 'c', .endTag .quotation] := by decide +kernel
  have htargets : TargetsOnLine (tokens .markdown crowdedQuotation) := by
    intro l hl
    obtain rfl : l = ⟨['b'], ['u']⟩ := by simpa [hlinks] using hl
    decide
  have hplain : ∀ ahead, .startTag .lineBreak ahead ∉ tokens .plain "a<hr><p>b".toList := by
    decide +kernel
  exact ⟨hbreaks, htargets,
    ((separation_never_stacks crowdedQuotation).2.1 _ rfl).2 hbreaks htargets,
    hplain, ((separation_never_stacks "a<hr><p>b".toList).1 _ rfl).2 hplain⟩

end HtmlMarkdown
