import HtmlMarkdown.Proofs.InPlace.View

/-!
# The end of a tag

A tag ends at the first `>`, whatever quotes or brackets stand in front of it.  Scanning comes to an
end in several ways, but all of them find this `>` (`TagName.after?_scan`), and a tag is unclosed
only if there is none.  Whether it has a name is a matter of the run of name characters that it
starts with, which has to start with a letter and to end at `>`, at `/` or at a blank
(`TagName.scan_eq_named_iff`).

This holds of any bytes and from any offset on (`scan_ends_at_first_close`).
-/

namespace HtmlMarkdown

open Text TagName

/-! ## Scanning a text -/

namespace TagName

variable {s run rest name after : List Char}

/-- Up to the first `>` a tag is spelled, or there is no name. -/
theorem scan_cases {inner : List Char} (hopen : '>' ∉ inner) (after : List Char) :
    (∃ t : SpelledTag, inner = t.inner ∧
      scan (inner ++ '>' :: after) = .named (lower t.name) after) ∨
    scan (inner ++ '>' :: after) = .nameless after := by
  by_cases htag : ∃ t : SpelledTag, inner = t.inner
  · obtain ⟨t, rfl⟩ := htag
    exact .inl ⟨t, rfl, t.scan_inner after⟩
  · exact .inr (scan_nameless hopen (fun t ht => htag ⟨t, ht⟩) after)

/-- The text after a tag, if the tag comes to its end. -/
def Scan.after? : Scan → Option (List Char)
  | .named _ after => some after
  | .nameless after => some after
  | .unclosed => none

/-- Scanning ends at the first `>`. -/
theorem after?_scan (s : List Char) : (scan s).after? = (cut? '>' s).map Prod.snd := by
  cases hcut : cut? '>' s with
  | none =>
    rw [scan_eq_unclosed (cut?_eq_none_iff.1 hcut)]
    rfl
  | some xy =>
    obtain ⟨inner, after⟩ := xy
    obtain ⟨rfl, hopen⟩ := eq_of_cut? hcut
    rcases scan_cases hopen after with ⟨t, -, hscan⟩ | hscan
    · rw [hscan]
      rfl
    · rw [hscan]
      rfl

/-- A text starts with the name characters `run`, and with no others behind them. -/
structure NameRun (s run rest : List Char) : Prop where
  /-- The run stands at the start. -/
  split : s = run ++ rest
  /-- It consists of name characters. -/
  chars : ∀ c ∈ run, isNameChar c = true
  /-- It cannot be longer. -/
  longest : ∀ c ∈ rest.head?, isNameChar c = false

/-- The name characters that a text starts with are a name. -/
structure StartsWithName (s run rest : List Char) : Prop extends NameRun s run rest where
  /-- The run is not empty, and starts with a letter. -/
  letter : run.head?.any isNameStart = true
  /-- A `>`, a `/` or a blank stands behind it. -/
  ended : rest.head?.any (fun c => c == '>' || (c == '/' || isBlank c)) = true

/-- A spelled tag starts with its name. -/
theorem startsWithName_inner (t : SpelledTag) (after : List Char) :
    StartsWithName (t.inner ++ '>' :: after) t.name (t.rest ++ '>' :: after) := by
  have hnext : ∃ c u, t.rest ++ '>' :: after = c :: u ∧ isNameChar c = false ∧
      (c == '>' || (c == '/' || isBlank c)) = true := by
    cases hrest : t.rest with
    | nil => exact ⟨'>', after, rfl, by decide, rfl⟩
    | cons c r =>
      obtain ⟨hend, hname, -⟩ := t.rest_head hrest
      exact ⟨c, r ++ '>' :: after, rfl, hname, Bool.or_eq_true_iff.2 (.inr hend)⟩
  obtain ⟨c, u, hrest, hname, hend⟩ := hnext
  rw [SpelledTag.inner, List.append_assoc, hrest]
  exact ⟨⟨rfl, t.name_chars, by simpa using hname⟩, t.name_start, hend⟩

/-- A text that starts with a name starts with a spelled tag, up to the first `>`. -/
theorem StartsWithName.exists_spelledTag (h : StartsWithName s run rest) {inner : List Char}
    (hcut : cut? '>' s = some (inner, after)) :
    ∃ t : SpelledTag, s = t.inner ++ '>' :: after ∧ t.name = run := by
  have hrun : '>' ∉ run := not_mem_of_nameChars (by decide) h.chars
  rw [h.split, cut?_append_of_not_mem hrun] at hcut
  obtain ⟨⟨mid, u⟩, hmid, heq⟩ := Option.map_eq_some_iff.1 hcut
  obtain ⟨hrest, hopen⟩ := eq_of_cut? hmid
  cases heq
  have hstart : ∀ c ∈ mid.head?, c = '/' ∨ isBlank c = true := by
    intro c hc
    obtain ⟨v, rfl⟩ := List.head?_eq_some_iff.1 hc
    have hgt : (c == '>') = false := by
      rw [List.mem_cons, not_or] at hopen
      exact beq_eq_false_iff_ne.2 (Ne.symm hopen.1)
    have hended := h.ended
    rw [hrest, List.cons_append, List.head?_cons, Option.any_some, hgt] at hended
    simpa using hended
  refine ⟨⟨run, mid, h.letter, h.chars, hstart, hopen⟩, ?_, rfl⟩
  show s = run ++ mid ++ '>' :: after
  rw [h.split, hrest, List.append_assoc]

/-- A name is found where a text starts with one and a `>` follows, and nowhere else. -/
theorem scan_eq_named_iff : scan s = .named name after ↔
    (cut? '>' s).map Prod.snd = some after ∧
      ∃ run rest, StartsWithName s run rest ∧ name = lower run := by
  constructor
  · intro h
    have hafter := after?_scan s
    rw [h] at hafter
    refine ⟨hafter.symm, ?_⟩
    obtain ⟨⟨inner, u⟩, hcut, rfl⟩ := Option.map_eq_some_iff.1 hafter.symm
    obtain ⟨rfl, hopen⟩ := eq_of_cut? hcut
    rcases scan_cases hopen u with ⟨t, rfl, hscan⟩ | hscan
    · rw [hscan] at h
      cases h
      exact ⟨_, _, startsWithName_inner t u, rfl⟩
    · rw [hscan] at h
      cases h
  · rintro ⟨hafter, run, rest, hname, rfl⟩
    obtain ⟨⟨inner, u⟩, hcut, rfl⟩ := Option.map_eq_some_iff.1 hafter
    obtain ⟨t, rfl, rfl⟩ := hname.exists_spelledTag hcut
    exact t.scan_inner u

end TagName

/-! ## Scanning bytes -/

namespace Offset

/-- The offset of the `>` that ends a tag. -/
def TagEnd.close? : TagEnd → Option Nat
  | .named _ close => some close
  | .nameless close => some close
  | .unclosed => none

theorem close?_closing (bs : List UInt8) (r : TagName.Scan) :
    (InPlace.closing bs r).close? = r.after?.map fun after => bs.length - (after.length + 1) := by
  cases r <;> rfl

theorem close?_scanTag (bs : List UInt8) (start : Nat) :
    (scanTag bs start).close? = findByte? (InPlace.byteOf '>') bs start := by
  rw [InPlace.scanTag_eq_closing, close?_closing, after?_scan, findByte?_eq_cut? (by decide),
    Option.map_map]
  rfl

theorem TagEnd.close?_eq_none_iff {r : TagEnd} : r.close? = none ↔ r = .unclosed := by
  cases r <;> simp [close?]

theorem closing_eq_named_iff {bs : List UInt8} {r : TagName.Scan} {name : List Char} {close : Nat} :
    InPlace.closing bs r = .named name close ↔
      ∃ after, r = .named name after ∧ bs.length - (after.length + 1) = close := by
  cases r <;> simp [InPlace.closing]

theorem scanTag_eq_named_iff {bs : List UInt8} {start close : Nat} {name : List Char} :
    scanTag bs start = .named name close ↔
      findByte? (InPlace.byteOf '>') bs start = some close ∧
        ∃ run rest, StartsWithName (viewFrom bs start) run rest ∧ name = lower run := by
  rw [InPlace.scanTag_eq_closing, closing_eq_named_iff, findByte?_eq_cut? (by decide)]
  constructor
  · rintro ⟨after, hscan, rfl⟩
    obtain ⟨hafter, hname⟩ := scan_eq_named_iff.1 hscan
    obtain ⟨⟨inner, u⟩, hcut, rfl⟩ := Option.map_eq_some_iff.1 hafter
    exact ⟨by rw [hcut]; rfl, hname⟩
  · rintro ⟨hfind, hname⟩
    obtain ⟨⟨inner, after⟩, hcut, rfl⟩ := Option.map_eq_some_iff.1 hfind
    exact ⟨after, scan_eq_named_iff.2 ⟨by rw [hcut]; rfl, hname⟩, rfl⟩

end Offset

/--
Scanning a tag fails at no access, whatever the bytes are and wherever the tag starts.  The tag is
unclosed exactly if there is no `>` from there on, and otherwise it ends at the first one.  It has a
name exactly if the run of name characters from there on is not empty, starts with a letter and is
followed by `>`, `/` or a blank; the name is the run in lower case.
-/
theorem scan_ends_at_first_close (bs : List UInt8) (start : Nat) :
    ∃ r, InPlace.scanTag? bs start = some r ∧ r = Offset.scanTag bs start ∧
      (r = .unclosed ↔ ∀ i, start ≤ i → bs[i]? ≠ some '>'.val.toUInt8) ∧
      (∀ close, r.close? = some close ↔ Offset.FirstAt '>'.val.toUInt8 bs start close) ∧
      ∀ name close, r = .named name close ↔
        Offset.FirstAt '>'.val.toUInt8 bs start close ∧
          ∃ run rest, StartsWithName (Offset.viewFrom bs start) run rest ∧ name = lower run := by
  refine ⟨_, InPlace.scanTag?_eq bs start, rfl, ?_, fun close => ?_, fun name close => ?_⟩
  · rw [← Offset.TagEnd.close?_eq_none_iff, Offset.close?_scanTag]
    exact Offset.findByte?_eq_none_iff
  · rw [Offset.close?_scanTag]
    exact Offset.findByte?_eq_some_iff
  · rw [Offset.scanTag_eq_named_iff, Offset.findByte?_eq_some_iff]
    rfl

/-- A `>` in quotes is the first one. -/
example : Offset.scanTag (Utf8.encode "A b='>'>".toList) 0 = .named ['a'] 5 := by decide +kernel

end HtmlMarkdown
