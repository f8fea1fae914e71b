import HtmlMarkdown.Proofs.Decoding

/-!
# Blanks at the ends of a converted page

A page that is given back as it is and the rendered tokens of a page are trimmed.  But references
are replaced once more behind the trimming, and they may stand for blanks.

A reference at an end of a text is replaced whatever else stands in the text, and stands for one
character at least (`expand?_ne_nil`); without one, this end stays as it is.  So the result starts
or ends with a blank just where the trimmed text starts or ends with a reference to it
(`convert_trimmed`).
-/

namespace HtmlMarkdown

open Text

/-- A text starts with a blank. -/
def startsBlank (s : List Char) : Bool := s.head?.any isBlank

/-- A text ends with a blank. -/
def endsBlank (s : List Char) : Bool := s.getLast?.any isBlank

theorem startsBlank_trim (s : List Char) : startsBlank (trim s) = false := by
  have hhead := head?_trim_not_blank s
  unfold startsBlank
  cases h : (trim s).head? <;> simp_all

theorem endsBlank_trim (s : List Char) : endsBlank (trim s) = false := by
  have hlast := getLast?_trim_not_blank s
  unfold endsBlank
  cases h : (trim s).getLast? <;> simp_all

theorem startsBlank_append {s : List Char} (h : s ≠ []) (t : List Char) :
    startsBlank (s ++ t) = startsBlank s := by
  rw [startsBlank, List.head?_append_of_ne_nil s h, startsBlank]

theorem endsBlank_append {t : List Char} (h : t ≠ []) (s : List Char) :
    endsBlank (s ++ t) = endsBlank t := by
  rw [endsBlank, List.getLast?_append_of_ne_nil s h, endsBlank]

namespace Reference

variable {s body out : List Char}

/-! ## A reference in a text -/

theorem expand?_ne_nil (h : expand? body = some out) : out ≠ [] := by
  unfold expand? at h
  split at h
  case h_4 =>
    obtain ⟨codes, hcodes, rfl⟩ := Option.map_eq_some_iff.1 h
    rw [ne_eq, List.map_eq_nil_iff]
    rintro rfl
    simpa using length_of_named? hcodes
  all_goals
    obtain ⟨c, -, rfl⟩ := Option.map_eq_some_iff.1 h
    exact List.cons_ne_nil c []

theorem decode_body (hsemi : ';' ∉ body) (hamp : '&' ∉ body) (b : List Char) :
    decode ('&' :: (body ++ ';' :: b)) =
      (expand? body).getD ('&' :: body ++ [';']) ++ decode b := by
  rw [decode, if_pos (beq_self_eq_true '&')]
  split
  · next x r hx =>
    cases (body?_append hsemi hamp b).symm.trans hx
    rfl
  · next hx => cases (body?_append hsemi hamp b).symm.trans hx

/-- A body does not reach beyond an ampersand. -/
theorem body?_append_ampersand (s t : List Char) :
    body? (s ++ '&' :: t) = (body? s).map fun p => (p.1, p.2 ++ '&' :: t) := by
  induction s with
  | nil => rfl
  | cons c s ih =>
    rw [List.cons_append, body?, body?, ih]
    split
    · rfl
    · split
      · rfl
      · rw [Option.map_map, Option.map_map]
        rfl

theorem decode_cons_of_no_body {c : Char} (h : c = '&' → body? s = none) :
    decode (c :: s) = c :: decode s := by
  rw [decode]
  split
  · next hc =>
    split
    · next hbody => cases (h (eq_of_beq hc)).symm.trans hbody
    · rfl
  · rfl

/-- What stands in front of an ampersand is decoded on its own. -/
theorem decode_append_ampersand (s t : List Char) :
    decode (s ++ '&' :: t) = decode s ++ decode ('&' :: t) := by
  fun_induction decode s with
  | case1 => rfl
  | case2 c s hc body rest hbody ih =>
    cases eq_of_beq hc
    obtain ⟨rfl, hsemi, hamp⟩ := eq_of_body? hbody
    rw [List.cons_append, List.append_assoc, List.cons_append, decode_body hsemi hamp, ih,
      List.append_assoc]
  | case3 c s hc hbody ih =>
    have hnone : body? (s ++ '&' :: t) = none := by rw [body?_append_ampersand, hbody]; rfl
    rw [List.cons_append, decode_cons_of_no_body fun _ => hnone, ih, List.cons_append]
  | case4 c s hc ih =>
    rw [List.cons_append, decode_cons_of_ne (by simpa using hc), ih, List.cons_append]

/-! ## References at the ends -/

/-- A text starts with a reference that stands for `out`. -/
def StartsWithReference (s out : List Char) : Prop :=
  ∃ body b, s = '&' :: (body ++ ';' :: b) ∧ ';' ∉ body ∧ '&' ∉ body ∧ expand? body = some out

/-- A text ends with a reference that stands for `out`. -/
def EndsWithReference (s out : List Char) : Prop :=
  ∃ a body, s = a ++ '&' :: (body ++ [';']) ∧ ';' ∉ body ∧ '&' ∉ body ∧ expand? body = some out

theorem EndsWithReference.append (h : EndsWithReference s out) (a : List Char) :
    EndsWithReference (a ++ s) out := by
  obtain ⟨b, body, rfl, hbody⟩ := h
  exact ⟨a ++ b, body, (List.append_assoc ..).symm, hbody⟩

theorem StartsWithReference.startsBlank_decode (h : StartsWithReference s out) :
    startsBlank (decode s) = startsBlank out := by
  obtain ⟨body, b, rfl, hsemi, hamp, hout⟩ := h
  rw [decode_body hsemi hamp, hout, Option.getD_some, startsBlank_append (expand?_ne_nil hout)]

theorem EndsWithReference.endsBlank_decode (h : EndsWithReference s out) :
    endsBlank (decode s) = endsBlank out := by
  obtain ⟨a, body, rfl, hsemi, hamp, hout⟩ := h
  rw [decode_append_ampersand, decode_body hsemi hamp, hout, Option.getD_some, decode_nil,
    List.append_nil, endsBlank_append (expand?_ne_nil hout)]

theorem head?_decode (h : ∀ out, ¬ StartsWithReference s out) : (decode s).head? = s.head? := by
  fun_cases decode s with
  | case1 => rfl
  | case2 c s hc body rest hbody =>
    cases eq_of_beq hc
    obtain ⟨rfl, hsemi, hamp⟩ := eq_of_body? hbody
    cases hexpand : expand? body with
    | none => rfl
    | some out => exact absurd ⟨body, rest, rfl, hsemi, hamp, hexpand⟩ (h out)
  | case3 | case4 => rfl

/-- Without a reference there the end of a text stays. -/
theorem getLast?_decode (h : ∀ out, ¬ EndsWithReference s out) :
    (decode s).getLast? = s.getLast? := by
  fun_induction decode s with
  | case1 => rfl
  | case2 c s hc body rest hbody ih =>
    cases eq_of_beq hc
    obtain ⟨rfl, hsemi, hamp⟩ := eq_of_body? hbody
    have hsplit : '&' :: (body ++ ';' :: rest) = '&' :: body ++ [';'] ++ rest := by simp
    rw [hsplit] at h ⊢
    rw [List.getLast?_append, List.getLast?_append, ih fun out ho => h out (ho.append _)]
    cases hexpand : expand? body with
    | none => rfl
    | some out =>
      cases rest with
      | nil => exact absurd ⟨[], body, List.append_nil _, hsemi, hamp, hexpand⟩ (h out)
      | cons d rest => rw [List.getLast?_cons, Option.some_or, Option.some_or]
  | case3 c s hc hbody ih | case4 c s hc ih =>
    rw [List.getLast?_cons, ih fun out ho => h out (ho.append [c]), List.getLast?_cons]

/-- At the start of a text without a blank there, a blank comes from a reference. -/
theorem startsBlank_decode_iff (h : startsBlank s = false) :
    startsBlank (decode s) = true ↔ ∃ out, StartsWithReference s out ∧ startsBlank out = true := by
  by_cases hs : ∃ out, StartsWithReference s out
  · obtain ⟨out, hout⟩ := hs
    refine ⟨fun hblank => ⟨out, hout, hout.startsBlank_decode ▸ hblank⟩, ?_⟩
    rintro ⟨out', hout', hblank⟩
    rwa [hout'.startsBlank_decode]
  · have hstays := head?_decode fun out hout => hs ⟨out, hout⟩
    refine iff_of_false ?_ fun ⟨out, hout, _⟩ => hs ⟨out, hout⟩
    rw [startsBlank, hstays, ← startsBlank, h]
    exact Bool.false_ne_true

/-- At the end of a text without a blank there, a blank comes from a reference. -/
theorem endsBlank_decode_iff (h : endsBlank s = false) :
    endsBlank (decode s) = true ↔ ∃ out, EndsWithReference s out ∧ endsBlank out = true := by
  by_cases hs : ∃ out, EndsWithReference s out
  · obtain ⟨out, hout⟩ := hs
    refine ⟨fun hblank => ⟨out, hout, hout.endsBlank_decode ▸ hblank⟩, ?_⟩
    rintro ⟨out', hout', hblank⟩
    rwa [hout'.endsBlank_decode]
  · have hstays := getLast?_decode fun out hout => hs ⟨out, hout⟩
    refine iff_of_false ?_ fun ⟨out, hout, _⟩ => hs ⟨out, hout⟩
    rw [endsBlank, hstays, ← endsBlank, h]
    exact Bool.false_ne_true

end Reference

/-! ## Conversions -/

/-- A page without tags that is given back as it is. -/
def Options.SkipsScan (o : Options) (page : String) : Prop :=
  o.keepTagless = true ∧ containsTags (o.decode page.toList) = false

variable {o : Options} {page : String}

theorem toList_convert_of_skipsScan (h : o.SkipsScan page) :
    (convert o page).toList = trim (o.decode page.toList) := by
  simp [convert, convertText, h.1, h.2]

theorem toList_convert_of_not_skipsScan (h : ¬ o.SkipsScan page) :
    (convert o page).toList = o.decode (convertTokens o.mode (o.decode page.toList)) := by
  have hscan : (o.keepTagless && !containsTags (o.decode page.toList)) = false := by
    rw [Options.SkipsScan] at h
    simpa using h
  simp [convert, convertText, hscan]

/-- No blank stands at an end of the text. -/
def Trimmed (s : List Char) : Prop := startsBlank s = false ∧ endsBlank s = false

theorem trimmed_trim (s : List Char) : Trimmed (trim s) := ⟨startsBlank_trim s, endsBlank_trim s⟩

theorem trimmed_convertTokens (mode : Mode) (s : List Char) : Trimmed (convertTokens mode s) :=
  trimmed_trim _

/--
A conversion that replaces no references, or gives back a page as it is, gives a text without blanks
at its ends.  Any other one replaces the references of such a text, and so it has a blank at an end
just where a reference to one stands at this end of the text.
-/
theorem convert_trimmed (o : Options) (page : String) :
    (o.decodeReferences = false ∨ o.SkipsScan page → Trimmed (convert o page).toList) ∧
    (o.decodeReferences = true ∧ ¬ o.SkipsScan page →
      ∃ m, m = convertTokens o.mode (Reference.decode page.toList) ∧ Trimmed m ∧
        (convert o page).toList = Reference.decode m ∧
        (startsBlank (convert o page).toList = true ↔
          ∃ out, Reference.StartsWithReference m out ∧ startsBlank out = true) ∧
        (endsBlank (convert o page).toList = true ↔
          ∃ out, Reference.EndsWithReference m out ∧ endsBlank out = true)) := by
  constructor
  · intro h
    by_cases hskips : o.SkipsScan page
    · rw [toList_convert_of_skipsScan hskips]
      exact trimmed_trim _
    · have hkept : o.decodeReferences = false := h.resolve_right hskips
      rw [toList_convert_of_not_skipsScan hskips]
      simp only [Options.decode, hkept, Bool.false_eq_true, if_false]
      exact trimmed_convertTokens _ _
  · rintro ⟨hdecode, hskips⟩
    have hconvert : (convert o page).toList =
        Reference.decode (convertTokens o.mode (Reference.decode page.toList)) := by
      rw [toList_convert_of_not_skipsScan hskips]
      simp only [Options.decode, hdecode, if_true]
    obtain ⟨hstart, hend⟩ := trimmed_convertTokens o.mode (Reference.decode page.toList)
    rw [hconvert]
    exact ⟨_, rfl, ⟨hstart, hend⟩, rfl, Reference.startsBlank_decode_iff hstart,
      Reference.endsBlank_decode_iff hend⟩

/-- A reference to an ampersand hides one to a space until the text has been trimmed. -/
theorem convert_trimmed_hiddenSpace :
    convert { decodeReferences := true } "&amp;#32;a" = " a" ∧
      ¬ Trimmed (convert { decodeReferences := true } "&amp;#32;a").toList := by
  have hconvert : convert { decodeReferences := true } "&amp;#32;a" = " a" := by decide +kernel
  refine ⟨hconvert, fun h => ?_⟩
  rw [hconvert] at h
  cases h.1

end HtmlMarkdown
