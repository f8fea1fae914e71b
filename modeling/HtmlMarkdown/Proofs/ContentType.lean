import HtmlMarkdown.Charset
import HtmlMarkdown.Proofs.Source.Tag
import HtmlMarkdown.Proofs.Text.Occurrence

/-!
# The parameter of a content type

`Parameter` is a text that starts with a charset parameter, cut into its parts: the word `charset`,
the white space around the equals sign, a quotation mark if there is one, and the value.  The value
of a content type is that of the first place where a parameter starts, and it is read to its end
(`charset?_leftmost`).

A parameter is read by skipping white space as far as it goes, and by dropping a quotation mark
wherever there is one.  Nothing is missed by that: neither white space nor a quotation mark is part
of a value, so there is one way to cut a text at its start (`leading?_spell`).
-/

namespace HtmlMarkdown.ContentType

open Text

/-! ## Letters -/

/-- The small letter that a character is up to case; the long s is a letter s. -/
def folded (c : Char) : Char := if c = 'ſ' then 's' else c.toLower

theorem sameFolded_iff {w c : Char} (hw : w ≠ 'ſ') : sameFolded w c = true ↔ folded c = w := by
  rw [sameFolded, folded, Bool.or_eq_true, Bool.and_eq_true, beq_iff_eq, beq_iff_eq, beq_iff_eq]
  split
  · next hc =>
    have hlower : c.toLower = 'ſ' := by rw [hc]; rfl
    rw [hlower]
    exact ⟨fun h => (h.resolve_left hw).1.symm, fun h => .inr ⟨h.symm, hc⟩⟩
  · next hc => exact ⟨fun h => (h.resolve_right fun h => hc h.2).symm, fun h => .inl h.symm⟩

theorem after?_sameFolded_nil_iff {word k : List Char} (hword : 'ſ' ∉ word) :
    after? sameFolded word k = some [] ↔ k.map folded = word := by
  induction word generalizing k with
  | nil => simp [after?]
  | cons w word ih =>
    rw [List.mem_cons, not_or] at hword
    cases k with
    | nil => simp [after?]
    | cons c k =>
      have hw := sameFolded_iff (c := c) (Ne.symm hword.1)
      by_cases hc : folded c = w
      · rw [after?, if_pos (hw.2 hc), ih hword.2, List.map_cons, hc]
        simp
      · rw [after?, if_neg (mt hw.1 hc), List.map_cons]
        simp [hc]

theorem after?_keyword_iff {s t : List Char} :
    after? sameFolded keyword s = some t ↔ ∃ k, s = k ++ t ∧ k.map folded = keyword := by
  have hword : 'ſ' ∉ keyword := by decide
  constructor
  · intro h
    obtain ⟨k, hk, hread⟩ := exists_of_after? h
    exact ⟨k, hk, (after?_sameFolded_nil_iff hword).1 hread⟩
  · rintro ⟨k, rfl, hk⟩
    exact after?_append ((after?_sameFolded_nil_iff hword).2 hk) t

/-! ## Parts -/

/-- A character that ends a value. -/
def IsDelimiter (c : Char) : Prop :=
  c = '"' ∨ c = '\'' ∨ c = ';' ∨ c = ',' ∨ isWhiteSpace c = true

instance : DecidablePred IsDelimiter := fun c =>
  inferInstanceAs (Decidable (c = '"' ∨ c = '\'' ∨ c = ';' ∨ c = ',' ∨ isWhiteSpace c = true))

theorem isValueChar_iff {c : Char} : isValueChar c = true ↔ ¬ IsDelimiter c := by
  simp [isValueChar, IsDelimiter, and_assoc]

/-- A text that starts with a parameter, in parts. -/
structure Parameter where
  /-- The word in front of the equals sign. -/
  word : List Char
  /-- The white space in front of the equals sign. -/
  before : List Char
  /-- The white space behind the equals sign. -/
  behind : List Char
  /-- The quotation mark in front of the value. -/
  quote : List Char
  /-- The value. -/
  value : List Char
  /-- The text after the value. -/
  rest : List Char

namespace Parameter

variable (x : Parameter)

/-- The text that has been cut. -/
def spell : List Char :=
  x.word ++ (x.before ++ '=' :: (x.behind ++ (x.quote ++ (x.value ++ x.rest))))

/-- The parts are those of a parameter. -/
structure Valid : Prop where
  word_folded : x.word.map folded = "charset".toList
  before_white : ∀ c ∈ x.before, isWhiteSpace c = true
  behind_white : ∀ c ∈ x.behind, isWhiteSpace c = true
  quote_single : x.quote = [] ∨ x.quote = ['"'] ∨ x.quote = ['\'']
  value_ne : x.value ≠ []
  value_plain : ∀ c ∈ x.value, ¬ IsDelimiter c

/-- The value goes as far as it can. -/
def Whole : Prop := ∀ c ∈ x.rest.head?, IsDelimiter c

variable {x} (hx : x.Valid)

include hx

theorem Valid.not_white {c : Char} (hc : c ∈ x.value) : isWhiteSpace c = false :=
  Bool.eq_false_iff.2 fun hwhite => hx.value_plain c hc (by simp [IsDelimiter, hwhite])

theorem Valid.head_not_white :
    (x.quote ++ (x.value ++ x.rest)).head?.all (!isWhiteSpace ·) = true := by
  obtain ⟨c, v, hv⟩ := List.exists_cons_of_ne_nil hx.value_ne
  have hc := hx.not_white (c := c) (by simp [hv])
  rcases hx.quote_single with hq | hq | hq <;> rw [hq]
  · simp [hv, hc]
  · rfl
  · rfl

/-- A value does not start with a quotation mark. -/
theorem Valid.dropQuote_eq : dropQuote (x.quote ++ (x.value ++ x.rest)) = x.value ++ x.rest := by
  obtain ⟨c, v, hv⟩ := List.exists_cons_of_ne_nil hx.value_ne
  have hc := hx.value_plain c (by simp [hv])
  rcases hx.quote_single with hq | hq | hq <;> rw [hq]
  · rw [List.nil_append, hv, List.cons_append]
    unfold dropQuote
    split
    · next hcons => exact absurd (.inl (List.cons.inj hcons).1) hc
    · next hcons => exact absurd (.inr (.inl (List.cons.inj hcons).1)) hc
    · rfl
  · rfl
  · rfl

/-- The value of a parameter that has been cut is a part of what is read. -/
theorem Valid.leading?_eq :
    leading? x.spell = some ((x.value ++ x.rest).takeWhile isValueChar) := by
  have hword : after? sameFolded keyword x.spell =
      some (x.before ++ '=' :: (x.behind ++ (x.quote ++ (x.value ++ x.rest)))) :=
    after?_keyword_iff.2 ⟨x.word, rfl, hx.word_folded⟩
  have hsign : (x.before ++ '=' :: (x.behind ++ (x.quote ++ (x.value ++ x.rest)))).dropWhile
      isWhiteSpace = '=' :: (x.behind ++ (x.quote ++ (x.value ++ x.rest))) :=
    dropWhile_append_of_head hx.before_white (by simp; decide)
  have hvalue : (x.behind ++ (x.quote ++ (x.value ++ x.rest))).dropWhile isWhiteSpace =
      x.quote ++ (x.value ++ x.rest) :=
    dropWhile_append_of_head hx.behind_white hx.head_not_white
  have hne : ((x.value ++ x.rest).takeWhile isValueChar).isEmpty = false := by
    obtain ⟨c, v, hv⟩ := List.exists_cons_of_ne_nil hx.value_ne
    have hc := isValueChar_iff.2 (hx.value_plain c (by simp [hv]))
    rw [hv, List.cons_append, List.takeWhile_cons_of_pos hc]
    rfl
  simp only [leading?, hword, hsign, hvalue, hx.dropQuote_eq, hne, Bool.false_eq_true, if_false]

theorem Valid.leading?_spell (hwhole : x.Whole) : leading? x.spell = some x.value := by
  have hrest : x.rest.head?.all (!isValueChar ·) = true := by
    cases hr : x.rest.head? with
    | none => rfl
    | some c =>
      have hc : isValueChar c = false :=
        Bool.eq_false_iff.2 fun h => isValueChar_iff.1 h (hwhole c hr)
      simp [hc]
  rw [hx.leading?_eq, takeWhile_append_of_head (fun c hc => isValueChar_iff.2 (hx.value_plain c hc))
    hrest]

end Parameter

/-! ## Reading -/

theorem exists_quote_append (s : List Char) :
    ∃ q, (q = [] ∨ q = ['"'] ∨ q = ['\'']) ∧ s = q ++ dropQuote s := by
  unfold dropQuote
  split
  · exact ⟨['"'], .inr (.inl rfl), rfl⟩
  · exact ⟨['\''], .inr (.inr rfl), rfl⟩
  · exact ⟨[], .inl rfl, rfl⟩

/-- What is read in a parameter that a text starts with. -/
theorem exists_of_leading? {s v : List Char} (h : leading? s = some v) :
    ∃ k t u, s = k ++ t ∧ k.map folded = keyword ∧ t.dropWhile isWhiteSpace = '=' :: u ∧
      v = (dropQuote (u.dropWhile isWhiteSpace)).takeWhile isValueChar ∧ v ≠ [] := by
  unfold leading? at h
  split at h
  · cases h
  · next t ht =>
    obtain ⟨k, hs, hk⟩ := after?_keyword_iff.1 ht
    split at h
    · next u hu =>
      dsimp only at h
      split at h
      · cases h
      · next hne =>
        obtain rfl := Option.some.inj h
        exact ⟨k, t, u, hs, hk, hu, rfl, mt List.isEmpty_iff.2 hne⟩
    · cases h

/-- What is read can be cut into the parts of a parameter. -/
theorem Parameter.exists_of_leading? {s v : List Char} (h : leading? s = some v) :
    ∃ x : Parameter, x.Valid ∧ x.Whole ∧ x.spell = s ∧ x.value = v := by
  obtain ⟨k, t, u, rfl, hk, hu, rfl, hne⟩ := ContentType.exists_of_leading? h
  obtain ⟨q, hq, hquote⟩ := exists_quote_append (u.dropWhile isWhiteSpace)
  generalize dropQuote (u.dropWhile isWhiteSpace) = r at hne hquote
  let x : Parameter := ⟨k, t.takeWhile isWhiteSpace, u.takeWhile isWhiteSpace, q,
    r.takeWhile isValueChar, r.dropWhile isValueChar⟩
  have hvalid : x.Valid :=
    { word_folded := hk
      before_white := fun c hc => List.mem_takeWhile_imp hc
      behind_white := fun c hc => List.mem_takeWhile_imp hc
      quote_single := hq
      value_ne := hne
      value_plain := fun c hc => isValueChar_iff.1 (List.mem_takeWhile_imp hc) }
  have hwhole : x.Whole := by
    intro c hc
    have hstop := head?_dropWhile isValueChar r
    rw [Option.mem_def.1 hc] at hstop
    exact Decidable.not_not.1 fun hplain => by simp [isValueChar_iff.2 hplain] at hstop
  have hspell : x.spell = k ++ t := by
    simp only [x, spell]
    rw [List.takeWhile_append_dropWhile, ← hquote, List.takeWhile_append_dropWhile, ← hu,
      List.takeWhile_append_dropWhile]
  exact ⟨x, hvalid, hwhole, hspell, rfl⟩

/-- A parameter starts with the word, so none starts where the word does not. -/
theorem leading?_eq_none {s : List Char} (h : ∀ k t, s = k ++ t → k.map folded ≠ keyword) :
    leading? s = none := by
  refine Option.eq_none_iff_forall_ne_some.2 fun v hv => ?_
  obtain ⟨x, hx, -, rfl, -⟩ := Parameter.exists_of_leading? hv
  exact h x.word _ rfl hx.word_folded

/-! ## The first parameter -/

/-- The places in front of the first parameter are passed over. -/
theorem charset?_append {p t : List Char}
    (hp : ∀ a b, p = a ++ b → b ≠ [] → leading? (b ++ t) = none) :
    charset? (p ++ t) = charset? t := by
  induction p with
  | nil => rfl
  | cons c p ih =>
    have hc : leading? (c :: (p ++ t)) = none := hp [] (c :: p) rfl (by simp)
    rw [List.cons_append, charset?, hc]
    exact ih fun a b hab => hp (c :: a) b (by rw [hab, List.cons_append])

theorem charset?_of_leading? {s v : List Char} (h : leading? s = some v) : charset? s = some v := by
  cases s with
  | nil => cases h
  | cons c s => rw [charset?, h]

theorem exists_of_charset? {s v : List Char} (h : charset? s = some v) :
    ∃ p t, s = p ++ t ∧ leading? t = some v ∧
      ∀ a b, s = a ++ b → (leading? b).isSome = true → p.length ≤ a.length := by
  induction s with
  | nil => cases h
  | cons c s ih =>
    rw [charset?] at h
    split at h
    · next w hw =>
      obtain rfl := Option.some.inj h
      exact ⟨[], c :: s, rfl, hw, fun _ _ _ _ => Nat.zero_le _⟩
    · next hnone =>
      obtain ⟨p, t, rfl, ht, hfirst⟩ := ih h
      refine ⟨c :: p, t, rfl, ht, fun a b hab hb => ?_⟩
      cases a with
      | nil =>
        rw [List.nil_append] at hab
        rw [← hab, hnone] at hb
        cases hb
      | cons d a => exact Nat.succ_le_succ (hfirst a b (List.cons.inj hab).2 hb)

theorem charset?_eq_none_iff {s : List Char} :
    charset? s = none ↔ ∀ a b, s = a ++ b → leading? b = none := by
  induction s with
  | nil =>
    have hnil : leading? [] = none := by decide
    simp [charset?, hnil]
  | cons c s ih =>
    rw [charset?]
    constructor
    · intro h a b hab
      split at h
      · cases h
      · next hc =>
        cases a with
        | nil => rw [← hc, ← List.nil_append b, hab]
        | cons d a => exact ih.1 h a b (List.cons.inj hab).2
    · intro h
      rw [h [] (c :: s) rfl]
      exact ih.2 fun a b hab => h (c :: a) b (by rw [hab, List.cons_append])

/-! ## The only word -/

/-- In `p` and the word behind it the word `charset` stands at the end only. -/
def OnlyWord (p word : List Char) : Prop :=
  ∀ a k b, p ++ word = a ++ (k ++ b) → k.map folded = "charset".toList → a = p

theorem length_of_folded {k : List Char} (hk : k.map folded = "charset".toList) : k.length = 7 := by
  have hmap := congrArg List.length hk
  rwa [List.length_map] at hmap

/-- It does not start at an earlier place. -/
theorem onlyWord_iff {p word : List Char} (hword : word.map folded = "charset".toList) :
    OnlyWord p word ↔
      ∀ i < p.length, (((p ++ word).drop i).take 7).map folded ≠ "charset".toList := by
  constructor
  · intro h i hi hk
    have hsplit : p ++ word = (p ++ word).take i ++
        (((p ++ word).drop i).take 7 ++ ((p ++ word).drop i).drop 7) := by
      rw [List.take_append_drop, List.take_append_drop]
    have hlength := congrArg List.length (h _ _ _ hsplit hk)
    rw [List.length_take, List.length_append] at hlength
    omega
  · intro h a k b hsplit hk
    have hsize := congrArg List.length hsplit
    simp only [List.length_append, length_of_folded hk, length_of_folded hword] at hsize
    refine (List.append_inj hsplit (Nat.le_antisymm ?_ ?_)).1.symm
    · refine Nat.le_of_not_lt fun hlt => h a.length hlt ?_
      rw [hsplit, List.drop_left, ← length_of_folded hk, List.take_left, hk]
    · omega

/-- In front of the only word no parameter starts. -/
theorem Parameter.Valid.leading?_append {x : Parameter} (hx : x.Valid) {p a b : List Char}
    (honly : OnlyWord p x.word) (hp : p = a ++ b) (hb : b ≠ []) :
    leading? (b ++ x.spell) = none := by
  refine leading?_eq_none fun k t hsplit hk => hb ?_
  -- The word that starts in `b` is as long as the other one, so it lies in front of its end.
  have hle : k.length ≤ (b ++ x.word).length := by
    rw [List.length_append, length_of_folded hk, length_of_folded hx.word_folded]
    exact Nat.le_add_left _ _
  have hword : b ++ x.word <+: b ++ x.spell := (List.prefix_append_right_inj b).2 ⟨_, rfl⟩
  obtain ⟨w, hw⟩ := List.prefix_of_prefix_length_le ⟨t, hsplit.symm⟩ hword hle
  have ha : a = p := honly a k w (by rw [hp, List.append_assoc, hw]) hk
  rwa [ha, List.self_eq_append_right] at hp

/-! ## Content types -/

/--
A content type whose first word `charset` is that of a parameter gives the value of the parameter,
and pages that come with it have this charset, in capitals.  In turn every value that a content type
gives is that of the first parameter in it, read to its end; without a parameter there is none.
-/
theorem charset?_leftmost :
    (∀ (p : List Char) (x : Parameter), x.Valid → x.Whole → OnlyWord p x.word →
      charset? (p ++ x.spell) = some x.value ∧
        ∀ page, Charset.detect (some (p ++ x.spell)) page = upper x.value) ∧
    (∀ s v, charset? s = some v → v ≠ [] ∧ (∀ c ∈ v, ¬ IsDelimiter c) ∧
      ∃ p x, s = p ++ Parameter.spell x ∧ x.Valid ∧ x.Whole ∧ x.value = v ∧
        ∀ a y, s = a ++ Parameter.spell y → y.Valid → p.length ≤ a.length) ∧
    ∀ s, charset? s = none ↔ ∀ a y, Parameter.Valid y → s ≠ a ++ y.spell := by
  refine ⟨fun p x hx hwhole honly => ?_, fun s v hv => ?_, fun s => ?_⟩
  · have hcharset : charset? (p ++ x.spell) = some x.value :=
      (charset?_append fun a b hp hb => hx.leading?_append honly hp hb).trans
        (charset?_of_leading? (hx.leading?_spell hwhole))
    refine ⟨hcharset, fun page => ?_⟩
    simp only [Charset.detect, Charset.named?, Option.bind_some, hcharset, Charset.normalize]
  · obtain ⟨p, t, rfl, ht, hfirst⟩ := exists_of_charset? hv
    obtain ⟨x, hx, hwhole, rfl, rfl⟩ := Parameter.exists_of_leading? ht
    refine ⟨hx.value_ne, hx.value_plain, p, x, rfl, hx, hwhole, rfl, fun a y hy hvalid => ?_⟩
    exact hfirst a y.spell hy (Option.isSome_of_eq_some hvalid.leading?_eq)
  · rw [charset?_eq_none_iff]
    constructor
    · intro h a y hy hs
      cases hy.leading?_eq.symm.trans (h a y.spell hs)
    · intro h a b hs
      refine Option.eq_none_iff_forall_ne_some.2 fun v hv => ?_
      obtain ⟨x, hx, -, rfl, -⟩ := Parameter.exists_of_leading? hv
      exact h a x hx hs

/-- A quoted value behind no-break spaces and a long s, and in front of it a part of the word. -/
theorem charset?_leftmost_longS :
    charset? "a; charse=b; CHARſET\u00a0=\u2003'utf-ß';c".toList = some "utf-ß".toList ∧
      ∀ page, Charset.detect (some "a; charse=b; CHARſET\u00a0=\u2003'utf-ß';c".toList) page =
        "UTF-SS".toList := by
  let x : Parameter := ⟨"CHARſET".toList, ['\u00a0'], ['\u2003'], ['\''], "utf-ß".toList,
    "';c".toList⟩
  have hplain : x.value.all isValueChar = true := by decide
  have hx : x.Valid := ⟨by decide, List.all_eq_true.1 (by decide), List.all_eq_true.1 (by decide),
    by decide, by decide, fun c hc => isValueChar_iff.1 (List.all_eq_true.1 hplain c hc)⟩
  have hwhole : x.Whole := by
    rintro c ⟨⟩
    decide
  have honly : OnlyWord "a; charse=b; ".toList x.word :=
    (onlyWord_iff hx.word_folded).2 (by decide)
  have hupper : upper x.value = "UTF-SS".toList := by decide +kernel
  obtain ⟨hcharset, hdetect⟩ := charset?_leftmost.1 "a; charse=b; ".toList x hx hwhole honly
  exact ⟨hcharset, fun page => (hdetect page).trans hupper⟩

end HtmlMarkdown.ContentType
