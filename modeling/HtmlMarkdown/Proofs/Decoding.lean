import HtmlMarkdown.Proofs.Inline
import HtmlMarkdown.Proofs.Probe

/-!
# Decoding once and twice

A page without tags that is given back as it is has had its references replaced once; on the way
through the conversion they are replaced a second time.  In running text this is the only difference
between the two ways, and it shows just where the first decoding leaves a text that still holds a
reference (`keepTagless_decodes_once`).

Every reference is longer than what it stands for (`length_expand?_lt`), so that decoding leaves
just the texts without references as they are (`decode_eq_self_iff`).
-/

namespace HtmlMarkdown

open Text

namespace Reference

variable {s body rest out : List Char}

/-! ## Bodies -/

theorem body?_append (hsemi : ';' ∉ body) (hamp : '&' ∉ body) (rest : List Char) :
    body? (body ++ ';' :: rest) = some (body, rest) := by
  induction body with
  | nil => rfl
  | cons c body ih =>
    rw [List.mem_cons, not_or] at hsemi hamp
    rw [List.cons_append, body?, if_neg (by simpa using Ne.symm hsemi.1),
      if_neg (by simpa using Ne.symm hamp.1), ih hsemi.2 hamp.2]
    rfl

theorem eq_of_body? (h : body? s = some (body, rest)) :
    s = body ++ ';' :: rest ∧ ';' ∉ body ∧ '&' ∉ body := by
  induction s generalizing body with
  | nil => cases h
  | cons c s ih =>
    rw [body?] at h
    split at h
    · next hsemi =>
      cases h
      exact ⟨congrArg (· :: _) (eq_of_beq hsemi), List.not_mem_nil, List.not_mem_nil⟩
    · next hsemi =>
      split at h
      · cases h
      · next hamp =>
        obtain ⟨⟨b, r⟩, hb, heq⟩ := Option.map_eq_some_iff.1 h
        cases heq
        obtain ⟨rfl, hsemi', hamp'⟩ := ih hb
        rw [beq_iff_eq] at hsemi hamp
        exact ⟨rfl, by simp [Ne.symm hsemi, hsemi'], by simp [Ne.symm hamp, hamp']⟩

/-! ## What references stand for -/

theorem of_named? {name : String} {codes : List Nat} (h : named? name = some codes)
    {p : String × List Nat → Bool} (hp : tables.all (·.all p) = true) : p (name, codes) = true := by
  obtain ⟨table, htable, hlookup⟩ := List.exists_of_findSome?_eq_some h
  obtain ⟨front, back, rfl, -⟩ := List.lookup_eq_some_iff.1 hlookup
  exact List.all_eq_true.1 (List.all_eq_true.1 hp _ htable) (name, codes) (by simp)

/-- A name stands for one or two characters, and one that stands for two is not empty. -/
theorem length_of_named? {name : String} {codes : List Nat} (h : named? name = some codes) :
    codes.length = 1 ∨ codes.length = 2 ∧ name ≠ "" := by
  have hentry := of_named? h (p := fun e => e.2.length == 1 || e.2.length == 2 && e.1 != "")
    (by decide +kernel)
  simpa using hentry

/-- A reference is longer than what it stands for. -/
theorem length_expand?_lt (h : expand? body = some out) : out.length < body.length + 2 := by
  have hnumber {base : Nat} {digits : List Char}
      (hone : (character? base digits).map ([·]) = some out) : out.length = 1 := by
    obtain ⟨c, -, rfl⟩ := Option.map_eq_some_iff.1 hone
    rfl
  unfold expand? at h
  split at h
  · rw [hnumber h, List.length_cons]
    omega
  · rw [hnumber h, List.length_cons]
    omega
  · rw [hnumber h, List.length_cons]
    omega
  · obtain ⟨codes, hcodes, rfl⟩ := Option.map_eq_some_iff.1 h
    rw [List.length_map]
    rcases length_of_named? hcodes with hone | ⟨htwo, hne⟩
    · omega
    · have hpos : 0 < body.length := by
        apply List.length_pos_of_ne_nil
        rintro rfl
        exact hne rfl
      omega

/-! ## References that a text holds -/

/-- A text holds a reference that stands for something. -/
def HoldsReference (s : List Char) : Prop :=
  ∃ a body b, s = a ++ '&' :: (body ++ ';' :: b) ∧ ';' ∉ body ∧ '&' ∉ body ∧
    (expand? body).isSome = true

/-- A reference starts with the first character, or stands behind it. -/
theorem holdsReference_cons_iff (c : Char) (s : List Char) :
    HoldsReference (c :: s) ↔
      (c = '&' ∧ ∃ body rest, body? s = some (body, rest) ∧ (expand? body).isSome = true) ∨
        HoldsReference s := by
  constructor
  · rintro ⟨a, body, b, hs, hsemi, hamp, hsome⟩
    cases a with
    | nil =>
      obtain ⟨rfl, rfl⟩ := List.cons.inj hs
      exact .inl ⟨rfl, body, b, body?_append hsemi hamp b, hsome⟩
    | cons d a => exact .inr ⟨a, body, b, (List.cons.inj hs).2, hsemi, hamp, hsome⟩
  · rintro (⟨rfl, body, rest, hbody, hsome⟩ | ⟨a, body, b, rfl, hsemi, hamp, hsome⟩)
    · obtain ⟨rfl, hsemi, hamp⟩ := eq_of_body? hbody
      exact ⟨[], body, rest, rfl, hsemi, hamp, hsome⟩
    · exact ⟨c :: a, body, b, rfl, hsemi, hamp, hsome⟩

theorem holdsReference_cons_of_no_body {c : Char} (h : c = '&' → body? s = none) :
    HoldsReference (c :: s) ↔ HoldsReference s := by
  rw [holdsReference_cons_iff]
  refine or_iff_right ?_
  rintro ⟨hc, body, rest, hbody, -⟩
  cases (h hc).symm.trans hbody

theorem holdsReference_append {a : List Char} (hamp : '&' ∉ a) (s : List Char) :
    HoldsReference (a ++ s) ↔ HoldsReference s := by
  induction a with
  | nil => rfl
  | cons c a ih =>
    rw [List.mem_cons, not_or] at hamp
    rw [List.cons_append, holdsReference_cons_of_no_body fun h => absurd h.symm hamp.1, ih hamp.2]

/-- A body that stands for nothing is text, and so is the `;` behind it. -/
theorem holdsReference_body_iff (hbody : body? s = some (body, rest))
    (hnone : expand? body = none) : HoldsReference ('&' :: s) ↔ HoldsReference rest := by
  obtain ⟨hs, -, hamp⟩ := eq_of_body? hbody
  have hsemi : '&' ∉ body ++ [';'] := by simp [hamp]
  rw [holdsReference_cons_iff, hbody, ← holdsReference_append hsemi rest, hs, List.append_assoc]
  refine or_iff_right ?_
  rintro ⟨-, b, r, heq, hsome⟩
  cases heq
  rw [hnone] at hsome
  cases hsome

/-- A text without references is left as it is. -/
theorem decode_of_not_holdsReference (h : ¬ HoldsReference s) : decode s = s := by
  fun_induction decode s with
  | case1 => rfl
  | case2 c s hc body rest hbody ih =>
    cases eq_of_beq hc
    cases hexpand : expand? body with
    | none =>
      rw [holdsReference_body_iff hbody hexpand] at h
      rw [ih h, (eq_of_body? hbody).1]
      simp
    | some out =>
      have hsome : (expand? body).isSome = true := by rw [hexpand]; rfl
      exact absurd ((holdsReference_cons_iff _ _).2 (.inl ⟨rfl, body, rest, hbody, hsome⟩)) h
  | case3 c s hc hbody ih =>
    rw [holdsReference_cons_of_no_body fun _ => hbody] at h
    rw [ih h]
  | case4 c s hc ih =>
    rw [holdsReference_cons_of_no_body fun h => absurd (beq_iff_eq.2 h) hc] at h
    rw [ih h]

/-- Decoding never makes a text longer, and a text with a reference it makes shorter. -/
theorem length_decode (s : List Char) : (decode s).length ≤ s.length ∧
    (HoldsReference s → (decode s).length < s.length) := by
  fun_induction decode s with
  | case1 => simp [HoldsReference]
  | case2 c s hc body rest hbody ih =>
    cases eq_of_beq hc
    have hlength : s.length = body.length + (rest.length + 1) := by
      rw [(eq_of_body? hbody).1, List.length_append, List.length_cons]
    rw [List.length_append, List.length_cons]
    cases hexpand : expand? body with
    | none =>
      have hsame : (none.getD ('&' :: body ++ [';'])).length = body.length + 2 := by simp
      rw [holdsReference_body_iff hbody hexpand, hsame]
      exact ⟨by omega, fun h => by have := ih.2 h; omega⟩
    | some out =>
      have hshort := length_expand?_lt hexpand
      rw [Option.getD_some]
      omega
  | case3 c s hc hbody ih =>
    rw [holdsReference_cons_of_no_body fun _ => hbody]
    exact ⟨Nat.succ_le_succ ih.1, fun h => Nat.succ_lt_succ (ih.2 h)⟩
  | case4 c s hc ih =>
    rw [holdsReference_cons_of_no_body fun h => absurd (beq_iff_eq.2 h) hc]
    exact ⟨Nat.succ_le_succ ih.1, fun h => Nat.succ_lt_succ (ih.2 h)⟩

theorem decode_eq_self_iff : decode s = s ↔ ¬ HoldsReference s := by
  refine ⟨fun h hholds => ?_, decode_of_not_holdsReference⟩
  have hlt := (length_decode s).2 hholds
  rw [h] at hlt
  exact absurd hlt (Nat.lt_irrefl _)

end Reference

/-! ## Pages without tags -/

/--
A page without tags in plain mode, in which the references leave a text `d` of words with single
spaces in between.  If pages without tags are given back as they are, it comes out as `d`; otherwise
the references of `d` are replaced, too.  The two are the same if `d` holds no reference, and only
then.
-/
theorem keepTagless_decodes_once {page : String} {d : List Char}
    (hd : Reference.decode page.toList = d) (hopen : '<' ∉ d) (hwords : collapse d = d) :
    convert { plainText := true, decodeReferences := true, keepTagless := true } page =
        String.ofList d ∧
      convert { plainText := true, decodeReferences := true } page =
        String.ofList (Reference.decode d) ∧
      (convert { plainText := true, decodeReferences := true, keepTagless := true } page =
        convert { plainText := true, decodeReferences := true } page ↔
          ¬ Reference.HoldsReference d) := by
  have htagless : containsTags d = false := by
    apply Bool.eq_false_iff.2
    intro htags
    obtain ⟨a, t, rfl, -⟩ := containsTags_iff.1 htags
    exact hopen (by simp)
  have hshort : convert { plainText := true, decodeReferences := true, keepTagless := true } page =
      String.ofList d := by
    have htrim : trim d = d := by rw [← hwords, trim_collapse]
    simp [convert, convertText, Options.decode, hd, htagless, htrim]
  have hlong : convert { plainText := true, decodeReferences := true } page =
      String.ofList (Reference.decode d) := by
    have htext : convertTokens .plain d = d := (convertTokens_text .plain hopen).trans hwords
    simp [convert, convertText, Options.decode, Options.mode, hd, htext]
  refine ⟨hshort, hlong, ?_⟩
  rw [hshort, hlong, String.ofList_inj, eq_comm, Reference.decode_eq_self_iff]

/-- A reference that stands for the start of another one. -/
theorem keepTagless_decodes_once_nestedReference :
    Reference.decode "&amp;amp;".toList = "&amp;".toList ∧ '<' ∉ "&amp;".toList ∧
      collapse "&amp;".toList = "&amp;".toList ∧
      convert { plainText := true, decodeReferences := true, keepTagless := true } "&amp;amp;" =
        "&amp;" ∧
      convert { plainText := true, decodeReferences := true } "&amp;amp;" = "&" := by
  refine ⟨?_, ?_, ?_, ?_, ?_⟩ <;> decide +kernel

/-- References that stand for blanks, brackets and ampersands, and one that stands for nothing. -/
theorem keepTagless_decodes_once_ampersands :
    convert { plainText := true, decodeReferences := true, keepTagless := true }
        "a&#32;&#62;&AMP;b&#1;" =
      convert { plainText := true, decodeReferences := true } "a&#32;&#62;&AMP;b&#1;" := by
  have hd : Reference.decode "a&#32;&#62;&AMP;b&#1;".toList = "a >&b&#1;".toList := by
    decide +kernel
  have hwords : collapse "a >&b&#1;".toList = "a >&b&#1;".toList := by decide +kernel
  have hsame : Reference.decode "a >&b&#1;".toList = "a >&b&#1;".toList := by decide +kernel
  have hnone := Reference.decode_eq_self_iff.1 hsame
  exact (keepTagless_decodes_once hd (by decide) hwords).2.2.2 hnone

end HtmlMarkdown
