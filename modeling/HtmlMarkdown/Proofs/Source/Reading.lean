import HtmlMarkdown.Token.Lexer

/-!
# Where tokens are read

`ReadAt` says of a token which end of the text is left where it is read; the tokens of a text are
what is read somewhere in it (`mem_tokens_iff`).  What a single reading shows of a character or a
link therefore holds of the characters and links among the tokens.
-/

namespace HtmlMarkdown

open Text

variable {mode : Mode} {t : Token} {s u rest : List Char}

/-- The token `t` is read where `u` is left of the text. -/
inductive ReadAt (mode : Mode) (t : Token) (u : List Char) : List Char → Prop where
  | here {rest : List Char} (h : Token.next? mode u = some (t, rest)) : ReadAt mode t u u
  | later {s rest : List Char} {t' : Token} (h : Token.next? mode s = some (t', rest))
      (hread : ReadAt mode t u rest) : ReadAt mode t u s

/-- The tokens of a text are what is read somewhere in it. -/
theorem mem_tokens_iff : t ∈ tokens mode s ↔ ∃ u, ReadAt mode t u s := by
  constructor
  · intro h
    fun_induction tokens mode s with
    | case1 => cases h
    | case2 s t' rest hnext ih =>
      rcases List.mem_cons.1 h with rfl | h
      · exact ⟨s, .here hnext⟩
      · obtain ⟨u, hread⟩ := ih h
        exact ⟨u, .later hnext hread⟩
  · rintro ⟨u, hread⟩
    induction hread with
    | here h =>
      rw [tokens_of_next?_eq_some h]
      exact List.mem_cons_self ..
    | later h _ ih =>
      rw [tokens_of_next?_eq_some h]
      exact List.mem_cons_of_mem _ ih

theorem exists_next?_of_readAt (h : ReadAt mode t u s) :
    ∃ rest, Token.next? mode u = some (t, rest) := by
  induction h with
  | here h => exact ⟨_, h⟩
  | later _ _ ih => exact ih

theorem exists_next?_of_mem_tokens (h : t ∈ tokens mode s) :
    ∃ u rest, Token.next? mode u = some (t, rest) := by
  obtain ⟨u, hread⟩ := mem_tokens_iff.1 h
  exact ⟨u, exists_next?_of_readAt hread⟩

theorem suffix_of_readAt (h : ReadAt mode t u s) : u <:+ s := by
  induction h with
  | here => exact List.suffix_refl u
  | @later s rest _ h _ ih =>
    cases s with
    | nil => cases h
    | cons c s => exact ih.trans ((Token.suffix_of_next? h).trans (List.suffix_cons c s))

/-! ## Characters -/

theorem Token.ofStartTag_ne_char (mode : Mode) (e : Element) (s rest : List Char) (c : Char) :
    (ofStartTag mode e s rest).1 ≠ .char c := by
  unfold ofStartTag
  split
  · simp
  · split <;> simp
  · simp
  · simp

/-- Markup is not read as a character. -/
theorem Token.markup?_ne_char (c : Char) : markup? mode s ≠ some (.char c, rest) := by
  intro h
  unfold markup? at h
  split at h
  · obtain ⟨r, -, hr⟩ := Option.map_eq_some_iff.1 h
    cases hr
  · split at h <;> cases h
  · split at h
    · exact absurd (congrArg Prod.fst (Option.some.inj h)) (ofStartTag_ne_char mode _ _ _ c)
    · cases h
    · cases h

theorem Token.of_next?_char {c : Char} (h : next? mode s = some (.char c, rest)) :
    isBlank c = false ∧ c ≠ '<' := by
  cases s with
  | nil => cases h
  | cons d s =>
    rw [next?] at h
    split at h
    · exact absurd h (markup?_ne_char c)
    · next hd =>
      split at h
      · cases h
      · next hb =>
        cases h
        exact ⟨Bool.eq_false_iff.2 hb, by simpa using hd⟩

theorem not_blank_of_mem_tokens {c : Char} (h : .char c ∈ tokens mode s) : isBlank c = false := by
  obtain ⟨u, rest, hnext⟩ := exists_next?_of_mem_tokens h
  exact (Token.of_next?_char hnext).1

theorem ne_of_char_mem_tokens {c : Char} (h : .char c ∈ tokens mode s) : c ≠ '<' := by
  obtain ⟨u, rest, hnext⟩ := exists_next?_of_mem_tokens h
  exact (Token.of_next?_char hnext).2

/-! ## Links -/

/-- Links are read in Markdown only. -/
theorem Token.read?_of_next? {l : Link} (h : next? mode s = some (.link l, rest)) :
    mode = .markdown ∧ ∃ t after, Link.read? t = some (l, after) := by
  cases s with
  | nil => cases h
  | cons c s =>
    rw [next?] at h
    split at h
    · unfold markup? at h
      split at h
      · obtain ⟨r, -, hr⟩ := Option.map_eq_some_iff.1 h
        cases hr
      · split at h <;> cases h
      · split at h
        · unfold ofStartTag at h
          split at h
          · cases h
          · split at h
            · next hread =>
              cases h
              exact ⟨rfl, _, _, hread⟩
            · cases h
          · cases h
          · cases h
        · cases h
        · cases h
    · split at h <;> cases h

theorem read?_of_link_mem_tokens {l : Link} (h : .link l ∈ tokens mode s) :
    mode = .markdown ∧ ∃ t after, Link.read? t = some (l, after) := by
  obtain ⟨u, rest, hnext⟩ := exists_next?_of_mem_tokens h
  exact Token.read?_of_next? hnext

end HtmlMarkdown
