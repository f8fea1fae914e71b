import HtmlMarkdown.Text.Search

/-!
# Declarations

A construct that starts with `<!` is a comment, which goes on to the next `-->`, or another
declaration, which goes on to the next `>`.
-/

namespace HtmlMarkdown.Declaration

open Text

/-- The text after the declaration that a text starts with. -/
def after? (s : List Char) : Option (List Char) :=
  match Text.after? (· == ·) "<!--".toList s with
  | some comment => (locate? (· == ·) "-->".toList comment).map fun (_, stop) => stop.drop 3
  | none => (cut? '>' s).map (·.2)

theorem suffix_of_after? {s rest : List Char} (h : after? s = some rest) : rest <:+ s := by
  unfold after? at h
  split at h
  · next comment hc =>
    obtain ⟨⟨a, b⟩, hb, rfl⟩ := Option.map_eq_some_iff.1 h
    exact (List.drop_suffix 3 b).trans ((suffix_of_locate? hb).trans (Text.suffix_of_after? hc))
  · obtain ⟨⟨a, b⟩, hb, rfl⟩ := Option.map_eq_some_iff.1 h
    exact (List.suffix_cons _ _).trans (suffix_of_cut? hb)

theorem length_of_after? {s rest : List Char} (h : after? s = some rest) :
    rest.length < s.length := by
  unfold after? at h
  split at h
  · next comment hc =>
    have h₁ := Text.length_of_after? hc
    obtain ⟨⟨a, b⟩, hb, rfl⟩ := Option.map_eq_some_iff.1 h
    have h₂ := congrArg List.length (append_of_locate? hb)
    simp at h₁ h₂ ⊢
    omega
  · obtain ⟨⟨a, b⟩, hb, rfl⟩ := Option.map_eq_some_iff.1 h
    exact length_of_cut? hb

end HtmlMarkdown.Declaration
