import HtmlMarkdown.Output.Basic
import HtmlMarkdown.Proofs.Text.Trim

/-!
# The finished text

The finished text is what has been written, without the blanks at both ends.  It has the same
visible characters (`visible_finish`), and it ends with the last glyph that is not blank
(`getLast?_finish`).  Glyph by glyph it is `printed`.
-/

namespace HtmlMarkdown.Output

open Text

/-- The glyph that the finished text ends with. -/
def lastGlyph? (o : Output) : Option Glyph :=
  (o.glyphs.dropWhile fun g => isBlank g.toChar).head?

/-- The text of glyphs that come newest first. -/
def written (gs : List Glyph) : List Char := gs.reverse.map Glyph.toChar

theorem written_cons (g : Glyph) (gs : List Glyph) : written (g :: gs) = written gs ++ [g.toChar] := by
  rw [written, List.reverse_cons, List.map_append, List.map_singleton, written]

theorem written_append (gs hs : List Glyph) : written (gs ++ hs) = written hs ++ written gs := by
  rw [written, List.reverse_append, List.map_append, written, written]

theorem written_output_append (o : Output) (s : List Char) :
    written (o.append s).glyphs = written o.glyphs ++ s :=
  List.cons.inj (contents_append o s) |>.2

theorem contents_append_glyphs (gs hs : List Glyph) :
    contents ⟨gs ++ hs⟩ = contents ⟨hs⟩ ++ written gs := by
  simp [contents, written]

theorem exists_glyphs_append {s : List Char} (h : Inked s) (o : Output) :
    ∃ c gs, isBlank c = false ∧ (o.append s).glyphs = .char c :: gs := by
  obtain ⟨t, c, rfl, hc⟩ := h.exists_eq_append
  exact ⟨c, (o.append t).glyphs, hc, by simp [append, push, pushGlyph]⟩

theorem finish_between_blanks {o : Output} {a s b : List Char} (h : written o.glyphs = a ++ s ++ b)
    (ha : ∀ c ∈ a, isBlank c = true) (hb : ∀ c ∈ b, isBlank c = true) (hs : Inked s) :
    o.finish = s := by
  have ha' : ∀ c ∈ ' ' :: a, isBlank c = true := by simpa using ⟨by decide, ha⟩
  have hcontents : o.contents = ' ' :: a ++ s ++ b := congrArg (' ' :: ·) h
  rw [finish, hcontents, trim_between_blanks ha' hb hs]

theorem visible_finish (o : Output) :
    visible o.finish = visible (o.glyphs.reverse.map Glyph.toChar) := by
  rw [finish, visible_trim, contents, visible_cons_blank (by decide)]

theorem getLast?_finish (o : Output) : o.finish.getLast? = o.lastGlyph?.map Glyph.toChar := by
  have hrev : o.contents.reverse = o.glyphs.map Glyph.toChar ++ [' '] := by
    rw [contents, List.reverse_cons, ← List.map_reverse, List.reverse_reverse]
  rw [finish, getLast?_trim, hrev, List.dropWhile_append]
  split
  · next h =>
    rw [List.dropWhile_map, List.isEmpty_map, List.isEmpty_iff] at h
    have hnone : o.lastGlyph? = none := by
      rw [lastGlyph?, show (fun g => isBlank g.toChar) = isBlank ∘ Glyph.toChar from rfl, h]
      rfl
    rw [hnone]
    rfl
  · next h =>
    rw [List.dropWhile_map, List.isEmpty_map, List.isEmpty_iff] at h
    obtain ⟨g, gs, hg⟩ := List.exists_cons_of_ne_nil h
    rw [lastGlyph?, show (fun g => isBlank g.toChar) = isBlank ∘ Glyph.toChar from rfl,
      List.dropWhile_map, hg]
    rfl

/-! ## Glyph by glyph -/

/-- The glyphs of the finished text, in order. -/
def printed (o : Output) : List Glyph :=
  ((o.glyphs.reverse.dropWhile fun g => isBlank g.toChar).reverse.dropWhile
    fun g => isBlank g.toChar).reverse

theorem map_toChar_printed (o : Output) : o.printed.map Glyph.toChar = o.finish := by
  have hblank : (fun g => isBlank g.toChar) = isBlank ∘ Glyph.toChar := rfl
  rw [finish, trim, dropEndWhile, contents, skipBlanks_cons_of_blank (by decide), skipBlanks,
    List.dropWhile_map, ← List.map_reverse, List.dropWhile_map, ← List.map_reverse, printed, hblank]

theorem isInfix_printed (o : Output) : o.printed <:+: o.glyphs.reverse := by
  have hfront := List.dropWhile_suffix (l := o.glyphs.reverse) fun g => isBlank g.toChar
  have hback := List.reverse_prefix.2 <| List.dropWhile_suffix
    (l := (o.glyphs.reverse.dropWhile fun g => isBlank g.toChar).reverse) fun g => isBlank g.toChar
  rw [List.reverse_reverse] at hback
  exact hback.isInfix.trans hfront.isInfix

end HtmlMarkdown.Output
