import HtmlMarkdown.Proofs.Source.Interior
import HtmlMarkdown.Proofs.Text.Trim
import HtmlMarkdown.Token.Lexer

/-!
# What a quotation starts with

Where a quotation looks ahead, a tag that is read on its own has the name that it is spelled with
(`name_of_parse`), whatever stands in its attributes.  So the tag of a block that has no quotable
breaks is never taken for one that has (`quotableAhead_tag`), and where a block is seen ahead its
tag is spelled behind the blanks (`exists_of_quotableAhead`).
-/

namespace HtmlMarkdown

open Text TagName

namespace Token

theorem quotableAhead_blanks {g : List Char} (hg : ∀ c ∈ g, isBlank c = true) (s : List Char) :
    quotableAhead (g ++ s) = quotableAhead s := by
  rw [quotableAhead, skipBlanks, dropWhile_blank_append hg, quotableAhead, skipBlanks]

/-- Of a construct between brackets nothing else is looked at. -/
theorem quotableAhead_bracket {inner : List Char} (hopen : '>' ∉ inner) (s : List Char) :
    quotableAhead ('<' :: (inner ++ '>' :: s)) =
      (Tag.parse .whole ('<' :: (inner ++ ['>']))).toOption.any fun tag =>
        (Element.ofName tag.name).spacing?.any (·.quotable) := by
  rw [quotableAhead, skipBlanks_cons_of_not_blank (by decide)]
  simp only [cut?_append hopen, List.cons_append]
  cases Tag.parse .whole ('<' :: (inner ++ ['>'])) <;> rfl

end Token

/-- What a quotation sees ahead. -/
theorem quotableAhead_tag {g : List Char} (hg : ∀ c ∈ g, isBlank c = true) (t : SpelledTag)
    (rest : List Char) (h : Token.quotableAhead (g ++ '<' :: (t.inner ++ '>' :: rest)) = true) :
    t.element.spacing?.any (·.quotable) = true := by
  rw [Token.quotableAhead_blanks hg, Token.quotableAhead_bracket t.not_mem_inner] at h
  cases hparse : Tag.parse .whole ('<' :: (t.inner ++ ['>'])) with
  | error e =>
    rw [hparse] at h
    cases h
  | ok tag =>
    have hany : (Element.ofName tag.name).spacing?.any (·.quotable) = true := by
      rwa [hparse] at h
    rwa [SpelledTag.name_of_parse hparse] at hany

/-- Where a block is seen ahead, its start tag is spelled behind blanks. -/
theorem exists_of_quotableAhead {s : List Char} (h : Token.quotableAhead s = true) :
    ∃ (g : List Char) (t : SpelledTag) (rest : List Char), (∀ c ∈ g, isBlank c = true) ∧
      s = g ++ '<' :: (t.inner ++ '>' :: rest) ∧
      t.element.spacing?.any (·.quotable) = true := by
  unfold Token.quotableAhead at h
  split at h
  · next u hskip =>
    split at h
    · cases h
    · next inner rest hcut =>
      obtain ⟨rfl, hopen⟩ := eq_of_cut? hcut
      split at h
      · next tag hparse =>
        obtain ⟨t, rfl, hname⟩ := exists_of_ofInterior hopen (ofInterior_of_parse hparse)
        refine ⟨s.takeWhile isBlank, t, rest, fun c hc => List.mem_takeWhile_imp hc, ?_, ?_⟩
        · rw [← hskip, skipBlanks, List.takeWhile_append_dropWhile]
        · rw [SpelledTag.element, hname]
          exact h
      · cases h
  · cases h

end HtmlMarkdown
