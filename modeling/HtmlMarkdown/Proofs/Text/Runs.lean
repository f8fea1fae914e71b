import Mathlib.Data.List.TakeWhile

/-!
# Runs

A list starts with a longest run of elements that pass a test (`exists_run`).  There is only one: it
is what `takeWhile` takes and `dropWhile` drops.
-/

namespace HtmlMarkdown

variable {α : Type}

theorem head?_dropWhile (p : α → Bool) (s : List α) : (s.dropWhile p).head?.all (!p ·) = true := by
  have hhead := List.head?_dropWhile_not p s
  cases hrest : s.dropWhile p with
  | nil => rfl
  | cons c rest =>
    rw [hrest] at hhead
    simpa using hhead

/-- A list is its longest run and a rest that does not go on with it. -/
theorem exists_run (p : α → Bool) (s : List α) :
    ∃ run rest, s = run ++ rest ∧ (∀ c ∈ run, p c = true) ∧ rest.head?.all (!p ·) = true :=
  ⟨s.takeWhile p, s.dropWhile p, List.takeWhile_append_dropWhile.symm,
    fun _ hc => List.mem_takeWhile_imp hc, head?_dropWhile p s⟩

section Run

variable {p : α → Bool} {a b : List α} (ha : ∀ c ∈ a, p c = true)
  (hb : b.head?.all (!p ·) = true)

include ha hb

theorem takeWhile_append_of_head : (a ++ b).takeWhile p = a := by
  rw [List.takeWhile_append_of_pos ha]
  cases b with
  | nil => exact List.append_nil a
  | cons c b => rw [List.takeWhile_cons_of_neg (by simpa using hb), List.append_nil]

theorem dropWhile_append_of_head : (a ++ b).dropWhile p = b := by
  rw [List.dropWhile_append_of_pos ha]
  cases b with
  | nil => rfl
  | cons c b => exact List.dropWhile_cons_of_neg (by simpa using hb)

end Run

end HtmlMarkdown
