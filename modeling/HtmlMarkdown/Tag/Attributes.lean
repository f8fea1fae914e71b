/-!
# Attributes

The attributes of a tag are a finite map from names to values, kept as a list of entries in strictly
increasing order of the names, so that equal maps are equal lists.  `insert` replaces the value of a
name that is there already, and `ofList` therefore keeps the last value of each name.
-/

namespace HtmlMarkdown

/-- A name and its value. -/
abbrev Attribute := List Char × List Char

/-- Entries with names in strictly increasing order. -/
def Ascending (entries : List Attribute) : Prop := entries.Pairwise fun a b => a.1 < b.1

/-- A finite map from attribute names to values. -/
structure Attributes where
  /-- The entries, ordered by name. -/
  entries : List Attribute
  /-- No name occurs twice, and the names ascend. -/
  ascending : Ascending entries
  deriving DecidableEq

namespace Attributes

/-- Puts an entry in its place, in exchange for the entry of the same name. -/
def insertEntry (a : Attribute) : List Attribute → List Attribute
  | [] => [a]
  | b :: rest =>
    if a.1 < b.1 then a :: b :: rest
    else if a.1 = b.1 then a :: rest
    else b :: insertEntry a rest

theorem mem_of_mem_insertEntry {a b : Attribute} {entries : List Attribute}
    (h : b ∈ insertEntry a entries) : b = a ∨ b ∈ entries := by
  induction entries with
  | nil => simpa [insertEntry] using h
  | cons e rest ih =>
    unfold insertEntry at h
    split at h
    · simpa using h
    · split at h <;> simp only [List.mem_cons] at h ⊢ <;> grind

theorem ascending_insertEntry (a : Attribute) {entries : List Attribute} (h : Ascending entries) :
    Ascending (insertEntry a entries) := by
  induction entries with
  | nil => simp [insertEntry, Ascending]
  | cons b rest ih =>
    obtain ⟨hb, hrest⟩ := List.pairwise_cons.1 h
    unfold insertEntry
    split
    · next hab =>
      refine List.pairwise_cons.2 ⟨fun c hc => ?_, h⟩
      rcases List.mem_cons.1 hc with rfl | hc
      · exact hab
      · exact List.lt_trans hab (hb c hc)
    · next hab =>
      split
      · next heq => exact List.pairwise_cons.2 ⟨fun c hc => heq ▸ hb c hc, hrest⟩
      · next hne =>
        refine List.pairwise_cons.2 ⟨fun c hc => ?_, ih hrest⟩
        rcases mem_of_mem_insertEntry hc with rfl | hc
        · rcases Std.lt_trichotomy c.1 b.1 with hlt | heq | hgt
          · exact absurd hlt hab
          · exact absurd heq hne
          · exact hgt
        · exact hb c hc

/-- No attributes. -/
def empty : Attributes := ⟨[], List.Pairwise.nil⟩

/-- Sets the value of a name. -/
def insert (as : Attributes) (a : Attribute) : Attributes :=
  ⟨insertEntry a as.entries, ascending_insertEntry a as.ascending⟩

/-- The attributes set one after the other. -/
def ofList (as : List Attribute) : Attributes := as.foldl insert empty

/-- The value of a name. -/
def get? (as : Attributes) (name : List Char) : Option (List Char) := as.entries.lookup name

/-! ## Look-up -/

theorem lookup_cons_self (a : Attribute) (entries : List Attribute) :
    (a :: entries).lookup a.1 = some a.2 := by
  rw [← Prod.eta a, List.lookup_cons_self]

theorem lookup_cons_of_ne {a : Attribute} {name : List Char} (h : name ≠ a.1)
    (entries : List Attribute) : (a :: entries).lookup name = entries.lookup name := by
  rw [← Prod.eta a, List.lookup_cons, beq_eq_false_iff_ne.2 h]

theorem lookup_insertEntry_self (a : Attribute) (entries : List Attribute) :
    (insertEntry a entries).lookup a.1 = some a.2 := by
  induction entries with
  | nil => exact lookup_cons_self a []
  | cons b rest ih =>
    unfold insertEntry
    split
    · exact lookup_cons_self a _
    · split
      · exact lookup_cons_self a _
      · next hne => rw [lookup_cons_of_ne hne, ih]

theorem lookup_insertEntry_of_ne {a : Attribute} {name : List Char} (h : name ≠ a.1)
    (entries : List Attribute) : (insertEntry a entries).lookup name = entries.lookup name := by
  induction entries with
  | nil => exact lookup_cons_of_ne h []
  | cons b rest ih =>
    unfold insertEntry
    split
    · exact lookup_cons_of_ne h _
    · split
      · next heq => rw [lookup_cons_of_ne h, lookup_cons_of_ne (heq ▸ h)]
      · by_cases hb : name = b.1
        · rw [hb, lookup_cons_self, lookup_cons_self]
        · rw [lookup_cons_of_ne hb, lookup_cons_of_ne hb, ih]

@[simp] theorem get?_empty (name : List Char) : empty.get? name = none := rfl

@[simp] theorem get?_insert_self (as : Attributes) (a : Attribute) :
    (as.insert a).get? a.1 = some a.2 :=
  lookup_insertEntry_self a as.entries

theorem get?_insert_of_ne (as : Attributes) {a : Attribute} {name : List Char} (h : name ≠ a.1) :
    (as.insert a).get? name = as.get? name :=
  lookup_insertEntry_of_ne h as.entries

theorem ofList_append (as : List Attribute) (a : Attribute) :
    ofList (as ++ [a]) = (ofList as).insert a := by
  simp [ofList, List.foldl_append]

end Attributes

end HtmlMarkdown
