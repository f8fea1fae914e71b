import HtmlMarkdown.InPlace.Tag
import HtmlMarkdown.Proofs.InPlace.Scan

/-!
# Reading a tag in place is reading it

The attributes are a stretch `m` of the text between `p` and `beyond`.  A quoted value may run on
into `beyond`, and then the loop has got past the end of the attributes and stops; otherwise it has
got to a place in `m` (`Reached`).  So the loop reads the attributes of `m` (`extend?_append`), and
a tag in place is read like the text that it is (`parse?_eq_parse`).
-/

namespace HtmlMarkdown.InPlace

open Text Utf8 TagName Offset

/-! ## Tests -/

theorem constant_isQuote : Constant Tag.isQuote :=
  .or (constant_beq (by decide)) (constant_beq (by decide))

theorem constant_isAttributeChar : Constant Tag.isAttributeChar := by
  refine .or (.or (.or (.or ?_ ?_) ?_) ?_) ?_
  · exact .of_false fun _ => isAlphanum_beyond
  all_goals exact constant_beq (by decide)

theorem ascii_of_isQuote {c : Char} (h : Tag.isQuote c = true) : c.toNat < 128 := by
  rw [Tag.isQuote, Bool.or_eq_true, beq_iff_eq, beq_iff_eq] at h
  rcases h with rfl | rfl <;> decide

theorem eq_byteOf {c : Char} (hc : c.toNat < 128) {x : UInt8} (hx : x ∈ encode [c]) :
    x = byteOf c := by
  rw [encode_ascii hc] at hx
  exact List.mem_singleton.1 hx

/-! ## Values -/

/-- Reading on from the start of `m` has got in front of `left`, or past the end of `m`. -/
def Reached (p m left : List Char) (pos : Nat) : Prop :=
  (∃ x, m = x ++ left ∧ pos = byteSize (p ++ x)) ∨ (left = [] ∧ byteSize (p ++ m) ≤ pos)

theorem Reached.of_append {p x m left : List Char} {pos : Nat} (h : Reached (p ++ x) m left pos) :
    Reached p (x ++ m) left pos := by
  rcases h with ⟨y, rfl, rfl⟩ | ⟨rfl, hle⟩
  · exact .inl ⟨x ++ y, (List.append_assoc ..).symm, by rw [List.append_assoc]⟩
  · exact .inr ⟨rfl, by rwa [← List.append_assoc]⟩

/-- A quote counts unless it is the last byte. -/
theorem findQuote_append {c : Char} (hc : c.toNat < 128) (a body : List Char) (last : Char) :
    (findByte? (byteOf c) (encode (a ++ (body ++ [last]))) (byteSize a)).filter
        (· < (encode (a ++ (body ++ [last]))).length - 1) =
      (cut? c body).map fun (v, _) => byteSize (a ++ v) := by
  have hlast := Char.utf8Size_pos last
  rw [findByte?_append hc, length_encode]
  cases hcut : cut? c body with
  | some vw =>
    obtain ⟨v, w⟩ := vw
    obtain ⟨rfl, hv⟩ := eq_of_cut? hcut
    have hlt : byteSize (a ++ v) < byteSize (a ++ (v ++ c :: w ++ [last])) - 1 := by
      have hpos := Char.utf8Size_pos c
      simp only [byteSize_append, byteSize_cons]
      omega
    rw [List.append_assoc v, List.cons_append, cut?_append hv]
    rw [List.append_assoc v, List.cons_append] at hlt
    exact Option.filter_some_pos (decide_eq_true hlt)
  | none =>
    rw [cut?_append_of_not_mem (cut?_eq_none_iff.1 hcut)]
    by_cases heq : last = c
    · subst heq
      have hlt : ¬ byteSize (a ++ body) < byteSize (a ++ (body ++ [last])) - 1 := by
        rw [← List.append_assoc, byteSize_append (a ++ body), byteSize_cons, utf8Size_ascii hc]
        exact Nat.lt_irrefl _
      rw [cut?_cons_self]
      show (some (byteSize (a ++ (body ++ [])))).filter _ = none
      rw [List.append_nil]
      exact Option.filter_some_neg (decide_eq_false hlt)
    · rw [cut?_cons_of_ne heq]
      rfl

/-- A value that has been read in place, and the value read from the text. -/
inductive HasValue (p m : List Char) :
    Except TagError (List Char × List Char) → Option (Except TagError (List Char × Nat)) → Prop
  | error (e : TagError) : HasValue p m (.error e) (some (.error e))
  | ok (v : List Char) {left : List Char} {pos : Nat} (h : Reached p m left pos) :
    HasValue p m (.ok (v, left)) (some (.ok (v, pos)))

theorem HasValue.of_append {p x m : List Char}
    {read : Except TagError (List Char × List Char)}
    {r : Option (Except TagError (List Char × Nat))} (h : HasValue (p ++ x) m read r) :
    HasValue p (x ++ m) read r := by
  cases h with
  | error e => exact .error e
  | ok v h => exact .ok v h.of_append

/-- Reading a value in place up to its last quote, from behind the first quote on. -/
theorem hasValue_readQuoted {c : Char} (hc : c.toNat < 128) (a m init : List Char) (last : Char) :
    HasValue a m (Tag.readQuoted c m (init ++ [last]))
      (match (cut? c (m ++ init)).map fun (v, _) => byteSize (a ++ v) with
      | none => some (.error .unterminatedValue)
      | some close =>
        (slice? (a ++ (m ++ init ++ [last])) (byteSize a) close).bind fun v =>
          some (.ok (v, close + 1))) := by
  rw [Tag.readQuoted, List.dropLast_concat]
  cases hm : cut? c m with
  | some vw =>
    obtain ⟨v, w⟩ := vw
    obtain ⟨rfl, hv⟩ := eq_of_cut? hm
    have hassoc : a ++ (v ++ c :: (w ++ init) ++ [last]) = a ++ v ++ (c :: (w ++ init) ++ [last]) := by
      simp
    have hclose : byteSize (a ++ v) + 1 = byteSize (a ++ (v ++ [c])) := by
      rw [← List.append_assoc, byteSize_append_ascii hc]
    rw [List.append_assoc v, List.cons_append, cut?_append hv, Option.map_some]
    show HasValue _ _ _ ((slice? (a ++ (v ++ c :: (w ++ init) ++ [last])) _ _).bind _)
    rw [hassoc, slice?_append, hclose]
    exact .ok v (.inl ⟨v ++ [c], by simp, rfl⟩)
  | none =>
    rw [cut?_append_of_not_mem (cut?_eq_none_iff.1 hm)]
    cases hinit : cut? c init with
    | none => exact .error _
    | some vw =>
      obtain ⟨v, w⟩ := vw
      obtain ⟨rfl, -⟩ := eq_of_cut? hinit
      have hassoc : a ++ (m ++ (v ++ c :: w) ++ [last]) = a ++ (m ++ v) ++ (c :: w ++ [last]) := by simp
      have hle : byteSize (a ++ m) ≤ byteSize (a ++ (m ++ v)) + 1 := by
        rw [← List.append_assoc, byteSize_append (a ++ m)]
        omega
      show HasValue _ _ (.ok (m ++ v, [])) ((slice? (a ++ (m ++ (v ++ c :: w) ++ [last])) _ _).bind _)
      rw [hassoc, slice?_append]
      exact .ok (m ++ v) (.inr ⟨rfl, hle⟩)

/-- Reading a value in place is reading it. -/
theorem value?_append {beyond : List Char} (hbeyond : beyond ≠ []) (p m : List Char) :
    HasValue p m (Tag.readValue m beyond)
      (value? (p ++ m ++ beyond) (byteSize (p ++ m)) (byteSize p)) := by
  obtain ⟨init, last, rfl⟩ := (List.eq_nil_or_concat beyond).resolve_left hbeyond
  rw [List.concat_eq_append]
  have hsplit : m.takeWhile isBlank ++ skipBlanks m = m := List.takeWhile_append_dropWhile
  rw [value?, skipWhile?_append constant_isBlank, Tag.readValue]
  generalize m.takeWhile isBlank = blanks at hsplit
  generalize skipBlanks m = s at hsplit
  subst hsplit
  rw [← List.append_assoc p]
  apply HasValue.of_append
  generalize p ++ blanks = q
  show HasValue _ _ _ (if byteSize (q ++ s) ≤ byteSize q then _ else _)
  cases s with
  | nil =>
    rw [List.append_nil, if_pos (Nat.le_refl _)]
    exact .ok [] (.inl ⟨[], rfl, by rw [List.append_nil]⟩)
  | cons c rest =>
    obtain ⟨x, hbyte, hx⟩ := exists_getElem?_encode_inner q c rest (init ++ [last])
    rw [if_neg (Nat.not_le_of_lt (byteSize_lt_append_cons q c rest)), hbyte]
    show HasValue _ _ (if Tag.isQuote c = true then _ else _)
      (if Tag.isQuote (asChar x) = true then _ else _)
    rw [constant_isQuote.of_mem_encode hx]
    split
    · next hquote =>
      have hc : c.toNat < 128 := ascii_of_isQuote hquote
      have hassoc : q ++ c :: rest ++ (init ++ [last]) = q ++ [c] ++ (rest ++ init ++ [last]) := by simp
      rw [eq_byteOf hc hx, ← byteSize_append_ascii hc, hassoc, findQuote_append hc]
      exact HasValue.of_append (x := [c]) (hasValue_readQuoted hc (q ++ [c]) rest init last)
    · have hword : (c :: rest).takeWhile (!isBlank ·) ++ (c :: rest).dropWhile (!isBlank ·) = c :: rest :=
        List.takeWhile_append_dropWhile
      rw [skipWhile?_append constant_isBlank.not]
      generalize (c :: rest).takeWhile (!isBlank ·) = word at hword
      generalize (c :: rest).dropWhile (!isBlank ·) = left at hword
      rw [← hword, ← List.append_assoc q, List.append_assoc (q ++ word)]
      show HasValue _ _ _ ((slice? (q ++ word ++ (left ++ (init ++ [last]))) _ _).bind _)
      rw [slice?_append]
      exact .ok word (.inl ⟨word, rfl, rfl⟩)

/-! ## Attributes -/

/-- Past the blanks behind a name, a `=` is found at its place. -/
theorem equals?_append (p tail beyond : List Char) :
    equals? (encode (p ++ tail ++ beyond)) (byteSize (p ++ tail)) (byteSize p) =
      some (if (skipBlanks tail).head? == some '=' then byteSize (p ++ tail.takeWhile isBlank)
        else byteSize p) := by
  cases tail with
  | nil =>
    rw [equals?, List.append_nil, if_pos (Nat.le_refl _)]
    rfl
  | cons c t =>
    obtain ⟨x, hbyte, hx⟩ := exists_getElem?_encode_inner p c t beyond
    rw [equals?, if_neg (Nat.not_le_of_lt (byteSize_lt_append_cons p c t)), hbyte]
    show (if isBlank (asChar x) = true then _ else _) = _
    rw [constant_isBlank.of_mem_encode hx]
    split
    · have hsplit : (c :: t).takeWhile isBlank ++ skipBlanks (c :: t) = c :: t :=
        List.takeWhile_append_dropWhile
      rw [skipWhile?_append constant_isBlank]
      generalize (c :: t).takeWhile isBlank = blanks at hsplit
      generalize skipBlanks (c :: t) = s at hsplit
      rw [← hsplit, ← List.append_assoc]
      show (if byteSize (p ++ blanks ++ s) ≤ byteSize (p ++ blanks) then _ else _) = _
      cases s with
      | nil =>
        rw [List.append_nil, if_pos (Nat.le_refl _)]
        rfl
      | cons d s =>
        obtain ⟨y, hbyte, hy⟩ := exists_getElem?_encode_inner (p ++ blanks) d s beyond
        have hequals : (asChar y == '=') = (d == '=') := (constant_beq (by decide)).of_mem_encode hy
        rw [if_neg (Nat.not_le_of_lt (byteSize_lt_append_cons _ d s)), hbyte]
        show some (if (asChar y == '=') = true then _ else _) = _
        rw [hequals]
        rfl
    · next hc =>
      rw [List.takeWhile_cons_of_neg hc, List.append_nil, ite_self]
      rfl

theorem isEquals?_append (p m beyond : List Char) :
    isEquals? (encode (p ++ m ++ beyond)) (byteSize (p ++ m)) (byteSize p) =
      some (m.head? == some '=') := by
  have htest := testNext?_append (p := (· == '=')) (constant_beq (by decide)) p m beyond
  refine htest.trans ?_
  cases m <;> rfl

theorem extend?_of_le {text : List Char} {stop pos : Nat} (h : stop ≤ pos) (as : Attributes) :
    Attributes.extend? text stop pos as = some (.ok as) := by
  rw [Attributes.extend?, skipWhile?, if_neg (Nat.not_lt_of_le h)]
  exact if_pos h

section Loop

variable (p beyond : List Char) (as : Attributes)

/-- What cannot start a name is passed over. -/
theorem extend?_pass {c : Char} (hc : Tag.isAttributeChar c = false) (m : List Char) :
    Attributes.extend? (p ++ c :: m ++ beyond) (byteSize (p ++ c :: m)) (byteSize p) as =
      Attributes.extend? (p ++ c :: m ++ beyond) (byteSize (p ++ c :: m)) (byteSize (p ++ [c])) as := by
  by_cases hblank : isBlank c = true
  · have hskip : skipWhile? isBlank (encode (p ++ c :: m ++ beyond)) (byteSize (p ++ c :: m))
        (byteSize (p ++ [c])) = some (byteSize (p ++ (c :: m).takeWhile isBlank)) := by
      have hskip := skipWhile?_append constant_isBlank (p ++ [c]) m beyond
      rwa [← List.append_cons, ← List.append_cons, ← List.takeWhile_cons_of_pos hblank] at hskip
    rw [Attributes.extend?, Attributes.extend?, skipWhile?_append constant_isBlank, hskip]
  · have hsplit : splitAt? (byteSize p) (p ++ c :: m ++ beyond) = some (p, c :: m ++ beyond) := by
      rw [List.append_assoc, splitAt?_append]
    rw [Attributes.extend?, skipWhile?_append constant_isBlank, List.takeWhile_cons_of_neg hblank,
      List.append_nil]
    show (if byteSize (p ++ c :: m) ≤ byteSize p then _ else _) = _
    rw [if_neg (Nat.not_le_of_lt (byteSize_lt_append_cons p c m)),
      skipWhile?_append constant_isAttributeChar,
      List.takeWhile_cons_of_neg (Bool.eq_false_iff.1 hc), List.append_nil]
    show (if byteSize p = byteSize p then _ else _) = _
    rw [if_pos rfl, hsplit, byteSize_append p [c]]
    rfl

variable {c : Char} {rest : List Char} (hc : Tag.isAttributeChar c = true)

include hc

/-- The loop from a name on, once it is known whether there is a `=`. -/
theorem extend?_name {run : List Char} {i : Nat} {found : Bool}
    (hrun : (c :: rest).takeWhile Tag.isAttributeChar = run)
    (hi : equals? (encode (p ++ c :: rest ++ beyond)) (byteSize (p ++ c :: rest))
      (byteSize (p ++ run)) = some i)
    (hfound : isEquals? (encode (p ++ c :: rest ++ beyond)) (byteSize (p ++ c :: rest)) i =
      some found) :
    Attributes.extend? (p ++ c :: rest ++ beyond) (byteSize (p ++ c :: rest)) (byteSize p) as =
      if found then
        (value? (p ++ c :: rest ++ beyond) (byteSize (p ++ c :: rest)) (i + 1)).bind fun
          | .error e => some (.error e)
          | .ok (v, pos) => Attributes.extend? (p ++ c :: rest ++ beyond) (byteSize (p ++ c :: rest)) pos
              (as.insert (lower run, v))
      else Attributes.extend? (p ++ c :: rest ++ beyond) (byteSize (p ++ c :: rest)) i
        (as.insert (lower run, [])) := by
  have hblank : ¬ isBlank c = true := by
    intro hblank
    rw [Tag.isAttributeChar_of_isBlank hblank] at hc
    cases hc
  have hlt : byteSize p < byteSize (p ++ run) := by
    rw [← hrun, List.takeWhile_cons_of_pos hc]
    exact byteSize_lt_append_cons p c _
  have hslice : slice? (p ++ c :: rest ++ beyond) (byteSize p) (byteSize (p ++ run)) = some run := by
    have hsplit : c :: rest = run ++ (c :: rest).dropWhile Tag.isAttributeChar := by
      rw [← hrun, List.takeWhile_append_dropWhile]
    rw [hsplit, ← List.append_assoc p, List.append_assoc (p ++ run), slice?_append]
  rw [Attributes.extend?, skipWhile?_append constant_isBlank, List.takeWhile_cons_of_neg hblank,
    List.append_nil]
  show (if byteSize (p ++ c :: rest) ≤ byteSize p then _ else _) = _
  rw [if_neg (Nat.not_le_of_lt (byteSize_lt_append_cons p c rest)),
    skipWhile?_append constant_isAttributeChar, hrun]
  show (if byteSize (p ++ run) = byteSize p then _ else (slice? _ _ _).bind _) = _
  rw [if_neg (Nat.ne_of_gt hlt), hslice, hi]
  show (isEquals? _ _ _).bind _ = _
  rw [hfound]
  rfl

/-- A name without a `=` has no value. -/
theorem extend?_bare
    (hne : ∀ t, skipBlanks (rest.dropWhile Tag.isAttributeChar) = '=' :: t → False) :
    Attributes.extend? (p ++ c :: rest ++ beyond) (byteSize (p ++ c :: rest)) (byteSize p) as =
      Attributes.extend? (p ++ c :: rest ++ beyond) (byteSize (p ++ c :: rest))
        (byteSize (p ++ c :: rest.takeWhile Tag.isAttributeChar))
        (as.insert (lower (c :: rest.takeWhile Tag.isAttributeChar), [])) := by
  have hsplit : p ++ c :: rest = p ++ c :: rest.takeWhile Tag.isAttributeChar ++
      rest.dropWhile Tag.isAttributeChar := by
    rw [List.append_assoc, List.cons_append, List.takeWhile_append_dropWhile]
  have hskipped : ¬ ((skipBlanks (rest.dropWhile Tag.isAttributeChar)).head? == some '=') = true := by
    intro hhead
    obtain ⟨t, ht⟩ := List.head?_eq_some_iff.1 (beq_iff_eq.1 hhead)
    exact hne t ht
  have hhead : ((rest.dropWhile Tag.isAttributeChar).head? == some '=') = false := by
    apply Bool.eq_false_iff.2
    intro hhead
    obtain ⟨t, ht⟩ := List.head?_eq_some_iff.1 (beq_iff_eq.1 hhead)
    rw [ht] at hne
    exact hne t rfl
  have hi := equals?_append (p ++ c :: rest.takeWhile Tag.isAttributeChar)
    (rest.dropWhile Tag.isAttributeChar) beyond
  have hfound := isEquals?_append (p ++ c :: rest.takeWhile Tag.isAttributeChar)
    (rest.dropWhile Tag.isAttributeChar) beyond
  rw [← hsplit, if_neg hskipped] at hi
  rw [← hsplit, hhead] at hfound
  exact extend?_name p beyond as hc (List.takeWhile_cons_of_pos hc) hi hfound

/-- The value of a name is read from behind its `=` on. -/
theorem extend?_valued {t : List Char}
    (ht : skipBlanks (rest.dropWhile Tag.isAttributeChar) = '=' :: t) :
    ∃ x, c :: rest = x ++ t ∧
      Attributes.extend? (p ++ c :: rest ++ beyond) (byteSize (p ++ c :: rest)) (byteSize p) as =
        (value? (p ++ c :: rest ++ beyond) (byteSize (p ++ c :: rest)) (byteSize (p ++ x))).bind fun
          | .error e => some (.error e)
          | .ok (v, pos) => Attributes.extend? (p ++ c :: rest ++ beyond) (byteSize (p ++ c :: rest)) pos
              (as.insert (lower (c :: rest.takeWhile Tag.isAttributeChar), v)) := by
  have hsplit : p ++ c :: rest = p ++ c :: rest.takeWhile Tag.isAttributeChar ++
      rest.dropWhile Tag.isAttributeChar := by
    rw [List.append_assoc, List.cons_append, List.takeWhile_append_dropWhile]
  have hblanks : (rest.dropWhile Tag.isAttributeChar).takeWhile isBlank ++ '=' :: t =
      rest.dropWhile Tag.isAttributeChar := by
    rw [← ht]
    exact List.takeWhile_append_dropWhile
  have hi := equals?_append (p ++ c :: rest.takeWhile Tag.isAttributeChar)
    (rest.dropWhile Tag.isAttributeChar) beyond
  have hfound := isEquals?_append (p ++ c :: rest.takeWhile Tag.isAttributeChar ++
    (rest.dropWhile Tag.isAttributeChar).takeWhile isBlank) ('=' :: t) beyond
  rw [← hsplit, ht, if_pos (by rfl)] at hi
  rw [List.append_assoc (p ++ _), hblanks, ← hsplit] at hfound
  have hloop := extend?_name p beyond as hc (List.takeWhile_cons_of_pos hc) hi hfound
  generalize (rest.dropWhile Tag.isAttributeChar).takeWhile isBlank = blanks at *
  have hplace : byteSize (p ++ c :: rest.takeWhile Tag.isAttributeChar ++ blanks) + 1 =
      byteSize (p ++ (c :: rest.takeWhile Tag.isAttributeChar ++ (blanks ++ ['=']))) := by
    rw [← byteSize_append_ascii (c := '=') (by decide)]
    simp only [List.append_assoc]
  rw [hplace] at hloop
  refine ⟨_, ?_, hloop⟩
  rw [List.append_assoc, List.append_assoc, List.singleton_append, hblanks, List.cons_append,
    List.takeWhile_append_dropWhile]

end Loop

/-- The attributes of `m`, put into those read before. -/
def attributesFrom (beyond m : List Char) (as : Attributes) : Except TagError Attributes :=
  (Tag.readAttributes beyond m).map (·.foldl Attributes.insert as)

theorem attributesFrom_cons (beyond m : List Char) (as : Attributes) (a : Attribute) :
    ((Tag.readAttributes beyond m).map (a :: ·)).map (·.foldl Attributes.insert as) =
      attributesFrom beyond m (as.insert a) := by
  unfold attributesFrom
  cases Tag.readAttributes beyond m <;> rfl

theorem extend?_of_reached {p m beyond left : List Char} {pos : Nat}
    (h : Reached p m left pos) (as : Attributes)
    (hleft : ∀ q, Attributes.extend? (q ++ left ++ beyond) (byteSize (q ++ left)) (byteSize q) as =
      some (attributesFrom beyond left as)) :
    Attributes.extend? (p ++ m ++ beyond) (byteSize (p ++ m)) pos as =
      some (attributesFrom beyond left as) := by
  rcases h with ⟨x, rfl, rfl⟩ | ⟨rfl, hle⟩
  · rw [← List.append_assoc, hleft]
  · rw [extend?_of_le hle, attributesFrom, Tag.readAttributes]
    rfl

/-- Reading attributes in place is reading them. -/
theorem extend?_append {beyond : List Char} (hbeyond : beyond ≠ []) (p m : List Char)
    (as : Attributes) :
    Attributes.extend? (p ++ m ++ beyond) (byteSize (p ++ m)) (byteSize p) as =
      some (attributesFrom beyond m as) := by
  rw [attributesFrom]
  fun_induction Tag.readAttributes beyond m generalizing p as with
  | case1 =>
    rw [List.append_nil, extend?_of_le (Nat.le_refl _)]
    rfl
  | case2 c rest hc name tail t ht v left hvalue ih =>
    obtain ⟨x, hx, hloop⟩ := extend?_valued p beyond as hc ht
    have hval := value?_append hbeyond (p ++ x) t
    rw [hvalue] at hval
    rw [hloop, hx, ← List.append_assoc p, attributesFrom_cons]
    generalize value? _ _ _ = r at hval ⊢
    cases hval with
    | ok v h => exact extend?_of_reached h _ fun q => ih q _
  | case3 c rest hc tail t ht e hvalue =>
    obtain ⟨x, hx, hloop⟩ := extend?_valued p beyond as hc ht
    have hval := value?_append hbeyond (p ++ x) t
    rw [hvalue] at hval
    rw [hloop, hx, ← List.append_assoc p]
    generalize value? _ _ _ = r at hval ⊢
    cases hval with
    | error e => rfl
  | case4 c rest hc name tail hne ih =>
    have hsplit : c :: rest = c :: rest.takeWhile Tag.isAttributeChar ++ tail := by
      rw [List.cons_append, List.takeWhile_append_dropWhile]
    rw [extend?_bare p beyond as hc hne]
    rw [hsplit, ← List.append_assoc p, ih, attributesFrom_cons]
    rfl
  | case5 c rest hc ih =>
    rw [extend?_pass p beyond as (Bool.eq_false_iff.2 hc), List.append_cons, ih]

/-! ## Tags -/

/-- The `>` that ends a tag is found behind the interior of the tag. -/
theorem tagEnd?_cons (extent : Tag.Extent) {s : List Char} (hs : s ≠ []) :
    tagEnd? extent (encode ('<' :: s)) =
      some ((Tag.interior? extent s).map fun (inner, _) => byteSize ('<' :: inner)) := by
  cases extent with
  | whole =>
    obtain ⟨init, last, rfl⟩ := (List.eq_nil_or_concat s).resolve_left hs
    rw [List.concat_eq_append]
    obtain ⟨bs, x, hbytes, hx⟩ := exists_encode_concat ('<' :: init) last
    have hlast : (asChar x == '>') = (last == '>') := (constant_beq (by decide)).of_mem_encode hx
    have hbyte : (encode ('<' :: (init ++ [last])))[(encode ('<' :: (init ++ [last]))).length - 1]? =
        some x := by
      rw [← List.cons_append, hbytes, List.length_append]
      exact getElem?_append_length bs x []
    show ((encode ('<' :: (init ++ [last])))[_]?).bind _ = _
    rw [hbyte, Tag.interior?, List.getLast?_concat, List.dropLast_concat]
    show some (if (asChar x == '>') = true then _ else _) = _
    rw [hlast]
    split
    · next hclose =>
      obtain rfl := beq_iff_eq.1 hclose
      rw [if_pos (by rfl), ← List.cons_append, length_encode, byteSize_append_ascii (by decide)]
      rfl
    · next hclose =>
      rw [if_neg (by simpa using hclose)]
      rfl
  | leading =>
    have hfind := findByte?_append (c := '>') (by decide) ['<'] s
    show some (findByte? (byteOf '>') (encode (['<'] ++ s)) (byteSize ['<'])) = _
    rw [hfind, Tag.interior?, Option.map_map]
    rfl

/-- A `/` in front of the end of a tag is seen in the bytes. -/
theorem selfClosing?_append (inner beyond : List Char) :
    selfClosing? (encode ('<' :: inner ++ beyond)) (byteSize ('<' :: inner)) =
      some (inner.getLast? == some '/') := by
  rcases List.eq_nil_or_concat inner with rfl | ⟨init, last, rfl⟩
  · exact if_pos (Nat.le_refl 1)
  · rw [List.concat_eq_append]
    obtain ⟨bs, x, hbytes, hx⟩ := exists_encode_concat ('<' :: init) last
    have hslash : (asChar x == '/') = (last == '/') := (constant_beq (by decide)).of_mem_encode hx
    have hlen : byteSize ('<' :: (init ++ [last])) = bs.length + 1 := by
      rw [← length_encode, ← List.cons_append, hbytes, List.length_append]
      rfl
    have hbyte : (encode ('<' :: (init ++ [last]) ++ beyond))[bs.length]? = some x := by
      rw [encode_append, ← List.cons_append, hbytes, List.append_assoc]
      exact getElem?_append_length bs x _
    have hgt : ¬ byteSize ('<' :: (init ++ [last])) ≤ 1 := by
      have hlt := byteSize_lt_append_cons ('<' :: init) last []
      have hone : 1 ≤ byteSize ('<' :: init) := Nat.le_add_right 1 _
      rw [← List.cons_append]
      omega
    rw [selfClosing?, if_neg hgt, hlen, Nat.add_sub_cancel, hbyte, List.getLast?_concat]
    show some (asChar x == '/') = some (some last == some '/')
    rw [hslash]
    rfl

theorem runsOn?_append (p m beyond : List Char) :
    runsOn? (encode (p ++ m ++ beyond)) (byteSize (p ++ m)) (byteSize p) =
      some (!m.head?.all isBlank) := by
  refine (testNext?_append constant_isBlank.not p m beyond).trans ?_
  cases m <;> rfl

/-- Reading the interior of a tag in place is reading it. -/
theorem interior?_append {beyond : List Char} (hbeyond : beyond ≠ []) (m : List Char) (b : Bool) :
    interior? ('<' :: m ++ beyond) b (byteSize ('<' :: m)) =
      some (if (m.takeWhile isNameChar).isEmpty then .error .emptyName
        else if !(m.takeWhile isNameChar).head?.any isNameStart then .error .invalidName
        else if !(m.dropWhile isNameChar).head?.all isBlank then .error .invalidName
        else (Tag.readAttributes beyond (m.dropWhile isNameChar)).map fun as =>
          ⟨lower (m.takeWhile isNameChar), b, Attributes.ofList as⟩) := by
  have hsplit : m.takeWhile isNameChar ++ m.dropWhile isNameChar = m :=
    List.takeWhile_append_dropWhile
  show (skipWhile? isNameChar (encode (['<'] ++ m ++ beyond)) (byteSize (['<'] ++ m))
    (byteSize ['<'])).bind _ = _
  rw [skipWhile?_append constant_isNameChar]
  generalize m.takeWhile isNameChar = run at hsplit
  generalize m.dropWhile isNameChar = rest at hsplit
  subst hsplit
  show (if byteSize (['<'] ++ run) = byteSize ['<'] then _ else _) = _
  cases run with
  | nil => rfl
  | cons c r =>
    obtain ⟨x, hbyte, hx⟩ := exists_getElem?_encode_inner ['<'] c (r ++ rest) beyond
    have hstart : isNameStart (asChar x) = isNameStart c := constant_isNameStart.of_mem_encode hx
    rw [if_neg (Nat.ne_of_gt (byteSize_lt_append_cons ['<'] c r))]
    show ((encode (['<'] ++ c :: (r ++ rest) ++ beyond))[byteSize ['<']]?).bind _ = _
    rw [hbyte]
    show (if (!isNameStart (asChar x)) = true then _ else _) =
      some (if (!isNameStart c) = true then _ else _)
    rw [hstart]
    split
    · rfl
    · have hruns := runsOn?_append (['<'] ++ c :: r) rest beyond
      have hslice := slice?_append ['<'] (c :: r) (rest ++ beyond)
      have hloop := extend?_append hbeyond (['<'] ++ c :: r) rest .empty
      rw [← List.append_assoc] at hslice
      show (runsOn? (encode (['<'] ++ c :: r ++ rest ++ beyond)) (byteSize (['<'] ++ c :: r ++ rest))
        (byteSize (['<'] ++ c :: r))).bind _ = _
      rw [hruns]
      show (if (!rest.head?.all isBlank) = true then _
        else (slice? (['<'] ++ c :: r ++ rest ++ beyond) (byteSize ['<'])
          (byteSize (['<'] ++ c :: r))).bind _) = _
      rw [hslice]
      split
      · rfl
      · show (Attributes.extend? (['<'] ++ c :: r ++ rest ++ beyond) (byteSize (['<'] ++ c :: r ++ rest))
          (byteSize (['<'] ++ c :: r)) .empty).bind _ = _
        rw [hloop, attributesFrom]
        cases Tag.readAttributes beyond rest <;> rfl

/-- The same up to a `/` in front of the end of the tag. -/
theorem interior?_eq_ofInterior {beyond : List Char} (hbeyond : beyond ≠ []) (inner : List Char) :
    interior? ('<' :: inner ++ beyond) (inner.getLast? == some '/')
        (if inner.getLast? == some '/' then byteSize ('<' :: inner) - 1
          else byteSize ('<' :: inner)) =
      some (Tag.ofInterior inner beyond) := by
  by_cases hslash : (inner.getLast? == some '/') = true
  · obtain ⟨init, rfl⟩ := List.getLast?_eq_some_iff.1 (beq_iff_eq.1 hslash)
    have hstop : byteSize ('<' :: (init ++ ['/'])) - 1 = byteSize ('<' :: init) := by
      rw [← List.cons_append, byteSize_append_ascii (by decide), Nat.add_sub_cancel]
    have hinterior := interior?_append (List.cons_ne_nil '/' beyond) init true
    rw [Tag.ofInterior, hslash, if_pos rfl, hstop, ← List.cons_append, ← List.append_cons, hinterior]
    simp only [if_true, List.dropLast_concat]
  · have hinterior := interior?_append hbeyond inner false
    rw [Tag.ofInterior, Bool.eq_false_iff.2 hslash, if_neg Bool.false_ne_true, hinterior]
    rfl

theorem append_of_interior? {extent : Tag.Extent} {s inner beyond : List Char}
    (h : Tag.interior? extent s = some (inner, beyond)) : s = inner ++ beyond ∧ beyond ≠ [] := by
  cases extent with
  | whole =>
    rw [Tag.interior?] at h
    split at h
    · next hlast =>
      obtain ⟨init, rfl⟩ := List.getLast?_eq_some_iff.1 (beq_iff_eq.1 hlast)
      rw [List.dropLast_concat] at h
      cases h
      exact ⟨rfl, List.cons_ne_nil _ _⟩
    · cases h
  | leading =>
    obtain ⟨⟨x, y⟩, hcut, heq⟩ := Option.map_eq_some_iff.1 h
    cases heq
    exact ⟨(eq_of_cut? hcut).1, List.cons_ne_nil _ _⟩

/-- Reading a tag in place is reading it. -/
theorem parse?_eq_parse (extent : Tag.Extent) (text : List Char) :
    parse? extent text = some (Tag.parse extent text) := by
  unfold parse? Tag.parse
  show (if (encode text).length < 3 then _ else _) = _
  rw [length_encode]
  split
  · rfl
  · next hlong =>
    cases text with
    | nil => exact absurd (by decide) hlong
    | cons c s =>
      obtain ⟨x, hbyte, hx⟩ := exists_getElem?_encode [] c s
      have hopen : (asChar x == '<') = (c == '<') := (constant_beq (by decide)).of_mem_encode hx
      show ((encode ([] ++ c :: s))[byteSize []]?).bind _ = _
      rw [hbyte]
      show (if (!(asChar x == '<')) = true then _ else _) = _
      rw [hopen]
      by_cases hc : c = '<'
      · subst hc
        have hs : s ≠ [] := by
          rintro rfl
          exact hlong (by decide)
        rw [if_neg (by decide)]
        show (tagEnd? extent (encode ('<' :: s))).bind _ = _
        rw [tagEnd?_cons extent hs]
        cases hinterior : Tag.interior? extent s with
        | none =>
          simp only [hinterior]
          rfl
        | some ib =>
          obtain ⟨inner, beyond⟩ := ib
          obtain ⟨rfl, hbeyond⟩ := append_of_interior? hinterior
          simp only [hinterior]
          rw [← interior?_eq_ofInterior hbeyond]
          show (selfClosing? (encode ('<' :: inner ++ beyond)) (byteSize ('<' :: inner))).bind _ = _
          rw [selfClosing?_append]
          rfl
      · rw [if_pos (by simpa using hc)]
        split
        · next heq =>
          cases heq
          exact absurd rfl hc
        · rfl

end HtmlMarkdown.InPlace
