import HtmlMarkdown.Tag.Declaration
import HtmlMarkdown.Tag.Parser
import HtmlMarkdown.Token

/-!
# The tokens of a text

`Token.next?` reads the first token of a text and gives back the text after it, which is shorter.
There is none at the end of the text, nor where a construct in brackets is cut off by the end of the
text; `tokens` stops there.  Links are tokens of their own in Markdown only.
-/

namespace HtmlMarkdown

namespace Token

open Text

/-- The text after the end tag of an element without text; nothing if there is no end tag. -/
def afterRawText (kind : RawText) (s : List Char) : List Char :=
  match locate? sameLetter (['<', '/'] ++ kind.name) s with
  | none => []
  | some (_, stop) =>
    match cut? '>' stop with
    | none => []
    | some (_, rest) => rest

/-- Whether a text goes on, after blanks, with the start tag of a block with quotable breaks. -/
def quotableAhead (s : List Char) : Bool :=
  match skipBlanks s with
  | '<' :: t =>
    match cut? '>' t with
    | none => false
    | some (inner, _) =>
      match Tag.parse .whole ('<' :: inner ++ ['>']) with
      | .ok tag => (Element.ofName tag.name).spacing?.any (·.quotable)
      | .error _ => false
  | _ => false

/-- The token of a start tag, where `s` follows its `<` and `after` its `>`. -/
def ofStartTag (mode : Mode) (e : Element) (s after : List Char) : Token × List Char :=
  match e with
  | .raw kind => (.rawText kind, afterRawText kind after)
  | .anchor =>
    match mode, Link.read? ('<' :: s) with
    | .markdown, some (l, rest) => (.link l, rest)
    | _, _ => (.startTag .anchor false, after)
  | .quotation => (.startTag .quotation (quotableAhead after), after)
  | e => (.startTag e false, after)

/-- Reads the construct whose `<` stands before `s`. -/
def markup? (mode : Mode) (s : List Char) : Option (Token × List Char) :=
  match s with
  | '!' :: _ => (Declaration.after? ('<' :: s)).map (.declaration, ·)
  | '/' :: t =>
    match TagName.scan t with
    | .named name after => some (.endTag (.ofName name), after)
    | .nameless after => some (.nameless, after)
    | .unclosed => none
  | _ =>
    match TagName.scan s with
    | .named name after => some (ofStartTag mode (.ofName name) s after)
    | .nameless after => some (.nameless, after)
    | .unclosed => none

/-- Reads the first token of a text. -/
def next? (mode : Mode) : List Char → Option (Token × List Char)
  | [] => none
  | c :: s =>
    if c == '<' then markup? mode s
    else some (if isBlank c then .blank else .char c, s)

/-! ## What is left of the text -/

theorem suffix_afterRawText (kind : RawText) (s : List Char) : afterRawText kind s <:+ s := by
  unfold afterRawText
  split
  · exact List.nil_suffix
  · next stop h =>
    split
    · exact List.nil_suffix
    · next hcut =>
      exact (List.suffix_cons _ _).trans ((suffix_of_cut? hcut).trans (suffix_of_locate? h))

theorem suffix_ofStartTag (mode : Mode) (e : Element) {s after : List Char} (h : after <:+ s) :
    (ofStartTag mode e s after).2 <:+ s := by
  unfold ofStartTag
  split
  · exact (suffix_afterRawText ..).trans h
  · split
    · next hl => exact suffix_of_length_lt (Link.suffix_of_read? hl) (Link.length_of_read? hl)
    · exact h
  · exact h
  · exact h

theorem suffix_of_markup? {mode : Mode} {s rest : List Char} {t : Token}
    (h : markup? mode s = some (t, rest)) : rest <:+ s := by
  unfold markup? at h
  split at h
  · obtain ⟨r, hr, he⟩ := Option.map_eq_some_iff.1 h
    cases he
    exact suffix_of_length_lt (Declaration.suffix_of_after? hr) (Declaration.length_of_after? hr)
  · split at h
    · next hs =>
      cases h
      exact (TagName.suffix_of_scan_named hs).trans (List.suffix_cons _ _)
    · next hs =>
      cases h
      exact (TagName.suffix_of_scan_nameless hs).trans (List.suffix_cons _ _)
    · simp at h
  · split at h
    · next name after hs =>
      have := suffix_ofStartTag mode (.ofName name) (TagName.suffix_of_scan_named hs)
      rw [Option.some.inj h] at this
      exact this
    · next hs =>
      cases h
      exact TagName.suffix_of_scan_nameless hs
    · simp at h

/-- What a token leaves of a text is the end of it, without the first character. -/
theorem suffix_of_next? {mode : Mode} {c : Char} {s rest : List Char} {t : Token}
    (h : next? mode (c :: s) = some (t, rest)) : rest <:+ s := by
  simp only [next?] at h
  split at h
  · exact suffix_of_markup? h
  · cases h
    exact List.suffix_refl s

theorem length_of_next? {mode : Mode} {s rest : List Char} {t : Token}
    (h : next? mode s = some (t, rest)) : rest.length < s.length := by
  cases s with
  | nil => simp [next?] at h
  | cons c s => exact Nat.lt_succ_of_le (suffix_of_next? h).length_le

end Token

/-- The tokens of a text, up to a construct that is cut off by its end. -/
def tokens (mode : Mode) (s : List Char) : List Token :=
  match _ : Token.next? mode s with
  | none => []
  | some (t, rest) => t :: tokens mode rest
termination_by s.length
decreasing_by exact Token.length_of_next? ‹_›

theorem tokens_of_next?_eq_none {mode : Mode} {s : List Char} (h : Token.next? mode s = none) :
    tokens mode s = [] := by
  rw [tokens]
  split <;> simp_all

theorem tokens_of_next?_eq_some {mode : Mode} {s rest : List Char} {t : Token}
    (h : Token.next? mode s = some (t, rest)) : tokens mode s = t :: tokens mode rest := by
  rw [tokens]
  split <;> simp_all

end HtmlMarkdown
