import HtmlMarkdown.Convert
import HtmlMarkdown.Proofs.TagForm
import HtmlMarkdown.Proofs.Text.Encoded

/-!
# Pages that come as UTF-8

A content type that says UTF-8, in any letter case, settles the charset, whatever the page says;
without a content type the page has to name no charset (`ComesAsUtf8`).  The bytes of a text are
then converted like the text itself.

All other bytes are refused, and the error says how many bytes in front of the fault are
well-formed (`convertBytes_utf8`).  This is the longest stretch of this kind that the page starts
with.
-/

namespace HtmlMarkdown

open Text

namespace Charset

/-- The content type says UTF-8, or there is none and the page does not name a charset. -/
def ComesAsUtf8 (contentType : Option String) (page : List UInt8) : Prop :=
  (∃ t charset, contentType = some t ∧ ContentType.charset? t.toList = some charset ∧
    lower charset = "utf-8".toList) ∨
  contentType = none ∧ Meta.charset? page = none

/-- A name that is ASCII in small letters is ASCII, and so are its capitals. -/
theorem upper_eq_map_lower {charset : List Char} (h : ∀ c ∈ lower charset, c.toNat < 128) :
    upper charset = (lower charset).map Char.toUpper := by
  have hascii : ∀ c ∈ charset, c.toNat < 0x80 := by
    intro c hc
    rcases Nat.lt_or_ge c.toNat 128 with hlt | hge
    · exact hlt
    · exact InPlace.toLower_beyond hge ▸ h c.toLower (List.mem_map_of_mem hc)
  have hupper : ∀ c ∈ charset, c.toUpper = c.toLower.toUpper := fun c hc =>
    forall_ascii (P := fun c => c.toUpper = c.toLower.toUpper) (by decide) (hascii c hc)
  rw [upper_of_ascii hascii, lower, List.map_map]
  exact List.map_congr_left hupper

theorem ComesAsUtf8.detect_eq {contentType : Option String} {page : List UInt8}
    (h : ComesAsUtf8 contentType page) :
    detect (contentType.map String.toList) page = default := by
  obtain ⟨t, charset, rfl, hcharset, hlower⟩ | ⟨rfl, hpage⟩ := h
  · have hupper : upper charset = default := by
      rw [upper_eq_map_lower (hlower ▸ InPlace.ascii_of_all (by decide)), hlower]
      decide
    simp [detect, named?, hcharset, normalize, hupper]
  · simp [detect, named?, hpage]

theorem decode_default (page : List UInt8) (reader : EastAsian.Reader) :
    decode page default reader = (Utf8.decode page).mapError (.invalidUtf8 · default) := by
  have hdefault : isDefault default = true := by decide
  rw [decode, if_pos hdefault]
  cases Utf8.decode page <;> rfl

end Charset

theorem message_invalidUtf8 (fault : Utf8.Fault) :
    (ConversionError.invalidUtf8 fault Charset.default).message =
      "Encoding error: Invalid UTF-8 at byte position " ++ toString fault.position ++ ": " ++
        fault.message ++ " (detected charset: UTF-8)" := by
  have hcause : (ConversionError.invalidUtf8 fault Charset.default).cause =
      "Invalid UTF-8 at byte position " ++ toString fault.position ++ ": " ++ fault.message ++
        " " ++ ("(detected charset: " ++ String.ofList Charset.default ++ ")") := rfl
  rw [Charset.default, String.ofList_toList, ← Charset.default] at hcause
  have hstart : "Encoding error: Invalid UTF-8 at byte position " =
      "Encoding error: " ++ "Invalid UTF-8 at byte position " := rfl
  have hend : " (detected charset: UTF-8)" = " " ++ ("(detected charset: " ++ ("UTF-8" ++ ")")) :=
    rfl
  rw [hstart, hend]
  simp only [ConversionError.message, ConversionError.kind, hcause, String.append_assoc]

theorem convertBytes_of_comesAsUtf8 {contentType : Option String} {page : List UInt8}
    (hpage : page ≠ []) (h : Charset.ComesAsUtf8 contentType page) (o : Options)
    (reader : EastAsian.Reader) :
    convertBytes o contentType page reader =
      ((Utf8.decode page).mapError (.invalidUtf8 · Charset.default)).map
        fun text => convert o (String.ofList text) := by
  have hempty : page.isEmpty = false := by simpa using hpage
  rw [convertBytes, hempty]
  simp only [h.detect_eq, Charset.decode_default, convert, String.toList_ofList]
  rfl

/--
A page that comes as UTF-8 is converted like the text that its bytes encode, whatever reads the East
Asian encodings.  If they encode none, there is only an error, with the length of the longest encoded
text that the page starts with.
-/
theorem convertBytes_utf8 {contentType : Option String} {page : List UInt8} (hpage : page ≠ [])
    (h : Charset.ComesAsUtf8 contentType page) (o : Options) (reader : EastAsian.Reader) :
    (∀ s : String, page = Utf8.encode s.toList →
      convertBytes o contentType page reader = .ok (convert o s)) ∧
    ((∀ s : String, page ≠ Utf8.encode s.toList) →
      ∃ n size? e, convertBytes o contentType page reader = .error e ∧
        e = .invalidUtf8 ⟨n, size?⟩ Charset.default ∧ e.kind.code = 2 ∧
        e.message = "Encoding error: Invalid UTF-8 at byte position " ++ toString n ++ ": " ++
          Utf8.Fault.message ⟨n, size?⟩ ++ " (detected charset: UTF-8)" ∧
        IsGreatest {k | ∃ s : String, Utf8.encode s.toList <+: page ∧
          (Utf8.encode s.toList).length = k} n) := by
  rw [convertBytes_of_comesAsUtf8 hpage h]
  constructor
  · rintro s rfl
    rw [Utf8.decode_encode, Except.mapError, Except.map, String.ofList_toList]
  · intro hnone
    have hnone' : ∀ s, page ≠ Utf8.encode s := fun s => by
      simpa using hnone (String.ofList s)
    obtain ⟨n, size?, hfault, ⟨s, hs⟩, hmax⟩ := Utf8.decode_fault hnone'
    refine ⟨n, size?, _, ?_, rfl, rfl, message_invalidUtf8 _, ⟨String.ofList s, ?_⟩, ?_⟩
    · rw [hfault]
      rfl
    · rwa [String.toList_ofList]
    · rintro k ⟨t, ht⟩
      exact hmax ⟨t.toList, ht⟩

/-- A page that names another charset, and half of a surrogate pair behind its text. -/
theorem convertBytes_utf8_surrogate :
    let contentType := some "text/html; charset='Utf-8'"
    let text := Utf8.encode "<meta charset=big5>é".toList
    convertBytes {} contentType text = .ok (convert {} "<meta charset=big5>é") ∧
      IsGreatest {k | ∃ s : String, Utf8.encode s.toList <+: text ++ [0xED, 0xA0, 0x80] ∧
        (Utf8.encode s.toList).length = k} 21 := by
  intro contentType text
  have hcomes : ∀ page, Charset.ComesAsUtf8 contentType page := fun page =>
    .inl ⟨_, "Utf-8".toList, rfl, by decide +kernel, by decide⟩
  have hfault : convertBytes {} contentType (text ++ [0xED, 0xA0, 0x80]) =
      .error (.invalidUtf8 ⟨21, some 1⟩ Charset.default) := by decide +kernel
  refine ⟨(convertBytes_utf8 (by decide) (hcomes text) {} .ascii).1 _ rfl, ?_⟩
  obtain ⟨n, size?, e, herror, rfl, -, -, hgreatest⟩ :=
    (convertBytes_utf8 (by decide) (hcomes (text ++ [0xED, 0xA0, 0x80])) {} .ascii).2 fun s hs => by
      cases hfault.symm.trans ((convertBytes_utf8 (by decide) (hcomes _) {} .ascii).1 s hs)
  cases hfault.symm.trans herror
  exact hgreatest

end HtmlMarkdown
