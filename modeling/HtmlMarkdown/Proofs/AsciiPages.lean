import HtmlMarkdown.Convert
import HtmlMarkdown.Proofs.Text.Encoded

/-!
# Pages in ASCII

Nearly all encodings extend ASCII.  A page whose bytes stand for ASCII characters in the encoding
that is detected is converted like the text of these characters, so that it does not matter which of
these encodings it names, nor what reads the East Asian ones (`convertBytes_plain`).
-/

namespace HtmlMarkdown

open InPlace

namespace Encoding

/-- Whether a byte stands for an ASCII character, if all bytes before it do. -/
def isPlain : Encoding → UInt8 → Bool
  | utf8, b | singleByte _, b | userDefined, b => b.toNat < 0x80
  | utf16 _, _ | replacement, _ => false
  | eastAsian e, b => e.isPlain b

variable {e : Encoding} {bs : List UInt8}

theorem lt_of_isPlain {b : UInt8} (h : e.isPlain b = true) : b.toNat < 0x80 := by
  cases e with
  | utf8 | singleByte _ | userDefined => exact of_decide_eq_true h
  | utf16 _ | replacement => cases h
  | eastAsian e => exact of_decide_eq_true (Bool.and_eq_true_iff.1 h).1

theorem codePage_decode?_ascii (page : CodePage) (h : ∀ b ∈ bs, b.toNat < 0x80) :
    page.decode? bs = some (bs.map asChar) := by
  unfold CodePage.decode?
  induction bs with
  | nil => rfl
  | cons b bs ih =>
    rw [List.forall_mem_cons] at h
    rw [List.mapM_cons, CodePage.char?, if_pos h.1, ih h.2]
    rfl

theorem decodeUserDefined_ascii (h : ∀ b ∈ bs, b.toNat < 0x80) :
    decodeUserDefined bs = bs.map asChar :=
  List.map_congr_left fun b hb => by rw [if_pos (h b hb), asChar]

/-- The law of the readers holds of all encodings. -/
theorem decode?_plain (reader : EastAsian.Reader) (h : ∀ b ∈ bs, e.isPlain b = true) :
    e.decode? reader bs = some (bs.map asChar) := by
  have hascii : ∀ b ∈ bs, b.toNat < 0x80 := fun b hb => lt_of_isPlain (h b hb)
  cases e with
  | utf8 =>
    rw [decode?, Utf8.decode_ascii hascii]
    rfl
  | singleByte page => exact codePage_decode?_ascii page hascii
  | userDefined => exact congrArg some (decodeUserDefined_ascii hascii)
  | eastAsian e => exact reader.decode?_plain e bs h
  | utf16 _ | replacement =>
    obtain rfl : bs = [] := List.eq_nil_iff_forall_not_mem.2 fun b hb => by cases h b hb
    rfl

end Encoding

theorem Charset.decode_plain {charset : List Char} {e : Encoding} {page : List UInt8}
    (he : Encoding.ofLabel? charset = some e) (h : ∀ b ∈ page, e.isPlain b = true)
    (reader : EastAsian.Reader) : decode page charset reader = .ok (page.map asChar) := by
  unfold decode
  split
  · rw [Utf8.decode_ascii fun b hb => Encoding.lt_of_isPlain (h b hb)]
  · rw [he]
    simp only [Encoding.decode?_plain reader h]

/--
A page of bytes that stand for ASCII characters in its encoding is converted like the text of these
characters.
-/
theorem convertBytes_plain {contentType : Option String} {page : List UInt8} {e : Encoding}
    (hpage : page ≠ [])
    (he : Encoding.ofLabel? (Charset.detect (contentType.map String.toList) page) = some e)
    (h : ∀ b ∈ page, e.isPlain b = true) (o : Options) (reader : EastAsian.Reader) :
    convertBytes o contentType page reader = .ok (convert o (String.ofList (page.map asChar))) := by
  have hempty : page.isEmpty = false := by simpa using hpage
  rw [convertBytes, hempty]
  simp only [Charset.decode_plain he h, convert, String.toList_ofList]
  rfl

example : (convertBytes {} (some "charset=EUC-KR") (Utf8.encode "<b>a</b>".toList)).toOption =
    some "**a**" := by
  decide +kernel

end HtmlMarkdown
