/-!
# East Asian encodings

The encodings of web pages whose characters take one or more bytes.  Their tables of thousands of
characters are not part of this library: whoever converts pages in these encodings passes in an
`EastAsian.Reader`.  All that is relied on is that a reader takes ASCII for what it is.
-/

namespace HtmlMarkdown

/-- An encoding whose characters take one or more bytes. -/
inductive EastAsian where
  | big5
  | eucJp
  | eucKr
  | gbk
  | gb18030
  | iso2022Jp
  | shiftJis
  deriving DecidableEq, Repr

namespace EastAsian

/--
Whether a byte stands for an ASCII character, if all bytes before it do.  In ISO-2022-JP three
control characters do not.
-/
def isPlain (e : EastAsian) (b : UInt8) : Bool :=
  b.toNat < 0x80 && !(e == .iso2022Jp && (b == 0x0E || b == 0x0F || b == 0x1B))

/-- What reads the East Asian encodings. -/
structure Reader where
  /-- The text of bytes that are well-formed in an encoding. -/
  decode? : EastAsian → List UInt8 → Option (List Char)
  /-- Bytes that stand for ASCII characters are read as these. -/
  decode?_plain : ∀ (e : EastAsian) (bs : List UInt8), (∀ b ∈ bs, e.isPlain b = true) →
    decode? e bs = some (bs.map fun b => Char.ofNat b.toNat)

/-- The reader that knows no character beyond ASCII. -/
def Reader.ascii : Reader where
  decode? e bs := if bs.all e.isPlain then some (bs.map fun b => Char.ofNat b.toNat) else none
  decode?_plain _ _ h := if_pos (List.all_eq_true.2 h)

end EastAsian

end HtmlMarkdown
