import XuleLang.Text.Hexadecimal

/-!
Percent signs in URLs.

A character that may not stand in its place is written as the bytes of its encoding, each as two
digits behind a percent sign. Which characters those are depends on the part of the URL, apart from
control characters and those beyond ASCII, which stand nowhere.
-/

namespace XuleLang

/-- A byte behind a percent sign. -/
def percentByte (b : UInt8) : List Char :=
  ['%', upperHexDigit (b.toNat / 16), upperHexDigit (b.toNat % 16)]

/-- A text in which control characters, characters beyond ASCII and those of `special` are
encoded. -/
def percentEncode (special : List Char) (cs : List Char) : List Char :=
  cs.flatMap fun c =>
    if c.toNat < 0x20 || 0x7F ≤ c.toNat || special.contains c then
      (String.utf8EncodeChar c).flatMap percentByte
    else [c]

/-- The bytes of a text. A percent sign without two digits stands for itself. -/
def percentDecode : List Char → List UInt8
  | [] => []
  | '%' :: a :: b :: cs =>
    match hexDigit? a, hexDigit? b with
    | some high, some low => (high * 16 + low).toUInt8 :: percentDecode cs
    | _, _ => 0x25 :: percentDecode (a :: b :: cs)
  | c :: cs => String.utf8EncodeChar c ++ percentDecode cs

namespace Url

/-- What is encoded in a fragment. -/
def fragmentSpecials : List Char := [' ', '"', '<', '>', '\x60']

/-- What is encoded in a segment of a path. -/
def segmentSpecials : List Char := fragmentSpecials ++ ['#', '?', '\x7b', '\x7d']

/-- What is encoded in the name of a file. -/
def fileNameSpecials : List Char := segmentSpecials ++ ['/', '%', '\\']

/-- What is encoded in the name and the password of a user. -/
def userSpecials : List Char :=
  segmentSpecials ++ ['/', ':', ';', '=', '@', '[', '\\', ']', '^', '|']

/-- What is encoded in a query. -/
def querySpecials : List Char := [' ', '"', '#', '<', '>']

/-- What is encoded in a query of a scheme with a meaning of its own. -/
def specialQuerySpecials : List Char := querySpecials ++ ['\'']

end Url

end XuleLang
