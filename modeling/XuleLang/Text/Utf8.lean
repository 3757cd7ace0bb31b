/-!
Texts as bytes in UTF-8.

Encoding writes the bytes of one character after another. Decoding reads any bytes: it gives a
character for every run of bytes that encodes one, and `none` for every longest run that begins an
encoding and is not continued, or, where none begins, for a single byte. `decodeUtf8?` reads bytes
that hold nothing of that sort, and `decodeUtf8Lossy` puts the replacement character for it.

## Well-formed runs

The first byte tells how many follow and bounds the second one, so that no character has two
encodings, no surrogate has one, and nothing lies above the last character. Later bytes are between
0x80 and 0xBF.
-/

namespace XuleLang

/-- The bytes of a text. -/
def encodeUtf8 (cs : List Char) : List UInt8 := cs.flatMap String.utf8EncodeChar

/-- An encoding of which some bytes are still missing. -/
structure OpenRun where
  /-- The number of bytes that are missing, less one. -/
  later : Nat
  /-- What the bytes so far say of the character. -/
  value : Nat
  /-- Bounds of the next byte. -/
  low : UInt8
  high : UInt8
deriving DecidableEq, Repr

namespace OpenRun

/-- Whether a byte may come next. -/
def admits (r : OpenRun) (b : UInt8) : Bool := r.low ≤ b && b ≤ r.high

/-- The value with six more bits. -/
def valueWith (r : OpenRun) (b : UInt8) : Nat := r.value * 64 + (b.toNat - 0x80)

/-- What a byte begins: a run that is finished, one that is not, or none. -/
def ofFirst (b : UInt8) : Sum (Option Char) OpenRun :=
  let n := b.toNat
  if n < 0x80 then .inl (some (Char.ofNat n))
  else if n < 0xC2 then .inl none
  else if n < 0xE0 then .inr ⟨0, n - 0xC0, 0x80, 0xBF⟩
  else if n = 0xE0 then .inr ⟨1, 0, 0xA0, 0xBF⟩
  else if n = 0xED then .inr ⟨1, 0xD, 0x80, 0x9F⟩
  else if n < 0xF0 then .inr ⟨1, n - 0xE0, 0x80, 0xBF⟩
  else if n = 0xF0 then .inr ⟨2, 0, 0x90, 0xBF⟩
  else if n < 0xF4 then .inr ⟨2, n - 0xF0, 0x80, 0xBF⟩
  else if n = 0xF4 then .inr ⟨2, 4, 0x80, 0x8F⟩
  else .inl none

end OpenRun

/-- Reads bytes behind an encoding that may be unfinished. -/
def decodeUtf8After : Option OpenRun → List UInt8 → List (Option Char)
  | none, [] => []
  | some _, [] => [none]
  | none, b :: bs =>
    match OpenRun.ofFirst b with
    | .inl c => c :: decodeUtf8After none bs
    | .inr r => decodeUtf8After (some r) bs
  | some r, b :: bs =>
    if r.admits b then
      match r.later with
      | 0 => some (Char.ofNat (r.valueWith b)) :: decodeUtf8After none bs
      | n + 1 => decodeUtf8After (some ⟨n, r.valueWith b, 0x80, 0xBF⟩) bs
    else
      match OpenRun.ofFirst b with
      | .inl c => none :: c :: decodeUtf8After none bs
      | .inr next => none :: decodeUtf8After (some next) bs

/-- The text of bytes that encode one. -/
def decodeUtf8? (bytes : List UInt8) : Option (List Char) := (decodeUtf8After none bytes).mapM id

/-- The text of any bytes, with the replacement character for what encodes nothing. -/
def decodeUtf8Lossy (bytes : List UInt8) : List Char :=
  (decodeUtf8After none bytes).map (·.getD '\uFFFD')

end XuleLang
