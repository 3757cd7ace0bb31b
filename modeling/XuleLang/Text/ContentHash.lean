import XuleLang.Text.Utf8

/-!
Hashes of texts, by which a text is recognised again.

The hash is the 64-bit xxHash with seed zero of the bytes of the text and one byte 0xFF behind
them. Bytes are read as words with the lowest byte first, and all arithmetic is modulo 2⁶⁴.

## How it is computed

Whole stripes of 32 bytes go into four lanes, eight bytes into each; the lanes are then joined. What
is left of the bytes is stirred in by eight, then by four, then one by one, and at last the bits are
spread over the whole word.
-/

namespace XuleLang

namespace ContentHash

def prime1 : UInt64 := 11400714785074694791
def prime2 : UInt64 := 14029467366897019727
def prime3 : UInt64 := 1609587929392839161
def prime4 : UInt64 := 9650029242287828579
def prime5 : UInt64 := 2870177450012600261

/-- The word with its bits moved up by `n`, and those that fall off put in below. -/
def rotate (x : UInt64) (n : UInt64) : UInt64 := (x <<< n) ||| (x >>> (64 - n))

/-- The word of some bytes, of which the first is the lowest. -/
def word (bytes : List UInt8) : UInt64 :=
  bytes.foldr (fun b above => (above <<< 8) ||| b.toUInt64) 0

/-- A lane with one more word. -/
def mix (lane input : UInt64) : UInt64 := rotate (lane + input * prime2) 31 * prime1

/-- The four lanes. -/
structure Lanes where
  a : UInt64
  b : UInt64
  c : UInt64
  d : UInt64
deriving DecidableEq, Repr

namespace Lanes

/-- The lanes before any stripe. -/
def start : Lanes := ⟨prime1 + prime2, prime2, 0, 0 - prime1⟩

/-- The lanes after `n` stripes from the front of the bytes, and the bytes behind them. -/
def absorb (v : Lanes) : Nat → List UInt8 → Lanes × List UInt8
  | 0, bytes => (v, bytes)
  | n + 1, bytes =>
    let lane (k : Nat) : UInt64 := word ((bytes.drop (8 * k)).take 8)
    (⟨mix v.a (lane 0), mix v.b (lane 1), mix v.c (lane 2), mix v.d (lane 3)⟩ : Lanes).absorb n
      (bytes.drop 32)

/-- Stirs a lane into what the lanes were joined to. -/
def joinWith (h lane : UInt64) : UInt64 := (h ^^^ mix 0 lane) * prime1 + prime4

/-- The four lanes as one word. -/
def joined (v : Lanes) : UInt64 :=
  let sum := rotate v.a 1 + rotate v.b 7 + rotate v.c 12 + rotate v.d 18
  joinWith (joinWith (joinWith (joinWith sum v.a) v.b) v.c) v.d

end Lanes

/-- Stirs in `n` groups of eight bytes. -/
def stirEights (h : UInt64) : Nat → List UInt8 → UInt64 × List UInt8
  | 0, bytes => (h, bytes)
  | n + 1, bytes =>
    stirEights (rotate (h ^^^ mix 0 (word (bytes.take 8))) 27 * prime1 + prime4) n (bytes.drop 8)

/-- Stirs in four bytes, if there are as many. -/
def stirFour (h : UInt64) (bytes : List UInt8) : UInt64 × List UInt8 :=
  if bytes.length < 4 then (h, bytes)
  else (rotate (h ^^^ (word (bytes.take 4) * prime1)) 23 * prime2 + prime3, bytes.drop 4)

/-- Stirs in one byte. -/
def stirOne (h : UInt64) (b : UInt8) : UInt64 :=
  rotate (h ^^^ (b.toUInt64 * prime5)) 11 * prime1

/-- Spreads the bits over the whole word. -/
def spread (h : UInt64) : UInt64 :=
  let h := (h ^^^ (h >>> 33)) * prime2
  let h := (h ^^^ (h >>> 29)) * prime3
  h ^^^ (h >>> 32)

/-- The hash of bytes. -/
def ofBytes (bytes : List UInt8) : UInt64 :=
  let (lanes, rest) := Lanes.start.absorb (bytes.length / 32) bytes
  let h := (if bytes.length < 32 then prime5 else lanes.joined) + bytes.length.toUInt64
  let (h, rest) := stirEights h (rest.length / 8) rest
  let (h, rest) := stirFour h rest
  spread (rest.foldl stirOne h)

end ContentHash

/-- The hash of a text. -/
def contentHash (text : List Char) : UInt64 := ContentHash.ofBytes (encodeUtf8 text ++ [0xFF])

end XuleLang
