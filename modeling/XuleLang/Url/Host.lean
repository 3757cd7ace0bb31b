import XuleLang.Domain.Name
import XuleLang.Text.Utf8
import XuleLang.Url.Address
import XuleLang.Url.Percent

/-!
Hosts in URLs.

Schemes with a meaning of their own have hosts that are found by domain names or by addresses, and
these are brought into one form. For any other scheme a host is a text, of which only an address in
brackets is understood.
-/

namespace XuleLang

/-- A host of a URL. -/
inductive Host where
  /-- A name as it is written. It may be empty where the scheme has no meaning. -/
  | name (text : List Char)
  | short (address : Nat)
  | long (pieces : List Nat)
deriving DecidableEq, Repr

namespace Host

/-- The host that is not said. -/
def empty : Host := .name []

/-- A host as it is written. -/
def text : Host → List Char
  | .name text => text
  | .short address => shortAddressText address
  | .long pieces => '[' :: (longAddressText pieces ++ [']'])

/-- The name of the host that one is at. -/
def localName : List Char := "localhost".toList

/-- Whether a host is the one that one is at. -/
def isLocal (h : Host) : Bool := h == .empty || h == .name localName

/-- The address between brackets. -/
def ofBrackets? (cs : List Char) : Option Host := do
  guard (cs.getLast? == some ']')
  return .long (← longAddress? (cs.drop 1).dropLast)

/-- Reads a host that is found by its name or its address. -/
def special? (cs : List Char) : Option Host :=
  if cs.head? = some '[' then ofBrackets? cs
  else do
    let name ← Domain.nameInAscii? (← decodeUtf8? (percentDecode cs))
    guard (!name.isEmpty)
    if endsInNumber name then return .short (← shortAddress? name)
    return .name name

/-- What is in no host of any other scheme. -/
def forbidden : List Char :=
  ['\x00', '\t', '\n', '\r', ' ', '#', '/', ':', '<', '>', '?', '@', '[', '\\', ']', '^', '|']

/-- Reads a host of any other scheme. -/
def other? (cs : List Char) : Option Host :=
  if cs.head? = some '[' then ofBrackets? cs
  else if cs.any forbidden.contains then none
  else some (.name (percentEncode [] cs))

end Host

end XuleLang
