import XuleLang.Url.Basic

/-!
Reading URLs.

Blanks and control characters around a text are dropped, and so are tabs and line breaks in it.
Schemes are in lower case. Characters that may not stand in their place are encoded, and segments of
one or two points are resolved.

## Schemes with a meaning

A few schemes, files among them, know backslashes as slashes. They always have an authority, behind
any number of slashes, and a port that is not written. A URL of a file has no user and no port, and
the host may be missing.

## Drives

The first segment of a file may be a drive, which is a letter and a colon or a bar. A drive is
written with a colon and takes the place of the host. No two points lead out of a drive, wherever
it stands; this also goes for schemes that know nothing of drives.
-/

namespace XuleLang.Url

/-- The scheme of files. -/
def fileScheme : List Char := "file".toList

/-- Schemes that have a meaning and are not about files, and their ports. -/
def hostedSchemes : List (List Char × Nat) :=
  [("http", 80), ("https", 443), ("ws", 80), ("wss", 443), ("ftp", 21)].map fun (scheme, port) =>
    (scheme.toList, port)

/-- What is known of a scheme. -/
inductive SchemeKind where
  | file
  /-- A scheme that has a meaning, and its port. -/
  | hosted (port : Nat)
  | other
deriving DecidableEq, Repr

namespace SchemeKind

/-- What is known of a scheme by its name. -/
def ofScheme (scheme : List Char) : SchemeKind :=
  if scheme = fileScheme then .file
  else
    match hostedSchemes.lookup scheme with
    | some port => .hosted port
    | none => .other

/-- Whether a scheme has a meaning. -/
def isSpecial (k : SchemeKind) : Bool := k != .other

/-- Whether a character separates segments. -/
def isSlash (k : SchemeKind) (c : Char) : Bool := c == '/' || (k.isSpecial && c == '\\')

/-- Whether a character is behind the path. -/
def endsPath (c : Char) : Bool := c == '?' || c == '#'

/-- Whether a character is behind the authority. -/
def endsAuthority (k : SchemeKind) (c : Char) : Bool := k.isSlash c || endsPath c

/-- The usual port. -/
def port? : SchemeKind → Option Nat
  | .hosted port => some port
  | _ => none

end SchemeKind

open SchemeKind

/-! ## The front -/

/-- The text without what an editor may have left around it and in it. -/
def strip (cs : List Char) : List Char :=
  let isEdge (c : Char) : Bool := c.toNat ≤ 0x20
  (((cs.dropWhile isEdge).reverse.dropWhile isEdge).reverse).filter fun c =>
    !(c == '\t' || c == '\n' || c == '\r')

/-- The scheme of a text and what is behind its colon. -/
def scheme? (cs : List Char) : Option (List Char × List Char) := do
  let isSchemeChar (c : Char) : Bool := c.isAlphanum || c == '+' || c == '-' || c == '.'
  let name := cs.takeWhile isSchemeChar
  let first ← name.head?
  guard first.isAlpha
  match cs.drop name.length with
  | ':' :: rest => return (name.map Char.toLower, rest)
  | _ => none

/-! ## The path -/

/-- A segment with its encoded points decoded. -/
def decodePoints : List Char → List Char
  | '%' :: '2' :: 'e' :: cs => '.' :: decodePoints cs
  | '%' :: '2' :: 'E' :: cs => '.' :: decodePoints cs
  | c :: cs => c :: decodePoints cs
  | [] => []

/-- The number of points that a segment consists of, if they are one or two. -/
def points? (segment : List Char) : Option Nat :=
  match decodePoints segment with
  | ['.'] => some 1
  | ['.', '.'] => some 2
  | _ => none

/-- Whether a text is the letter of a drive and its mark. -/
def isDrive : List Char → Bool
  | [letter, mark] => letter.isAlpha && (mark == ':' || mark == '|')
  | _ => false

/-- Whether no two points lead out of a segment: a drive, perhaps before a backslash that does not
separate. -/
def isKept (segment : List Char) : Bool := isDrive (segment.takeWhile (· != '\\'))

/-- The segments without the last one, unless it is kept. -/
def leave (names : List (List Char)) : List (List Char) :=
  if names.getLast?.any isKept then names else names.dropLast

/-- Segments that are read, and whether a drive takes the place of the host. -/
structure ReadPath where
  names : List (List Char)
  hasDrive : Bool
deriving DecidableEq, Repr

/-- Reads a segment that does not consist of points. The first one of a file may be a drive. -/
def readSegment (isFile : Bool) (done : ReadPath) (segment : List Char) : ReadPath :=
  if isFile && done.names.isEmpty && isDrive segment then ⟨[segment.take 1 ++ [':']], true⟩
  else { done with names := done.names ++ [percentEncode segmentSpecials segment] }

/-- Reads segments behind those that are read already. Points at the end leave an empty segment
behind. -/
def readSegments (isFile : Bool) (done : ReadPath) : List (List Char) → ReadPath
  | [] => done
  | segment :: rest =>
    match points? segment with
    | none => readSegments isFile (readSegment isFile done segment) rest
    | some n =>
      let folder := if n = 2 then leave done.names else done.names
      readSegments isFile
        { done with names := if rest.isEmpty then folder ++ [[]] else folder } rest

/-- Segments without the empty ones at the front, of which one is kept if there is nothing else. -/
def dropEmpty : List (List Char) → List (List Char)
  | [] :: name :: names => dropEmpty (name :: names)
  | names => names

/-- A text without the slash at its front. -/
def behindSlash (k : SchemeKind) (cs : List Char) : List Char :=
  if cs.head?.any k.isSlash then cs.drop 1 else cs

/-- Reads the path below the root, and gives what is behind it. -/
def belowRoot (k : SchemeKind) (cs : List Char) : ReadPath × List Char :=
  let path := cs.takeWhile (!endsPath ·)
  (readSegments (k == .file) ⟨[], false⟩ (splitWhere k.isSlash path), cs.drop path.length)

/-- Reads the path behind an authority. Where the scheme has no meaning there may be none. -/
def pathBehindAuthority (k : SchemeKind) (cs : List Char) : ReadPath × List Char :=
  if !k.isSpecial && (cs.isEmpty || cs.head?.any endsPath) then (⟨[], false⟩, cs)
  else belowRoot k (behindSlash k cs)

/-! ## The authority -/

/-- Reads a user and a password, and gives what is behind them. Where a user could be, there must
be something behind it. -/
def user? (k : SchemeKind) (cs : List Char) : Option (List Char × List Char × List Char) :=
  match splitAtLastMark '@' (cs.takeWhile (!k.endsAuthority ·)) with
  | none => some ([], [], cs)
  | some (said, _) =>
    let rest := cs.drop (said.length + 1)
    if said.isEmpty && rest.head?.any k.endsAuthority then none
    else
      let (user, password) := splitAtMark ':' said
      let encode := percentEncode userSpecials
      some (encode user, encode (password.getD []), rest)

/-- The text of a host, which ends at a colon that is not in brackets. -/
def hostText (k : SchemeKind) (inBrackets : Bool) : List Char → List Char
  | [] => []
  | c :: cs =>
    if k.endsAuthority c || (c == ':' && !inBrackets) then []
    else c :: hostText k (if c == '[' then true else if c == ']' then false else inBrackets) cs

/-- The number of ports. -/
def portCount : Nat := 65536

/-- Reads a port behind its colon, and gives what is behind it. The usual one is not said. -/
def port? (k : SchemeKind) (cs : List Char) : Option (Option Nat × List Char) := do
  let digits := cs.takeWhile Char.isDigit
  let rest := cs.drop digits.length
  guard (rest.head?.all fun c => c == '/' || c == '\\' || endsPath c)
  let port := digitsInBase? 10 digits
  guard (port.all (· < portCount))
  return (if port = k.port? then none else port, rest)

/-- Reads an authority, and gives what is behind it. A user or a port needs a host. -/
def authority? (k : SchemeKind) (cs : List Char) : Option (Authority × List Char) := do
  let (user, password, cs) ← user? k cs
  let said := hostText k false cs
  let rest := cs.drop said.length
  let host ← if k.isSpecial then Host.special? said else Host.other? said
  let isNamed := !(user.isEmpty && password.isEmpty)
  guard (host != .empty || !(isNamed || rest.head? == some ':'))
  let (port, rest) ← match rest with
    | ':' :: rest => port? k rest
    | rest => some (none, rest)
  return (⟨user, password, host, port⟩, rest)

/-! ## Whole URLs -/

/-- The parts of a URL behind its scheme. -/
structure Parts where
  authority : Option Authority
  path : UrlPath
  /-- The query and the fragment with their marks. -/
  rest : List Char
deriving Repr

/-- Puts together an authority and a path below it. -/
def Parts.ofPath (authority : Option Authority) (read : ReadPath × List Char) : Parts :=
  ⟨authority, .segments read.1.names, read.2⟩

/-- Puts together the host and the path of a file. -/
def Parts.ofFile (host : Host) (read : ReadPath × List Char) : Parts :=
  ⟨some (.ofHost (if read.1.hasDrive then .empty else host)), .segments (dropEmpty read.1.names),
    read.2⟩

/-- The parts of a URL of a file. The name of the host that one is at is left out, and a drive in
the place of a host belongs to the path. Behind a host that is not said the path begins with its
slash. -/
def fileParts? (cs : List Char) : Option Parts :=
  let k := SchemeKind.file
  match cs with
  | a :: b :: rest =>
    if k.isSlash a && k.isSlash b then do
      let said := rest.takeWhile (!k.endsAuthority ·)
      if said.isEmpty || isDrive said then return .ofFile .empty (belowRoot k rest)
      let host ← Host.special? said
      let behind := rest.drop said.length
      if host.isLocal then return .ofFile .empty (belowRoot k behind)
      return .ofFile host (pathBehindAuthority k behind)
    else some (.ofFile .empty (belowRoot k (behindSlash k cs)))
  | cs => some (.ofFile .empty (belowRoot k (behindSlash k cs)))

/-- The parts of a URL that has an authority at the front of a text. -/
def partsWithAuthority? (k : SchemeKind) (cs : List Char) : Option Parts := do
  let (authority, rest) ← authority? k cs
  return .ofPath (some authority) (pathBehindAuthority k rest)

/-- The parts of a URL whose scheme has no meaning. -/
def otherParts? (cs : List Char) : Option Parts :=
  let k := SchemeKind.other
  match cs with
  | '/' :: '/' :: rest => partsWithAuthority? k rest
  | '/' :: rest => some (.ofPath none (belowRoot k rest))
  | cs =>
    let path := cs.takeWhile (!endsPath ·)
    some ⟨none, .solid (percentEncode [] path), cs.drop path.length⟩

/-- The parts of a URL behind its scheme. -/
def parts? (k : SchemeKind) (cs : List Char) : Option Parts :=
  match k with
  | .file => fileParts? cs
  | .hosted _ => partsWithAuthority? k (cs.dropWhile k.isSlash)
  | .other => otherParts? cs

/-- The query and the fragment of a text that begins with the mark of one of them. -/
def queryAndFragment (k : SchemeKind) (cs : List Char) : Option (List Char) × Option (List Char) :=
  let (front, fragment) := splitAtMark '#' cs
  let query := match front with
    | '?' :: query => some query
    | _ => none
  let specials := if k.isSpecial then specialQuerySpecials else querySpecials
  (query.map (percentEncode specials), fragment.map (percentEncode fragmentSpecials))

/-- Reads a URL. -/
def parse? (input : List Char) : Option Url := do
  let (scheme, cs) ← scheme? (strip input)
  let k := SchemeKind.ofScheme scheme
  let parts ← parts? k cs
  let (query, fragment) := queryAndFragment k parts.rest
  return ⟨scheme, parts.authority, parts.path, query, fragment⟩

def ofString? (s : String) : Option Url := parse? s.toList

end XuleLang.Url
