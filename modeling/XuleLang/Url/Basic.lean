import XuleLang.Url.Host

/-!
URLs, by which an editor names its documents.

A URL has a scheme, perhaps an authority, and a path, which is a list of segments or, where it does
not begin with a slash, a text without structure; a query and a fragment may follow. An authority is
a host, perhaps with a port, and perhaps with a user and a password for it.

Two URLs are the same if their texts are, and for that a text is brought into one form when it is
read. All parts are kept as they stand in it.
-/

namespace XuleLang

/-- Who answers for a URL. -/
structure Authority where
  user : List Char
  password : List Char
  host : Host
  /-- The port, unless it is the usual one of the scheme. -/
  port : Option Nat
deriving DecidableEq, Repr

/-- Where a URL leads, below its authority. -/
inductive UrlPath where
  | segments (names : List (List Char))
  /-- A path that does not begin with a slash. -/
  | solid (text : List Char)
deriving DecidableEq, Repr

/-- A URL in its uniform form. -/
structure Url where
  scheme : List Char
  authority : Option Authority
  path : UrlPath
  query : Option (List Char)
  fragment : Option (List Char)
deriving DecidableEq, Repr

/-- The authority that is just a host. -/
def Authority.ofHost (host : Host) : Authority := ⟨[], [], host, none⟩

/-- What an authority says of a user. -/
def Authority.userText (a : Authority) : List Char :=
  if a.user.isEmpty && a.password.isEmpty then []
  else a.user ++ (if a.password.isEmpty then [] else ':' :: a.password) ++ ['@']

/-- An authority as it is written. -/
def Authority.text (a : Authority) : List Char :=
  a.userText ++ a.host.text ++
    (match a.port with
      | some port => ':' :: Nat.toDigits 10 port
      | none => [])

/-- A path as it is written. -/
def UrlPath.text : UrlPath → List Char
  | .segments names => names.flatMap ('/' :: ·)
  | .solid text => text

/-- Whether a path begins with two slashes, as an authority does. -/
def UrlPath.looksLikeAuthority : UrlPath → Bool
  | .segments ([] :: _ :: _) => true
  | _ => false

namespace Url

/-- What stands between the scheme and the path. A path that looks like an authority is kept from
being one by a segment that says nothing. -/
def beforePath (u : Url) : List Char :=
  match u.authority with
  | some a => '/' :: '/' :: a.text
  | none => if u.path.looksLikeAuthority then ['/', '.'] else []

/-- A part behind its mark, if it is there. -/
def marked (mark : Char) : Option (List Char) → List Char
  | some part => mark :: part
  | none => []

/-- The uniform text of a URL. -/
def text (u : Url) : List Char :=
  u.scheme ++ ':' :: (u.beforePath ++ u.path.text ++ marked '?' u.query ++ marked '#' u.fragment)

def toString (u : Url) : String := String.ofList u.text

end Url

end XuleLang
