import XuleLang.Path
import XuleLang.Url.Parse

/-!
URLs and paths to files.

A path to a file and the URL of that file tell the same segments, encoded in the URL. A URL leads to
a file whatever its scheme is, as long as its path has segments and its host is the one that one is
at. Neither a port nor a user matters.
-/

namespace XuleLang.Url

/-- Whether a text ends with a letter and the mark of a drive. -/
def endsInDrive (cs : List Char) : Bool := isDrive (cs.drop (cs.length - 2))

/-- The path of the file that a URL leads to. What looks like a drive at its end is a folder. -/
def toFilePath? (u : Url) : Option Path :=
  match u.path with
  | .segments (name :: names) =>
    if u.authority.all (·.host.isLocal) then
      let path := decodeUtf8Lossy ((name :: names).flatMap fun n => 0x2F :: percentDecode n)
      some ⟨if endsInDrive path then path ++ ['/'] else path⟩
    else none
  | _ => none

/-- The URL of a file that is given by an absolute path. -/
def ofFilePath? (p : Path) : Option Url :=
  if p.isAbsolute then
    let names := p.names.map (percentEncode fileNameSpecials)
    let segments := if names.isEmpty then [[]] else names
    some ⟨fileScheme, some (.ofHost .empty), .segments segments, none, none⟩
  else none

end XuleLang.Url
