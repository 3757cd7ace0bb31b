import XuleLang.Path
import XuleLang.Source.File

/-!
Access to files, from which imports are read.

What can be done to files is a structure over a monad, so that the same program reads from a disk,
from files in memory, or from files that record who asked for them.

An import that cannot be read is passed over, and so is one that is the primary file itself: the
same file under whatever name if both exist, else a path that says the same.
-/

namespace XuleLang

/-- Why a file could not be read. -/
inductive ReadError where
  | notFound
  | notFolder
  | isFolder
  | nameTooLong
  | notText
  /-- Any other reason, as the system gives it. -/
  | system (code : Nat) (description : String)
deriving DecidableEq, Repr

namespace ReadError

/-- What the system says of an error with a number. -/
def systemMessage (code : Nat) (description : String) : String :=
  description ++ " (os error " ++ toString code ++ ")"

def message : ReadError → String
  | notFound => systemMessage 2 "No such file or directory"
  | notFolder => systemMessage 20 "Not a directory"
  | isFolder => systemMessage 21 "Is a directory"
  | nameTooLong => systemMessage 36 "File name too long"
  | notText => "stream did not contain valid UTF-8"
  | system code description => systemMessage code description

end ReadError

/-- What can be done to files. -/
structure FileAccess (m : Type → Type) where
  /-- The text of a file. -/
  read : Path → m (Except ReadError (List Char))
  /-- The one path of a file that exists. -/
  canonical? : Path → m (Option Path)

namespace FileAccess

variable {m : Type → Type} [Monad m]

/-- Whether two paths lead to the same file. -/
def isSameFile (files : FileAccess m) (p q : Path) : m Bool := do
  match ← files.canonical? p, ← files.canonical? q with
  | some p, some q => return p == q
  | _, _ => return p.sameAs q

/-- The text of a file that is imported by a primary one. -/
def import? (files : FileAccess m) (primary : Option Path) (p : Path) : m (Option SourceText) := do
  let isPrimary ← match primary with
    | some q => files.isSameFile q p
    | none => pure false
  if isPrimary then return none
  match ← files.read p with
  | .ok text => return some ⟨p.toString, text⟩
  | .error _ => return none

/-- The texts of the files that are imported by a primary one. -/
def imports (files : FileAccess m) (primary : Option Path) (paths : List Path) :
    m (List SourceText) :=
  paths.filterMapM (files.import? primary)

end FileAccess

end XuleLang
