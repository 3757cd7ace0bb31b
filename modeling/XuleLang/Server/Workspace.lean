import XuleLang.Analysis.State
import XuleLang.Namespace.DefinitionFile
import XuleLang.Settings
import XuleLang.Source.FileAccess
import XuleLang.Url.File

/-!
The files around a document that its analysis needs.

Settings name files by paths. Those that are not absolute are relative to the root of the workspace
or, where there is none, to the folder of the document; a document that is no file has neither, and
its paths are left as they are. Files that cannot be read, or that define namespaces in a wrong way,
are passed over.
-/

namespace XuleLang

/-- The folder that paths are relative to. -/
def baseFolder? (root : Option Path) (document : Url) : Option Path :=
  match root with
  | some root => some root
  | none => document.toFilePath?.bind Path.parent?

/-- Paths of the settings as they are opened. -/
def resolvePaths (paths : List String) (root : Option Path) (document : Url) : List Path :=
  let base := baseFolder? root document
  paths.map fun p =>
    match base with
    | some folder => folder.join (.ofString p)
    | none => .ofString p

namespace FileAccess

variable {m : Type → Type} [Monad m]

/-- The namespaces of a definition file; none if it is unreadable. -/
def namespacesOf (files : FileAccess m) (p : Path) : m NamespaceSet := do
  match ← files.read p with
  | .ok text => return (NamespaceSet.ofDefinitionFile? text).getD .empty
  | .error _ => return .empty

/-- The namespaces of definition files, file by file. -/
def namespaces (files : FileAccess m) : List Path → m NamespaceSet
  | [] => return .empty
  | p :: paths => do
    let first ← files.namespacesOf p
    return first.merge (← files.namespaces paths)

/-- The texts that the analysis of a document takes into account. -/
def inputFor (files : FileAccess m) (settings : Settings) (root : Option Path) (document : Url)
    (text : List Char) : m AnalysisInput := do
  let imports ← files.imports document.toFilePath?
    (resolvePaths settings.autoImports root document)
  let configured ← files.namespaces (resolvePaths settings.definitions root document)
  return ⟨⟨document.toString, text⟩, imports, configured⟩

end FileAccess

end XuleLang
