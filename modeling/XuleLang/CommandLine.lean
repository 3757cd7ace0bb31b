import XuleLang.Analysis.State
import XuleLang.Json
import XuleLang.Source.FileAccess

/-!
The command line: one analysis of a rule file, written out.

With `--analyze` among the arguments, the last one that is not an option names the file. It is
analysed together with the files named behind `--import`, and everything that was found is written
as JSON; with `--errors-only` the errors among it are written line by line instead. Options that
mean nothing are passed over. Without `--analyze` an editor would be served, which has nothing to
say before it is asked.

Paths must be safe, and none is opened before it was found to be so. The file itself comes first,
then all imports, and then these are read. What goes wrong before the analysis ends the program.
-/

namespace XuleLang

namespace CommandLine

/-- What an analysis is asked for. -/
structure Request where
  path : String
  errorsOnly : Bool
  /-- The paths of the imports, in order. -/
  imports : List String
deriving DecidableEq, Repr

/-- Why there is no analysis. -/
inductive Failure where
  /-- No file is named, or none behind `--import`. -/
  | usage
  | unsafePath (path : String)
  | unreadable (path : String) (reason : ReadError)
deriving DecidableEq, Repr

/-- How the program is used. -/
def usage : String :=
  "Usage: xule-lsp --analyze [--errors-only] [--import <file>]... <relative-file-path>\n" ++
  "  --analyze <file>     : Full analysis with JSON output\n" ++
  "  --errors-only        : Show only errors in simple format\n" ++
  "  --import <file>      : Merge another rule file into the compilation unit"

def Failure.message : Failure → String
  | usage => CommandLine.usage
  | unsafePath path => "Unsafe file path: " ++ path
  | unreadable path reason =>
    "Failed to read rule file '" ++ path ++ "': " ++ reason.message

/-- What the program leaves behind. -/
structure Outcome where
  code : Nat
  output : String
  errors : String
deriving DecidableEq, Repr

/-! ## Arguments -/

/-- Arguments as far as they were read. -/
structure Arguments where
  path : Option String
  errorsOnly : Bool
  imports : List String

/-- Reads the arguments that follow those read before; nothing if one is missing. -/
def Arguments.read? (a : Arguments) : List String → Option Arguments
  | [] => some a
  | "--analyze" :: rest => a.read? rest
  | "--errors-only" :: rest => { a with errorsOnly := true }.read? rest
  | ["--import"] => none
  | "--import" :: file :: rest => { a with imports := a.imports ++ [file] }.read? rest
  | argument :: rest =>
    if argument.startsWith "--" then a.read? rest
    else { a with path := some argument }.read? rest

/-- What the arguments ask for. -/
def request? (arguments : List String) : Option Request := do
  let a ← Arguments.read? ⟨none, false, []⟩ arguments
  return ⟨← a.path, a.errorsOnly, a.imports⟩

/-! ## Output -/

/-- A place in a text. -/
def positionJson (p : EditorPosition) : Json :=
  .object [("character", .number p.character), ("line", .number p.line)]

def diagnosticJson (d : Diagnostic) : Json :=
  .object [
    ("code", .string d.finding.code),
    ("message", .string d.finding.message),
    ("range", .object [("end", positionJson d.range.stop), ("start", positionJson d.range.start)]),
    ("severity", .number d.finding.severity.number),
    ("source", .string "xule")]

/-- A binding of the global environment and the file that it is from. -/
def bindingJson (a : Analysis) (b : Binding) : Json :=
  .object [
    ("kind", .string b.kind.label),
    ("name", .string b.name),
    ("origin", ((a.rules.origin? b.declaredAt).map Json.string).getD .null)]

/-- Everything that was found, with the members of objects in the order of their keys. -/
def report (a : Analysis) : Json :=
  .object [
    ("diagnostics", .ofList diagnosticJson (a.diagnostics .all)),
    ("namespaces", .ofList Json.string a.namespaces.shortNames),
    ("symbols", .ofList (bindingJson a) a.symbols.globals)]

/-- A diagnostic as a line. Lines and columns are counted from one. -/
def errorLine (d : Diagnostic) : String :=
  "Line " ++ toString (d.range.start.line + 1) ++ ":" ++ toString (d.range.start.character + 1) ++
    ": " ++ d.finding.message

/-- The errors among some diagnostics, line by line. -/
def errorLines (ds : List Diagnostic) : String :=
  let errors := (ds.filter fun d => d.finding.severity = .error).map errorLine
  if errors.isEmpty then "No errors found" else "\n".intercalate errors

/-- What is written of an analysis. -/
def Request.output (r : Request) (a : Analysis) : String :=
  if r.errorsOnly then errorLines (a.diagnostics .all) else (report a).render

/-! ## Running -/

variable {m : Type → Type} [Monad m]

/-- The text of the file that is asked about, if its path is safe. -/
def readPrimary (files : FileAccess m) (path : String) : m (Except Failure (List Char)) := do
  if (Path.ofString path).isSafe then
    match ← files.read (.ofString path) with
    | .ok text => return .ok text
    | .error reason => return .error (.unreadable path reason)
  else return .error (.unsafePath path)

/-- Analyses what is asked for. -/
def Request.answer (r : Request) (files : FileAccess m) : m (Except Failure String) := do
  match ← readPrimary files r.path with
  | .error failure => return .error failure
  | .ok text =>
    match r.imports.find? fun path => !(Path.ofString path).isSafe with
    | some path => return .error (.unsafePath path)
    | none =>
      let imports ← files.imports (some (.ofString r.path)) (r.imports.map Path.ofString)
      return .ok (r.output (.ofInput ⟨⟨r.path, text⟩, imports, .empty⟩))

/-- The outcome of an answer. -/
def outcome : Except Failure String → Outcome
  | .ok text => ⟨0, text ++ "\n", ""⟩
  | .error failure => ⟨2, "", "xule-lsp analyze error: " ++ failure.message ++ "\n"⟩

/-- Runs the program. -/
def run (files : FileAccess m) (arguments : List String) : m Outcome := do
  if arguments.contains "--analyze" then
    match request? arguments with
    | none => return outcome (.error .usage)
    | some r => return outcome (← r.answer files)
  else return ⟨0, "", ""⟩

end CommandLine

end XuleLang
