import XuleLang.CommandLine
import XuleLang.Text.Utf8

/-!
The program: the command line on the files of a disk.
-/

namespace XuleLang

/-- Why the system could not read a file. -/
def readErrorOf : IO.Error → ReadError
  | .noFileOrDirectory _ _ _ => .notFound
  | .inappropriateType _ code _ => if code = 21 then .isFolder else .notFolder
  | .invalidArgument _ _ _ => .nameTooLong
  | .permissionDenied _ _ _ => .system 13 "Permission denied"
  | _ => .system 5 "Input/output error"

/-- The files of a disk. -/
def disk : FileAccess IO where
  read p := do
    try
      let bytes ← IO.FS.readBinFile p.toString
      match decodeUtf8? bytes.toList with
      | some text => return .ok text
      | none => return .error .notText
    catch e => return .error (readErrorOf e)
  canonical? p := do
    try return some (.ofString (← IO.FS.realPath p.toString).toString)
    catch _ => return none

end XuleLang

/-- Runs the command line and leaves behind what it says. -/
def main (arguments : List String) : IO UInt32 := do
  let outcome ← XuleLang.CommandLine.run XuleLang.disk arguments
  IO.print outcome.output
  IO.eprint outcome.errors
  return outcome.code.toUInt32
