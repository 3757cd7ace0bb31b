import XuleLang.Analysis.Completion
import XuleLang.Analysis.Definition
import XuleLang.Json
import XuleLang.Server.Step

/-!
Requests to the server, which are answered at once and change nothing.

A document that is not open, or of which no analysis was committed yet, has nothing to offer.
-/

namespace XuleLang

/-- A stretch of a document that an editor can show. -/
structure Location where
  document : Url
  range : EditorRange
deriving DecidableEq, Repr

/-- The place of a definition. A file comes from a URL or from an absolute path, else it cannot be
shown. -/
def DefinitionTarget.location? (t : DefinitionTarget) : Option Location :=
  ((Url.ofString? t.origin).or (Url.ofFilePath? (.ofString t.origin))).map (⟨·, t.range⟩)

namespace Server

/-- Asks for the analysis that answers requests about a document. One that is made for the request
only, because the text moved on, is not kept. -/
def ask (document : Url) : StateM Server (Option Analysis) := do
  let s ← get
  return s.documents.analysisFor? document

/-- What may be typed at a place of a document. -/
def completions (s : Server) (document : Url) (p : EditorPosition) : List CompletionItem :=
  match (Id.run ((ask document).run s)).1 with
  | some a => a.completions p
  | none => []

/-- Where the name at a place of a document is declared. -/
def definition? (s : Server) (document : Url) (p : EditorPosition) : Option Location := do
  let analysis ← (Id.run ((ask document).run s)).1
  let target ← analysis.definition? p
  target.location?

/-- What the server says about itself: whole texts are sent to it, and it completes names, also
unasked behind some characters, and finds definitions. -/
def introduction : Json :=
  .object [
    ("capabilities", .object [
      ("completionProvider", .object [
        ("resolveProvider", .bool true),
        ("triggerCharacters", .ofList Json.string [".", ":", "$", "@"])]),
      ("definitionProvider", .bool true),
      ("textDocumentSync", .number 1)]),
    ("serverInfo", .object [
      ("name", .string "xule-lsp"),
      ("version", .string "0.1.0")])]

end Server

end XuleLang
