import XuleLang.Syntax.Parse

/-!
Rule files and sets of them.

A rule file is a text with its tree and what is wrong with it. The file that is being edited is
read with markers between touching tokens, so that every caret has a token of its own; if its text
cannot be read at all, its tree holds nothing but the end, and the failure is its only complaint. A
file that it imports is read without markers, or not at all.

A rule set is the edited file and the files that it imports, in order. Files are numbered from
zero, the edited file first.
-/

namespace XuleLang

/-- A text and where it comes from. -/
structure SourceText where
  origin : String
  text : List Char
deriving DecidableEq, Repr

/-- A text with its tree and its complaints, in the order of the text. -/
structure RuleFile where
  origin : String
  text : List Char
  tree : SyntaxTree
  errors : List SyntaxError
deriving Repr

namespace RuleFile

/-- The file of a text whose tokens were read. -/
def ofStream (s : SourceText) (stream : TokenStream) : RuleFile :=
  let parsed := parseStream stream
  ⟨s.origin, s.text, parsed.tree, parsed.errors⟩

/-- The file of a text that could not be read. -/
def ofFailure (s : SourceText) (failure : TooDeep) : RuleFile :=
  ⟨s.origin, s.text, (parse [.endOfInput .start]).tree,
    [.atPosition (.unreadable failure) failure.position]⟩

/-- The file that is being edited. -/
def edited (s : SourceText) : RuleFile :=
  match tokenizeWithSeams s.text with
  | .ok stream => ofStream s stream
  | .error failure => ofFailure s failure

@[simp] theorem edited_origin (s : SourceText) : (edited s).origin = s.origin := by
  unfold edited
  split <;> rfl

@[simp] theorem edited_text (s : SourceText) : (edited s).text = s.text := by
  unfold edited
  split <;> rfl

/-- A file that is imported. -/
def imported? (s : SourceText) : Option RuleFile :=
  match tokenize s.text with
  | .ok stream => some (ofStream s stream)
  | .error _ => none

end RuleFile

/-- A leaf or node of one of the files of a rule set. -/
structure NodeRef where
  file : Nat
  node : Nat
deriving DecidableEq, Repr

/-- The edited file and the files it imports. -/
structure RuleSet where
  edited : RuleFile
  imports : List RuleFile
deriving Repr

namespace RuleSet

/-- All files, the edited one first. -/
def files (s : RuleSet) : List RuleFile := s.edited :: s.imports

/-- Reads the edited text and those that it imports. An import from where the edited text comes
from is left out, and so is one that cannot be read. -/
def ofTexts (edited : SourceText) (imports : List SourceText) : RuleSet :=
  ⟨.edited edited,
    (imports.filter (·.origin != edited.origin)).filterMap RuleFile.imported?⟩

/-- The same imports around another edited text from the same place. -/
def withText (s : RuleSet) (text : List Char) : RuleSet :=
  { s with edited := .edited ⟨s.edited.origin, text⟩ }

/-- The place in a tree that a reference names. -/
def cursor? (s : RuleSet) (n : NodeRef) : Option Cursor :=
  (s.files[n.file]?).bind fun f => f.tree.cursor? n.node

/-- Where the file with a leaf or node comes from. -/
def origin? (s : RuleSet) (n : NodeRef) : Option String :=
  (s.files[n.file]?).bind fun f => (f.tree.cursor? n.node).map fun _ => f.origin

end RuleSet

end XuleLang
