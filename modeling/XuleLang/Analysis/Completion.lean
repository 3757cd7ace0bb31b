import XuleLang.Analysis.Caret
import XuleLang.Analysis.State
import XuleLang.Text.LowerCase
import XuleLang.Text.Similarity

/-!
Completion: what could be inserted at a caret.

What the parser would accept at the caret decides which groups of names are offered, and in which
order. Each group is filtered by what has been typed of a name, and the names most like it come
first. No name is offered twice; the first group that has it counts.

Behind a point only properties are offered. Reserved words come last, and only where no group asks
for names of one special kind. Behind the colon of a qualified name its local names are offered,
and elsewhere in it the short names of namespaces.
-/

namespace XuleLang

/-- How an editor shows an item. -/
inductive ItemKind where
  | function | variableName | property | enumeration | keyword | enumerationMember | constant
deriving DecidableEq, Repr

/-- The number by which an editor knows the kind. -/
def ItemKind.number : ItemKind → Nat
  | function => 3
  | variableName => 6
  | property => 10
  | enumeration => 13
  | keyword => 14
  | enumerationMember => 20
  | constant => 21

/-- A name with a remark on it. -/
structure Offer where
  label : String
  detail : Option String
deriving DecidableEq, Repr

/-- Something that could be inserted. -/
structure CompletionItem where
  label : String
  kind : ItemKind
  detail : Option String
deriving DecidableEq, Repr

/-- A name without a remark. -/
def Offer.plain (label : String) : Offer := ⟨label, none⟩

/-- The offers that what was typed is a subsequence of, those most like it first. If nothing was
typed, all of them as they are. -/
def rankOffers (typed : List Char) (offers : List Offer) : List Offer :=
  if typed.isEmpty then offers
  else
    let needle := lowerCaseAll typed
    let fitting := offers.filter fun o => isSubsequenceOfText needle o.label.toList
    let scored := fitting.map fun o => (jaroWinkler needle (lowerCaseAll o.label.toList), o)
    (scored.mergeSort fun a b => b.1 ≤ a.1).map (·.2)

/-- Names of one kind. -/
structure OfferGroup where
  kind : ItemKind
  offers : List Offer
deriving Repr

/-- The items whose labels do not occur before them. -/
def firstPerLabel (items : List CompletionItem) : List CompletionItem :=
  (items.foldl
    (fun out i => if out.any (·.label == i.label) then out else i :: out) []).reverse

/-- The items of some groups for what was typed. -/
def itemsOf (typed : List Char) (groups : List OfferGroup) : List CompletionItem :=
  firstPerLabel <| groups.flatMap fun g =>
    (rankOffers typed g.offers).map fun o => ⟨o.label, g.kind, o.detail⟩

/-- What was typed before a caret of the name that it stands in or behind. -/
def Caret.typed (c : Caret) : List Char :=
  match c.leaf with
  | none => []
  | some l =>
    if l.token.kind.isIdentifierLike && l.token.index == c.tokenIndex then
      l.token.text.toList.take c.offset
    else []

/-- The short name before the colon of the qualified name that a place is part of, if the place is
not before the colon. -/
def Cursor.typedShortName? (c : Cursor) : Option String := do
  let parent ← c.parent?
  guard (parent.rule? == some .qualifiedName)
  let colon ← parent.childOfKind? (.punctuator .colon)
  guard (colon.id ≤ c.tree.id)
  let first ← parent.firstLeaf?
  return first.token.text

/-- The place whose environment a line and column lies in: the last token that starts before it,
or the root. -/
def SyntaxTree.scopeAnchor (t : SyntaxTree) (line column : Nat) : Cursor :=
  let before := t.root.leaves.reverse.find? fun l =>
    l.token.kind != .endOfInput && l.token.span.start.isBefore line column
  (before.bind fun l => t.cursor? l.id).getD ⟨t.root, []⟩

/-- A caret in an analysed rule set, and what could stand there. -/
structure CompletionRequest where
  analysis : Analysis
  vocabulary : Vocabulary
  candidates : Candidates
  typed : List Char
  /-- The short name typed before a colon. -/
  shortName : Option String
  env : Nat
  tokenIndex : Nat

namespace CompletionRequest

/-- Whether a rule could begin at the caret, or the caret lies in it. -/
def allows (r : CompletionRequest) (rule : Rule) : Bool := r.candidates.rules.contains rule

/-- The known names of a kind. -/
def known (r : CompletionRequest) (k : NameKind) : List Offer :=
  (r.vocabulary.names k).map .plain

/-- The bindings of a kind that are visible at the caret. Those of imported files say where they
come from. -/
def bound (r : CompletionRequest) (k : BindingKind) : List Offer :=
  (r.analysis.symbols.visibleBindings r.env 0 r.tokenIndex k).map fun b =>
    ⟨b.name, if b.declaredAt.file = 0 then none else r.analysis.rules.origin? b.declaredAt⟩

/-- The known functions with their signatures. -/
def knownFunctions (r : CompletionRequest) : List Offer :=
  (r.vocabulary.names .function).map fun f => ⟨f, r.vocabulary.signature? f⟩

/-- The short names of namespaces. -/
def shortNames (r : CompletionRequest) : OfferGroup :=
  ⟨.enumeration, r.analysis.namespaces.shortNames.map .plain⟩

/-- What a qualified name could be made of: local names behind a colon, short names elsewhere. -/
def qualified (r : CompletionRequest) : OfferGroup :=
  match r.shortName with
  | some p =>
    ⟨.enumerationMember, (r.analysis.namespaces.namesFor p).map fun n => ⟨n, some p⟩⟩
  | none => r.shortNames

/-- What could be an operand. -/
def operands (r : CompletionRequest) : List OfferGroup :=
  [⟨.constant, r.bound .constant⟩, ⟨.variableName, r.bound .variableName⟩,
    ⟨.function, r.knownFunctions⟩, ⟨.function, r.bound .function⟩] ++
  (if r.allows .qualifiedName then [] else [r.shortNames]) ++
  [⟨.keyword, r.known .keywordLiteral⟩]

/-- Whether names of one special kind are asked for, so that reserved words are not offered. -/
def isSpecial (r : CompletionRequest) : Bool :=
  r.allows .navigationDirection || r.allows .returnOption || r.allows .outputAttributeName ||
    (r.allows .qualifiedName && r.shortName.isSome)

/-- The reserved words that could stand at the caret. -/
def keywords (r : CompletionRequest) : OfferGroup :=
  ⟨.keyword, (r.candidates.kinds.filterMap TokenKind.keywordText?).map .plain⟩

/-- The groups of names to offer, in order. -/
def groups (r : CompletionRequest) : List OfferGroup :=
  let given (condition : Bool) (gs : List OfferGroup) : List OfferGroup :=
    if condition then gs else []
  if r.allows .propertyRef then [⟨.property, r.known .property⟩]
  else
    given (r.allows .booleanLiteral) [⟨.keyword, [.plain "true", .plain "false"]⟩] ++
    given (r.allows .navigationDirection)
      [⟨.enumerationMember, r.known .navigationDirection⟩] ++
    given (r.allows .returnOption) [⟨.enumerationMember, r.known .returnOption⟩] ++
    given (r.allows .outputAttributeName)
      [⟨.property, r.known .outputAttribute ++ r.bound .outputAttribute⟩] ++
    given (r.allows .assignedVariable) [⟨.variableName, r.bound .variableName⟩] ++
    given (r.allows .qualifiedName) [r.qualified] ++
    given (r.allows .variableRead) r.operands ++
    given (!r.isSpecial) [r.keywords]

end CompletionRequest

namespace Analysis

/-- The request that a line and column of the edited file makes, if it lies in the text. -/
def requestAt? (a : Analysis) (line column : Nat) : Option CompletionRequest := do
  let tree := a.rules.edited.tree
  let caret ← tree.caretAt? line column
  return {
    analysis := a
    vocabulary := .standard
    candidates := candidatesAt tree.tokens caret.tokenIndex
    typed := caret.typed
    shortName := (tree.caretCursor caret).typedShortName?
    env := a.symbols.governingEnv 0 (tree.scopeAnchor line column)
    tokenIndex := caret.tokenIndex }

/-- What could be inserted at a place of the edited file. -/
def completions (a : Analysis) (p : EditorPosition) : List CompletionItem :=
  let position := positionOfEditor a.rules.edited.text p
  match a.requestAt? position.line position.column with
  | some r => itemsOf r.typed r.groups
  | none => []

end Analysis

end XuleLang
