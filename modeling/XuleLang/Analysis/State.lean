import XuleLang.Analysis.Check
import XuleLang.Namespace.Basic

/-!
Analyses: all that is known about a rule set.

`analyze` reads the texts, binds the names and checks them. What it knows besides the diagnostics
is kept to answer questions later, also about another text of the edited file: `withText` analyses
that one against the same imports and configured namespaces.
-/

namespace XuleLang

/-- The texts to analyse and the namespaces that are configured for them. -/
structure AnalysisInput where
  edited : SourceText
  imports : List SourceText
  configured : NamespaceSet
deriving Repr

/-- What is known about a rule set. -/
structure Analysis where
  rules : RuleSet
  symbols : SymbolTable
  /-- The namespaces that are configured, and those that the files declare. -/
  namespaces : NamespaceSet
  configured : NamespaceSet
deriving Repr

namespace Analysis

/-- What is known about files that were read. -/
def ofRuleSet (rules : RuleSet) (configured : NamespaceSet) : Analysis :=
  ⟨rules, .ofRuleSet rules, configured.merge (.ofRuleSet rules), configured⟩

/-- What is known about texts. -/
def ofInput (i : AnalysisInput) : Analysis :=
  ofRuleSet (.ofTexts i.edited i.imports) i.configured

/-- The same with another edited text. -/
def withText (a : Analysis) (text : List Char) : Analysis :=
  ofRuleSet (a.rules.withText text) a.configured

/-- The diagnostics of the edited file. -/
def diagnostics (a : Analysis) (settings : CheckSettings) : List Diagnostic :=
  check a.rules ⟨.standard, a.symbols⟩ settings

end Analysis

end XuleLang
