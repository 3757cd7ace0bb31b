import XuleLang.Vocabulary.Basic

/-!
The names that the language knows by itself.

They come in four modules: functions, properties, the words of navigations, and output attributes
together with the words that are values.
-/

namespace XuleLang.Vocabulary

/-- Functions that can be called by their bare names, with what they take. -/
def standardFunctions : List (String × String) :=
  [("all", "all(collection)"), ("any", "any(collection)"), ("avg", "avg(collection)"),
   ("count", "count(collection)"), ("first-value", "first-value(value, ...)"),
   ("max", "max(collection)"), ("min", "min(collection)"), ("prod", "prod(collection)"),
   ("stdev", "stdev(collection)"), ("sum", "sum(collection)"),
   ("dict", "dict(list(key, value), ...)"), ("list", "list(value, ...)"),
   ("set", "set(value, ...)"), ("range", "range(start, stop, step)"),
   ("json-data", "json-data(url)"), ("exists", "exists(value)"), ("missing", "missing(value)"),
   ("number", "number(value)"), ("string", "string(value)"),
   ("qname", "qname(namespace-uri, local-name)"), ("uri", "uri(string)"),
   ("version", "version()"), ("is-base", "is-base(concept)"),
   ("schema-type", "schema-type(qname)"), ("taxonomy", "taxonomy(entry-point-url)"),
   ("unit", "unit(numerator, denominator)"), ("entity", "entity(scheme, identifier)"),
   ("date", "date(string)"), ("duration", "duration(start, end)"), ("forever", "forever()"),
   ("time-span", "time-span(string)"), ("day", "day(date)"), ("month", "month(date)"),
   ("year", "year(date)"), ("abs", "abs(number)"), ("exp", "exp(number)"),
   ("log10", "log10(number)"), ("mod", "mod(number, divisor)"),
   ("power", "power(number, exponent)"), ("round", "round(number, places)"),
   ("signum", "signum(number)"), ("sqrt", "sqrt(number)"), ("trunc", "trunc(number, places)")]

/-- Names accepted behind a point, whatever the value. -/
def standardProperties : List String :=
  ["concept", "period", "unit", "entity", "decimals", "dimension", "dimensions",
   "dimensions-explicit", "dimensions-typed", "id", "inline-scale", "inline-format",
   "inline-display-value", "inline-hidden", "inline-negated", "is-nil", "is-fact", "footnotes",
   "balance", "base-type", "data-type", "enumerations", "has-enumerations", "is-abstract",
   "is-monetary", "is-numeric", "is-type", "label", "labels", "name", "local-name",
   "namespace-uri", "clark", "period-type", "references", "substitution", "attribute", "start",
   "end", "days", "is-forever", "source", "target", "source-name", "target-name", "weight",
   "order", "preferred-label", "arcrole", "arcrole-uri", "arcrole-description", "role",
   "role-uri", "role-description", "link-name", "arc-name", "relationships", "roots", "concepts",
   "cycles-allowed", "networks", "effective-weight", "effective-weight-network", "length",
   "lower-case", "upper-case", "index-of", "last-index-of", "substring", "split", "trim",
   "contains", "starts-with", "ends-with", "to-qname", "plain-string", "string", "number", "abs",
   "int", "decimal", "round", "signum", "log10", "mod", "power", "sqrt", "trunc", "count", "sum",
   "avg", "max", "min", "prod", "stdev", "first", "last", "sort", "join", "keys", "values",
   "has-key", "index", "union", "intersect", "difference", "symmetric-difference", "to-list",
   "to-set", "to-dict", "to-json", "to-spreadsheet", "agg-to-dict", "all", "any", "is-subset",
   "is-superset", "document-location", "entry-point", "entry-point-namespace", "regex-match",
   "regex-match-all", "regex-match-string", "regex-match-string-all", "scheme", "numerator",
   "denominator", "size", "year", "month", "day"]

/-- Directions of a navigation. -/
def standardDirections : List String :=
  ["self", "descendants", "children", "ancestors", "parents", "siblings", "previous-siblings",
   "following-siblings"]

/-- Components of the result of a navigation. -/
def standardReturnOptions : List String :=
  ["source", "target", "source-name", "target-name", "order", "weight", "preferred-label",
   "relationship", "role", "role-uri", "role-description", "arcrole", "arcrole-uri",
   "arcrole-description", "arcrole-cycles-allowed", "link-name", "arc-name", "network", "cycle",
   "navigation-order", "navigation-depth", "result-order", "drs-role", "dimension-type",
   "dimension-sub-type", "usable", "target-usable"]

/-- Attributes that every rule accepts. -/
def standardOutputAttributes : List String :=
  ["message", "severity", "rule-suffix", "rule-focus"]

/-- Words that are values. -/
def standardKeywordLiterals : List String :=
  ["none", "skip"]

def functionsModule : NameModule :=
  ⟨"functions", "Built-in functions callable by bare name", standardFunctions, []⟩

def propertiesModule : NameModule :=
  ⟨"properties", "", [], standardProperties.map (.property, ·)⟩

def navigationModule : NameModule :=
  ⟨"navigation", "", [],
    standardDirections.map (.navigationDirection, ·) ++
      standardReturnOptions.map (.returnOption, ·)⟩

def attributesModule : NameModule :=
  ⟨"attributes", "", [],
    standardOutputAttributes.map (.outputAttribute, ·) ++
      standardKeywordLiterals.map (.keywordLiteral, ·)⟩

/-- The modules of the language, in the order in which they are registered. -/
def standardModules : List NameModule :=
  [functionsModule, propertiesModule, navigationModule, attributesModule]

/-- Registers the modules of the language. -/
def registerStandard (v : Vocabulary) : Vocabulary × Option RegistrationError :=
  v.registerAll standardModules

/-- Every name that the language knows by itself. -/
def standard : Vocabulary := (registerStandard .empty).1

end XuleLang.Vocabulary
