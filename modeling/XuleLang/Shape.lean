import XuleLang.Json

/-!
Shapes of JSON values: what is understood of them.

A shape takes a value and gives what it understands of it, or nothing if the value is not as it must
be. What it gives is of the same shape, and all of that is understood. Members of an object that are
not known are dropped, and so are those that need not be there and are `null`. An object may also be
given as the list of the values of all its members in order.
-/

namespace XuleLang

/-- What is understood of a value. -/
abbrev Shape := Json → Option Json

namespace Shape

/-- A text. -/
def text : Shape
  | .string s => some (.string s)
  | _ => none

/-- A truth value. -/
def flag : Shape
  | .bool b => some (.bool b)
  | _ => none

/-- A whole number within bounds. -/
def whole (low high : Int) : Shape
  | .number n => if low ≤ n && n ≤ high then some (.number n) else none
  | _ => none

/-- Any value. -/
def any : Shape := some

/-- One of some words. A word may also be the key of an object, with `null` as its value. -/
def word (words : List String) : Shape
  | .string s => if words.contains s then some (.string s) else none
  | .object [(s, .null)] => if words.contains s then some (.string s) else none
  | _ => none

/-- A list of values of one shape. -/
def listOf (item : Shape) : Shape
  | .array items => (items.mapM item).map .array
  | _ => none

/-- A value of the first shape, or else of the second one. -/
def either (first second : Shape) : Shape := fun j => (first j).or (second j)

/-- A member of an object. -/
structure Field where
  name : String
  /-- Whether it must be there. -/
  isNeeded : Bool
  shape : Shape

/-- What is understood of a member that may not be there. -/
def Field.read (f : Field) : Option Json → Option (Option (String × Json))
  | none => if f.isNeeded then none else some none
  | some j =>
    if !f.isNeeded && j matches .null then some none
    else (f.shape j).map fun understood => some (f.name, understood)

/-- What is understood of members, with none for those that are not there. -/
def readFields (fields : List Field) (values : List (Option Json)) : Option Json := do
  let members ← (fields.zip values).mapM fun (f, j) => Field.read f j
  return .object (members.filterMap id)

/-- An object with some members. -/
def record (fields : List Field) : Shape
  | .object members => readFields fields (fields.map fun f => members.lookup f.name)
  | .array items =>
    if items.length = fields.length then readFields fields (items.map some) else none
  | _ => none

/-- A member that must be there. -/
def needed (name : String) (shape : Shape) : Field := ⟨name, true, shape⟩

/-- A member that need not be there. -/
def optional (name : String) (shape : Shape) : Field := ⟨name, false, shape⟩

end Shape

end XuleLang
