import Narrative.Json
import Narrative.Json.Number
import Narrative.Json.Reader
import Narrative.KeyMap
import Narrative.Number.Shortest
import Narrative.Text.Quoted

/-!
Values of the variables that guards speak of.
-/

set_option autoImplicit false

namespace Narrative

inductive Value where
  | bool (value : Bool)
  | int (value : Int64)
  | float (value : Binary64)
  | text (value : String)
deriving DecidableEq

namespace Value

/-- Whether a value stands for true where a condition is asked for. -/
def isTruthy : Value → Bool
  | bool value => value
  | int value => value != 0
  | float value => !value.isZero
  | text value => !value.isEmpty

def number? : Value → Option Binary64
  | int value => some (.ofInt value.toInt)
  | float value => some value
  | _ => none

/-- A value as messages show it. -/
def display : Value → String
  | bool value => if value then "true" else "false"
  | int value => toString value.toInt
  | float value => value.display
  | text value => Quoted.text value

/-- The value of a JSON number: a whole number if it is written as one and has at most 64 bits. -/
def ofNumeral? (numeral : Numeral) : Option Value :=
  match numeral.int? with
  | some whole =>
    if Int64.minValue.toInt ≤ whole ∧ whole ≤ Int64.maxValue.toInt then some (int (.ofInt whole))
    else numeral.binary64?.map float
  | none => numeral.binary64?.map float

/-- The value of a JSON scalar. -/
def ofJson? : Json → Option Value
  | .bool value => some (bool value)
  | .number value => ofNumeral? value
  | .text value => value.map text
  | _ => none

end Value

/-- The variables that guards see, by name. -/
abbrev Bindings := KeyMap Value

namespace Bindings

/-- The name and the value of a variable in a field. -/
def ofField? (field : Option String × Json) : Option (String × Value) :=
  match field.1, Value.ofJson? field.2 with
  | some name, some value => some (name, value)
  | _, _ => none

/-- The variables in the fields of an object. All of them must be scalars, the last of one name
counts. -/
def ofFields? (fields : List (Option String × Json)) : Option Bindings :=
  (fields.mapM ofField?).map KeyMap.ofList

def ofJson? : Json → Option Bindings
  | .object fields => ofFields? fields
  | _ => none

def ofString? (source : String) : Option Bindings := (Json.ofString? source).bind ofJson?

end Bindings

end Narrative
