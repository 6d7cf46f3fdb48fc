import Narrative.Json.Number
import Narrative.Json.Printer
import Narrative.Json.Reader
import Narrative.Store

/-!
Stores as JSON texts. A store is an object from identities to progress, and progress an object of
the number of visits and, if present, order and cursor. Reading also takes the three as an array,
passes over unknown fields, and takes null for what is absent.
-/

set_option autoImplicit false

namespace Narrative

namespace Progress

def natJson (value : Nat) : Json := .number (.ofNat value)

/-- The order as a field, if there is one. -/
def orderField : Option (List Nat) → List (Option String × Json)
  | some order => [(some "order", .array (order.map natJson))]
  | Option.none => []

/-- The cursor as a field, if there is one. -/
def cursorField : Option Nat → List (Option String × Json)
  | some cursor => [(some "cursor", natJson cursor)]
  | Option.none => []

def toJson (progress : Progress) : Json :=
  .object ((some "counter", natJson progress.visits.toNat) ::
    (orderField progress.order ++ cursorField progress.cursor))

def natBelow? (bound : Nat) : Json → Option Nat
  | .number value => value.nat?.filter (· < bound)
  | _ => Option.none

def visits? (json : Json) : Option UInt32 := (natBelow? (2 ^ 32) json).map UInt32.ofNat

/-- A value that may be absent. -/
def optional? {α : Type} (read : Json → Option α) : Json → Option (Option α)
  | .null => some Option.none
  | json => (read json).map some

/-- An order, or null for none. -/
def order? : Json → Option (Option (List Nat)) :=
  optional? (fun json =>
    match json with
    | .array items => items.mapM (natBelow? (2 ^ 64))
    | _ => Option.none)

/-- A cursor, or null for none. -/
def cursor? : Json → Option (Option Nat) := optional? (natBelow? (2 ^ 64))

/-- The only value of a field. Nothing stands for a field that is repeated. -/
def single? (fields : List (Option String × Json)) (name : String) : Option (Option Json) :=
  match fields.filter (fun field => field.1 == some name) with
  | [] => some Option.none
  | [(_, value)] => some (some value)
  | _ => Option.none

/-- Reads a value that may be absent. -/
def absentOr? {α : Type} (read : Json → Option (Option α)) : Option Json → Option (Option α)
  | some json => read json
  | Option.none => some Option.none

/-- Progress in the fields of an object, whose names must all be texts. -/
def ofFields? (fields : List (Option String × Json)) : Option Progress := do
  let visits ← single? fields "counter"
  let order ← single? fields "order"
  let cursor ← single? fields "cursor"
  if fields.all (fun field => field.1.isSome) then
    return ⟨← visits? (← visits), ← absentOr? order? order, ← absentOr? cursor? cursor⟩
  else Option.none

/-- Progress in JSON, as an object or as an array. -/
def ofJson? : Json → Option Progress
  | .object fields => ofFields? fields
  | .array [visits] => return ⟨← visits? visits, Option.none, Option.none⟩
  | .array [visits, order] => return ⟨← visits? visits, ← order? order, Option.none⟩
  | .array [visits, order, cursor] =>
    return ⟨← visits? visits, ← order? order, ← cursor? cursor⟩
  | _ => Option.none

end Progress

namespace Store

/-- A store in JSON, in the order of the identities. -/
def toJson (store : Store) : Json :=
  .object (store.entries.map (fun entry => (some entry.1, entry.2.toJson)))

def ofField? (field : Option String × Json) : Option (String × Progress) :=
  match field.1, Progress.ofJson? field.2 with
  | some identity, some progress => some (identity, progress)
  | _, _ => none

/-- A store in JSON. Of two fields with one name the later counts. -/
def ofJson? : Json → Option Store
  | .object fields => (fields.mapM ofField?).map KeyMap.ofList
  | _ => none

/-- Writes a store in one line. -/
def save (store : Store) : String := store.toJson.compact

/-- Writes a store on indented lines. -/
def savePretty (store : Store) : String := store.toJson.pretty

def restore? (text : String) : Option Store := (Json.ofString? text).bind ofJson?

end Store

end Narrative
