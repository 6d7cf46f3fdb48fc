/-!
JSON values, close to how they are written: numbers keep their digits, objects keep their fields in
order and repeated ones too.
-/

set_option autoImplicit false

namespace Narrative

/-- A number as it is written. -/
structure Numeral where
  negative : Bool
  /-- The digits before the point, which have no leading zeros. -/
  integer : Nat
  /-- The digits after the point, none if there is no point. -/
  fraction : List Char
  exponent : Option Int
deriving DecidableEq

def Numeral.ofNat (value : Nat) : Numeral := ⟨false, value, [], none⟩

/-- A JSON value. A string that holds half of a surrogate pair is no text, and is kept as `none`,
also as the name of a field. -/
inductive Json where
  | null
  | bool (value : Bool)
  | number (value : Numeral)
  | text (value : Option String)
  | array (items : List Json)
  | object (fields : List (Option String × Json))

instance : Inhabited Json := ⟨.null⟩

end Narrative
