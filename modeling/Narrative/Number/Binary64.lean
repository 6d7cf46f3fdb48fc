/-!
Binary floating-point numbers of 64 bits, as exact numbers. A magnitude is a whole number of units
of 2 ^ -1074, and rounding a fraction finds the nearest magnitude, the even one of two.
-/

set_option autoImplicit false

namespace Narrative

-- Powers are the built-in ones, whatever else is imported.
attribute [instance (high), default_instance 20000] instPowNat

/-- The nearest whole number to a fraction, the even one of two. -/
def divideToEven (numerator denominator : Nat) : Nat :=
  let quotient := numerator / denominator
  let twice := 2 * (numerator % denominator)
  if twice < denominator then quotient
  else if denominator < twice then quotient + 1
  else if quotient % 2 = 0 then quotient
  else quotient + 1

/-- Whether a significand and a scale are those of a magnitude: the significand has at most 53
bits, and all of them unless the scale is the least. -/
def IsMagnitude (significand scale : Nat) : Prop :=
  significand < 2 ^ 53 ∧ scale ≤ 2045 ∧ (scale = 0 ∨ 2 ^ 52 ≤ significand)

instance (significand scale : Nat) : Decidable (IsMagnitude significand scale) :=
  inferInstanceAs (Decidable (_ ∧ _ ∧ (_ ∨ _)))

/-- A finite number without its sign. -/
structure Magnitude where
  significand : Nat
  /-- Exponent of two, counted from the least one. -/
  scale : Nat
  valid : IsMagnitude significand scale
deriving DecidableEq

namespace Magnitude

/-- The magnitude in units of 2 ^ -1074. -/
def units (value : Magnitude) : Nat := value.significand * 2 ^ value.scale

def zero : Magnitude := ⟨0, 0, by decide⟩

def unitsPerOne : Nat := 2 ^ 1074

/-- The magnitude with the given parts, or nothing if they exceed the greatest magnitude. -/
def ofParts? (significand scale : Nat) : Option Magnitude :=
  if valid : IsMagnitude significand scale then some ⟨significand, scale, valid⟩ else none

/-- The magnitude nearest to a number of units given as a fraction, the even one of two. Nothing
if that is beyond the greatest magnitude. -/
def ofUnits? (numerator denominator : Nat) : Option Magnitude :=
  let scale := Nat.log2 (numerator / denominator) + 1 - 53
  let significand := divideToEven numerator (denominator * 2 ^ scale)
  if significand = 2 ^ 53 then ofParts? (2 ^ 52) (scale + 1) else ofParts? significand scale

/-- The magnitude nearest to a fraction. -/
def ofRatio? (numerator denominator : Nat) : Option Magnitude :=
  ofUnits? (numerator * unitsPerOne) denominator

/-- The rounded product of two magnitudes. -/
def mul? (first second : Magnitude) : Option Magnitude :=
  ofUnits? (first.units * second.units) unitsPerOne

/-- The rounded quotient of two magnitudes. -/
def div? (first second : Magnitude) : Option Magnitude :=
  ofRatio? first.units second.units

/-- The magnitude nearest to `digits * 10 ^ exponent`. Exponents that leave no doubt are answered
before any power of ten is taken. -/
def ofDecimal? (digits : Nat) (exponent : Int) : Option Magnitude :=
  if digits = 0 then some zero
  else if 400 < exponent then none
  else if exponent < -(400 + (Nat.log2 digits : Int)) then some zero
  else if 0 ≤ exponent then ofRatio? (digits * 10 ^ exponent.toNat) 1
  else ofRatio? digits (10 ^ (-exponent).toNat)

end Magnitude

/-- A binary floating-point number of 64 bits. -/
inductive Binary64 where
  | nan
  | infinite (negative : Bool)
  | finite (negative : Bool) (magnitude : Magnitude)
deriving DecidableEq

namespace Binary64

/-- A signed magnitude, an infinity if there is none. -/
def ofMagnitude (negative : Bool) : Option Magnitude → Binary64
  | some magnitude => finite negative magnitude
  | none => infinite negative

/-- The number nearest to a whole number. -/
def ofInt (value : Int) : Binary64 :=
  ofMagnitude (value < 0) (Magnitude.ofRatio? value.natAbs 1)

/-- The number nearest to a signed `digits * 10 ^ exponent`. -/
def ofDecimal (negative : Bool) (digits : Nat) (exponent : Int) : Binary64 :=
  ofMagnitude negative (Magnitude.ofDecimal? digits exponent)

/-- A number's place among the others: its units, with the infinities beyond all of them. Both
zeros have the same place, and what is not a number has none. -/
def place? : Binary64 → Option Int
  | nan => none
  | infinite negative => some (if negative then -2 ^ 2098 else 2 ^ 2098)
  | finite negative magnitude => some (if negative then -magnitude.units else magnitude.units)

/-- Compares two numbers by their places. -/
def compare? (first second : Binary64) : Option Ordering :=
  match first.place?, second.place? with
  | some first, some second => some (compare first second)
  | _, _ => none

/-- Whether a number is one of the two zeros. -/
def isZero (value : Binary64) : Bool := value.place? == some 0

end Binary64

end Narrative
