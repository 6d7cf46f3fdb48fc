import Narrative.Json
import Narrative.Number.Binary64

/-!
The values of JSON numbers. Whole numbers are those written without a point and an exponent. A
floating-point value is formed from as many leading digits as fit 64 bits, scaled by powers of ten
with a rounding at every step, so its last bit may differ from that of the nearest number.
-/

set_option autoImplicit false

namespace Narrative

namespace Magnitude

def scaleUp? (value : Magnitude) (exponent : Nat) : Option Magnitude :=
  if exponent ≤ 308 then (ofDecimal? 1 exponent).bind value.mul?
  else if value.significand = 0 then some value
  else none

def scaleDown? (value : Magnitude) (exponent : Nat) : Option Magnitude :=
  if exponent ≤ 308 then (ofDecimal? 1 exponent).bind value.div?
  else if value.significand = 0 then some value
  else ((ofDecimal? 1 308).bind value.div?).bind (fun less => less.scaleDown? (exponent - 308))
termination_by exponent

end Magnitude

namespace Numeral

/-- Appends digits to a number as long as it stays below 2 ^ 64, and gives the digits left. -/
def absorb : Nat → List Char → Nat × List Char
  | total, [] => (total, [])
  | total, c :: rest =>
    let next := 10 * total + (c.toNat - '0'.toNat)
    if next < 2 ^ 64 then absorb next rest else (total, c :: rest)

/-- The leading digits of a number and the power of ten that they are scaled by. Digits after the
point may follow those before it even if some of the latter did not fit. -/
def leading (numeral : Numeral) : Nat × Int :=
  let (whole, dropped) := absorb 0 (Nat.toDigits 10 numeral.integer)
  let (digits, unread) := absorb whole numeral.fraction
  (digits, dropped.length - (numeral.fraction.length - unread.length : Nat))

/-- The floating-point value of a number, or nothing if it is out of range. -/
def binary64? (numeral : Numeral) : Option Binary64 := do
  let (digits, point) := numeral.leading
  let exponent := point + numeral.exponent.getD 0
  let value ← Magnitude.ofRatio? digits 1
  let scaled ←
    if 0 ≤ exponent then value.scaleUp? exponent.toNat else value.scaleDown? (-exponent).toNat
  return .finite numeral.negative scaled

/-- The value of a number that is written as a whole number. A negative zero is none. -/
def int? (numeral : Numeral) : Option Int :=
  if numeral.fraction.isEmpty && numeral.exponent.isNone then
    if numeral.negative then
      if numeral.integer = 0 then none else some (-(numeral.integer : Int))
    else some numeral.integer
  else none

/-- The value of a number that is written as a whole number without a sign. -/
def nat? (numeral : Numeral) : Option Nat :=
  match numeral.int? with
  | some (.ofNat value) => some value
  | _ => none

end Numeral

end Narrative
