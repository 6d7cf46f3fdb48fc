import Narrative.Number.Binary64

/-!
Numbers written in decimal with the fewest digits that read back as the same number. Of two such
texts of equal length the nearer one is taken, and of two equally near the greater. There is never
an exponent.
-/

set_option autoImplicit false

namespace Narrative

namespace Magnitude

/-- The exact value, the two ends of the interval of numbers that round to it, and whether the ends
belong to it, in quarters of a unit. The interval is narrower below a power of two. -/
structure Interval where
  value : Nat
  low : Nat
  high : Nat
  closed : Bool

/-- The interval of numbers that round to a magnitude. -/
def interval (magnitude : Magnitude) : Interval :=
  let gap := 2 ^ magnitude.scale
  let value := 4 * magnitude.units
  { value
    low := value - (if magnitude.significand = 2 ^ 52 then gap else 2 * gap)
    high := value + 2 * gap
    closed := magnitude.significand % 2 = 0 }

def quartersPerOne : Nat := 4 * unitsPerOne

/-- Whether `steps` steps of the given size lie in an interval, both given over one denominator. -/
def Interval.holds (interval : Interval) (denominator step steps : Nat) : Bool :=
  let point := steps * step
  let low := interval.low * denominator
  let high := interval.high * denominator
  (low < point || (interval.closed && low == point)) &&
    (point < high || (interval.closed && point == high))

/-- The multiple of `10 ^ exponent` in an interval that is nearest to its value. Only the two
neighbours of the value can be that. -/
def Interval.onGrid? (interval : Interval) (exponent : Int) : Option Nat :=
  let denominator := 10 ^ (-exponent).toNat
  let step := quartersPerOne * 10 ^ exponent.toNat
  let below := interval.value * denominator / step
  let excess := interval.value * denominator % step
  let holdsBelow := interval.holds denominator step below
  let holdsAbove := interval.holds denominator step (below + 1)
  if holdsAbove && (!holdsBelow || step ≤ 2 * excess) then some (below + 1)
  else if holdsBelow then some below
  else none

/-- Tries grids from coarse to fine, `count` more of them at most. -/
def Interval.shortest (interval : Interval) : Nat → Int → Nat × Int
  | 0, exponent => (interval.value * 10 ^ (-exponent).toNat / quartersPerOne, exponent)
  | count + 1, exponent =>
    match interval.onGrid? exponent with
    | some digits => (digits, exponent)
    | none => interval.shortest count (exponent - 1)

/-- The number of digits before the decimal point, negative for zeros after it. -/
def decimalPoint (magnitude : Magnitude) : Int :=
  (Nat.toDigits 10 (magnitude.units * 10 ^ 350 / unitsPerOne)).length - 350

/-- The shortest digits of a magnitude, as a whole number and an exponent of ten. Eighteen grids
are more than are ever needed. -/
def shortest (magnitude : Magnitude) : Nat × Int :=
  magnitude.interval.shortest 18 (magnitude.decimalPoint - 1)

/-- Writes `digits * 10 ^ exponent` without an exponent and without needless zeros. -/
def positional (digits : Nat) (exponent : Int) : List Char :=
  if 0 ≤ exponent then Nat.toDigits 10 (digits * 10 ^ exponent.toNat)
  else
    let places := (-exponent).toNat
    let whole := Nat.toDigits 10 (digits / 10 ^ places)
    let part := Nat.toDigits 10 (digits % 10 ^ places)
    let padded := List.replicate (places - part.length) '0' ++ part
    let significant := (padded.reverse.dropWhile (· == '0')).reverse
    if significant.isEmpty then whole else whole ++ '.' :: significant

/-- The shortest decimal text of a magnitude. -/
def display (magnitude : Magnitude) : String :=
  if magnitude.significand = 0 then "0"
  else
    let (digits, exponent) := magnitude.shortest
    String.ofList (positional digits exponent)

end Magnitude

def Binary64.display : Binary64 → String
  | nan => "NaN"
  | infinite negative => (if negative then "-" else "") ++ "inf"
  | finite negative magnitude => (if negative then "-" else "") ++ magnitude.display

end Narrative
