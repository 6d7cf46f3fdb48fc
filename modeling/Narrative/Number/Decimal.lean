import Narrative.Number.Binary64

/-!
Numbers read from whole texts. A whole number is a sign and digits, a floating-point number may
have a point and an exponent, or be one of the words for infinity and for what is no number.
-/

set_option autoImplicit false

namespace Narrative.Decimal

/-- The value of digits in base ten. -/
def value (digits : List Char) : Nat :=
  digits.foldl (fun total c => 10 * total + (c.toNat - '0'.toNat)) 0

/-- Takes a sign off a text. -/
def signed : List Char → Bool × List Char
  | '-' :: rest => (true, rest)
  | '+' :: rest => (false, rest)
  | text => (false, text)

def areDigits (text : List Char) : Bool := !text.isEmpty && text.all Char.isDigit

/-- Reads a whole number, of any size. -/
def int? (text : List Char) : Option Int :=
  let (negative, digits) := signed text
  if areDigits digits then
    some (if negative then -(value digits : Int) else value digits)
  else none

def int64? (text : List Char) : Option Int64 :=
  match int? text with
  | some number =>
    if Int64.minValue.toInt ≤ number ∧ number ≤ Int64.maxValue.toInt then some (.ofInt number)
    else none
  | none => none

/-- Reads a whole number of 64 bits that is not negative. A plus sign may precede it. -/
def nat64? (text : List Char) : Option Nat :=
  let digits := match text with
    | '+' :: rest => rest
    | text => text
  if areDigits digits ∧ value digits < 2 ^ 64 then some (value digits) else none

/-- Reads an exponent: nothing, or a mark and a whole number. -/
def exponent? : List Char → Option Int
  | [] => some 0
  | c :: rest => if c = 'e' ∨ c = 'E' then int? rest else none

/-- Whether a text is one of the given words when case does not count. -/
def isWord (text : List Char) (words : List String) : Bool :=
  words.contains (String.ofList (text.map Char.toLower))

/-- Reads a floating-point number, rounded to the nearest. Digits may be missing before the point
or after it but not on both sides. -/
def binary64? (text : List Char) : Option Binary64 :=
  let (negative, unsigned) := signed text
  if isWord unsigned ["inf", "infinity"] then some (.infinite negative)
  else if isWord unsigned ["nan"] then some .nan
  else
    let whole := unsigned.takeWhile Char.isDigit
    let after := unsigned.dropWhile Char.isDigit
    let fraction := match after with
      | '.' :: rest => rest.takeWhile Char.isDigit
      | _ => []
    let tail := match after with
      | '.' :: rest => rest.dropWhile Char.isDigit
      | rest => rest
    if whole.isEmpty && fraction.isEmpty then none
    else
      (exponent? tail).map (fun exponent =>
        .ofDecimal negative (value (whole ++ fraction)) (exponent - fraction.length))

end Narrative.Decimal
