import Narrative.Number.Decimal
import Narrative.Text.Blank
import Narrative.Value

/-!
The language of guards: names, literals, comparisons, `!`, `&&` and `||`, without parentheses.
Alternatives are tried from left to right and end with the first that holds, and so do the terms of
an alternative with the first that does not. Quoted texts hide all signs inside.
-/

set_option autoImplicit false

namespace Narrative

inductive Comparison where
  | atLeast
  | atMost
  | equal
  | unequal
  | greater
  | less
deriving DecidableEq

namespace Comparison

def sign : Comparison → String
  | atLeast => ">="
  | atMost => "<="
  | equal => "=="
  | unequal => "!="
  | greater => ">"
  | less => "<"

/-- Every comparison, those with longer signs first. -/
def all : List Comparison := [atLeast, atMost, equal, unequal, greater, less]

/-- Whether a comparison holds of two things in the given order. -/
def holds : Comparison → Ordering → Bool
  | atLeast, order => order != .lt
  | atMost, order => order != .gt
  | equal, order => order == .eq
  | unequal, order => order != .eq
  | greater, order => order == .gt
  | less, order => order == .lt

/-- Whether a comparison asks for an order, and not only for equality. -/
def isOrdering : Comparison → Bool
  | equal | unequal => false
  | _ => true

end Comparison

inductive GuardError where
  | emptyGuard
  | missingOperand
  | unknownVariable (name : String)
  | unorderedBooleans (comparison : Comparison)
  | incomparable (left : Value) (comparison : Comparison) (right : Value)
deriving DecidableEq

def GuardError.message : GuardError → String
  | emptyGuard => "empty guard"
  | missingOperand => "missing operand"
  | unknownVariable name => "unknown variable: " ++ name
  | unorderedBooleans comparison => "cannot order booleans with " ++ comparison.sign
  | incomparable left comparison right =>
    "cannot compare " ++ left.display ++ " " ++ comparison.sign ++ " " ++ right.display

namespace Value

/-- The order of two values: of texts by their characters, of booleans with false first, of
numbers by size. Values of different sorts have none. -/
def order? : Value → Value → Option Ordering
  | text left, text right => some (compare left right)
  | bool left, bool right => some (compare left right)
  | left, right =>
    match left.number?, right.number? with
    | some left, some right => left.compare? right
    | _, _ => none

/-- Compares two values. Equality is always answered, an order only between two texts or two
numbers. -/
def compare? (left : Value) (comparison : Comparison) (right : Value) : Except GuardError Bool :=
  match left.order? right with
  | some order =>
    match left with
    | bool _ =>
      if comparison.isOrdering then .error (.unorderedBooleans comparison)
      else .ok (comparison.holds order)
    | _ => .ok (comparison.holds order)
  | none =>
    match comparison with
    | .equal => .ok false
    | .unequal => .ok true
    | _ => .error (.incomparable left comparison right)

end Value

namespace GuardText

/-- Whether a character opens and closes quoted text. -/
def isQuote (c : Char) : Bool := c == '"' || c == '\''

/-- The quote that is open after a character. -/
def quoteAfter (quote : Option Char) (c : Char) : Option Char :=
  match quote with
  | some mark => if c = mark then none else quote
  | none => if isQuote c then some c else none

/-- Cuts a text at the next separator outside quotes, given the quote open at its start. -/
def cut? (separator : List Char) : Option Char → List Char → Option (List Char × List Char)
  | _, [] => none
  | quote, c :: rest =>
    if quote.isNone && !isQuote c && separator.isPrefixOf (c :: rest) then
      some ([], (c :: rest).drop separator.length)
    else
      (cut? separator (quoteAfter quote c) rest).map (fun (front, back) => (c :: front, back))

theorem cut?_shorter {separator : List Char} {quote : Option Char} {text front back : List Char}
    (nonempty : separator ≠ []) (found : cut? separator quote text = some (front, back)) :
    back.length < text.length := by
  induction text generalizing quote front with
  | nil => simp [cut?] at found
  | cons c rest ih =>
    unfold cut? at found
    split at found
    · simp only [Option.some.injEq, Prod.mk.injEq] at found
      have := List.length_pos_iff.2 nonempty
      rw [← found.2]
      simp only [List.length_drop, List.length_cons]
      omega
    · obtain ⟨pair, inner, same⟩ := Option.map_eq_some_iff.1 found
      simp only [Prod.mk.injEq] at same
      have shifted : cut? separator (quoteAfter quote c) rest = some (pair.1, back) := by
        rw [inner, ← same.2]
      exact Nat.lt_succ_of_lt (ih shifted)

/-- The parts of a text between separators outside quotes. -/
def split (separator : List Char) (nonempty : separator ≠ []) (text : List Char) :
    List (List Char) :=
  match found : cut? separator none text with
  | some (front, back) =>
    have := cut?_shorter nonempty found
    front :: split separator nonempty back
  | none => [text]
termination_by text.length

/-- The comparison whose sign is at the front of a text. -/
def comparisonAt? (text : List Char) : Option Comparison :=
  Comparison.all.find? (fun comparison => comparison.sign.toList.isPrefixOf text)

/-- Finds the first comparison outside quotes, with the texts before and after it. -/
def comparison? : Option Char → List Char → Option (List Char × Comparison × List Char)
  | _, [] => none
  | quote, c :: rest =>
    let here := if quote.isNone && !isQuote c then comparisonAt? (c :: rest) else none
    match here with
    | some comparison => some ([], comparison, (c :: rest).drop comparison.sign.length)
    | none =>
      (comparison? (quoteAfter quote c) rest).map
        (fun (front, comparison, back) => (c :: front, comparison, back))

/-- The text between two quotes of one kind. -/
def unquote? : List Char → Option (List Char)
  | [] => none
  | quote :: rest =>
    if isQuote quote && rest.getLast? == some quote then some rest.dropLast else none

/-- The value of an operand: a quoted text, a literal, a variable, or any other number. A whole
number comes before a variable of that name, a floating-point number after it. -/
def operand (bindings : Bindings) (text : List Char) : Except GuardError Value :=
  if text.isEmpty then .error .missingOperand
  else
    match unquote? text with
    | some content => .ok (.text (String.ofList content))
    | none =>
      let name := String.ofList text
      if name = "true" then .ok (.bool true)
      else if name = "false" then .ok (.bool false)
      else
        match Decimal.int64? text with
        | some number => .ok (.int number)
        | none =>
          match bindings.get? name with
          | some value => .ok value
          | none =>
            match Decimal.binary64? text with
            | some number => .ok (.float number)
            | none => .error (.unknownVariable name)

theorem length_trimStart_le (text : List Char) : (trimStart text).length ≤ text.length :=
  (List.dropWhile_suffix isBlank).length_le

theorem length_trim_le (text : List Char) : (trim text).length ≤ text.length := by
  have outer := length_trimStart_le (trimStart text).reverse
  have inner := length_trimStart_le text
  simp only [trim, List.length_reverse] at *
  omega

/-- The answer of a term: a comparison, a negated term, or an operand by itself. -/
def term (bindings : Bindings) (text : List Char) : Except GuardError Bool :=
  if text.isEmpty then .error .missingOperand
  else
    match comparison? none text with
    | some (left, comparison, right) =>
      match operand bindings (trim left) with
      | .error error => .error error
      | .ok left =>
        match operand bindings (trim right) with
        | .error error => .error error
        | .ok right => left.compare? comparison right
    | none =>
      match text with
      | '!' :: rest => (term bindings (trim rest)).map (!·)
      | text => (operand bindings text).map Value.isTruthy
termination_by text.length
decreasing_by exact Nat.lt_succ_of_le (length_trim_le rest)

/-- Whether all terms hold, up to the first that does not. -/
def allHold (bindings : Bindings) : List (List Char) → Except GuardError Bool
  | [] => .ok true
  | first :: rest =>
    match term bindings (trim first) with
    | .error error => .error error
    | .ok false => .ok false
    | .ok true => allHold bindings rest

/-- Whether some alternative holds, up to the first that does. -/
def someHolds (bindings : Bindings) : List (List Char) → Except GuardError Bool
  | [] => .ok false
  | first :: rest =>
    match allHold bindings (split ['&', '&'] (by simp) first) with
    | .error error => .error error
    | .ok true => .ok true
    | .ok false => someHolds bindings rest

def evaluate (bindings : Bindings) (guard : String) : Except GuardError Bool :=
  let text := trim guard.toList
  if text.isEmpty then .error .emptyGuard
  else someHolds bindings (split ['|', '|'] (by simp) text)

end GuardText

end Narrative
