import Narrative.Json
import Narrative.Number.Decimal
import Narrative.Text.Taken

/-!
Reading JSON values. The form is strict: no leading zeros, no trailing commas, no control characters
in strings, and nothing after the value but white space.
-/

set_option autoImplicit false

namespace Narrative.Json

/-- White space between the tokens of JSON. -/
def isSpace (c : Char) : Bool := c == ' ' || c == '\t' || c == '\n' || c == '\r'

def skipSpace (source : List Char) : List Char := source.dropWhile isSpace

theorem length_skipSpace_le (source : List Char) :
    (skipSpace source).length ≤ source.length := length_dropWhile_le isSpace source

def hexDigit? (c : Char) : Option Nat :=
  if c.isDigit then some (c.toNat - '0'.toNat)
  else if 'a' ≤ c ∧ c ≤ 'f' then some (c.toNat - 'a'.toNat + 10)
  else if 'A' ≤ c ∧ c ≤ 'F' then some (c.toNat - 'A'.toNat + 10)
  else none

/-- Reads four hexadecimal digits. -/
def codeUnit? : (source : List Char) → Option (Taken Nat source)
  | a :: b :: c :: d :: rest =>
    match hexDigit? a, hexDigit? b, hexDigit? c, hexDigit? d with
    | some a, some b, some c, some d =>
      some ⟨((a * 16 + b) * 16 + c) * 16 + d, rest, by simp only [List.length_cons]; omega⟩
    | _, _, _, _ => none
  | _ => none

/-- Whether a code unit is the first half of a surrogate pair. -/
def isLeading (unit : Nat) : Bool := 0xD800 ≤ unit && unit < 0xDC00

/-- Whether a code unit is the second half of a surrogate pair. -/
def isTrailing (unit : Nat) : Bool := 0xDC00 ≤ unit && unit < 0xE000

def ofPair (leading trailing : Nat) : Char :=
  Char.ofNat (0x10000 + (leading - 0xD800) * 0x400 + (trailing - 0xDC00))

/-- Reads an escape by code units, from after its `u`. Half of a pair gives no character. -/
def unicodeEscape? (source : List Char) : Option (Taken (Option Char) source) :=
  match codeUnit? source with
  | none => none
  | some first =>
    if isLeading first.value then
      match split : first.rest with
      | '\\' :: 'u' :: after =>
        match codeUnit? after with
        | none => some ⟨none, first.rest, first.shorter⟩
        | some second =>
          if isTrailing second.value then
            some ⟨some (ofPair first.value second.value), second.rest, by
              have := first.shorter
              have := second.shorter
              simp only [split, List.length_cons] at *
              omega⟩
          else some ⟨none, first.rest, first.shorter⟩
      | _ => some ⟨none, first.rest, first.shorter⟩
    else if isTrailing first.value then some ⟨none, first.rest, first.shorter⟩
    else some ⟨some (Char.ofNat first.value), first.rest, first.shorter⟩

def shortEscape? : Char → Option Char
  | '"' => some '"'
  | '\\' => some '\\'
  | '/' => some '/'
  | 'b' => some '\x08'
  | 'f' => some '\x0C'
  | 'n' => some '\n'
  | 'r' => some '\r'
  | 't' => some '\t'
  | _ => none

/-- Reads an escape, from after its backslash. -/
def escape? : (source : List Char) → Option (Taken (Option Char) source)
  | 'u' :: rest =>
    (unicodeEscape? rest).map (Taken.widen · (by simp only [List.length_cons]; omega))
  | c :: rest =>
    (shortEscape? c).map (fun c => ⟨some c, rest, by simp only [List.length_cons]; omega⟩)
  | [] => none

/-- The characters that stand for themselves in a string. -/
def isPlain (c : Char) : Bool := c != '"' && c != '\\' && 0x20 ≤ c.toNat

/-- Reads a string, from after its opening quote. -/
def string? (source : List Char) : Option (Taken (Option (List Char)) source) :=
  have bound := length_dropWhile_le isPlain source
  match split : source.dropWhile isPlain with
  | '"' :: rest =>
    some ⟨some (source.takeWhile isPlain), rest, by
      simp only [split, List.length_cons] at bound; omega⟩
  | '\\' :: after =>
    match escape? after with
    | none => none
    | some escaped =>
      have inside : escaped.rest.length < source.length := by
        have := escaped.shorter
        simp only [split, List.length_cons] at bound
        omega
      match string? escaped.rest with
      | none => none
      | some more =>
        let value := match escaped.value, more.value with
          | some c, some chars => some (source.takeWhile isPlain ++ c :: chars)
          | _, _ => none
        some ⟨value, more.rest, Nat.le_trans more.shorter (Nat.le_of_lt inside)⟩
  | _ => none
termination_by source.length

/-- Reads the digits after a point. -/
def fraction? (source : List Char) : Option (Taken (List Char) source) :=
  match source with
  | '.' :: rest =>
    if (rest.takeWhile Char.isDigit).isEmpty then none
    else some ⟨rest.takeWhile Char.isDigit, rest.dropWhile Char.isDigit,
      Nat.le_succ_of_le (length_dropWhile_le Char.isDigit rest)⟩
  | source => some (.nothing source [])

def exponentSign (source : List Char) : Taken Bool source :=
  match source with
  | '-' :: rest => ⟨true, rest, Nat.le_succ _⟩
  | '+' :: rest => ⟨false, rest, Nat.le_succ _⟩
  | source => .nothing source false

def exponent? (source : List Char) : Option (Taken (Option Int) source) :=
  match source with
  | c :: after =>
    if c = 'e' ∨ c = 'E' then
      let sign := exponentSign after
      let digits := sign.rest.takeWhile Char.isDigit
      if digits.isEmpty then none
      else
        let size : Int := Decimal.value digits
        some ⟨some (if sign.value then -size else size), sign.rest.dropWhile Char.isDigit, by
          have := length_dropWhile_le Char.isDigit sign.rest
          have := sign.shorter
          simp only [List.length_cons]
          omega⟩
    else some (.nothing (c :: after) none)
  | [] => some (.nothing [] none)

/-- Reads the digits before a point: a zero, or digits of which the first is none. -/
def integer? (source : List Char) : Option (Taken Nat source) :=
  match source with
  | '0' :: rest => some ⟨0, rest, Nat.le_succ _⟩
  | source =>
    let digits := source.takeWhile Char.isDigit
    if digits.isEmpty then none
    else some ⟨Decimal.value digits, source.dropWhile Char.isDigit,
      length_dropWhile_le Char.isDigit source⟩

/-- Reads a number without its sign. -/
def unsigned? (negative : Bool) (source : List Char) : Option (Taken Numeral source) := do
  let integer ← integer? source
  let fraction ← fraction? integer.rest
  let exponent ← exponent? fraction.rest
  return ⟨⟨negative, integer.value, fraction.value, exponent.value⟩, exponent.rest,
    Nat.le_trans exponent.shorter (Nat.le_trans fraction.shorter integer.shorter)⟩

def number? (source : List Char) : Option (Taken Numeral source) :=
  match source with
  | '-' :: rest => (unsigned? true rest).map (Taken.widen · (Nat.le_succ _))
  | source => unsigned? false source

/-- A reader of the values inside arrays and objects. -/
abbrev ValueReader := (source : List Char) → Option (Taken Json source)

/-- Reads the items of an array up to its closing bracket. There is at least one. -/
def items? (value? : ValueReader) (source : List Char) : Option (Taken (List Json) source) :=
  match value? (skipSpace source) with
  | none => none
  | some item =>
    have bound := Nat.le_trans (length_skipSpace_le item.rest)
      (Nat.le_trans item.shorter (length_skipSpace_le source))
    match split : skipSpace item.rest with
    | ',' :: after =>
      have inside : after.length < source.length := by
        simp only [split, List.length_cons] at bound
        omega
      match items? value? after with
      | none => none
      | some more =>
        some ⟨item.value :: more.value, more.rest,
          Nat.le_trans more.shorter (Nat.le_of_lt inside)⟩
    | ']' :: after =>
      some ⟨[item.value], after, by simp only [split, List.length_cons] at bound; omega⟩
    | _ => none
termination_by source.length

def field? (value? : ValueReader) (source : List Char) :
    Option (Taken (Option String × Json) source) :=
  have outer := length_skipSpace_le source
  match opened : skipSpace source with
  | '"' :: start =>
    match string? start with
    | none => none
    | some name =>
      have middle := Nat.le_trans (length_skipSpace_le name.rest) name.shorter
      match split : skipSpace name.rest with
      | ':' :: after =>
        match value? (skipSpace after) with
        | none => none
        | some value =>
          some ⟨(name.value.map String.ofList, value.value), value.rest, by
            have := value.shorter
            have := length_skipSpace_le after
            simp only [opened, List.length_cons] at outer
            simp only [split, List.length_cons] at middle
            omega⟩
      | _ => none
  | _ => none

/-- Reads the fields of an object up to its closing brace. There is at least one. -/
def fields? (value? : ValueReader) (source : List Char) :
    Option (Taken (List (Option String × Json)) source) :=
  match field? value? source with
  | none => none
  | some field =>
    have bound := Nat.le_trans (length_skipSpace_le field.rest) field.shorter
    match split : skipSpace field.rest with
    | ',' :: after =>
      have inside : after.length < source.length := by
        simp only [split, List.length_cons] at bound
        omega
      match fields? value? after with
      | none => none
      | some more =>
        some ⟨field.value :: more.value, more.rest,
          Nat.le_trans more.shorter (Nat.le_of_lt inside)⟩
    | '}' :: after =>
      some ⟨[field.value], after, by simp only [split, List.length_cons] at bound; omega⟩
    | _ => none
termination_by source.length

/-- Takes a word off the front of a text. -/
def word? (word : List Char) (value : Json) (source : List Char) : Option (Taken Json source) :=
  if word.isPrefixOf source then
    some ⟨value, source.drop word.length, by simp only [List.length_drop]; omega⟩
  else none

/-- Reads a value that starts at the front of a text, given a reader for the values inside. -/
def valueWith (value? : ValueReader) : ValueReader := fun source =>
  match source with
  | '"' :: rest =>
    (string? rest).map (fun found =>
      ⟨.text (found.value.map String.ofList), found.rest, Nat.le_succ_of_le found.shorter⟩)
  | '[' :: rest =>
    have bound := length_skipSpace_le rest
    match split : skipSpace rest with
    | ']' :: after =>
      some ⟨.array [], after, by simp only [split, List.length_cons] at *; omega⟩
    | _ => (items? value? rest).map (fun found =>
        ⟨.array found.value, found.rest, Nat.le_succ_of_le found.shorter⟩)
  | '{' :: rest =>
    have bound := length_skipSpace_le rest
    match split : skipSpace rest with
    | '}' :: after =>
      some ⟨.object [], after, by simp only [split, List.length_cons] at *; omega⟩
    | _ => (fields? value? rest).map (fun found =>
        ⟨.object found.value, found.rest, Nat.le_succ_of_le found.shorter⟩)
  | 'n' :: rest => word? "null".toList .null ('n' :: rest)
  | 't' :: rest => word? "true".toList (.bool true) ('t' :: rest)
  | 'f' :: rest => word? "false".toList (.bool false) ('f' :: rest)
  | source => (number? source).map (fun found => ⟨.number found.value, found.rest, found.shorter⟩)

/-- Reads a value with arrays and objects nested at most `depth` deep. -/
def value? : Nat → (source : List Char) → Option (Taken Json source)
  | 0, _ => none
  | depth + 1, source => valueWith (value? depth) source

/-- Reads a whole text as one value. No text nests deeper than it is long. -/
def ofChars? (source : List Char) : Option Json :=
  match value? (source.length + 1) (skipSpace source) with
  | some found => if (skipSpace found.rest).isEmpty then some found.value else none
  | none => none

def ofString? (source : String) : Option Json := ofChars? source.toList

end Narrative.Json
