import Narrative.Text.Position

/-!
The lines of a source, found once for all places that are asked for. They are kept as the offsets at
which they begin, and the line of an offset is searched for by halving. Whatever could fail on the
way is checked: a reading of the list by a place, and the step back to the line before.
-/

set_option autoImplicit false

namespace Narrative

/-- What a search in ascending numbers ends with. -/
inductive Found where
  /-- The number stands at a place. -/
  | exact (place : Nat)
  /-- It is missing, and greater numbers begin at a place. -/
  | missing (next : Nat)
deriving DecidableEq

/-- Halves the `size` places from `base` on until one is left. The back half is given up if it
begins with a greater number, and otherwise the front half. -/
def halve? (numbers : List Nat) (sought base size : Nat) : Option Nat :=
  if size ≤ 1 then some base
  else
    match numbers[base + size / 2]? with
    | none => none
    | some middle =>
      halve? numbers sought (if sought < middle then base else base + size / 2) (size - size / 2)
termination_by size

def search? (numbers : List Nat) (sought : Nat) : Option Found :=
  if numbers.isEmpty then some (.missing 0)
  else do
    let place ← halve? numbers sought 0 numbers.length
    let number ← numbers[place]?
    if number = sought then return .exact place
    else if number < sought then return .missing (place + 1)
    else return .missing place

/-- The lines of a source, by the offsets at which they begin. -/
structure LineIndex where
  source : List Char
  starts : List Nat

namespace LineIndex

/-- The offsets behind the line feeds of a text that begins at an offset. -/
def startsFrom (offset : Nat) : List Char → List Nat
  | [] => []
  | c :: text =>
    if c = '\n' then (offset + 1) :: startsFrom (offset + c.utf8Size) text
    else startsFrom (offset + c.utf8Size) text

def ofSource (source : List Char) : LineIndex := ⟨source, 0 :: startsFrom 0 source⟩

/-- The line of an offset, from zero: that which begins there, or the one before those that begin
behind it. -/
def line? (index : LineIndex) (offset : Nat) : Option Nat := do
  match ← search? index.starts offset with
  | .exact place => some place
  | .missing 0 => none
  | .missing (next + 1) => some next

/-- The place of a byte offset. Offsets past the end stand for the end, and an offset inside a
character has the first column. -/
def position? (index : LineIndex) (offset : Nat) : Option Position := do
  let offset := min offset (byteLength index.source)
  let line ← index.line? offset
  let start ← index.starts[line]?
  let before := (slice? index.source (.ofBytes start offset)).getD []
  return ⟨offset, line + 1, before.length + 1⟩

/-- A span with the lines and columns that its offsets ask for. -/
def locate? (index : LineIndex) (span : Span) : Option Span := do
  let start ← index.position? span.start.offset
  let stop ← index.position? span.stop.offset
  return ⟨start, stop⟩

end LineIndex

end Narrative
