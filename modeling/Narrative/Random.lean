/-!
Random choices. A source is an endless sequence of words and the number of words drawn from it so
far, so whatever is drawn depends on nothing else. Bounded numbers and rearrangements are drawn
from it.
-/

set_option autoImplicit false

namespace Narrative

-- Powers are the built-in ones, whatever else is imported.
attribute [instance (high), default_instance 20000] instPowNat

structure RandomSource where
  /-- The word at each place of the sequence. -/
  word : Nat → UInt32
  /-- How many words have been drawn. -/
  drawn : Nat

namespace RandomSource

/-- A source from which nothing has been drawn. -/
def ofWords (word : Nat → UInt32) : RandomSource := ⟨word, 0⟩

/-- A source that repeats a list of words for ever. -/
def cyclic (words : List UInt32) : RandomSource :=
  ofWords (fun place => words.getD (place % words.length) 0)

def next (source : RandomSource) : UInt32 × RandomSource :=
  (source.word source.drawn, { source with drawn := source.drawn + 1 })

/-- A number below a bound. One word is scaled to the bound, and a second word settles the
carry if the first could leave it open. -/
def below (bound : Nat) (source : RandomSource) : Nat × RandomSource :=
  let (first, source) := source.next
  let product := first.toNat * bound
  let high := product / 2 ^ 32
  let low := product % 2 ^ 32
  if 2 ^ 32 - bound < low then
    let (second, source) := source.next
    let carry := second.toNat * bound / 2 ^ 32
    (if 2 ^ 32 ≤ low + carry then high + 1 else high, source)
  else (high, source)

end RandomSource

/-- Exchanges the items at two places of a list, if both exist. -/
def swapAt (items : List Nat) (first second : Nat) : List Nat :=
  (items.toArray.swapIfInBounds first second).toList

@[simp] theorem length_swapAt (items : List Nat) (first second : Nat) :
    (swapAt items first second).length = items.length := by
  simp [swapAt]

/-- The product of as many successive factors, from `factor` on, as keep it below 2 ^ 32, and the
first factor left out. -/
def factorsBelowWord (product factor : Nat) : Nat × Nat :=
  if fits : 0 < product ∧ 1 < factor ∧ product * factor < 2 ^ 32 then
    factorsBelowWord (product * factor) (factor + 1)
  else (product, factor)
termination_by 2 ^ 32 - product
decreasing_by
  have := Nat.lt_mul_iff_one_lt_right fits.1 (b := factor)
  omega

/-- Draws the places that the items of a list are exchanged with, the place for the item at `size`
being at most `size`. One drawn number serves several places. -/
structure PlaceSource where
  /-- The number of places drawn. -/
  size : Nat
  /-- How many more places the drawn number serves. -/
  left : Nat
  /-- What remains of the drawn number. -/
  chunk : Nat

namespace PlaceSource

/-- The first place is zero and needs no number. -/
def start : PlaceSource := ⟨0, 1, 0⟩

/-- Draws a number that serves the next places, unless one is left. -/
def refill (places : PlaceSource) (source : RandomSource) : PlaceSource × RandomSource :=
  if places.left = 0 then
    let (bound, factor) := factorsBelowWord (places.size + 1) (places.size + 2)
    let (chunk, source) := source.below bound
    (⟨places.size, factor - (places.size + 1), chunk⟩, source)
  else (places, source)

def next (places : PlaceSource) (source : RandomSource) : Nat × PlaceSource × RandomSource :=
  let (filled, source) := places.refill source
  let size := filled.size + 1
  let left := filled.left - 1
  if left = 0 then (filled.chunk, ⟨size, left, filled.chunk⟩, source)
  else (filled.chunk % size, ⟨size, left, filled.chunk / size⟩, source)

end PlaceSource

/-- Exchanges the items from place `index` on, `count` of them, each with one not behind it. -/
def shuffleFrom : Nat → Nat → PlaceSource → List Nat → RandomSource → List Nat × RandomSource
  | 0, _, _, items, source => (items, source)
  | count + 1, index, places, items, source =>
    let (place, places, source) := places.next source
    shuffleFrom count (index + 1) places (swapAt items index place) source

/-- A random rearrangement of a list. Fewer than two items need no words. -/
def shuffle (items : List Nat) (source : RandomSource) : List Nat × RandomSource :=
  if items.length ≤ 1 then (items, source)
  else shuffleFrom items.length 0 .start items source

end Narrative
