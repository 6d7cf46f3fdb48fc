import Narrative.Proofs.Bounds

/-!
Fresh orders in machine words. A fresh order is drawn again with words of 32 bits in place of
numbers: a product is made in 64 bits and cut into a high and a low word, the limit from which a
carry is looked at is a negated word, and a drawn number is divided as a word. A sum or a bound that
is no word, a division by zero, an empty range and an exchange with an item that does not exist end
the drawing. With fewer than 2 ^ 32 branches none of this happens, whatever words the source gives,
and what is drawn is the fresh order.
-/

set_option autoImplicit false

namespace Narrative.Machine

/-! ### Words -/

/-- A number as a word, if it has at most 32 bits. -/
def word? (number : Nat) : Option UInt32 :=
  if number < 2 ^ 32 then some (.ofNat number) else none

/-- The sum of two words, if it is a word. -/
def add? (first second : UInt32) : Option UInt32 := word? (first.toNat + second.toNat)

/-- The next word, if there is one. -/
def succ? (word : UInt32) : Option UInt32 := word? (word.toNat + 1)

/-- The quotient and the remainder of two words. -/
def divMod? (number divisor : UInt32) : Option (UInt32 × UInt32) :=
  if divisor = 0 then none else some (number / divisor, number % divisor)

/-- The high and the low word of a product. -/
def wideProduct (first second : UInt32) : UInt32 × UInt32 :=
  let product := first.toUInt64 * second.toUInt64
  ((product >>> 32).toUInt32, product.toUInt32)

theorem exists_word? {number : Nat} (fits : number < 2 ^ 32) :
    ∃ word, word? number = some word ∧ word.toNat = number :=
  ⟨.ofNat number, if_pos fits, UInt32.toNat_ofNat_of_lt fits⟩

theorem word?_eq_none {number : Nat} (wide : 2 ^ 32 ≤ number) : word? number = none :=
  if_neg (Nat.not_lt.2 wide)

theorem exists_divMod? (number : UInt32) {divisor : UInt32} (positive : 0 < divisor.toNat) :
    ∃ quotient remainder, divMod? number divisor = some (quotient, remainder) ∧
      quotient.toNat = number.toNat / divisor.toNat ∧
      remainder.toNat = number.toNat % divisor.toNat := by
  have nonzero : divisor ≠ 0 := by
    rintro rfl
    exact absurd positive (by decide)
  exact ⟨_, _, if_neg nonzero, UInt32.toNat_div number divisor, UInt32.toNat_mod number divisor⟩

/-- The two words of a product are its quotient and remainder by 2 ^ 32. -/
theorem wideProduct_eq (first second : UInt32) :
    (wideProduct first second).1.toNat = first.toNat * second.toNat / 2 ^ 32 ∧
      (wideProduct first second).2.toNat = first.toNat * second.toNat % 2 ^ 32 := by
  have left := first.toNat_lt
  have right := second.toNat_lt
  have bound : first.toNat * second.toNat < 2 ^ 32 * 2 ^ 32 := Nat.mul_lt_mul'' left right
  have product : (first.toUInt64 * second.toUInt64).toNat = first.toNat * second.toNat := by
    rw [UInt64.toNat_mul, UInt32.toNat_toUInt64, UInt32.toNat_toUInt64]
    exact Nat.mod_eq_of_lt bound
  have high : first.toNat * second.toNat / 2 ^ 32 < 2 ^ 32 := Nat.div_lt_of_lt_mul bound
  have shift : (32 : UInt64).toNat % 64 = 32 := by decide
  constructor
  · rw [wideProduct, UInt64.toNat_toUInt32, UInt64.toNat_shiftRight, product, shift,
      Nat.shiftRight_eq_div_pow, Nat.mod_eq_of_lt high]
  · rw [wideProduct, UInt64.toNat_toUInt32, product]

/-- A negated word is what is missing to 2 ^ 32. -/
theorem toNat_neg {word : UInt32} (positive : 0 < word.toNat) :
    (-word).toNat = 2 ^ 32 - word.toNat := by
  rw [UInt32.toNat_neg]
  exact Nat.mod_eq_of_lt (Nat.sub_lt (by decide) positive)

/-! ### Bounded draws -/

/-- The high word, or the next one if the sum of the low word and the carry is no word. -/
def carried? (high low carry : UInt32) : Option UInt32 :=
  match add? low carry with
  | some _ => some high
  | none => succ? high

def below? (bound : UInt32) (source : RandomSource) : Option (UInt32 × RandomSource) :=
  if bound = 0 then none
  else
    let (first, source) := source.next
    let (high, low) := wideProduct first bound
    if -bound < low then
      let (second, source) := source.next
      (carried? high low (wideProduct second bound).1).map (·, source)
    else some (high, source)

theorem exists_carried? {high low carry : UInt32}
    (fits : (if 2 ^ 32 ≤ low.toNat + carry.toNat then high.toNat + 1 else high.toNat) < 2 ^ 32) :
    ∃ number, carried? high low carry = some number ∧
      number.toNat = if 2 ^ 32 ≤ low.toNat + carry.toNat then high.toNat + 1 else high.toNat := by
  unfold carried? add?
  by_cases carries : 2 ^ 32 ≤ low.toNat + carry.toNat
  · rw [if_pos carries] at fits ⊢
    rw [word?_eq_none carries]
    exact exists_word? fits
  · obtain ⟨sum, added, -⟩ := exists_word? (Nat.lt_of_not_le carries)
    rw [if_neg carries, added]
    exact ⟨high, rfl, rfl⟩

/-- A number is drawn in words as it is in numbers. With the carry it is still below the bound, so
that it is a word. -/
theorem exists_below? {bound : UInt32} (positive : 0 < bound.toNat) (source : RandomSource) :
    ∃ number, below? bound source = some (number, (source.below bound.toNat).2) ∧
      number.toNat = (source.below bound.toNat).1 := by
  have nonzero : bound ≠ 0 := by
    rintro rfl
    exact absurd positive (by decide)
  have small := Nat.lt_trans (source.below_lt positive) bound.toNat_lt
  have limit := toNat_neg positive
  obtain ⟨high, low⟩ := wideProduct_eq source.next.1 bound
  obtain ⟨carry, -⟩ := wideProduct_eq source.next.2.next.1 bound
  unfold below?
  unfold RandomSource.below at small ⊢
  rw [if_neg nonzero]
  simp only [UInt32.lt_iff_toNat_lt, limit, ← high, ← low, ← carry] at small ⊢
  by_cases late : 2 ^ 32 - bound.toNat < (wideProduct source.next.1 bound).2.toNat
  · simp only [if_pos late] at small ⊢
    obtain ⟨number, corrected, same⟩ := exists_carried? small
    rw [corrected]
    exact ⟨number, rfl, same⟩
  · simp only [if_neg late]
    exact ⟨_, rfl, rfl⟩

/-! ### Places -/

/-- `PlaceSource` with words for the number of places drawn and for what remains of the drawn
number. -/
structure Places where
  size : UInt32
  left : Nat
  chunk : UInt32

namespace Places

/-- The same in numbers. -/
def value (places : Places) : PlaceSource := ⟨places.size.toNat, places.left, places.chunk.toNat⟩

@[simp] theorem value_size (places : Places) : places.value.size = places.size.toNat := rfl

@[simp] theorem value_left (places : Places) : places.value.left = places.left := rfl

def start : Places := ⟨0, 1, 0⟩

theorem within_start : start.value.Within := PlaceSource.within_start

def refill? (places : Places) (source : RandomSource) : Option (Places × RandomSource) :=
  if places.left = 0 then do
    let first ← succ? places.size
    let (product, factor) := factorsBelowWord first.toNat (first.toNat + 1)
    let bound ← word? product
    let (chunk, source) ← below? bound source
    let left ← Checked.sub? factor first.toNat
    return (⟨places.size, left, chunk⟩, source)
  else some (places, source)

def next? (places : Places) (source : RandomSource) : Option (UInt32 × Places × RandomSource) := do
  let (filled, source) ← places.refill? source
  let size ← succ? filled.size
  let left ← Checked.sub? filled.left 1
  if left = 0 then return (filled.chunk, ⟨size, left, filled.chunk⟩, source)
  else
    let (rest, place) ← divMod? filled.chunk size
    return (place, ⟨size, left, rest⟩, source)

end Places

/-- A product of factors is a word if the first of them is one: each further factor is tested
before it is taken. -/
theorem factorsBelowWord_lt (product factor : Nat) (fits : product < 2 ^ 32) :
    (factorsBelowWord product factor).1 < 2 ^ 32 := by
  induction product, factor using factorsBelowWord.induct with
  | case1 product factor more ih =>
    rw [factorsBelowWord, dif_pos more]
    exact ih more.2.2
  | case2 product factor full =>
    rwa [factorsBelowWord, dif_neg full]

namespace Places

variable {places : Places}

/-- A number is drawn for the next places as it is in numbers, as long as there are fewer than
2 ^ 32 places. -/
theorem exists_refill? (short : places.size.toNat + 1 < 2 ^ 32) (source : RandomSource) :
    ∃ filled, places.refill? source = some (filled, (places.value.refill source).2) ∧
      filled.value = (places.value.refill source).1 := by
  unfold refill? PlaceSource.refill
  by_cases empty : places.left = 0
  · rw [if_pos empty, if_pos (show places.value.left = 0 from empty)]
    obtain ⟨first, added, successor⟩ := exists_word? short
    obtain ⟨bound, made, product⟩ :=
      exists_word? (factorsBelowWord_lt _ (places.size.toNat + 2) short)
    have positive := PlaceSource.factors_pos places.size.toNat
    have above := (PlaceSource.factors_of_size places.size.toNat).1
    rw [← product] at positive
    obtain ⟨chunk, drawn, number⟩ := exists_below? positive source
    rw [succ?, added, Option.bind_eq_bind, Option.bind_some, successor]
    dsimp only [value]
    rw [made, Option.bind_some, drawn, Option.bind_eq_bind, Option.bind_some,
      Checked.sub?_eq (Nat.le_of_lt above), product]
    refine ⟨_, rfl, ?_⟩
    rw [number, product]
  · rw [if_neg empty, if_neg (show places.value.left ≠ 0 from empty)]
    exact ⟨places, rfl, rfl⟩

/-- The next place is drawn as it is in numbers. -/
theorem exists_next? (short : places.size.toNat + 1 < 2 ^ 32) (within : places.value.Within)
    (source : RandomSource) :
    ∃ place later, places.next? source = some (place, later, (places.value.next source).2.2) ∧
      place.toNat = (places.value.next source).1 ∧
      later.value = (places.value.next source).2.1 := by
  obtain ⟨filled, drawn, same⟩ := exists_refill? short source
  obtain ⟨kept, served, -⟩ := PlaceSource.refill_spec within source
  unfold next? PlaceSource.next
  rw [drawn, Option.bind_eq_bind, Option.bind_some]
  generalize places.value.refill source = refilled at same kept served
  obtain ⟨numbers, later⟩ := refilled
  obtain rfl : filled.value = numbers := same
  dsimp only
  rw [value_size, value_size] at kept
  rw [value_left] at served
  have few : filled.size.toNat + 1 < 2 ^ 32 := by rwa [kept]
  obtain ⟨size, added, successor⟩ := exists_word? few
  rw [succ?, added, Option.bind_eq_bind, Option.bind_some,
    Checked.sub?_eq (show 1 ≤ filled.left from served), Option.bind_eq_bind, Option.bind_some]
  by_cases last : filled.left - 1 = 0
  · have numbersLast : filled.value.left - 1 = 0 := last
    rw [if_pos last, if_pos numbersLast]
    refine ⟨filled.chunk, _, rfl, rfl, ?_⟩
    rw [value, successor]
    rfl
  · have numbersMore : filled.value.left - 1 ≠ 0 := last
    obtain ⟨rest, place, divided, quotient, remainder⟩ :=
      exists_divMod? filled.chunk (show 0 < size.toNat by omega)
    rw [successor] at quotient remainder
    rw [if_neg last, if_neg numbersMore, divided]
    refine ⟨place, _, rfl, remainder, ?_⟩
    rw [value, successor, quotient]
    rfl

end Places

/-! ### Orders -/

def shuffleFrom? : Nat → Nat → Places → List Nat → RandomSource → Option (List Nat × RandomSource)
  | 0, _, _, items, source => some (items, source)
  | count + 1, index, places, items, source => do
    let (place, places, source) ← places.next? source
    let items ← Checked.swap? items index place.toNat
    shuffleFrom? count (index + 1) places items source

def shuffle? (items : List Nat) (source : RandomSource) : Option (List Nat × RandomSource) :=
  if items.length ≤ 1 then some (items, source)
  else shuffleFrom? items.length 0 .start items source

def freshOrder? (eligible : List Nat) (avoid : Option Nat) (source : RandomSource) :
    Option (List Nat × RandomSource) := do
  let (order, source) ← shuffle? eligible source
  if 1 < order.length then
    let first ← order[0]?
    if avoid = some first then
      let others ← word? (order.length - 1)
      let (offset, source) ← below? others source
      let order ← Checked.swap? order 0 (1 + offset.toNat)
      return (order, source)
    else return (order, source)
  else return (order, source)

/-- Every item is exchanged with one in front of it or with itself, so that both exist. -/
theorem shuffleFrom?_eq {count index : Nat} {places : Places} {items : List Nat}
    (short : items.length < 2 ^ 32) (within : places.value.Within)
    (drawn : places.size.toNat = index) (inside : index + count ≤ items.length)
    (source : RandomSource) :
    shuffleFrom? count index places items source =
      some (shuffleFrom count index places.value items source) := by
  -- On the items left. `Within` bounds what remains of the drawn number for their places.
  induction count generalizing index places items source with
  | zero => rfl
  | succ count ih =>
    have few : places.size.toNat + 1 < 2 ^ 32 := by omega
    obtain ⟨small, size, kept⟩ := PlaceSource.next_spec within source
    obtain ⟨place, later, step, number, value⟩ := Places.exists_next? few within source
    rw [shuffleFrom?, shuffleFrom, step, Option.bind_eq_bind, Option.bind_some]
    generalize places.value.next source = next at small size kept number value
    obtain ⟨numbers, laterNumbers, source⟩ := next
    dsimp only at small size kept number value ⊢
    subst number value
    rw [Places.value_size] at small
    rw [Places.value_size, Places.value_size] at size
    rw [Checked.swap?_eq (by omega) (by omega), Option.bind_eq_bind, Option.bind_some]
    apply ih
    · rwa [length_swapAt]
    · exact kept
    · rw [size, drawn]
    · rw [length_swapAt]
      omega

theorem shuffle?_eq {items : List Nat} (short : items.length < 2 ^ 32) (source : RandomSource) :
    shuffle? items source = some (shuffle items source) := by
  unfold shuffle? shuffle
  split
  · rfl
  · have whole : 0 + items.length ≤ items.length := by omega
    exact shuffleFrom?_eq short Places.within_start rfl whole source

open Selection (freshOrder freshOrder_perm)

/-- An item to avoid at the front is exchanged with another one, which exists. -/
theorem freshOrder?_eq {eligible : List Nat} (short : eligible.length < 2 ^ 32)
    (avoid : Option Nat) (source : RandomSource) :
    freshOrder? eligible avoid source = some (freshOrder eligible avoid source) := by
  have size := (shuffle_perm eligible source).length_eq
  rw [← Checked.freshOrder?_eq]
  unfold freshOrder? Checked.freshOrder?
  rw [shuffle?_eq short, Checked.shuffle?_eq, Option.bind_eq_bind, Option.bind_some,
    Option.bind_some]
  generalize shuffle eligible source = shuffled at size
  obtain ⟨order, later⟩ := shuffled
  dsimp only at size ⊢
  by_cases several : 1 < order.length
  · obtain ⟨others, made, number⟩ := exists_word? (show order.length - 1 < 2 ^ 32 by omega)
    obtain ⟨offset, drawn, value⟩ := exists_below? (show 0 < others.toNat by omega) later
    have first : order[0]? = some order[0] := List.getElem?_eq_getElem (by omega)
    rw [if_pos several, if_pos several, first, Option.bind_eq_bind, Option.bind_some,
      Option.bind_some]
    by_cases again : avoid = some order[0]
    · rw [if_pos again, if_pos again, made, Checked.sub?_eq (by omega), ← number]
      simp only [Option.bind_eq_bind, Option.bind_some]
      rw [drawn, Checked.below?_eq (by omega)]
      simp only [Option.bind_some, value]
    · rw [if_neg again, if_neg again]
  · rw [if_neg several, if_neg several]

/-- A fresh order of fewer than 2 ^ 32 branches is drawn in words: no sum and no bound runs over a
word, no range is empty, and every exchange is with a branch that exists. What is drawn is a
rearrangement of the branches, and if there are several, it does not begin with the one to
avoid. -/
theorem freshOrder_in_words {eligible : List Nat} (nodup : eligible.Nodup)
    (short : eligible.length < 2 ^ 32) (avoid : Option Nat) (source : RandomSource) :
    ∃ order later, freshOrder? eligible avoid source = some (order, later) ∧
      freshOrder eligible avoid source = (order, later) ∧ order.Perm eligible ∧
      (2 ≤ eligible.length → order.head? ≠ avoid) := by
  have perm := freshOrder_perm eligible avoid source
  refine ⟨_, _, freshOrder?_eq short avoid source, rfl, perm, ?_⟩
  intro several
  cases avoid with
  | some last => exact Selection.head?_freshOrder_ne nodup several last source
  | none =>
    have filled : (freshOrder eligible none source).1 ≠ [] := by
      apply List.ne_nil_of_length_pos
      rw [perm.length_eq]
      omega
    rwa [ne_eq, List.head?_eq_none_iff]

/-- The first word leaves the carry open, the second one carries, and the shuffle begins with the
branch to avoid, so that a third word is drawn. -/
theorem freshOrder_in_words_carried :
    let words := RandomSource.cyclic [213000005, 4294967295]
    [4, 7, 9].Nodup ∧ [4, 7, 9].length < 2 ^ 32 ∧ (shuffle [4, 7, 9] words).1 = [9, 4, 7] ∧
      (freshOrder [4, 7, 9] (some 9) words).2.drawn = 3 ∧
      ∃ order later, freshOrder? [4, 7, 9] (some 9) words = some (order, later) ∧
        freshOrder [4, 7, 9] (some 9) words = (order, later) ∧ order.Perm [4, 7, 9] ∧
        (2 ≤ [4, 7, 9].length → order.head? ≠ some 9) :=
  ⟨by decide, by decide, by cbv, by cbv,
    freshOrder_in_words (by decide) (by decide) (some 9) (.cyclic [213000005, 4294967295])⟩

end Narrative.Machine
