import Narrative.Proofs.Decks
import Narrative.Proofs.Places

/-!
Selections with their bounds checked. Each reading of a list by a place, each exchange, difference
and remainder and each bounded draw of a selection is made again with a check, and a check that
fails ends the selection. Whatever progress a list starts from, no check fails.
-/

set_option autoImplicit false

namespace Narrative.Checked

/-! ### Operations that can fail -/

/-- A difference of numbers of which the second is not greater. -/
def sub? (whole part : Nat) : Option Nat := if part ≤ whole then some (whole - part) else none

/-- A quotient by a number other than zero. -/
def div? (number divisor : Nat) : Option Nat :=
  if divisor = 0 then none else some (number / divisor)

/-- A remainder by a number other than zero. -/
def mod? (number divisor : Nat) : Option Nat :=
  if divisor = 0 then none else some (number % divisor)

/-- Exchanges two items that exist. -/
def swap? (items : List Nat) (first second : Nat) : Option (List Nat) :=
  if first < items.length ∧ second < items.length then some (swapAt items first second) else none

/-- A random number from a range that is not empty. -/
def below? (bound : Nat) (source : RandomSource) : Option (Nat × RandomSource) :=
  if bound = 0 then none else some (source.below bound)

theorem sub?_eq {whole part : Nat} (inside : part ≤ whole) :
    sub? whole part = some (whole - part) :=
  if_pos inside

theorem div?_eq {number divisor : Nat} (positive : 0 < divisor) :
    div? number divisor = some (number / divisor) :=
  if_neg (Nat.ne_of_gt positive)

theorem mod?_eq {number divisor : Nat} (positive : 0 < divisor) :
    mod? number divisor = some (number % divisor) :=
  if_neg (Nat.ne_of_gt positive)

theorem swap?_eq {items : List Nat} {first second : Nat} (left : first < items.length)
    (right : second < items.length) : swap? items first second = some (swapAt items first second) :=
  if_pos ⟨left, right⟩

theorem below?_eq {bound : Nat} (positive : 0 < bound) (source : RandomSource) :
    below? bound source = some (source.below bound) :=
  if_neg (Nat.ne_of_gt positive)

/-! ### Shuffles -/

def refill? (places : PlaceSource) (source : RandomSource) :
    Option (PlaceSource × RandomSource) :=
  if places.left = 0 then do
    let (bound, factor) := factorsBelowWord (places.size + 1) (places.size + 2)
    let (chunk, source) ← below? bound source
    let left ← sub? factor (places.size + 1)
    return (⟨places.size, left, chunk⟩, source)
  else some (places, source)

def nextPlace? (places : PlaceSource) (source : RandomSource) :
    Option (Nat × PlaceSource × RandomSource) := do
  let (filled, source) ← refill? places source
  let size := filled.size + 1
  let left ← sub? filled.left 1
  if left = 0 then return (filled.chunk, ⟨size, left, filled.chunk⟩, source)
  else
    let place ← mod? filled.chunk size
    let rest ← div? filled.chunk size
    return (place, ⟨size, left, rest⟩, source)

def shuffleFrom? : Nat → Nat → PlaceSource → List Nat → RandomSource →
    Option (List Nat × RandomSource)
  | 0, _, _, items, source => some (items, source)
  | count + 1, index, places, items, source => do
    let (place, places, source) ← nextPlace? places source
    let items ← swap? items index place
    shuffleFrom? count (index + 1) places items source

def shuffle? (items : List Nat) (source : RandomSource) : Option (List Nat × RandomSource) :=
  if items.length ≤ 1 then some (items, source)
  else shuffleFrom? items.length 0 .start items source

theorem refill?_eq (places : PlaceSource) (source : RandomSource) :
    refill? places source = some (places.refill source) := by
  unfold refill? PlaceSource.refill
  by_cases empty : places.left = 0
  · have above := (PlaceSource.factors_of_size places.size).1
    have positive := PlaceSource.factors_pos places.size
    rw [if_pos empty, if_pos empty]
    generalize factorsBelowWord (places.size + 1) (places.size + 2) = factors at above positive
    obtain ⟨bound, factor⟩ := factors
    dsimp only at above positive ⊢
    rw [below?_eq positive, Option.bind_eq_bind, Option.bind_some, sub?_eq (Nat.le_of_lt above)]
    rfl
  · rw [if_neg empty, if_neg empty]

theorem nextPlace?_eq {places : PlaceSource} (within : places.Within) (source : RandomSource) :
    nextPlace? places source = some (places.next source) := by
  have served := (PlaceSource.refill_spec within source).2.1
  unfold nextPlace? PlaceSource.next
  rw [refill?_eq, Option.bind_eq_bind, Option.bind_some]
  generalize places.refill source = filled at served
  obtain ⟨filled, later⟩ := filled
  dsimp only at served ⊢
  rw [sub?_eq served, Option.bind_eq_bind, Option.bind_some]
  split
  · rfl
  · rw [mod?_eq (Nat.succ_pos _), div?_eq (Nat.succ_pos _)]
    rfl

/-- Every item is exchanged with one that exists. -/
theorem shuffleFrom?_eq {count index : Nat} {places : PlaceSource} {items : List Nat}
    (within : places.Within) (drawn : places.size = index)
    (inside : index + count ≤ items.length) (source : RandomSource) :
    shuffleFrom? count index places items source =
      some (shuffleFrom count index places items source) := by
  induction count generalizing index places items source with
  | zero => rfl
  | succ count ih =>
    obtain ⟨small, size, kept⟩ := PlaceSource.next_spec within source
    have here : index < items.length := by omega
    have there : (places.next source).1 < items.length := by omega
    rw [shuffleFrom?, shuffleFrom, nextPlace?_eq within, Option.bind_eq_bind, Option.bind_some]
    generalize places.next source = next at small size kept there
    obtain ⟨place, later, source⟩ := next
    dsimp only at small size kept there ⊢
    rw [swap?_eq here there, Option.bind_eq_bind, Option.bind_some]
    apply ih kept
    · rw [size, drawn]
    · rw [length_swapAt]
      omega

theorem shuffle?_eq (items : List Nat) (source : RandomSource) :
    shuffle? items source = some (shuffle items source) := by
  unfold shuffle? shuffle
  split
  · rfl
  · have start : PlaceSource.start.size = 0 := rfl
    exact shuffleFrom?_eq PlaceSource.within_start start (by omega) source

/-! ### Selections -/

def freshOrder? (eligible : List Nat) (avoid : Option Nat) (source : RandomSource) :
    Option (List Nat × RandomSource) := do
  let (order, source) ← shuffle? eligible source
  if 1 < order.length then
    let first ← order[0]?
    if avoid = some first then
      let others ← sub? order.length 1
      let (offset, source) ← below? others source
      let order ← swap? order 0 (1 + offset)
      return (order, source)
    else return (order, source)
  else return (order, source)

/-- Looks for an eligible entry at `count` places of an order, from a place on. -/
def findFrom? (order eligible : List Nat) : Nat → Nat → Option (Option Nat)
  | 0, _ => some none
  | count + 1, place => do
    let entry ← order[place]?
    if eligible.contains entry then return some place
    else findFrom? order eligible count (place + 1)

/-- The entry before the cursor, if the cursor is not at the beginning. -/
def entryBefore? (order : List Nat) (cursor : Nat) : Option (Option Nat) :=
  if cursor = 0 then some none
  else do
    let place ← sub? cursor 1
    let entry ← order[place]?
    return some entry

def seek? (order : List Nat) (cursor : Nat) (eligible : List Nat) (source : RandomSource) :
    Option (List Nat × Nat × Nat × RandomSource) := do
  match ← findFrom? order eligible (order.length - cursor) cursor with
  | some place => return (order, cursor, place, source)
  | none =>
    let last ← entryBefore? order cursor
    let (order, source) ← freshOrder? eligible last source
    return (order, 0, 0, source)

def shuffled? (progress : Progress) (eligible : List Nat) (source : RandomSource) :
    Option Selection := do
  let stored := progress.order.getD []
  let (order, cursor, place, source) ←
    seek? stored (min (progress.cursor.getD 0) stored.length) eligible source
  let order ← swap? order cursor place
  let chosen ← order[cursor]?
  if cursor + 1 = order.length then
    let (order, source) ← freshOrder? eligible (some chosen) source
    return ⟨some chosen, { progress.visited with order := some order, cursor := some 0 }, source⟩
  else
    return ⟨some chosen,
      { progress.visited with order := some order, cursor := some (cursor + 1) }, source⟩

/-- `Selection.byVisits`, checked. The branch that a list of the kind `once` has come to need not
exist. -/
def byVisits? (kind : Discipline) (visits : Nat) (eligible : List Nat) : Option (Option Nat) :=
  match kind with
  | .stopping => do
    let last ← sub? eligible.length 1
    let branch ← eligible[min visits last]?
    return some branch
  | .cycle => do
    let place ← mod? visits eligible.length
    let branch ← eligible[place]?
    return some branch
  | .once => some eligible[visits]?
  | .shuffle => some none

def select? (kind : Discipline) (progress : Progress) (eligible : List Nat)
    (source : RandomSource) : Option Selection :=
  if eligible.isEmpty then some ⟨none, progress, source⟩
  else if kind = .shuffle then shuffled? progress eligible source
  else do
    match ← byVisits? kind progress.visits.toNat eligible with
    | some branch => return ⟨some branch, progress.visited, source⟩
    | none => return ⟨none, progress, source⟩

open Selection (freshOrder)

theorem freshOrder?_eq (eligible : List Nat) (avoid : Option Nat) (source : RandomSource) :
    freshOrder? eligible avoid source = some (freshOrder eligible avoid source) := by
  unfold freshOrder? freshOrder
  rw [shuffle?_eq, Option.bind_eq_bind, Option.bind_some]
  generalize shuffle eligible source = shuffled
  obtain ⟨order, later⟩ := shuffled
  dsimp only
  cases order with
  | nil => simp
  | cons first rest =>
    by_cases several : 1 < (first :: rest).length
    · have others : 0 < (first :: rest).length - 1 := by omega
      have below := later.below_lt others
      rw [if_pos several, List.getElem?_cons_zero, Option.bind_eq_bind, Option.bind_some]
      by_cases again : avoid = some first
      · have same : 1 < (first :: rest).length ∧ avoid.isSome = true ∧
            avoid = (first :: rest).head? := by
          subst again
          exact ⟨several, rfl, rfl⟩
        rw [if_pos again, if_pos same, sub?_eq (by omega), Option.bind_eq_bind, Option.bind_some,
          below?_eq others, Option.bind_eq_bind, Option.bind_some]
        generalize later.below ((first :: rest).length - 1) = draw at below
        obtain ⟨offset, last⟩ := draw
        dsimp only at below ⊢
        rw [swap?_eq (by omega) (by omega)]
        rfl
      · have other : ¬ (1 < (first :: rest).length ∧ avoid.isSome = true ∧
            avoid = (first :: rest).head?) := fun all => again all.2.2
        rw [if_neg again, if_neg other]
        rfl
    · have one : ¬ (1 < (first :: rest).length ∧ avoid.isSome = true ∧
          avoid = (first :: rest).head?) := fun all => several all.1
      rw [if_neg several, if_neg one]
      rfl

theorem findFrom?_eq (order eligible : List Nat) {count place : Nat}
    (inside : place + count = order.length) :
    findFrom? order eligible count place = some (Selection.nextPlace? order eligible place) := by
  induction count generalizing place with
  | zero =>
    rw [findFrom?, Selection.nextPlace?, List.drop_eq_nil_of_le (by omega)]
    rfl
  | succ count ih =>
    have here : place < order.length := by omega
    rw [findFrom?, Selection.nextPlace?, List.getElem?_eq_getElem here, Option.bind_eq_bind,
      Option.bind_some, List.drop_eq_getElem_cons here, List.findIdx?_cons]
    split
    · rfl
    · rw [ih (by omega), Selection.nextPlace?, Option.map_map]
      congr 2
      funext offset
      simp only [Function.comp]
      omega

theorem entryBefore?_eq {order : List Nat} {cursor : Nat} (inside : cursor ≤ order.length) :
    entryBefore? order cursor = some (if cursor = 0 then none else order[cursor - 1]?) := by
  unfold entryBefore?
  by_cases first : cursor = 0
  · rw [if_pos first, if_pos first]
  · have before : cursor - 1 < order.length := by omega
    rw [if_neg first, if_neg first, sub?_eq (by omega), Option.bind_eq_bind, Option.bind_some,
      List.getElem?_eq_getElem before]
    rfl

theorem seek?_eq {order : List Nat} {cursor : Nat} (inside : cursor ≤ order.length)
    (eligible : List Nat) (source : RandomSource) :
    seek? order cursor eligible source = some (Selection.seek order cursor eligible source) := by
  unfold seek? Selection.seek
  rw [findFrom?_eq order eligible (by omega), Option.bind_eq_bind, Option.bind_some]
  cases Selection.nextPlace? order eligible cursor with
  | some place => rfl
  | none =>
    dsimp only
    rw [entryBefore?_eq inside, Option.bind_eq_bind, Option.bind_some, freshOrder?_eq]
    rfl

/-- The next eligible entry stands in the order, at the cursor or behind it. -/
theorem nextPlace?_bounds {order eligible : List Nat} {cursor place : Nat}
    (found : Selection.nextPlace? order eligible cursor = some place) :
    cursor ≤ place ∧ place < order.length := by
  obtain ⟨front, skipped, chosen, back, rfl, rfl, rfl, -, -⟩ := Selection.exists_skipped found
  simp only [List.length_append, List.length_cons]
  omega

theorem shuffled?_eq (progress : Progress) (first : Nat) (rest : List Nat)
    (source : RandomSource) :
    shuffled? progress (first :: rest) source =
      some (Selection.shuffled progress first rest source) := by
  have next := Selection.nextPlace?_seek (List.cons_ne_nil first rest) (progress.order.getD [])
    (min (progress.cursor.getD 0) (progress.order.getD []).length) source
  unfold shuffled? Selection.shuffled
  dsimp only
  rw [seek?_eq (Nat.min_le_right _ _), Option.bind_eq_bind, Option.bind_some]
  generalize Selection.seek (progress.order.getD [])
    (min (progress.cursor.getD 0) (progress.order.getD []).length) (first :: rest) source =
      sought at next
  obtain ⟨order, cursor, place, later⟩ := sought
  dsimp only at next ⊢
  obtain ⟨before, inside⟩ := nextPlace?_bounds next
  have here : cursor < order.length := Nat.lt_of_le_of_lt before inside
  have still : cursor < (swapAt order cursor place).length := by
    rw [length_swapAt]
    exact here
  rw [swap?_eq here inside, Option.bind_eq_bind, Option.bind_some,
    List.getElem?_eq_getElem still, Option.bind_eq_bind, Option.bind_some,
    List.getD_eq_getElem?_getD, List.getElem?_eq_getElem still, Option.getD_some]
  split
  · rw [freshOrder?_eq]
    rfl
  · rfl

theorem byVisits?_eq (kind : Discipline) (visits : Nat) {eligible : List Nat}
    (positive : 0 < eligible.length) :
    byVisits? kind visits eligible = some (Selection.byVisits kind visits eligible) := by
  cases kind with
  | stopping =>
    have inside : min visits (eligible.length - 1) < eligible.length := by omega
    rw [byVisits?, Selection.byVisits, sub?_eq positive, Option.bind_eq_bind, Option.bind_some,
      List.getElem?_eq_getElem inside]
    rfl
  | cycle =>
    have inside := Nat.mod_lt visits positive
    rw [byVisits?, Selection.byVisits, mod?_eq positive, Option.bind_eq_bind, Option.bind_some,
      List.getElem?_eq_getElem inside]
    rfl
  | once => rfl
  | shuffle => rfl

/-- A selection keeps all its bounds. -/
theorem select?_eq (kind : Discipline) (progress : Progress) (eligible : List Nat)
    (source : RandomSource) :
    select? kind progress eligible source = some (select kind progress eligible source) := by
  cases eligible with
  | nil => cases kind <;> rfl
  | cons first rest =>
    have filled : ¬ (first :: rest).isEmpty = true := Bool.false_ne_true
    have positive : 0 < (first :: rest).length := Nat.succ_pos _
    rw [select?, if_neg filled]
    by_cases shuffles : kind = .shuffle
    · rw [if_pos shuffles, shuffles]
      exact shuffled?_eq progress first rest source
    · rw [if_neg shuffles, byVisits?_eq kind _ positive, Option.bind_eq_bind, Option.bind_some,
        select_of_ne_shuffle shuffles]
      cases Selection.byVisits kind progress.visits.toNat (first :: rest) with
      | some branch => rfl
      | none => rfl

/-- A branch that a selection gives is eligible. -/
theorem mem_of_select {kind : Discipline} {progress : Progress} {eligible : List Nat}
    {source : RandomSource} {branch : Nat}
    (chosen : (select kind progress eligible source).branch = some branch) : branch ∈ eligible := by
  by_cases shuffles : kind = .shuffle
  · subst shuffles
    cases eligible with
    | nil => cases chosen
    | cons first rest =>
      obtain ⟨shown, after, visit, same, -⟩ :=
        Selection.visit_selectTold (List.cons_ne_nil first rest) progress source
      rw [chosen] at same
      rw [Option.some.inj same]
      exact visit.branches.1
  · rw [select_of_ne_shuffle shuffles] at chosen
    split at chosen
    · next index found =>
      cases chosen
      cases kind with
      | stopping => exact List.mem_of_getElem? found
      | cycle => exact List.mem_of_getElem? found
      | once => exact List.mem_of_getElem? found
      | shuffle => exact absurd rfl shuffles
    · cases chosen

end Narrative.Checked
