import Narrative.Document
import Narrative.Random

/-!
Selection of branches. What a list has shown so far is its progress, and each visit chooses among
the branches that are eligible in it, which are given by their indices in the order of the text.
-/

set_option autoImplicit false

namespace Narrative

/-- What is kept of a list between visits. -/
structure Progress where
  /-- The number of visits that showed a branch, which stops at the greatest word. -/
  visits : UInt32
  /-- The order of the current round of a shuffle. -/
  order : Option (List Nat)
  /-- The place in that order that comes next. -/
  cursor : Option Nat
deriving DecidableEq

namespace Progress

/-- The progress of a list before its first visit. -/
def none : Progress := ⟨0, Option.none, Option.none⟩

instance : Inhabited Progress := ⟨none⟩

def visited (progress : Progress) : Progress :=
  { progress with visits := if progress.visits = 0xFFFFFFFF then progress.visits
                            else progress.visits + 1 }

end Progress

/-- What a visit chooses, and what it leaves behind. -/
structure Selection where
  branch : Option Nat
  progress : Progress
  source : RandomSource

namespace Selection

/-- The branch that the number of earlier visits asks for. -/
def byVisits (kind : Discipline) (visits : Nat) (eligible : List Nat) : Option Nat :=
  match kind with
  | .stopping => eligible[min visits (eligible.length - 1)]?
  | .cycle => eligible[visits % eligible.length]?
  | .once => eligible[visits]?
  | .shuffle => none

/-- A random order of the eligible branches that does not begin with `avoid`, unless there is no
other branch. -/
def freshOrder (eligible : List Nat) (avoid : Option Nat) (source : RandomSource) :
    List Nat × RandomSource :=
  let (order, source) := shuffle eligible source
  if 1 < order.length ∧ avoid.isSome ∧ avoid = order.head? then
    let (offset, source) := source.below (order.length - 1)
    (swapAt order 0 (1 + offset), source)
  else (order, source)

/-- The place of the next eligible entry of an order, from the cursor on. -/
def nextPlace? (order eligible : List Nat) (cursor : Nat) : Option Nat :=
  ((order.drop cursor).findIdx? eligible.contains).map (cursor + ·)

/-- The order and the place that a shuffle goes on with: the next eligible entry from the cursor
on, or the beginning of a fresh order if there is none. -/
def seek (order : List Nat) (cursor : Nat) (eligible : List Nat) (source : RandomSource) :
    List Nat × Nat × Nat × RandomSource :=
  match nextPlace? order eligible cursor with
  | some place => (order, cursor, place, source)
  | none =>
    let last := if cursor = 0 then none else order[cursor - 1]?
    let (order, source) := freshOrder eligible last source
    (order, 0, 0, source)

/-- A visit of a shuffle. The chosen entry is moved to the cursor. After the last entry of an order
the next one is drawn at once, so that order and cursor alone say what follows. -/
def shuffled (progress : Progress) (first : Nat) (rest : List Nat) (source : RandomSource) :
    Selection :=
  let eligible := first :: rest
  let stored := progress.order.getD []
  let (order, cursor, place, source) :=
    seek stored (min (progress.cursor.getD 0) stored.length) eligible source
  let order := swapAt order cursor place
  let chosen := order.getD cursor first
  if cursor + 1 = order.length then
    let (order, source) := freshOrder eligible (some chosen) source
    ⟨some chosen, { progress.visited with order := some order, cursor := some 0 }, source⟩
  else
    ⟨some chosen, { progress.visited with order := some order, cursor := some (cursor + 1) },
      source⟩

end Selection

/-- Chooses among the eligible branches. If nothing is eligible, or a list that shows each branch
once is at its end, nothing is chosen and nothing changes. -/
def select (kind : Discipline) (progress : Progress) (eligible : List Nat)
    (source : RandomSource) : Selection :=
  match kind, eligible with
  | .shuffle, first :: rest => Selection.shuffled progress first rest source
  | kind, eligible =>
    match Selection.byVisits kind progress.visits.toNat eligible with
    | some branch => ⟨some branch, progress.visited, source⟩
    | none => ⟨none, progress, source⟩

end Narrative
