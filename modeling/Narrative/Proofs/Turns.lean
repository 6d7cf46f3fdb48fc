import Narrative.Proofs.Repetition

/-!
Cycles over branches that stay eligible. A cycle shows the branch that its count asks for, so while
it counts its visits it shows one branch after the other, and the first one again behind the last.
The count stops at the greatest word. A cycle that has come there shows one branch for ever.
-/

set_option autoImplicit false

namespace Narrative.Selection

variable {eligible : List Nat} {branch next : Nat}

/-- One branch of a list comes behind another one, or the first behind the last. -/
def InTurn (eligible : List Nat) (branch next : Nat) : Prop :=
  ∃ place, eligible[place]? = some branch ∧
    eligible[(place + 1) % eligible.length]? = some next

/-- Two counts ask for branches in turn if they are one apart, up to whole rounds. -/
theorem inTurn_iff (nodup : eligible.Nodup) {count later : Nat}
    (here : eligible[count % eligible.length]? = some branch)
    (there : eligible[later % eligible.length]? = some next) :
    InTurn eligible branch next ↔
      later % eligible.length = (count + 1) % eligible.length := by
  have place : (count % eligible.length + 1) % eligible.length =
      (count + 1) % eligible.length := Nat.mod_add_mod count eligible.length 1
  constructor
  · rintro ⟨other, found, behind⟩
    have same := (List.getElem?_inj (List.getElem?_eq_some_iff.1 found).1 nodup).1
      (found.trans here.symm)
    rw [same, place] at behind
    have inside := (List.getElem?_eq_some_iff.1 there).1
    exact (List.getElem?_inj inside nodup).1 (there.trans behind.symm)
  · intro apart
    refine ⟨count % eligible.length, here, ?_⟩
    rw [place, ← apart]
    exact there

/-- In a list with a choice no branch comes behind itself. -/
theorem not_inTurn_self (nodup : eligible.Nodup) (several : 2 ≤ eligible.length) :
    ¬ InTurn eligible branch branch := by
  rintro ⟨place, found, behind⟩
  have inside := (List.getElem?_eq_some_iff.1 found).1
  have same := (List.getElem?_inj inside nodup).1 (found.trans behind.symm)
  by_cases last : place + 1 = eligible.length
  · rw [last, Nat.mod_self] at same
    omega
  · rw [Nat.mod_eq_of_lt (by omega)] at same
    omega

/-- Every visit of a cycle shows the branch that the count before it asks for, and counts. -/
theorem shown_cycle (nonempty : eligible ≠ []) {count visit : Nat} (inside : visit < count)
    (progress : Progress) (source : RandomSource) :
    (visitEach .cycle (List.replicate count eligible) progress source).1[visit]? =
      some eligible[min (2 ^ 32 - 1) (progress.visits.toNat + visit) % eligible.length]? := by
  have counted : Discipline.cycle ≠ .shuffle := by decide
  have size := List.length_pos_iff.2 nonempty
  induction count generalizing visit progress source with
  | zero => exact absurd inside (Nat.not_lt_zero visit)
  | succ count ih =>
    have bound := progress.visits.toNat_lt
    have first := branch_select counted progress eligible source
    rw [byVisits] at first
    rw [List.replicate_succ, visitEach]
    cases visit with
    | zero =>
      have here : min (2 ^ 32 - 1) (progress.visits.toNat + 0) = progress.visits.toNat := by omega
      rw [here, ← first]
      rfl
    | succ visit =>
      have step := visits_select_eq counted progress eligible source
      rw [first, List.getElem?_eq_getElem (Nat.mod_lt _ size), Option.isSome_some,
        if_pos rfl] at step
      have behind := ih (Nat.lt_of_succ_lt_succ inside)
        (select .cycle progress eligible source).progress
        (select .cycle progress eligible source).source
      rw [List.getElem?_cons_succ, behind, step]
      congr 3
      omega

/-- Whatever count a cycle starts from, two visits in a row show branches in turn exactly as long as
the first of them can be counted. Behind the greatest count all visits show the same branch. -/
theorem shown_in_turn (nodup : eligible.Nodup) (several : 2 ≤ eligible.length)
    (progress : Progress) (source : RandomSource) {count visit : Nat} (inside : visit + 1 < count) :
    let shown := (visitEach .cycle (List.replicate count eligible) progress source).1
    ∃ branch next, shown[visit]? = some (some branch) ∧ shown[visit + 1]? = some (some next) ∧
      (InTurn eligible branch next ↔ progress.visits.toNat + visit < 2 ^ 32 - 1) ∧
      (2 ^ 32 - 1 ≤ progress.visits.toNat + visit → next = branch) := by
  intro shown
  have positive : 0 < eligible.length := Nat.lt_of_lt_of_le Nat.two_pos several
  have nonempty := List.length_pos_iff.1 positive
  have first := shown_cycle nonempty (Nat.lt_of_succ_lt inside) progress source
  have second := shown_cycle nonempty inside progress source
  generalize reached : min (2 ^ 32 - 1) (progress.visits.toNat + visit) = earlier at first
  generalize reachedNext : min (2 ^ 32 - 1) (progress.visits.toNat + (visit + 1)) = later at second
  obtain ⟨branch, here⟩ : ∃ branch, eligible[earlier % eligible.length]? = some branch :=
    ⟨_, List.getElem?_eq_getElem (Nat.mod_lt earlier positive)⟩
  obtain ⟨next, there⟩ : ∃ next, eligible[later % eligible.length]? = some next :=
    ⟨_, List.getElem?_eq_getElem (Nat.mod_lt later positive)⟩
  have stands (limit : 2 ^ 32 - 1 ≤ progress.visits.toNat + visit) : next = branch := by
    have counts : later = earlier := by omega
    rw [counts, here] at there
    exact (Option.some.inj there).symm
  refine ⟨branch, next, first.trans (congrArg some here), second.trans (congrArg some there), ?_,
    stands⟩
  constructor
  · intro turn
    by_contra limit
    rw [stands (Nat.not_lt.1 limit)] at turn
    exact not_inTurn_self nodup several turn
  · intro below
    have counts : later = earlier + 1 := by omega
    rw [inTurn_iff nodup here there, counts]

/-- A cycle of three branches comes to the greatest count: after the last branch the first one is
shown, and then the first one again. -/
theorem shown_in_turn_exhausted :
    let progress : Progress := ⟨0xFFFFFFFD, none, none⟩
    (visitEach .cycle (List.replicate 4 [1, 4, 7]) progress (.cyclic [])).1 =
        [some 4, some 7, some 1, some 1] ∧
      InTurn [1, 4, 7] 7 1 ∧ ¬ InTurn [1, 4, 7] 1 1 := by
  intro progress
  have told : (visitEach .cycle (List.replicate 4 [1, 4, 7]) progress (.cyclic [])).1 =
      [some 4, some 7, some 1, some 1] := by cbv
  have nodup : [1, 4, 7].Nodup := by decide
  obtain ⟨_, _, shown, shownNext, counted, -⟩ :=
    shown_in_turn nodup (by decide) progress (.cyclic []) (show 1 + 1 < 4 by decide)
  rw [told] at shown shownNext
  cases shown
  cases shownNext
  obtain ⟨_, _, shown, shownNext, limit, -⟩ :=
    shown_in_turn nodup (by decide) progress (.cyclic []) (show 2 + 1 < 4 by decide)
  rw [told] at shown shownNext
  cases shown
  cases shownNext
  exact ⟨told, counted.2 (by decide), fun turn => absurd (limit.1 turn) (by decide)⟩

/-- A cycle does not always go on to the next branch. -/
theorem not_shown_in_turn :
    ¬ ∀ (eligible : List Nat) (progress : Progress) (source : RandomSource), eligible.Nodup →
      2 ≤ eligible.length →
      let first := select .cycle progress eligible source
      let second := select .cycle first.progress eligible first.source
      ∃ branch next, first.branch = some branch ∧ second.branch = some next ∧
        InTurn eligible branch next := by
  intro always
  obtain ⟨branch, next, shown, shownNext, turn⟩ :=
    always [0, 1] ⟨0xFFFFFFFF, none, none⟩ (.cyclic []) (by decide) (by decide)
  cases shown
  cases shownNext
  exact not_inTurn_self (by decide) (by decide) turn

end Narrative.Selection
