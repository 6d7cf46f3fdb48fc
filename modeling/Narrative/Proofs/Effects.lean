import Narrative.Proofs.Bounds
import Narrative.Proofs.Changes

/-!
What a selection leaves behind. It either shows nothing and has no effect at all, or it shows an
eligible branch and counts one more visit. Order, cursor and random source are moved by shuffles
alone, and a shuffle that has shown a branch has an entry to come, whatever it started from.
-/

set_option autoImplicit false

namespace Narrative

namespace Selection

variable {kind : Discipline} {eligible : List Nat}

/-! ### Selections without a branch -/

/-- A discipline that goes by visits chooses nothing if there is nothing to choose, or if each
branch has been shown once. -/
theorem byVisits_eq_none_iff (counted : kind ≠ .shuffle) (visits : Nat) (eligible : List Nat) :
    byVisits kind visits eligible = none ↔
      eligible = [] ∨ kind = .once ∧ eligible.length ≤ visits := by
  rw [← List.length_eq_zero_iff]
  cases kind with
  | stopping =>
    rw [byVisits, List.getElem?_eq_none_iff]
    simp only [reduceCtorEq, false_and, or_false]
    omega
  | cycle =>
    rw [byVisits, List.getElem?_eq_none_iff]
    simp only [reduceCtorEq, false_and, or_false]
    by_cases empty : eligible.length = 0
    · simp [empty]
    · have inside := Nat.mod_lt visits (Nat.pos_of_ne_zero empty)
      omega
  | once =>
    rw [byVisits, List.getElem?_eq_none_iff]
    simp only [true_and]
    omega
  | shuffle => exact absurd rfl counted

theorem branch_eq_none_iff (kind : Discipline) (progress : Progress) (eligible : List Nat)
    (source : RandomSource) :
    (select kind progress eligible source).branch = none ↔
      eligible = [] ∨ kind = .once ∧ eligible.length ≤ progress.visits.toNat := by
  by_cases shuffles : kind = .shuffle
  · subst shuffles
    by_cases nonempty : eligible = []
    · subst nonempty
      exact iff_of_true rfl (Or.inl rfl)
    · obtain ⟨chosen, after, -, shown, -⟩ := visit_selectTold nonempty progress source
      rw [shown]
      simp [nonempty]
  · rw [branch_select shuffles]
    exact byVisits_eq_none_iff shuffles _ eligible

/-- A selection that shows nothing changes nothing. -/
theorem unchanged_of_silent {progress : Progress} {source : RandomSource}
    (silent : (select kind progress eligible source).branch = none) :
    (select kind progress eligible source).progress = progress ∧
      (select kind progress eligible source).source = source := by
  by_cases shuffles : kind = .shuffle
  · subst shuffles
    have empty : eligible = [] := by
      simpa using (branch_eq_none_iff .shuffle progress eligible source).1 silent
    subst empty
    exact ⟨rfl, rfl⟩
  · rw [select_of_ne_shuffle shuffles] at silent ⊢
    split at silent
    · cases silent
    · exact ⟨rfl, rfl⟩

/-! ### Selections with a branch -/

/-- All disciplines but the shuffle draw no random words. -/
theorem source_select (counted : kind ≠ .shuffle) (progress : Progress) (eligible : List Nat)
    (source : RandomSource) : (select kind progress eligible source).source = source := by
  rw [select_of_ne_shuffle counted]
  split <;> rfl

/-- A shuffle that has shown a branch has an entry to come, also if it started from an order or a
cursor that no shuffle leaves. -/
theorem exists_entry_to_come (nonempty : eligible ≠ []) (progress : Progress)
    (source : RandomSource) :
    ∃ order cursor, (select .shuffle progress eligible source).progress.order = some order ∧
      (select .shuffle progress eligible source).progress.cursor = some cursor ∧
      order ≠ [] ∧ cursor < order.length := by
  obtain ⟨chosen, after, visit, -, ordered, placed⟩ := visit_selectTold nonempty progress source
  have inside := visit.inside nonempty
  refine ⟨after.order, after.cursor, ordered, placed, ?_, inside⟩
  exact List.ne_nil_of_length_pos (Nat.zero_lt_of_lt inside)

/-- What a selection may change. -/
structure Effects (kind : Discipline) (progress : Progress) (eligible : List Nat)
    (source : RandomSource) (selection : Selection) : Prop where
  /-- Nothing is shown if nothing is eligible, or at the end of a list that shows each branch
  once. -/
  silent : selection.branch = none ↔
    eligible = [] ∨ kind = .once ∧ eligible.length ≤ progress.visits.toNat
  /-- Then nothing changes. -/
  unchanged : selection.branch = none → selection.progress = progress ∧ selection.source = source
  /-- Otherwise an eligible branch is shown, -/
  member : ∀ branch, selection.branch = some branch → branch ∈ eligible
  /-- the visit is counted, and only a shuffle moves in an order -/
  advanced : selection.branch ≠ none → Progress.Advanced kind progress selection.progress
  /-- or draws random words. -/
  undrawn : kind ≠ .shuffle → selection.source = source
  /-- A shuffle leaves an entry to come. -/
  toCome : kind = .shuffle → selection.branch ≠ none →
    ∃ order cursor, selection.progress.order = some order ∧
      selection.progress.cursor = some cursor ∧ order ≠ [] ∧ cursor < order.length

/-- A selection keeps all its bounds, has no effect unless it shows a branch, and moves only what
its discipline goes by. -/
theorem effects_of_select (kind : Discipline) (progress : Progress) (eligible : List Nat)
    (source : RandomSource) :
    Checked.select? kind progress eligible source = some (select kind progress eligible source) ∧
      Effects kind progress eligible source (select kind progress eligible source) := by
  refine ⟨Checked.select?_eq kind progress eligible source, ?_⟩
  have silent := branch_eq_none_iff kind progress eligible source
  constructor
  · exact silent
  · exact unchanged_of_silent
  · intro branch shown
    exact Checked.mem_of_select shown
  · intro some
    obtain ⟨branch, shown⟩ := Option.ne_none_iff_exists'.1 some
    exact select_advanced shown
  · intro counted
    exact source_select counted progress eligible source
  · intro shuffles some
    subst shuffles
    have nonempty : eligible ≠ [] := fun empty => some (silent.2 (Or.inl empty))
    exact exists_entry_to_come nonempty progress source

end Selection

end Narrative
