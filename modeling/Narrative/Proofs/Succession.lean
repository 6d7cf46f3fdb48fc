import Narrative.Proofs.Decks

/-!
What a shuffle shows in two visits in a row. Within an order nothing is shown twice, and a fresh
order does not begin with what was shown last. But the order of the next round is drawn as soon as
the last one is used up, from the branches that are eligible at that time. So a branch is shown
again at once if it was the last of its order and all entries in front of it in the next one are no
longer eligible, and in no other case as long as there is a choice.
-/

set_option autoImplicit false

namespace Narrative.Selection

variable {eligible later order : List Nat} {chosen : Nat}

/-! ### After a visit -/

/-- What a visit that showed a branch leaves: an order in which that is the entry before the cursor,
or a fresh order, if it was the last entry of the order before. -/
inductive Leaves (eligible : List Nat) (chosen : Nat) : List Nat → Nat → Prop
  | further {order : List Nat} {place : Nat} (nodup : order.Nodup)
    (last : order[place]? = some chosen) : Leaves eligible chosen order (place + 1)
  | renewed {order : List Nat} (fresh : Renewed eligible chosen order) :
    Leaves eligible chosen order 0

theorem leaves_select (nonempty : eligible ≠ []) (nodup : eligible.Nodup) {progress : Progress}
    (distinct : (progress.order.getD []).Nodup) (source : RandomSource) :
    ∃ chosen order cursor, (select .shuffle progress eligible source).branch = some chosen ∧
      chosen ∈ eligible ∧
      (select .shuffle progress eligible source).progress.order = some order ∧
      (select .shuffle progress eligible source).progress.cursor = some cursor ∧
      Leaves eligible chosen order cursor := by
  obtain ⟨first, others, rfl⟩ := List.exists_cons_of_ne_nil nonempty
  have next := nextPlace?_seek nonempty (progress.order.getD [])
    (min (progress.cursor.getD 0) (progress.order.getD []).length) source
  have kept : (seek (progress.order.getD [])
      (min (progress.cursor.getD 0) (progress.order.getD []).length) (first :: others)
      source).1.Nodup := by
    unfold seek
    split
    · exact distinct
    · exact (freshOrder_perm (first :: others) _ source).nodup_iff.2 nodup
  rw [select, shuffled]
  dsimp only
  generalize seek (progress.order.getD [])
    (min (progress.cursor.getD 0) (progress.order.getD []).length) (first :: others) source =
      sought at next kept
  obtain ⟨order, cursor, place, after⟩ := sought
  dsimp only at next kept ⊢
  obtain ⟨chosen, moved, split⟩ := held_swapAt next
  have member : chosen ∈ first :: others := by
    have held : chosen ∈ held order cursor (first :: others) := by
      rw [split]
      exact List.mem_cons_self
    simpa using (List.mem_filter.1 held).2
  have picked : (swapAt order cursor place).getD cursor first = chosen := by
    rw [List.getD_eq_getElem?_getD, moved, Option.getD_some]
  rw [picked]
  split
  · have fresh := renewed_freshOrder nodup chosen after
    exact ⟨chosen, _, 0, rfl, member, rfl, rfl, .renewed fresh⟩
  · have still := (swapAt_perm order cursor place).nodup_iff.2 kept
    exact ⟨chosen, _, cursor + 1, rfl, member, rfl, rfl, .further still moved⟩

/-! ### The next visit -/

/-- The next visit shows the same branch again: the order of its round was drawn after that branch,
and what stands in front of it there is not eligible any more. Unless there was no other branch when
the order was drawn, something stands in front. -/
structure ShowsAgain (eligible later : List Nat) (chosen : Nat) (progress : Progress) : Prop where
  renewed : progress.cursor = some 0
  passes : ∃ front back, progress.order = some (front ++ chosen :: back) ∧
    (front ++ chosen :: back).Perm eligible ∧ (2 ≤ eligible.length → front ≠ []) ∧
    chosen ∈ later ∧ ∀ entry ∈ front, entry ∉ later

/-- The first eligible entry of an order is the one that only entries which are not eligible stand
in front of. -/
theorem head?_held_eq_some_iff : (held order 0 eligible).head? = some chosen ↔
    ∃ front back, order = front ++ chosen :: back ∧ chosen ∈ eligible ∧
      ∀ entry ∈ front, entry ∉ eligible := by
  rw [held, List.drop_zero, List.head?_filter, List.find?_eq_some_iff_append]
  simp only [Bool.not_eq_true', List.contains_eq_mem, decide_eq_false_iff_not, decide_eq_true_eq]
  constructor
  · rintro ⟨accepted, front, back, whole, refused⟩
    exact ⟨front, back, whole, accepted, refused⟩
  · rintro ⟨front, back, whole, accepted, refused⟩
    exact ⟨accepted, front, back, whole, refused⟩

section

variable {progress : Progress} {source : RandomSource} {cursor : Nat}

/-- What stands behind the cursor is not the entry in front of it, and neither does an order begin
with that entry that is drawn because nothing behind the cursor is eligible. -/
theorem ne_of_further {place : Nat} (nodup : order.Nodup) (last : order[place]? = some chosen)
    (distinct : later.Nodup) (several : 2 ≤ later.length)
    (stored : progress.order = some order) (placed : progress.cursor = some (place + 1)) :
    (coming later progress source).head? ≠ some chosen := by
  obtain ⟨inside, entry⟩ := List.getElem?_eq_some_iff.1 last
  by_cases empty : held order (place + 1) later = []
  · rw [coming_of_empty stored placed inside empty, if_neg (Nat.succ_ne_zero place),
      Nat.add_sub_cancel, last]
    exact head?_freshOrder_ne distinct several chosen source
  · rw [coming_of_held stored placed inside empty]
    intro head
    have member : chosen ∈ order.drop (place + 1) := by
      have held := List.mem_of_mem_head? head
      exact List.mem_of_mem_filter held
    have split := List.take_append_drop (place + 1) order
    rw [← split, List.nodup_append] at nodup
    apply nodup.2.2 chosen _ chosen member rfl
    rw [List.take_add_one, last]
    simp

/-- From a fresh order the branch shown last comes first if the entries in front of it are not
eligible. If the order has no eligible entry, then it is not eligible either. -/
theorem head?_coming_renewed_iff (fresh : Renewed eligible chosen order)
    (present : chosen ∈ eligible)
    (stored : progress.order = some order) (placed : progress.cursor = some 0) :
    (coming later progress source).head? = some chosen ↔
      (held order 0 later).head? = some chosen := by
  by_cases empty : held order 0 later = []
  · rw [coming_of_empty stored placed (Nat.zero_le _) empty, empty]
    have outside : chosen ∉ later := by
      intro inside
      rw [held, List.drop_zero, List.filter_eq_nil_iff] at empty
      exact empty chosen (fresh.1.mem_iff.2 present) (List.contains_iff_mem.2 inside)
    apply iff_of_false
    · intro head
      have perm := freshOrder_perm later (if 0 = 0 then none else order[0 - 1]?) source
      exact outside (perm.mem_iff.1 (List.mem_of_mem_head? head))
    · simp
  · rw [coming_of_held stored placed (Nat.zero_le _) empty]

/-- In a fresh order the branch shown last stands behind others, if there were any. -/
theorem shows_again_iff (fresh : Renewed eligible chosen order)
    (stored : progress.order = some order) (placed : progress.cursor = some 0) :
    (held order 0 later).head? = some chosen ↔ ShowsAgain eligible later chosen progress := by
  rw [head?_held_eq_some_iff]
  constructor
  · rintro ⟨front, back, rfl, accepted, refused⟩
    refine ⟨placed, front, back, stored, fresh.1, ?_, accepted, refused⟩
    rintro several rfl
    exact fresh.2 several rfl
  · rintro ⟨-, front, back, whole, -, -, accepted, refused⟩
    exact ⟨front, back, Option.some.inj (stored.symm.trans whole), accepted, refused⟩

end

/-! ### Runs of visits -/

/-- Whatever branches are eligible in the visits of a shuffle, a visit with a choice shows another
branch than the one before unless that one used up its order, and in the order drawn then all
entries in front of its branch are no longer eligible. So nothing is shown twice in a row as long as
every branch stays eligible that was so in a visit with a choice. -/
theorem shown_in_a_row {earlier : List (List Nat)} {eligible later : List Nat}
    (proper : ∀ branches ∈ earlier ++ [eligible, later], branches ≠ [] ∧ branches.Nodup)
    (several : 2 ≤ later.length) (source : RandomSource) :
    let before := afterRun earlier .none source
    let first := select .shuffle before.1 eligible before.2
    let second := select .shuffle first.progress later first.source
    ∃ branch next, first.branch = some branch ∧ second.branch = some next ∧
      (next = branch ↔ ShowsAgain eligible later branch first.progress) ∧
      (2 ≤ eligible.length → eligible ⊆ later → next ≠ branch) := by
  have follows := follows_afterRun
    (fun branches member => proper branches (List.mem_append_left _ member)) follows_none source
  obtain ⟨nonempty, nodup⟩ := proper eligible (List.mem_append_right _ List.mem_cons_self)
  obtain ⟨nonemptyToo, nodupToo⟩ :=
    proper later (List.mem_append_right _ (List.mem_cons_of_mem _ List.mem_cons_self))
  intro before first second
  obtain ⟨branch, order, cursor, shown, present, stored, placed, leaves⟩ :=
    leaves_select nonempty nodup follows.nodup before.2
  obtain ⟨next, rest, coming, shownToo, -, -⟩ :=
    coming_select nonemptyToo nodupToo first.progress first.source
  have again : next = branch ↔ ShowsAgain eligible later branch first.progress := by
    have head : next = branch ↔
        (Selection.coming later first.progress first.source).head? = some branch := by
      rw [coming, List.head?_cons, Option.some.injEq]
    rw [head]
    cases leaves with
    | further distinct last =>
      apply iff_of_false
      · exact ne_of_further distinct last nodupToo several stored placed
      · intro again
        cases placed.symm.trans again.renewed
    | renewed fresh =>
      rw [head?_coming_renewed_iff fresh present stored placed]
      exact shows_again_iff fresh stored placed
  refine ⟨branch, next, shown, shownToo, again, ?_⟩
  intro choice kept same
  obtain ⟨-, front, back, -, perm, filled, -, refused⟩ := again.1 same
  obtain ⟨entry, inside⟩ := List.exists_mem_of_ne_nil front (filled choice)
  exact refused entry inside (kept (perm.mem_iff.1 (List.mem_append_left _ inside)))

/-- The last branch of the first round stands second in the next order, and the one in front of it
is not eligible any more. -/
theorem shown_in_a_row_narrowing :
    let words := RandomSource.cyclic [5, 4000000000, 7]
    let before := afterRun [[0, 1, 2], [0, 1, 2]] .none words
    let first := select .shuffle before.1 [0, 1, 2] before.2
    let second := select .shuffle first.progress [1, 2] first.source
    (∀ branches ∈ [[0, 1, 2], [0, 1, 2]] ++ [[0, 1, 2], [1, 2]],
        branches ≠ [] ∧ branches.Nodup) ∧ 2 ≤ [1, 2].length ∧
      first.branch = some 1 ∧ first.progress.order = some [0, 1, 2] ∧ second.branch = some 1 ∧
      ShowsAgain [0, 1, 2] [1, 2] 1 first.progress := by
  have proper : ∀ branches ∈ [[0, 1, 2], [0, 1, 2]] ++ [[0, 1, 2], [1, 2]],
      branches ≠ [] ∧ branches.Nodup := by decide
  obtain ⟨branch, next, shown, shownToo, again, -⟩ :=
    shown_in_a_row proper (by decide) (.cyclic [5, 4000000000, 7])
  have one : some branch = some 1 := shown.symm.trans (by cbv)
  have two : some next = some 1 := shownToo.symm.trans (by cbv)
  cases one
  cases two
  exact ⟨proper, by decide, shown, by cbv, shownToo, again.1 rfl⟩

/-- A choice alone does not keep a shuffle from showing a branch again: if one branch was eligible
and a second one becomes so, the order drawn in between begins with the first one. -/
theorem not_shown_apart :
    ¬ ∀ (earlier : List (List Nat)) (eligible later : List Nat) (source : RandomSource),
      (∀ branches ∈ earlier ++ [eligible, later], branches ≠ [] ∧ branches.Nodup) →
      2 ≤ later.length →
      let before := afterRun earlier .none source
      let first := select .shuffle before.1 eligible before.2
      (select .shuffle first.progress later first.source).branch ≠ first.branch := by
  intro apart
  have different := apart [] [0] [0, 1] (.cyclic [0]) (by decide) (by decide)
  apply different
  cbv

end Narrative.Selection
