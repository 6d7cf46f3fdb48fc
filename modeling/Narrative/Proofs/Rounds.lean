import Narrative.Selection

/-!
Rounds of a shuffle. What a shuffle will show next is a list of entries that every visit shortens by
its first one, and a list that is used up is followed by a fresh order of the eligible branches. So
whatever progress a shuffle starts from, once the entries it still holds have been shown, every
round shows each eligible branch once.
-/

set_option autoImplicit false

namespace Narrative

/-! ### Disciplines without an order -/

/-- All disciplines but the shuffle go by the number of visits alone. -/
theorem select_of_ne_shuffle {kind : Discipline} (counted : kind ≠ .shuffle) (progress : Progress)
    (eligible : List Nat) (source : RandomSource) :
    select kind progress eligible source =
      match Selection.byVisits kind progress.visits.toNat eligible with
      | some branch => ⟨some branch, progress.visited, source⟩
      | none => ⟨none, progress, source⟩ := by
  unfold select
  split
  · exact absurd rfl counted
  · rfl

/-! ### Exchanges -/

theorem swapAt_eq {items : List Nat} {first second : Nat} (left : first < items.length)
    (right : second < items.length) :
    swapAt items first second = (items.set first items[second]).set second items[first] := by
  rw [swapAt, Array.swapIfInBounds_def, dif_pos (by simpa using left),
    dif_pos (by simpa using right), Array.toList_swap]
  simp

theorem swapAt_perm (items : List Nat) (first second : Nat) :
    (swapAt items first second).Perm items := by
  rw [swapAt, Array.swapIfInBounds_def]
  split
  · split
    · exact Array.perm_iff_toList_perm.1 (Array.swap_perm _ _)
    · exact List.Perm.refl items
  · exact List.Perm.refl items

theorem swapAt_self (items : List Nat) (place : Nat) : swapAt items place place = items := by
  by_cases inside : place < items.length
  · rw [swapAt_eq inside inside, List.set_set, List.set_getElem_self]
  · rw [swapAt, Array.swapIfInBounds_def, dif_neg (by simpa using inside)]

/-- The entry at the cursor and a later one change places. -/
theorem swapAt_append (front middle back : List Nat) (first second : Nat) :
    swapAt (front ++ first :: (middle ++ second :: back)) front.length
      (front.length + (middle.length + 1)) = front ++ second :: (middle ++ first :: back) := by
  generalize whole : front ++ first :: (middle ++ second :: back) = items
  have left : front.length < items.length := by simp [← whole]
  have right : front.length + (middle.length + 1) < items.length := by simp [← whole]
  have here : items[front.length] = first := by simp [← whole]
  have there : items[front.length + (middle.length + 1)] = second := by
    simp [← whole, List.getElem_append_right]
  rw [swapAt_eq left right, here, there, ← whole]
  simp

theorem shuffleFrom_perm (count index : Nat) (places : PlaceSource) (items : List Nat)
    (source : RandomSource) : (shuffleFrom count index places items source).1.Perm items := by
  induction count generalizing index places items source with
  | zero => exact List.Perm.refl items
  | succ count ih =>
    rw [shuffleFrom]
    apply (ih _ _ _ _).trans
    exact swapAt_perm items index _

theorem shuffle_perm (items : List Nat) (source : RandomSource) :
    (shuffle items source).1.Perm items := by
  unfold shuffle
  split
  · exact List.Perm.refl items
  · exact shuffleFrom_perm _ _ _ _ _

/-- The drawn number is below its bound, also when the second word carries. -/
theorem RandomSource.below_lt (source : RandomSource) {bound : Nat} (positive : 0 < bound) :
    (source.below bound).1 < bound := by
  have word : source.next.1.toNat ≤ 2 ^ 32 - 1 := by
    have := source.next.1.toNat_lt
    omega
  have product : source.next.1.toNat * bound ≤ (2 ^ 32 - 1) * bound :=
    Nat.mul_le_mul_right bound word
  have split := Nat.div_add_mod (source.next.1.toNat * bound) (2 ^ 32)
  unfold RandomSource.below
  dsimp only
  split
  · next carries =>
    dsimp only
    split
    · omega
    · omega
  · dsimp only
    omega

namespace Selection

/-! ### Fresh orders -/

variable {eligible : List Nat}

theorem freshOrder_perm (eligible : List Nat) (avoid : Option Nat) (source : RandomSource) :
    (freshOrder eligible avoid source).1.Perm eligible := by
  unfold freshOrder
  dsimp only
  split
  · exact (swapAt_perm _ _ _).trans (shuffle_perm eligible source)
  · exact shuffle_perm eligible source

/-- A fresh order of several branches does not begin with the one to avoid. -/
theorem head?_freshOrder_ne (nodup : eligible.Nodup) (several : 2 ≤ eligible.length)
    (last : Nat) (source : RandomSource) :
    (freshOrder eligible (some last) source).1.head? ≠ some last := by
  have shuffled := shuffle_perm eligible source
  have distinct : (shuffle eligible source).1.Nodup := shuffled.nodup_iff.2 nodup
  have size : (shuffle eligible source).1.length = eligible.length := shuffled.length_eq
  unfold freshOrder
  dsimp only
  split
  · next again =>
    dsimp only
    generalize (shuffle eligible source).1 = order at again distinct size
    have below := (shuffle eligible source).2.below_lt
      (show 0 < order.length - 1 by omega)
    generalize ((shuffle eligible source).2.below (order.length - 1)).1 = offset at below
    have outer : 0 < order.length := by omega
    have inner : 1 + offset < order.length := by omega
    have first : order[0] = last := by
      have head := again.2.2
      rw [List.head?_eq_getElem?, List.getElem?_eq_getElem outer] at head
      exact (Option.some.inj head).symm
    rw [swapAt_eq outer inner, List.head?_eq_getElem?,
      List.getElem?_set_ne (by omega), List.getElem?_set_self outer]
    intro same
    have equal : order[1 + offset] = order[0] := by
      rw [first]
      exact Option.some.inj same
    have places := (List.getElem_inj distinct).1 equal
    omega
  · next apart =>
    intro same
    apply apart
    refine ⟨by omega, rfl, same.symm⟩

/-! ### What comes next -/

/-- The eligible entries of an order from a place on. -/
def held (order : List Nat) (place : Nat) (eligible : List Nat) : List Nat :=
  (order.drop place).filter eligible.contains

variable {order : List Nat} {cursor place : Nat}

/-- The next eligible entry stands behind entries that are not eligible. -/
theorem exists_skipped (found : nextPlace? order eligible cursor = some place) :
    ∃ front skipped chosen back, order = front ++ (skipped ++ chosen :: back) ∧
      front.length = cursor ∧ place = cursor + skipped.length ∧
      (∀ entry ∈ skipped, entry ∉ eligible) ∧ chosen ∈ eligible := by
  unfold nextPlace? at found
  obtain ⟨index, located, rfl⟩ := Option.map_eq_some_iff.1 found
  obtain ⟨inside, accepted, rejected⟩ := List.findIdx?_eq_some_iff_getElem.1 located
  have length := inside
  rw [List.length_drop] at length
  refine ⟨order.take cursor, (order.drop cursor).take index, (order.drop cursor)[index],
    (order.drop cursor).drop (index + 1), ?_, ?_, ?_, ?_, by simpa using accepted⟩
  · rw [List.getElem_cons_drop, List.take_append_drop, List.take_append_drop]
  · rw [List.length_take]
    omega
  · rw [List.length_take, List.length_drop]
    omega
  · intro entry member
    obtain ⟨earlier, bound, rfl⟩ := List.getElem_of_mem member
    rw [List.length_take] at bound
    rw [List.getElem_take]
    have refused := rejected earlier (by omega)
    simpa using refused

theorem held_append (front back : List Nat) :
    held (front ++ back) front.length eligible = back.filter eligible.contains := by
  rw [held, List.drop_left]

theorem held_append_cons (front back : List Nat) (entry : Nat) :
    held (front ++ entry :: back) (front.length + 1) eligible =
      back.filter eligible.contains := by
  have moved := @held_append eligible (front ++ [entry]) back
  simpa using moved

/-- Moving the next eligible entry to the cursor takes it off what is held. -/
theorem held_swapAt (found : nextPlace? order eligible cursor = some place) :
    ∃ chosen, (swapAt order cursor place)[cursor]? = some chosen ∧
      held order cursor eligible =
        chosen :: held (swapAt order cursor place) (cursor + 1) eligible := by
  obtain ⟨front, skipped, chosen, back, rfl, rfl, rfl, rejected, accepted⟩ := exists_skipped found
  have inside : eligible.contains chosen = true := by simpa using accepted
  refine ⟨chosen, ?_⟩
  cases skipped with
  | nil =>
    rw [List.length_nil, Nat.add_zero, swapAt_self, List.nil_append, held_append,
      held_append_cons, List.filter_cons_of_pos inside]
    simp
  | cons first others =>
    have outside : ∀ entry ∈ first :: others, ¬ eligible.contains entry = true := by
      intro entry member
      simpa using rejected entry member
    have none : (first :: others).filter eligible.contains = [] :=
      List.filter_eq_nil_iff.2 outside
    have refused := outside first List.mem_cons_self
    rw [List.length_cons, held_append, List.filter_append, none, List.filter_cons_of_pos inside,
      List.nil_append, List.cons_append, swapAt_append, held_append_cons, List.filter_append,
      List.filter_cons_of_neg refused]
    rw [List.filter_cons_of_neg refused] at none
    rw [none]
    simp

theorem held_eq_nil_iff : held order cursor eligible = [] ↔
    nextPlace? order eligible cursor = none := by
  rw [held, nextPlace?, Option.map_eq_none_iff, List.findIdx?_eq_none_iff, List.filter_eq_nil_iff]
  simp

theorem held_of_perm (perm : order.Perm eligible) : held order 0 eligible = order := by
  rw [held, List.drop_zero, List.filter_eq_self]
  intro entry member
  simpa using perm.mem_iff.1 member

/-- A shuffle goes on with an eligible entry. -/
theorem nextPlace?_seek (nonempty : eligible ≠ []) (order : List Nat) (cursor : Nat)
    (source : RandomSource) :
    nextPlace? (seek order cursor eligible source).1 eligible
      (seek order cursor eligible source).2.1 =
        some (seek order cursor eligible source).2.2.1 := by
  unfold seek
  split
  · next place found => exact found
  · dsimp only
    generalize (if cursor = 0 then none else order[cursor - 1]?) = last
    have perm := freshOrder_perm eligible last source
    generalize (freshOrder eligible last source).1 = fresh at perm
    cases fresh with
    | nil => exact absurd perm.symm.eq_nil nonempty
    | cons first rest =>
      have member : first ∈ eligible := perm.mem_iff.1 List.mem_cons_self
      simp [nextPlace?, List.findIdx?_cons, member]

/-- The entries that a shuffle shows next, up to the end of its order: those that its progress
holds, or a fresh order if it holds none. -/
def coming (eligible : List Nat) (progress : Progress) (source : RandomSource) : List Nat :=
  let stored := progress.order.getD []
  let found := seek stored (min (progress.cursor.getD 0) stored.length) eligible source
  held found.1 found.2.1 eligible

theorem coming_of_held {progress : Progress} (stored : progress.order = some order)
    (placed : progress.cursor = some cursor) (inside : cursor ≤ order.length)
    (some : held order cursor eligible ≠ []) (source : RandomSource) :
    coming eligible progress source = held order cursor eligible := by
  rw [coming, stored, placed, Option.getD_some, Option.getD_some, Nat.min_eq_left inside, seek]
  split
  · rfl
  · next missing => exact absurd (held_eq_nil_iff.2 missing) some

theorem coming_of_empty {progress : Progress} (stored : progress.order = some order)
    (placed : progress.cursor = some cursor) (inside : cursor ≤ order.length)
    (empty : held order cursor eligible = []) (source : RandomSource) :
    coming eligible progress source =
      (freshOrder eligible (if cursor = 0 then none else order[cursor - 1]?) source).1 := by
  rw [coming, stored, placed, Option.getD_some, Option.getD_some, Nat.min_eq_left inside, seek,
    held_eq_nil_iff.1 empty]
  exact held_of_perm (freshOrder_perm eligible _ source)

/-! ### One visit -/

/-- What follows once an order is used up: all eligible branches, the last one not at once again. -/
def Renewed (eligible : List Nat) (last : Nat) (order : List Nat) : Prop :=
  order.Perm eligible ∧ (2 ≤ eligible.length → order.head? ≠ some last)

theorem renewed_freshOrder (nodup : eligible.Nodup) (last : Nat) (source : RandomSource) :
    Renewed eligible last (freshOrder eligible (some last) source).1 :=
  ⟨freshOrder_perm eligible (some last) source,
    fun several => head?_freshOrder_ne nodup several last source⟩

/-- A visit shows the first of the coming entries and leaves the others to come. -/
theorem coming_select (nonempty : eligible ≠ []) (nodup : eligible.Nodup) (progress : Progress)
    (source : RandomSource) :
    ∃ chosen rest, coming eligible progress source = chosen :: rest ∧
      (select .shuffle progress eligible source).branch = some chosen ∧
      (rest ≠ [] → coming eligible (select .shuffle progress eligible source).progress
        (select .shuffle progress eligible source).source = rest) ∧
      (rest = [] → Renewed eligible chosen
        (coming eligible (select .shuffle progress eligible source).progress
          (select .shuffle progress eligible source).source)) := by
  obtain ⟨first, others, rfl⟩ := List.exists_cons_of_ne_nil nonempty
  have next := nextPlace?_seek nonempty (progress.order.getD [])
    (min (progress.cursor.getD 0) (progress.order.getD []).length) source
  rw [coming, select, shuffled]
  dsimp only
  generalize seek (progress.order.getD [])
    (min (progress.cursor.getD 0) (progress.order.getD []).length) (first :: others) source =
      sought at next
  obtain ⟨order, cursor, place, later⟩ := sought
  dsimp only at next ⊢
  obtain ⟨chosen, shown, split⟩ := held_swapAt next
  have inside : cursor < (swapAt order cursor place).length := by
    have := List.getElem?_eq_some_iff.1 shown
    exact this.1
  have picked : (swapAt order cursor place).getD cursor first = chosen := by
    rw [List.getD_eq_getElem?_getD, shown, Option.getD_some]
  refine ⟨chosen, _, split, ?_⟩
  rw [picked]
  split
  · next last =>
    have ended : held (swapAt order cursor place) (cursor + 1) (first :: others) = [] := by
      rw [held, last, List.drop_length, List.filter_nil]
    have perm := freshOrder_perm (first :: others) (some chosen) later
    have all := held_of_perm perm
    refine ⟨rfl, fun more => absurd ended more, fun _ => ?_⟩
    rw [coming_of_held rfl rfl (Nat.zero_le _), all]
    · exact renewed_freshOrder nodup chosen later
    · rw [all]
      intro empty
      rw [empty] at perm
      exact nonempty perm.symm.eq_nil
  · next further =>
    refine ⟨rfl, fun more => ?_, fun empty => ?_⟩
    · exact coming_of_held rfl rfl (by omega) more later
    · rw [coming_of_empty rfl rfl (by omega) empty, if_neg (by omega), Nat.add_sub_cancel, shown]
      exact renewed_freshOrder nodup chosen later

/-! ### Runs of visits -/

/-- The progress of a shuffle and its random source after a number of visits in which the same
branches are eligible. -/
def afterVisits (eligible : List Nat) (progress : Progress) (source : RandomSource) :
    Nat → Progress × RandomSource
  | 0 => (progress, source)
  | visits + 1 =>
    let before := afterVisits eligible progress source visits
    let selection := select .shuffle before.1 eligible before.2
    (selection.progress, selection.source)

def shownAfter (eligible : List Nat) (progress : Progress) (source : RandomSource)
    (visits : Nat) : Option Nat :=
  let before := afterVisits eligible progress source visits
  (select .shuffle before.1 eligible before.2).branch

def comingAfter (eligible : List Nat) (progress : Progress) (source : RandomSource)
    (visits : Nat) : List Nat :=
  let before := afterVisits eligible progress source visits
  coming eligible before.1 before.2

section

variable {progress : Progress} {source : RandomSource}

theorem comingAfter_step (nonempty : eligible ≠ []) (nodup : eligible.Nodup) (visits : Nat) :
    ∃ chosen rest, comingAfter eligible progress source visits = chosen :: rest ∧
      shownAfter eligible progress source visits = some chosen ∧
      (rest ≠ [] → comingAfter eligible progress source (visits + 1) = rest) ∧
      (rest = [] → Renewed eligible chosen (comingAfter eligible progress source (visits + 1))) :=
  coming_select nonempty nodup _ _

/-- Visits take the coming entries off one by one. -/
theorem comingAfter_drop (nonempty : eligible ≠ []) (nodup : eligible.Nodup) (visits : Nat)
    {count : Nat} (inside : count < (comingAfter eligible progress source visits).length) :
    comingAfter eligible progress source (visits + count) =
      (comingAfter eligible progress source visits).drop count := by
  induction count with
  | zero => rw [Nat.add_zero, List.drop_zero]
  | succ count ih =>
    have before := ih (by omega)
    obtain ⟨chosen, rest, split, -, going, -⟩ :=
      @comingAfter_step eligible progress source nonempty nodup (visits + count)
    have tail : rest = (comingAfter eligible progress source visits).drop (count + 1) := by
      rw [← List.tail_drop, ← before, split, List.tail_cons]
    have more : rest ≠ [] := by
      intro empty
      rw [tail, List.drop_eq_nil_iff] at empty
      omega
    rw [← Nat.add_assoc, going more, tail]

/-- The coming entries are shown in their order. -/
theorem shownAfter_eq (nonempty : eligible ≠ []) (nodup : eligible.Nodup) (visits : Nat)
    {count : Nat} (inside : count < (comingAfter eligible progress source visits).length) :
    shownAfter eligible progress source (visits + count) =
      (comingAfter eligible progress source visits)[count]? := by
  obtain ⟨chosen, rest, split, shown, -, -⟩ :=
    @comingAfter_step eligible progress source nonempty nodup (visits + count)
  rw [comingAfter_drop nonempty nodup visits inside] at split
  rw [shown, ← List.head?_drop, split, List.head?_cons]

theorem exists_comingAfter_pred (nonempty : eligible ≠ []) (nodup : eligible.Nodup)
    (visits : Nat) :
    ∃ before last, visits + (comingAfter eligible progress source visits).length = before + 1 ∧
      comingAfter eligible progress source before = [last] := by
  obtain ⟨chosen, rest, split, -⟩ :=
    @comingAfter_step eligible progress source nonempty nodup visits
  have inside : rest.length < (comingAfter eligible progress source visits).length := by
    rw [split, List.length_cons]
    omega
  have short := comingAfter_drop nonempty nodup visits inside
  have size : ((comingAfter eligible progress source visits).drop rest.length).length = 1 := by
    rw [List.length_drop, split, List.length_cons]
    omega
  obtain ⟨last, single⟩ := List.length_eq_one_iff.1 size
  refine ⟨visits + rest.length, last, ?_, short.trans single⟩
  rw [split, List.length_cons, Nat.add_assoc]

/-- When the coming entries have been shown, an order of all eligible branches comes. -/
theorem perm_comingAfter (nonempty : eligible ≠ []) (nodup : eligible.Nodup) (visits : Nat) :
    (comingAfter eligible progress source
      (visits + (comingAfter eligible progress source visits).length)).Perm eligible := by
  obtain ⟨before, last, here, single⟩ :=
    @exists_comingAfter_pred eligible progress source nonempty nodup visits
  obtain ⟨chosen, rest, split, -, -, ended⟩ :=
    @comingAfter_step eligible progress source nonempty nodup before
  rw [single] at split
  rw [here]
  exact (ended (List.cons.inj split).2.symm).1

/-- From a whole order on, an order of all eligible branches comes after every round. -/
theorem perm_comingAfter_rounds (nonempty : eligible ≠ []) (nodup : eligible.Nodup)
    {visits : Nat} (whole : (comingAfter eligible progress source visits).Perm eligible)
    (rounds : Nat) :
    (comingAfter eligible progress source (visits + rounds * eligible.length)).Perm eligible := by
  induction rounds with
  | zero => simpa using whole
  | succ rounds ih =>
    have after := @perm_comingAfter eligible progress source nonempty nodup
      (visits + rounds * eligible.length)
    rw [ih.length_eq] at after
    rwa [Nat.succ_mul, ← Nat.add_assoc]

/-- What comes stays free of repetitions. -/
theorem nodup_comingAfter (nonempty : eligible ≠ []) (nodup : eligible.Nodup) {visits : Nat}
    (distinct : (comingAfter eligible progress source visits).Nodup) (more : Nat) :
    (comingAfter eligible progress source (visits + more)).Nodup := by
  induction more with
  | zero => exact distinct
  | succ more ih =>
    obtain ⟨chosen, rest, split, -, going, ended⟩ :=
      @comingAfter_step eligible progress source nonempty nodup (visits + more)
    rw [← Nat.add_assoc]
    by_cases last : rest = []
    · exact (ended last).1.nodup_iff.2 nodup
    · rw [split] at ih
      rw [going last]
      exact ih.of_cons

/-- Two visits in a row show different branches where what comes has no repetitions. -/
theorem shownAfter_ne (nonempty : eligible ≠ []) (nodup : eligible.Nodup)
    (several : 2 ≤ eligible.length) {visits : Nat}
    (distinct : (comingAfter eligible progress source visits).Nodup) :
    shownAfter eligible progress source visits ≠
      shownAfter eligible progress source (visits + 1) := by
  obtain ⟨chosen, rest, split, shown, going, ended⟩ :=
    @comingAfter_step eligible progress source nonempty nodup visits
  obtain ⟨following, others, ahead, next, -⟩ :=
    @comingAfter_step eligible progress source nonempty nodup (visits + 1)
  rw [shown, next]
  by_cases last : rest = []
  · have apart := (ended last).2 several
    rw [ahead, List.head?_cons] at apart
    exact apart.symm
  · rw [going last] at ahead
    rw [split, ahead] at distinct
    intro same
    apply (List.nodup_cons.1 distinct).1
    rw [Option.some.inj same]
    exact List.mem_cons_self

end

/-- From the visit after the first `skipped` ones on, the visits fall into rounds that show each
eligible branch once, and no branch is shown twice in a row, the last one before the first round
included. -/
structure Rounds (eligible : List Nat) (shown : Nat → Option Nat) (skipped : Nat) : Prop where
  perm : ∀ round, ((List.range eligible.length).map
    (fun place => shown (skipped + round * eligible.length + place))).Perm (eligible.map some)
  apart : 2 ≤ eligible.length → ∀ visit, skipped ≤ visit + 1 → shown visit ≠ shown (visit + 1)

theorem rounds_of_perm (nonempty : eligible ≠ []) (nodup : eligible.Nodup)
    {progress : Progress} {source : RandomSource} {skipped : Nat}
    (whole : (comingAfter eligible progress source skipped).Perm eligible)
    (before : ∀ visit, skipped = visit + 1 →
      (comingAfter eligible progress source visit).Nodup) :
    Rounds eligible (shownAfter eligible progress source) skipped := by
  constructor
  · intro round
    have all := perm_comingAfter_rounds nonempty nodup whole round
    have shown : (List.range eligible.length).map (fun place =>
        shownAfter eligible progress source (skipped + round * eligible.length + place)) =
        (comingAfter eligible progress source (skipped + round * eligible.length)).map some := by
      apply List.ext_getElem
      · simp [all.length_eq]
      · intro place _ inside
        rw [List.length_map] at inside
        rw [List.getElem_map, List.getElem_map, List.getElem_range,
          shownAfter_eq nonempty nodup _ inside, List.getElem?_eq_getElem inside]
    rw [shown]
    exact all.map some
  · intro several visit late
    apply shownAfter_ne nonempty nodup several
    by_cases first : skipped = visit + 1
    · exact before visit first
    · have distinct := whole.nodup_iff.2 nodup
      have later := nodup_comingAfter nonempty nodup distinct (visit - skipped)
      rwa [Nat.add_sub_cancel' (by omega)] at later

/-- Whatever a shuffle starts from, once the stored entries that are still to come have been shown,
its visits fall into rounds. -/
theorem exists_rounds (progress : Progress) (source : RandomSource) (nonempty : eligible ≠ [])
    (nodup : eligible.Nodup) :
    ∃ skipped, skipped ≤ (progress.order.getD []).length -
        min (progress.cursor.getD 0) (progress.order.getD []).length ∧
      Rounds eligible (shownAfter eligible progress source) skipped := by
  generalize stored : progress.order.getD [] = order
  generalize placed : min (progress.cursor.getD 0) order.length = cursor
  have start : comingAfter eligible progress source 0 =
      held (seek order cursor eligible source).1 (seek order cursor eligible source).2.1
        eligible := by
    rw [comingAfter, afterVisits, coming, stored, placed]
  rw [seek] at start
  cases found : nextPlace? order eligible cursor with
  | none =>
    rw [found] at start
    have perm := freshOrder_perm eligible (if cursor = 0 then none else order[cursor - 1]?) source
    refine ⟨0, Nat.zero_le _, rounds_of_perm nonempty nodup ?_ ?_⟩
    · rw [start, held_of_perm perm]
      exact perm
    · intro visit first
      omega
  | some place =>
    rw [found] at start
    dsimp only at start
    have short : (held order cursor eligible).length ≤ order.length - cursor := by
      have := List.length_filter_le eligible.contains (order.drop cursor)
      rwa [List.length_drop] at this
    have whole := @perm_comingAfter eligible progress source nonempty nodup 0
    obtain ⟨before, last, here, single⟩ :=
      @exists_comingAfter_pred eligible progress source nonempty nodup 0
    rw [Nat.zero_add, start] at whole here
    refine ⟨(held order cursor eligible).length, short, rounds_of_perm nonempty nodup whole ?_⟩
    intro visit first
    have same : visit = before := by omega
    rw [same, single]
    simp

/-- An order with a repeated entry, an entry out of range and one that is not eligible, and a
cursor past its first entry. -/
def staleProgress : Progress := ⟨7, some [2, 9, 0, 1, 0], some 1⟩

theorem exists_rounds_stale :
    [0, 2, 3] ≠ [] ∧ [0, 2, 3].Nodup ∧
      ∃ skipped, skipped ≤ 4 ∧ Rounds [0, 2, 3]
        (shownAfter [0, 2, 3] staleProgress (.cyclic [5, 4000000000, 7])) skipped :=
  ⟨by decide, by decide,
    exists_rounds staleProgress (.cyclic [5, 4000000000, 7]) (by decide) (by decide)⟩

end Selection

end Narrative
