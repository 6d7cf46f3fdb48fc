import Mathlib.Data.List.Perm.Subperm
import Mathlib.Data.List.Range
import Mathlib.Data.List.ReduceOption
import Narrative.Proofs.Rounds
import Narrative.Proofs.Visits

/-!
Lists that show each branch once, under changing guards. The count of such a list is a place among
the branches that are eligible at the time, so it names the branch with as many eligible ones in
front of it. As the count grows from one branch shown to the next, a branch is shown again only if
others have become eligible in front of it. Without that, as many branches are shown as are counted.
-/

set_option autoImplicit false

namespace Narrative.Selection

/-! ### Visits one after the other -/

/-- Visits of a list, each with its own eligible branches: what every visit shows, and the progress
behind the last. -/
def visitEach (kind : Discipline) :
    List (List Nat) → Progress → RandomSource → List (Option Nat) × Progress
  | [], progress, _ => ([], progress)
  | eligible :: rest, progress, source =>
    let selection := select kind progress eligible source
    let (shown, last) := visitEach kind rest selection.progress selection.source
    (selection.branch :: shown, last)

variable {kind : Discipline} {progress : Progress} {source : RandomSource}

/-- A visit counts if it shows a branch. -/
theorem visits_select_eq (counted : kind ≠ .shuffle) (progress : Progress) (eligible : List Nat)
    (source : RandomSource) :
    (select kind progress eligible source).progress.visits.toNat = min (2 ^ 32 - 1)
      (progress.visits.toNat +
        if (select kind progress eligible source).branch.isSome then 1 else 0) := by
  have bound := progress.visits.toNat_lt
  cases shown : (select kind progress eligible source).branch with
  | some branch =>
    rw [visits_select shown, Progress.visits_visited]
    rfl
  | none =>
    have kept : (select kind progress eligible source).progress = progress := by
      rw [select_of_ne_shuffle counted] at shown ⊢
      split at shown
      · cases shown
      · rfl
    rw [kept]
    simp only [Option.isSome_none, Bool.false_eq_true, ↓reduceIte]
    omega

/-- What the visits show is one result for each. -/
theorem length_visitEach (kind : Discipline) (run : List (List Nat)) (progress : Progress)
    (source : RandomSource) : (visitEach kind run progress source).1.length = run.length := by
  induction run generalizing progress source with
  | nil => rfl
  | cons eligible rest ih =>
    rw [visitEach, List.length_cons, List.length_cons, ih]

/-- The count behind a run is that of the visits that showed a branch. -/
theorem visits_visitEach (counted : kind ≠ .shuffle) (run : List (List Nat))
    (progress : Progress) (source : RandomSource) :
    (visitEach kind run progress source).2.visits.toNat = min (2 ^ 32 - 1)
      (progress.visits.toNat + (visitEach kind run progress source).1.countP Option.isSome) := by
  induction run generalizing progress source with
  | nil =>
    have bound := progress.visits.toNat_lt
    simp only [visitEach, List.countP_nil]
    omega
  | cons eligible rest ih =>
    have step := visits_select_eq counted progress eligible source
    rw [visitEach, List.countP_cons, ih, step]
    omega

/-- Every visit shows the branch that the count before it asks for. -/
theorem shown_visitEach (counted : kind ≠ .shuffle) {run : List (List Nat)} {visit : Nat}
    {eligible : List Nat} (visited : run[visit]? = some eligible) (progress : Progress)
    (source : RandomSource) :
    (visitEach kind run progress source).1[visit]? = some (byVisits kind (min (2 ^ 32 - 1)
      (progress.visits.toNat +
        ((visitEach kind run progress source).1.take visit).countP Option.isSome)) eligible) := by
  induction run generalizing visit progress source with
  | nil => cases visited
  | cons first rest ih =>
    have bound := progress.visits.toNat_lt
    cases visit with
    | zero =>
      cases visited
      have here : min (2 ^ 32 - 1) (progress.visits.toNat + 0) = progress.visits.toNat := by omega
      rw [List.take_zero, List.countP_nil, here, ← branch_select counted progress _ source]
      rfl
    | succ visit =>
      have step := visits_select_eq counted progress first source
      have behind := ih visited (select kind progress first source).progress
        (select kind progress first source).source
      rw [visitEach, List.getElem?_cons_succ, List.take_succ_cons, List.countP_cons, behind, step]
      congr 2
      omega

/-! ### The place of a branch -/

/-- In strictly increasing branches, as many are less than a branch as stand in front of it. -/
theorem countP_lt_of_getElem? {eligible : List Nat} (increasing : eligible.Pairwise (· < ·))
    {place branch : Nat} (found : eligible[place]? = some branch) :
    eligible.countP (· < branch) = place := by
  induction eligible generalizing place with
  | nil => cases found
  | cons first rest ih =>
    obtain ⟨above, ordered⟩ := List.pairwise_cons.1 increasing
    cases place with
    | zero =>
      cases found
      have none : rest.countP (· < branch) = 0 := by
        rw [List.countP_eq_zero]
        intro other member
        have greater := above other member
        simp only [decide_eq_true_eq]
        omega
      rw [List.countP_cons, none]
      simp
    | succ place =>
      have less : first < branch := above branch (List.mem_of_getElem? found)
      rw [List.countP_cons, ih ordered found]
      simp [less]

/-- If a branch stands farther back than before, another one has come in front of it. -/
theorem exists_in_front {before later : List Nat} (increasingBefore : before.Pairwise (· < ·))
    (increasingLater : later.Pairwise (· < ·)) {place farther branch : Nat}
    (first : before[place]? = some branch) (again : later[farther]? = some branch)
    (grown : place < farther) : ∃ other < branch, other ∈ later ∧ other ∉ before := by
  by_contra settled
  push Not at settled
  have inside : later.filter (· < branch) ⊆ before.filter (· < branch) := by
    intro other member
    obtain ⟨eligible, less⟩ := List.mem_filter.1 member
    exact List.mem_filter.2 ⟨settled other (of_decide_eq_true less) eligible, less⟩
  have distinct : (later.filter (· < branch)).Nodup :=
    (increasingLater.imp Nat.ne_of_lt).filter _
  have fewer := (distinct.subperm inside).length_le
  rw [← List.countP_eq_length_filter, ← List.countP_eq_length_filter,
    countP_lt_of_getElem? increasingBefore first, countP_lt_of_getElem? increasingLater again]
    at fewer
  omega

/-! ### Lists that show each branch once -/

variable {n : Nat} {run : List (List Nat)}

/-- The eligible branches of visits are given in the order of the text, by their indices below the
number of branches. -/
def Ordered (n : Nat) (run : List (List Nat)) : Prop :=
  ∀ eligible ∈ run, eligible.Pairwise (· < ·) ∧ ∀ branch ∈ eligible, branch < n

instance (n : Nat) (run : List (List Nat)) : Decidable (Ordered n run) :=
  inferInstanceAs (Decidable (∀ eligible ∈ run, _ ∧ _))

variable {shown : List (Option Nat)} {last : Progress}

/-- A visit of a list that shows each branch once shows the eligible one that stands behind as many
as were shown before. -/
theorem exists_visit_of_shown (told : visitEach .once run .none source = (shown, last))
    {visit branch : Nat} (here : shown[visit]? = some (some branch)) :
    ∃ eligible, run[visit]? = some eligible ∧
      eligible[min (2 ^ 32 - 1) ((shown.take visit).countP Option.isSome)]? = some branch := by
  have size := length_visitEach .once run .none source
  rw [told] at size
  have inside : visit < run.length := by
    rw [← size]
    exact (List.getElem?_eq_some_iff.1 here).1
  have visited := List.getElem?_eq_getElem inside
  have counted : Discipline.once ≠ .shuffle := by decide
  have asked := shown_visitEach counted visited .none source
  have fresh : Progress.none.visits.toNat = 0 := rfl
  rw [told, here, fresh, Nat.zero_add] at asked
  exact ⟨run[visit], visited, (Option.some.inj asked).symm⟩

theorem lt_of_shown (ordered : Ordered n run)
    (told : visitEach .once run .none source = (shown, last)) {branch : Nat}
    (member : some branch ∈ shown) : branch < n := by
  obtain ⟨visit, here⟩ := List.mem_iff_getElem?.1 member
  obtain ⟨eligible, visited, found⟩ := exists_visit_of_shown told here
  exact (ordered eligible (List.mem_of_getElem? visited)).2 branch (List.mem_of_getElem? found)

/-- The count grows over a visit that shows a branch. -/
theorem countP_take_lt {first second branch : Nat} (earlier : first < second)
    (here : shown[first]? = some (some branch)) :
    (shown.take first).countP Option.isSome < (shown.take second).countP Option.isSome := by
  have grown : (shown.take (first + 1)).countP Option.isSome =
      (shown.take first).countP Option.isSome + 1 := by
    rw [List.take_add_one, here, List.countP_append]
    rfl
  have front : shown.take (first + 1) <+: shown.take second :=
    List.take_prefix_take_left earlier
  have least := front.sublist.countP_le (p := Option.isSome)
  omega

/-- A list that shows each branch once shows one in two visits only if another branch has become
eligible in front of it in the second, or if it has more branches than can be counted. If none is
shown twice, every branch has been shown once the count has come to their number. -/
theorem shown_once (ordered : Ordered n run)
    (told : visitEach .once run .none source = (shown, last)) :
    (∀ (first second branch : Nat) (before later : List Nat), first < second →
      run[first]? = some before → run[second]? = some later →
      shown[first]? = some (some branch) → shown[second]? = some (some branch) →
        (∃ other < branch, other ∈ later ∧ other ∉ before) ∨ 2 ^ 32 ≤ n) ∧
    (shown.reduceOption.Nodup → last.visits.toNat = n → ∀ branch < n, some branch ∈ shown) := by
  constructor
  · intro first second branch before later earlier visited revisited here there
    obtain ⟨_, found, asked⟩ := exists_visit_of_shown told here
    cases visited.symm.trans found
    obtain ⟨_, found, askedAgain⟩ := exists_visit_of_shown told there
    cases revisited.symm.trans found
    obtain ⟨increasing, small⟩ := ordered before (List.mem_of_getElem? visited)
    obtain ⟨increasingLater, -⟩ := ordered later (List.mem_of_getElem? revisited)
    have grown := countP_take_lt earlier here
    -- The count is the place of the branch, and it has grown unless it is at its limit.
    by_cases limit : (shown.take first).countP Option.isSome < 2 ^ 32 - 1
    · exact Or.inl (exists_in_front increasing increasingLater asked askedAgain (by omega))
    · have inside := (List.getElem?_eq_some_iff.1 asked).1
      have distinct : before.Nodup := increasing.imp Nat.ne_of_lt
      have below : before ⊆ List.range n :=
        fun other member => List.mem_range.2 (small other member)
      have bounded := (distinct.subperm below).length_le
      rw [List.length_range] at bounded
      omega
  · intro distinct counted branch small
    have below : shown.reduceOption ⊆ List.range n := fun other member =>
      List.mem_range.2 (lt_of_shown ordered told (List.reduceOption_mem_iff.1 member))
    have unshuffled : Discipline.once ≠ .shuffle := by decide
    have visits := visits_visitEach unshuffled run .none source
    have fresh : Progress.none.visits.toNat = 0 := rfl
    rw [told, counted, fresh, Nat.zero_add] at visits
    dsimp only at visits
    have enough : (List.range n).length ≤ shown.reduceOption.length := by
      rw [List.length_range, List.reduceOption_length_eq, ← List.countP_eq_length_filter]
      omega
    have all := (distinct.subperm below).perm_of_length_le enough
    exact List.reduceOption_mem_iff.1 (all.mem_iff.2 (List.mem_range.2 small))

/-- In the third visit a branch becomes eligible in front of the one shown before, which is shown
again, and the list ends with a branch left out. In the second run each branch is shown once. -/
theorem shown_once_reopened :
    let words := RandomSource.cyclic []
    visitEach .once [[0, 2], [1, 2], [0, 1, 2], [0, 1, 2]] .none words =
        ([some 0, some 2, some 2, none], ⟨3, none, none⟩) ∧
      (∃ other < 2, other ∈ [0, 1, 2] ∧ other ∉ [1, 2]) ∧
      (visitEach .once [[0, 2], [0, 1, 2], [0], [0, 1, 2]] .none words).1 =
        [some 0, some 1, none, some 2] ∧
      ∀ branch < 3, some branch ∈ [some 0, some 1, none, some 2] := by
  have reopened : visitEach .once [[0, 2], [1, 2], [0, 1, 2], [0, 1, 2]] .none (.cyclic []) =
      ([some 0, some 2, some 2, none], ⟨3, none, none⟩) := by cbv
  have whole : visitEach .once [[0, 2], [0, 1, 2], [0], [0, 1, 2]] .none (.cyclic []) =
      ([some 0, some 1, none, some 2], ⟨3, none, none⟩) := by cbv
  have again := (shown_once (n := 3) (by decide) reopened).1 1 2 2 [1, 2] [0, 1, 2] (by decide)
    rfl rfl rfl rfl
  refine ⟨reopened, ?_, congrArg Prod.fst whole, ?_⟩
  · exact again.resolve_right (by decide)
  · exact (shown_once (n := 3) (by decide) whole).2 (by decide) rfl

/-- A list that shows each branch once may show one twice and leave another out, though its count
comes to the number of its branches. -/
theorem not_shown_once :
    ¬ ∀ (n : Nat) (run : List (List Nat)) (source : RandomSource) (shown : List (Option Nat))
      (last : Progress), Ordered n run → visitEach .once run .none source = (shown, last) →
        shown.reduceOption.Nodup ∧
          (last.visits.toNat = n → ∀ branch < n, some branch ∈ shown) := by
  intro all
  have told : visitEach .once [[1], [0, 1]] .none (.cyclic []) =
      ([some 1, some 1], ⟨2, none, none⟩) := by cbv
  obtain ⟨-, whole⟩ := all 2 [[1], [0, 1]] (.cyclic []) _ _ (by decide) told
  have first := whole rfl 0 (by decide)
  revert first
  decide

end Narrative.Selection
