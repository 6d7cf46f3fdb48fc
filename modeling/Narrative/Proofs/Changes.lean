import Narrative.Proofs.Rounds
import Narrative.Proofs.Visits

/-!
What a visit changes. A choice changes the progress of its own list only, and only if that list
shows a branch, by one visit. Over a visit each identity is chosen at most once, so the store keeps
every other entry, and the entries that change are one visit ahead of where they were.
-/

set_option autoImplicit false

namespace Narrative

/-! ### One choice -/

/-- Progress is one visit ahead. Only a shuffle moves in an order. -/
structure Progress.Advanced (kind : Discipline) (before after : Progress) : Prop where
  visits : after.visits.toNat = min (before.visits.toNat + 1) (2 ^ 32 - 1)
  order : kind ≠ .shuffle → after.order = before.order
  cursor : kind ≠ .shuffle → after.cursor = before.cursor

theorem select_advanced {kind : Discipline} {progress : Progress} {eligible : List Nat}
    {source : RandomSource} {branch : Nat}
    (shown : (select kind progress eligible source).branch = some branch) :
    Progress.Advanced kind progress (select kind progress eligible source).progress := by
  have visited (counted : kind ≠ .shuffle) :
      (select kind progress eligible source).progress = progress.visited := by
    rw [select_of_ne_shuffle counted] at shown ⊢
    split at shown
    · rfl
    · cases shown
  constructor
  · rw [visits_select shown, Progress.visits_visited, Nat.min_comm]
  · intro counted
    rw [visited counted]
    rfl
  · intro counted
    rw [visited counted]
    rfl

/-- What a directive may show on progress that is kept in a store: a conditional goes by its guard,
a list selects among the branches whose guards pass. -/
def Directive.Prescribes (answer : String → Except String Bool) (store : Store)
    (directive : Directive) (branch : Option Nat) : Prop :=
  match directive.kind with
  | .conditional => directive.chooseConditional answer = .ok branch
  | .list kind =>
    ∃ source, branch = (select kind (store.progress directive.identity)
      (directive.eligible answer) source).branch

section

variable {answer : String → Except String Bool} {trail after : Trail} {directive : Directive}

theorem Directive.prescribes_of_choose {branch : Option Nat}
    (chosen : directive.choose answer trail = (.ok branch, after)) :
    directive.Prescribes answer trail.store branch := by
  unfold Prescribes
  cases sort : directive.kind with
  | conditional =>
    unfold choose at chosen
    split at chosen
    · cases chosen
    · rw [sort] at chosen
      have result := (Prod.mk.inj chosen).1
      cases answered : directive.chooseConditional answer with
      | error error =>
        rw [answered] at result
        cases result
      | ok index =>
        rw [answered] at result
        exact congrArg Except.ok (Except.ok.inj result)
  | list kind =>
    obtain ⟨eligible, selection, passing, rfl, shown, -⟩ := choose_listed sort chosen
    have all : eligible = directive.eligible answer := eligibleFrom_eq passing
    exact ⟨trail.source, by rw [← shown, all]⟩

/-- Without branches whose guards pass, a list shows nothing. -/
theorem Directive.Prescribes.eq_none_of_empty {store : Store} {branch : Option Nat}
    (prescribes : directive.Prescribes answer store branch) {kind : Discipline}
    (listed : directive.kind = .list kind) (empty : directive.eligible answer = []) :
    branch = none := by
  rw [Prescribes, listed] at prescribes
  obtain ⟨source, rfl⟩ := prescribes
  rw [empty]
  cases kind <;> rfl

/-- A list that shows each branch once shows nothing after as many visits as it has branches to
show. -/
theorem Directive.Prescribes.eq_none_of_exhausted {store : Store} {branch : Option Nat}
    (prescribes : directive.Prescribes answer store branch) (once : directive.kind = .list .once)
    (exhausted : (directive.eligible answer).length ≤ store.visits directive.identity) :
    branch = none := by
  rw [Prescribes, once] at prescribes
  obtain ⟨source, rfl⟩ := prescribes
  rw [branch_select (by decide)]
  exact List.getElem?_eq_none exhausted

/-- A choice changes nothing but the entry of a list that shows a branch. -/
theorem Directive.get?_choose {branch : Option Nat}
    (chosen : directive.choose answer trail = (.ok branch, after)) {identity : String}
    (idle : Showing.advances identity ⟨directive, branch⟩ = false) :
    after.store.get? identity = trail.store.get? identity := by
  cases sort : directive.kind with
  | conditional => rw [choose_conditional sort chosen]
  | list kind =>
    obtain ⟨eligible, selection, -, -, -, left⟩ := choose_listed sort chosen
    rw [left]
    cases branch with
    | none => rfl
    | some index =>
      have apart : identity ≠ directive.identity := by
        rintro rfl
        simp [Showing.advances, sort] at idle
      exact KeyMap.get?_insert_ne _ apart _

/-- A list that shows a branch is one visit ahead. -/
theorem Directive.advanced_choose {kind : Discipline} (listed : directive.kind = .list kind)
    {index : Nat} (chosen : directive.choose answer trail = (.ok (some index), after)) :
    ∃ progress, after.store.get? directive.identity = some progress ∧
      Progress.Advanced kind (trail.store.progress directive.identity) progress := by
  obtain ⟨eligible, selection, -, rfl, shown, left⟩ := choose_listed listed chosen
  refine ⟨_, ?_, select_advanced shown⟩
  rw [left]
  exact KeyMap.get?_insert_self _ _ _

/-! ### One visit -/

variable {showings : List Showing}

/-- A run of choices keeps every entry of which no list shows a branch. -/
theorem Chain.get?_of_idle (chain : Chain answer trail showings after) {identity : String}
    (idle : ∀ showing ∈ showings, showing.advances identity = false) :
    after.store.get? identity = trail.store.get? identity := by
  induction chain with
  | nil trail => rfl
  | cons chosen others ih =>
    rw [ih (fun showing member => idle showing (List.mem_cons_of_mem _ member))]
    exact Directive.get?_choose chosen (idle _ List.mem_cons_self)

theorem Chain.progress_of_idle (chain : Chain answer trail showings after) {identity : String}
    (idle : ∀ showing ∈ showings, showing.advances identity = false) :
    after.store.progress identity = trail.store.progress identity := by
  rw [Store.progress, Store.progress, chain.get?_of_idle idle]

theorem Showing.advances_of_ne {showing : Showing} {identity : String}
    (apart : showing.directive.identity ≠ identity) : showing.advances identity = false := by
  simp [advances, apart]

/-- A choice of a visit is made on the progress from before the visit, and what it leaves is there
after the visit. -/
theorem Chain.advanced_of_mem (chain : Chain answer trail showings after)
    (distinct : Distinct showings) {kind : Discipline} (listed : directive.kind = .list kind)
    {index : Nat} (member : ⟨directive, some index⟩ ∈ showings) :
    ∃ progress, after.store.get? directive.identity = some progress ∧
      Progress.Advanced kind (trail.store.progress directive.identity) progress := by
  obtain ⟨earlier, later, rfl⟩ := List.append_of_mem member
  obtain ⟨before, middle, begun, chosen, behind⟩ := chain.split
  obtain ⟨progress, found, advanced⟩ := Directive.advanced_choose listed chosen
  have idle : ∀ showing ∈ earlier ++ later, showing.advances directive.identity = false :=
    fun showing other => Showing.advances_of_ne (distinct.apart other)
  rw [begun.progress_of_idle (fun showing early => idle showing (List.mem_append_left _ early))]
    at advanced
  rw [← behind.get?_of_idle (fun showing late => idle showing (List.mem_append_right _ late))]
    at found
  exact ⟨progress, found, advanced⟩

theorem Chain.prescribed_of_mem (chain : Chain answer trail showings after)
    (distinct : Distinct showings) {branch : Option Nat}
    (member : ⟨directive, branch⟩ ∈ showings) :
    directive.Prescribes answer trail.store branch := by
  obtain ⟨earlier, later, rfl⟩ := List.append_of_mem member
  obtain ⟨before, middle, begun, chosen, -⟩ := chain.split
  have same : before.store.progress directive.identity =
      trail.store.progress directive.identity :=
    begun.progress_of_idle (fun showing early =>
      Showing.advances_of_ne (distinct.apart (List.mem_append_left later early)))
  have prescribes := Directive.prescribes_of_choose chosen
  unfold Directive.Prescribes at prescribes ⊢
  rwa [same] at prescribes

end

/-- What a visit of nodes does to a store, given the branch that it shows for each identity. -/
structure Store.Visited (answer : String → Except String Bool) (nodes : List Node)
    (shown : String → Option Nat) (before after : Store) : Prop where
  prescribed : ∀ directive, Reached shown nodes directive →
    directive.Prescribes answer before (shown directive.identity)
  /-- A list that is reached and shows a branch is one visit ahead. -/
  advanced : ∀ directive kind index, Reached shown nodes directive →
    directive.kind = .list kind → shown directive.identity = some index →
    ∃ progress, after.get? directive.identity = some progress ∧
      Progress.Advanced kind (before.progress directive.identity) progress
  /-- Nothing else changes, and where there was no entry there is none. -/
  kept : ∀ identity, (∀ directive kind, Reached shown nodes directive →
      directive.kind = .list kind → directive.identity = identity → shown identity = none) →
    after.get? identity = before.get? identity

/-- A directive that is passed over, or has no progress to make: it is not reached, it is a
conditional, no guard of its branches passes, or it has shown each branch once. -/
def Directive.Idle (answer : String → Except String Bool) (nodes : List Node)
    (shown : String → Option Nat) (store : Store) (directive : Directive) : Prop :=
  ¬ Reached shown nodes directive ∨ directive.kind = .conditional ∨
    directive.eligible answer = [] ∨
    directive.kind = .list .once ∧
      (directive.eligible answer).length ≤ store.visits directive.identity

section

variable {answer : String → Except String Bool} {nodes : List Node} {trail after : Trail}
  {showings : List Showing} {text : String}

/-- A resolution that succeeds is a visit by the branches that it shows. -/
theorem Shows.visited (shows : Shows answer nodes trail showings text after)
    (nodup : ((directivesOfNodes nodes).map Directive.identity).Nodup) :
    Store.Visited answer nodes (branchShown showings) trail.store after.store := by
  have distinct := shows.distinct nodup
  have tells : ∀ showing ∈ showings,
      branchShown showings showing.directive.identity = showing.branch :=
    fun showing member => branchShown_of_mem distinct member
  constructor
  · intro directive reached
    obtain ⟨branch, member⟩ := shows.mem_of_reached nodup reached
    rw [tells _ member]
    exact shows.chain.prescribed_of_mem distinct member
  · intro directive kind index reached listed chosen
    obtain ⟨branch, member⟩ := shows.mem_of_reached nodup reached
    have same : branch = some index := (tells _ member).symm.trans chosen
    subst same
    exact shows.chain.advanced_of_mem distinct listed member
  · intro identity silent
    -- A choice that changed the entry would be that of a list which is reached and shows a branch.
    refine shows.chain.get?_of_idle (fun showing member => ?_)
    by_contra changes
    simp only [Showing.advances, Bool.not_eq_false, Bool.and_eq_true, beq_iff_eq, bne_iff_ne,
      ne_eq] at changes
    obtain ⟨⟨same, list⟩, chooses⟩ := changes
    cases sort : showing.directive.kind with
    | conditional => exact list sort
    | list kind =>
      have none := silent _ kind (shows.reached_of_mem tells member) sort same
      rw [← same, tells _ member] at none
      rw [none] at chooses
      cases chooses

theorem Shows.mem_directives (shows : Shows answer nodes trail showings text after)
    (nodup : ((directivesOfNodes nodes).map Directive.identity).Nodup) {directive : Directive}
    (reached : Reached (branchShown showings) nodes directive) :
    directive ∈ directivesOfNodes nodes := by
  obtain ⟨branch, member⟩ := shows.mem_of_reached nodup reached
  exact shows.sublist.subset (List.mem_map_of_mem (f := Showing.directive) member)

end

namespace Session

variable {session next : Session} {document : Document} {bindings : Bindings} {text : String}

/-- A visit that succeeds changes only the progress of the lists that it reaches and that show a
branch, each by one visit. Its text is composed of the branches shown. -/
theorem visited_of_resolve (distinct : (document.directives.map Directive.identity).Nodup)
    (visited : session.resolve document bindings = (.ok text, next)) :
    let answer := session.evaluator bindings
    let shown := session.shown document bindings
    text = session.localize .afterCompose (composeNodes shown document.nodes) ∧
    Store.Visited answer document.nodes shown session.store next.store ∧
    (∀ directive ∈ document.directives,
      directive.Idle answer document.nodes shown session.store →
        next.store.get? directive.identity = session.store.get? directive.identity) ∧
    ∀ identity ∉ document.directives.map Directive.identity,
      next.store.get? identity = session.store.get? identity := by
  obtain ⟨plain, shows, composed⟩ := shows_of_resolve visited
  have unique := shows.distinct distinct
  have changes := shows.visited distinct
  refine ⟨?_, changes, ?_, ?_⟩
  · rw [composed]
    exact congrArg _ (shows.text_eq (fun showing found => branchShown_of_mem unique found))
  · intro directive member idle
    refine changes.kept _ (fun other kind reached listed same => ?_)
    have equal : other = directive :=
      List.inj_on_of_nodup_map distinct (shows.mem_directives distinct reached) member same
    subst equal
    have prescribes := changes.prescribed other reached
    rcases idle with unreached | conditional | empty | ⟨once, exhausted⟩
    · exact absurd reached unreached
    · rw [conditional] at listed
      cases listed
    · exact prescribes.eq_none_of_empty listed empty
    · exact prescribes.eq_none_of_exhausted once exhausted
  · intro identity outside
    refine changes.kept identity (fun directive kind reached _ same => ?_)
    have inside := shows.mem_directives distinct reached
    exact absurd (List.mem_map.2 ⟨directive, inside, same⟩) outside

/-- A shuffle at the end of its order and of its count. -/
def lodgeShuffle : Directive :=
  ⟨"m", .list .shuffle, .discipline .shuffle, .inline,
    [⟨none, [.text "moth"], default⟩, ⟨none, [.text "mouse"], default⟩], default⟩

/-- A list that has shown all its branches. -/
def lodgeOnce : Directive :=
  ⟨"o", .list .once, .discipline .once, .inline, [⟨none, [.text "key"], default⟩], default⟩

/-- The lists stand behind one with another list in its last branch. -/
def lodgeDocument : Document :=
  ⟨"lodge", [.directive lanternStopping, .text " ", .directive lodgeShuffle,
    .directive lodgeOnce]⟩

def lodgeSession : Session :=
  lanternSession.withStore
    ((KeyMap.empty.insert "m" ⟨0xFFFFFFFF, some [1, 0], some 1⟩).insert "o" ⟨1, none, none⟩)

theorem visited_of_resolve_lodge :
    ∃ next, lodgeSession.resolve lodgeDocument (lanternBindings false none) =
        (.ok "dark moth", next) ∧
      (∃ progress, next.store.get? "s" = some progress ∧
        Progress.Advanced .stopping .none progress) ∧
      (∃ progress, next.store.get? "m" = some progress ∧
        Progress.Advanced .shuffle ⟨0xFFFFFFFF, some [1, 0], some 1⟩ progress) ∧
      next.store.get? "o" = some ⟨1, none, none⟩ ∧ next.store.get? "c" = none ∧
      next.store.get? "lodge" = none := by
  have distinct : (lodgeDocument.directives.map Directive.identity).Nodup := by decide +kernel
  have succeeds : (lodgeSession.resolve lodgeDocument (lanternBindings false none)).1.toOption =
      some "dark moth" := by decide +kernel
  have stopping : lodgeSession.shown lodgeDocument (lanternBindings false none) "s" = some 0 := by
    decide +kernel
  have shuffle : lodgeSession.shown lodgeDocument (lanternBindings false none) "m" = some 0 := by
    decide +kernel
  have silent : lodgeSession.shown lodgeDocument (lanternBindings false none) "c" = none := by
    decide +kernel
  cases visited : lodgeSession.resolve lodgeDocument (lanternBindings false none) with
  | mk outcome next =>
    cases outcome with
    | error error =>
      rw [visited] at succeeds
      cases succeeds
    | ok text =>
      obtain ⟨-, changes, idle, outside⟩ := visited_of_resolve distinct visited
      rw [visited] at succeeds
      cases succeeds
      refine ⟨next, rfl, ?_, ?_, ?_, ?_, ?_⟩
      · exact changes.advanced lanternStopping .stopping 0 (.top (by simp [lodgeDocument])) rfl
          stopping
      · exact changes.advanced lodgeShuffle .shuffle 0 (.top (by simp [lodgeDocument])) rfl
          shuffle
      · have inside : lodgeOnce ∈ lodgeDocument.directives := by
          simp [lodgeDocument, Document.directives, directivesOfNodes, Node.directives, lodgeOnce,
            Directive.directives]
        exact idle lodgeOnce inside (Or.inr (Or.inr (Or.inr ⟨rfl, by decide +kernel⟩)))
      · exact changes.kept "c" (fun _ _ _ _ _ => silent)
      · exact outside "lodge" (by decide +kernel)

end Session

end Narrative
