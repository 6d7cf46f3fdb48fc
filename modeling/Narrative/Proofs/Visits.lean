import Mathlib.Data.List.Nodup
import Narrative.Proofs.Rollback

/-!
The visit law. A list counts the successful visits that showed one of its branches, and a visit
shows the branch that this count asks for among those whose guards pass. One choice adds at most one
to the count of its own identity; over a visit the choices follow one another, and over a sequence
of visits the failed ones put every count back.
-/

set_option autoImplicit false

namespace Narrative

/-! ### One choice -/

theorem Progress.visits_visited (progress : Progress) :
    progress.visited.visits.toNat = min (2 ^ 32 - 1) (progress.visits.toNat + 1) := by
  have bound := progress.visits.toNat_lt
  unfold visited
  dsimp only
  split
  · next most =>
    rw [most]
    rfl
  · next less =>
    have apart : progress.visits.toNat ≠ 0xFFFFFFFF := by
      intro same
      exact less (UInt32.toNat_inj.1 same)
    rw [UInt32.toNat_add]
    change (progress.visits.toNat + 1) % 2 ^ 32 = _
    omega

theorem visits_select {kind : Discipline} {progress : Progress} {eligible : List Nat}
    {source : RandomSource} {branch : Nat}
    (shown : (select kind progress eligible source).branch = some branch) :
    (select kind progress eligible source).progress.visits = progress.visited.visits := by
  revert shown
  unfold select
  split
  · intro _
    unfold Selection.shuffled
    dsimp only
    split <;> rfl
  · split
    · intro _
      rfl
    · intro shown
      cases shown

theorem branch_select {kind : Discipline} (counted : kind ≠ .shuffle) (progress : Progress)
    (eligible : List Nat) (source : RandomSource) :
    (select kind progress eligible source).branch =
      Selection.byVisits kind progress.visits.toNat eligible := by
  unfold select
  split
  · exact absurd rfl counted
  · split
    · next found => exact found.symm
    · next missing => exact missing.symm

def Store.visits (store : Store) (identity : String) : Nat :=
  (store.progress identity).visits.toNat

theorem Store.visits_lt (store : Store) (identity : String) : store.visits identity < 2 ^ 32 :=
  (store.progress identity).visits.toNat_lt

theorem Store.visits_empty (identity : String) : Store.visits .empty identity = 0 := rfl

theorem Store.visits_insert_self (store : Store) (identity : String) (progress : Progress) :
    Store.visits (store.insert identity progress) identity = progress.visits.toNat := by
  simp [visits, Store.progress]

theorem Store.visits_insert_ne (store : Store) {identity asked : String}
    (different : asked ≠ identity) (progress : Progress) :
    Store.visits (store.insert identity progress) asked = store.visits asked := by
  simp [visits, Store.progress, KeyMap.get?_insert_ne store different]

section

variable {answer : String → Except String Bool} {trail after : Trail} {showings : List Showing}

/-- A list chooses among the branches whose guards pass, and keeps its progress if it shows one. -/
theorem Directive.choose_listed {directive : Directive} {kind : Discipline} {branch : Option Nat}
    (listed : directive.kind = .list kind)
    (chosen : directive.choose answer trail = (.ok branch, after)) :
    ∃ eligible selection, eligibleFrom answer 0 directive.branches = .ok eligible ∧
      selection = select kind (trail.store.progress directive.identity) eligible trail.source ∧
      selection.branch = branch ∧
      after.store = if branch.isSome then
        trail.store.insert directive.identity selection.progress else trail.store := by
  unfold choose at chosen
  split at chosen
  · cases chosen
  · rw [listed] at chosen
    dsimp only at chosen
    unfold chooseListed at chosen
    split at chosen
    · cases chosen
    · next eligible passing =>
      refine ⟨eligible, _, passing, rfl, ?_⟩
      dsimp only at chosen
      split at chosen
      · next missing =>
        cases chosen
        exact ⟨missing, rfl⟩
      · next index found =>
        cases chosen
        exact ⟨found, rfl⟩

theorem Directive.choose_conditional {directive : Directive} {branch : Option Nat}
    (conditional : directive.kind = .conditional)
    (chosen : directive.choose answer trail = (.ok branch, after)) : after = trail := by
  unfold choose at chosen
  split at chosen
  · cases chosen
  · rw [conditional] at chosen
    exact (Prod.mk.inj chosen).2.symm

/-- Whether a list of the given identity showed a branch. -/
def Showing.advances (identity : String) (showing : Showing) : Bool :=
  showing.directive.identity == identity && showing.directive.kind != .conditional &&
    showing.branch.isSome

/-- One choice counts for the identity of its directive, and only if that shows a branch. -/
theorem Directive.visits_choose {directive : Directive} {branch : Option Nat}
    (chosen : directive.choose answer trail = (.ok branch, after)) (identity : String) :
    after.store.visits identity = min (2 ^ 32 - 1) (trail.store.visits identity +
      if Showing.advances identity ⟨directive, branch⟩ then 1 else 0) := by
  have bound := trail.store.visits_lt identity
  cases sort : directive.kind with
  | conditional =>
    rw [Directive.choose_conditional sort chosen]
    simp only [Showing.advances, sort, bne_self_eq_false, Bool.and_false, Bool.false_and,
      Bool.false_eq_true, ↓reduceIte]
    omega
  | list kind =>
    obtain ⟨eligible, selection, -, selected, shown, left⟩ := Directive.choose_listed sort chosen
    have counts : Showing.advances identity ⟨directive, branch⟩ =
        (directive.identity == identity && branch.isSome) := by
      have list : (Kind.list kind != .conditional) = true := by cases kind <;> rfl
      rw [Showing.advances, sort, list, Bool.and_true]
    rw [counts, left]
    cases branch with
    | none =>
      simp only [Option.isSome_none, Bool.and_false, Bool.false_eq_true, ↓reduceIte]
      omega
    | some index =>
      by_cases same : directive.identity = identity
      · subst same
        simp only [Option.isSome_some, BEq.rfl, Bool.and_self, ↓reduceIte]
        rw [Store.visits_insert_self, selected]
        rw [selected] at shown
        rw [visits_select shown]
        exact Progress.visits_visited _
      · have apart : (directive.identity == identity) = false := by simpa using same
        simp only [Option.isSome_some, apart, Bool.false_and, Bool.false_eq_true, ↓reduceIte]
        rw [Store.visits_insert_ne _ (fun equal => same equal.symm)]
        omega

/-! ### One visit -/

/-- Directives that choose one after the other, each on the trail that the one before left. -/
inductive Chain (answer : String → Except String Bool) : Trail → List Showing → Trail → Prop
  | nil (trail : Trail) : Chain answer trail [] trail
  | cons {directive : Directive} {branch : Option Nat} {trail middle after : Trail}
    {rest : List Showing} (chosen : directive.choose answer trail = (.ok branch, middle))
    (others : Chain answer middle rest after) :
    Chain answer trail (⟨directive, branch⟩ :: rest) after

theorem Chain.append {middle : Trail} {first second : List Showing}
    (before : Chain answer trail first middle) (behind : Chain answer middle second after) :
    Chain answer trail (first ++ second) after := by
  induction before with
  | nil trail => exact behind
  | cons chosen others ih => exact .cons chosen (ih behind)

theorem Chain.split {earlier later : List Showing} {showing : Showing}
    (chain : Chain answer trail (earlier ++ showing :: later) after) :
    ∃ before middle, Chain answer trail earlier before ∧
      showing.directive.choose answer before = (.ok showing.branch, middle) ∧
      Chain answer middle later after := by
  induction earlier generalizing trail with
  | nil =>
    cases chain with
    | cons chosen others => exact ⟨trail, _, .nil trail, chosen, others⟩
  | cons first earlier ih =>
    cases chain with
    | cons chosen others =>
      obtain ⟨before, middle, begun, next, behind⟩ := ih others
      exact ⟨before, middle, .cons chosen begun, next, behind⟩

/-- What a resolution shows is chosen in that order. -/
theorem Shows.chain {nodes : List Node} {text : String}
    (shows : Shows answer nodes trail showings text after) : Chain answer trail showings after := by
  induction shows with
  | nil trail => exact .nil trail
  | text content rest ih => exact ih
  | nothing chosen rest ih => exact .cons chosen ih
  | branch chosen content rest inside outside => exact .cons chosen (inside.append outside)

/-- A run of choices adds one to the count of an identity for each branch shown. -/
theorem Chain.visits (chain : Chain answer trail showings after) (identity : String) :
    after.store.visits identity = min (2 ^ 32 - 1)
      (trail.store.visits identity + showings.countP (Showing.advances identity)) := by
  induction chain with
  | nil trail =>
    have bound := trail.store.visits_lt identity
    rw [List.countP_nil]
    omega
  | cons chosen others ih =>
    rw [ih, Directive.visits_choose chosen identity, List.countP_cons]
    omega

/-- The lists among the showings of an identity count it at most once. -/
theorem countP_advances (distinct : Distinct showings) {identity : String}
    (listed : ∀ showing ∈ showings, showing.directive.identity = identity →
      showing.directive.kind ≠ .conditional) :
    showings.countP (Showing.advances identity) =
      if (branchShown showings identity).isSome then 1 else 0 := by
  induction showings with
  | nil => rfl
  | cons first rest ih =>
    obtain ⟨outside, later⟩ := List.nodup_cons.1 distinct
    have others := ih later (fun showing member => listed showing (List.mem_cons_of_mem _ member))
    rw [List.countP_cons]
    by_cases same : first.directive.identity = identity
    · have absent : rest.countP (Showing.advances identity) = 0 := by
        rw [List.countP_eq_zero]
        intro showing member counts
        simp only [Showing.advances, Bool.and_eq_true, beq_iff_eq] at counts
        exact outside (List.mem_map.2 ⟨showing, member, counts.1.1.trans same.symm⟩)
      have list := listed first List.mem_cons_self same
      rw [absent]
      simp [Showing.advances, branchShown, same, list]
    · have skipped : Showing.advances identity first = false := by simp [Showing.advances, same]
      have found : branchShown (first :: rest) identity = branchShown rest identity := by
        rw [branchShown, List.find?_cons_of_neg (by simpa using same)]
        rfl
      rw [skipped, found, others]
      rfl

/-! ### The branches whose guards pass -/

/-- Whether a branch may be shown: it has no guard, or its guard passes. -/
def Branch.passes (answer : String → Except String Bool) (branch : Branch) : Bool :=
  match branch.guard with
  | none => true
  | some guard =>
    match answer guard.text with
    | .ok passes => passes
    | .error _ => false

/-- The indices of the branches that may be shown, in the order of the text. -/
def Directive.eligible (answer : String → Except String Bool) (directive : Directive) : List Nat :=
  (directive.branches.zipIdx.filter (fun entry => entry.1.passes answer)).map Prod.snd

theorem Branch.passes_of_check {branch : Branch} {passes : Bool}
    (checked : checkGuard answer branch.guard = .ok passes) : branch.passes answer = passes := by
  cases guarded : branch.guard with
  | none =>
    rw [guarded] at checked
    rw [Branch.passes, guarded]
    exact Except.ok.inj checked
  | some guard =>
    rw [guarded, checkGuard, Guard.check] at checked
    split at checked
    · next answered =>
      cases checked
      simp only [Branch.passes, guarded, answered]
    · cases checked

theorem eligibleFrom_eq {branches : List Branch} {index : Nat} {eligible : List Nat}
    (found : eligibleFrom answer index branches = .ok eligible) :
    eligible =
      ((branches.zipIdx index).filter (fun entry => entry.1.passes answer)).map Prod.snd := by
  induction branches generalizing index eligible with
  | nil => exact (Except.ok.inj found).symm
  | cons branch rest ih =>
    rw [eligibleFrom] at found
    split at found
    · cases found
    · next passes checked =>
      split at found
      · cases found
      · next more others =>
        cases found
        have here := Branch.passes_of_check checked
        rw [List.zipIdx_cons, ih others]
        cases passes with
        | true => simp [here]
        | false => simp [here]

/-- What a list shows is the branch that its count before the visit asks for. -/
theorem Chain.branch_of_mem (chain : Chain answer trail showings after)
    (distinct : Distinct showings) {directive : Directive} {kind : Discipline}
    (listed : directive.kind = .list kind) (counted : kind ≠ .shuffle) {branch : Option Nat}
    (member : ⟨directive, branch⟩ ∈ showings) :
    branch = Selection.byVisits kind (trail.store.visits directive.identity)
      (directive.eligible answer) := by
  obtain ⟨earlier, later, rfl⟩ := List.append_of_mem member
  obtain ⟨before, middle, begun, chosen, -⟩ := chain.split
  dsimp only at chosen
  have unshown : earlier.countP (Showing.advances directive.identity) = 0 := by
    rw [List.countP_eq_zero]
    intro showing early counts
    simp only [Showing.advances, Bool.and_eq_true, beq_iff_eq] at counts
    exact distinct.apart (List.mem_append_left later early) counts.1.1
  have kept : before.store.visits directive.identity = trail.store.visits directive.identity := by
    have bound := trail.store.visits_lt directive.identity
    rw [begun.visits, unshown]
    omega
  obtain ⟨eligible, selection, passing, selected, shown, -⟩ :=
    Directive.choose_listed listed chosen
  have all : eligible = directive.eligible answer := eligibleFrom_eq passing
  rw [← shown, selected, branch_select counted, all, ← kept]
  rfl

end

/-! ### Sequences of visits -/

namespace Session

def showings (session : Session) (document : Document) (bindings : Bindings) : List Showing :=
  showingsOfNodes (session.evaluator bindings) document.nodes session.trail

/-- The branch that the directive of an identity shows in a visit. -/
def shown (session : Session) (document : Document) (bindings : Bindings) (identity : String) :
    Option Nat :=
  branchShown (session.showings document bindings) identity

/-- Whether a visit succeeds and the directive of an identity shows a branch in it. -/
def emits (session : Session) (document : Document) (bindings : Bindings) (identity : String) :
    Bool :=
  (session.resolve document bindings).1.toOption.isSome &&
    (session.shown document bindings identity).isSome

/-- The session after visits of a document, each with its own bindings. -/
def visitAll (document : Document) : Session → List Bindings → Session
  | session, [] => session
  | session, bindings :: rest => visitAll document (session.resolve document bindings).2 rest

/-- The number of visits that succeed and in which the directive of an identity shows a branch. -/
def timesShown (document : Document) (identity : String) : Session → List Bindings → Nat
  | _, [] => 0
  | session, bindings :: rest =>
    (if session.emits document bindings identity then 1 else 0) +
      timesShown document identity (session.resolve document bindings).2 rest

/-- A visit leaves everything of a session but its trail as it was. -/
theorem resolve_snd (session : Session) (document : Document) (bindings : Bindings) :
    (session.resolve document bindings).2 =
      { session with trail := (session.resolve document bindings).2.trail } := by
  unfold resolve
  split <;> rfl

theorem evaluator_resolve (session : Session) (document : Document) (bindings : Bindings) :
    (session.resolve document bindings).2.evaluator = session.evaluator := by
  rw [resolve_snd]

theorem evaluator_visitAll (document : Document) (session : Session) (calls : List Bindings) :
    (session.visitAll document calls).evaluator = session.evaluator := by
  induction calls generalizing session with
  | nil => rfl
  | cons bindings rest ih => rw [visitAll, ih, evaluator_resolve]

variable {session next : Session} {document : Document} {bindings : Bindings} {text : String}

/-- A visit that succeeds is a tree of choices, and its text is composed by them. -/
theorem shows_of_resolve (visited : session.resolve document bindings = (.ok text, next)) :
    ∃ plain, Shows (session.evaluator bindings) document.nodes session.trail
        (session.showings document bindings) plain next.trail ∧
      text = session.localize .afterCompose plain := by
  unfold resolve at visited
  split at visited
  · next plain trail resolved =>
    cases visited
    exact ⟨plain, shows_of_resolveNodes document.nodes session.trail resolved, rfl⟩
  · cases visited

/-- Putting back the progress of a document's directives undoes any resolution of it. -/
theorem putBack_resolveNodes (session : Session) (document : Document) (bindings : Bindings) :
    session.store.putBack (document.directives.map Directive.identity)
      (resolveNodes (session.evaluator bindings) document.nodes session.trail).2.store =
        session.store :=
  Store.putBack_of_agreeOutside (agreeOutside_resolveNodes _ document.nodes session.trail
    (fun _ member => List.mem_map_of_mem member))

theorem store_of_failed {error : ResolutionError}
    (failed : session.resolve document bindings = (.error error, next)) :
    next.store = session.store := by
  have back := session.putBack_resolveNodes document bindings
  unfold resolve at failed
  split at failed
  · cases failed
  · next reason trail resolved =>
    rw [resolved] at back
    cases failed
    exact back

/-- A visit adds one to the count of a list if it succeeds and the list shows a branch. -/
theorem visits_resolve (distinct : (document.directives.map Directive.identity).Nodup)
    {directive : Directive} (member : directive ∈ document.directives) {kind : Discipline}
    (listed : directive.kind = .list kind) (session : Session) (bindings : Bindings) :
    (session.resolve document bindings).2.store.visits directive.identity =
      min (2 ^ 32 - 1) (session.store.visits directive.identity +
        if session.emits document bindings directive.identity then 1 else 0) := by
  cases result : session.resolve document bindings with
  | mk outcome next =>
    cases outcome with
    | error error =>
      have bound := session.store.visits_lt directive.identity
      have silent : session.emits document bindings directive.identity = false := by
        simp [emits, result, Except.toOption]
      rw [silent, store_of_failed result]
      simp only [Bool.false_eq_true, ↓reduceIte]
      omega
    | ok text =>
      obtain ⟨plain, shows, -⟩ := shows_of_resolve result
      have lists : ∀ showing ∈ session.showings document bindings,
          showing.directive.identity = directive.identity →
          showing.directive.kind ≠ .conditional := by
        intro showing shown same
        have inside : showing.directive ∈ document.directives :=
          shows.sublist.subset (List.mem_map_of_mem shown)
        have equal := List.inj_on_of_nodup_map distinct inside member same
        rw [equal, listed]
        intro conditional
        cases conditional
      have emits : session.emits document bindings directive.identity =
          (session.shown document bindings directive.identity).isSome := by
        simp [emits, result, Except.toOption]
      have counted := shows.chain.visits directive.identity
      rw [countP_advances (shows.distinct distinct) lists] at counted
      rw [emits]
      exact counted

/-- The count of a list is the number of visits that succeeded and showed one of its branches. -/
theorem visits_visitAll (distinct : (document.directives.map Directive.identity).Nodup)
    {directive : Directive} (member : directive ∈ document.directives) {kind : Discipline}
    (listed : directive.kind = .list kind) (session : Session) (calls : List Bindings) :
    (session.visitAll document calls).store.visits directive.identity =
      min (2 ^ 32 - 1) (session.store.visits directive.identity +
        session.timesShown document directive.identity calls) := by
  induction calls generalizing session with
  | nil =>
    have bound := session.store.visits_lt directive.identity
    rw [visitAll, timesShown]
    omega
  | cons bindings rest ih =>
    rw [visitAll, ih, visits_resolve distinct member listed, timesShown]
    omega

/-- The visit law. In a visit that succeeds, the text is composed of the branches shown, and every
list reached through them shows the branch that the number of earlier visits that showed one asks
for among the branches whose guards pass: the last of them at most, the one at that place in the
round, or the one at that place if there is one. -/
theorem shown_of_reached {start : Session} (fresh : start.store = .empty)
    (distinct : (document.directives.map Directive.identity).Nodup) (earlier : List Bindings)
    (visited : (start.visitAll document earlier).resolve document bindings = (.ok text, next))
    {directive : Directive}
    (reached : Reached ((start.visitAll document earlier).shown document bindings) document.nodes
      directive)
    (passing : directive.eligible (start.evaluator bindings) ≠ []) :
    let shown := (start.visitAll document earlier).shown document bindings
    let eligible := directive.eligible (start.evaluator bindings)
    let count := min (2 ^ 32 - 1) (start.timesShown document directive.identity earlier)
    text = (start.visitAll document earlier).localize .afterCompose
      (composeNodes shown document.nodes) ∧
    (directive.kind = .list .stopping → ∃ inside : min count (eligible.length - 1) <
      eligible.length, shown directive.identity = some eligible[min count (eligible.length - 1)]) ∧
    (directive.kind = .list .cycle → ∃ inside : count % eligible.length < eligible.length,
      shown directive.identity = some eligible[count % eligible.length]) ∧
    (directive.kind = .list .once → shown directive.identity = eligible[count]?) := by
  obtain ⟨plain, shows, composed⟩ := shows_of_resolve visited
  obtain ⟨branch, member⟩ := shows.mem_of_reached distinct reached
  have unique := shows.distinct distinct
  have inside : directive ∈ document.directives :=
    shows.sublist.subset (List.mem_map_of_mem (f := Showing.directive) member)
  have law : ∀ kind, directive.kind = .list kind → kind ≠ .shuffle →
      (start.visitAll document earlier).shown document bindings directive.identity =
        Selection.byVisits kind
          (min (2 ^ 32 - 1) (start.timesShown document directive.identity earlier))
          (directive.eligible (start.evaluator bindings)) := by
    intro kind listed counted
    have count := visits_visitAll distinct inside listed start earlier
    rw [fresh, Store.visits_empty, Nat.zero_add] at count
    have chosen := shows.chain.branch_of_mem unique listed counted member
    rw [evaluator_visitAll] at chosen
    rw [← count]
    exact (branchShown_of_mem unique member).trans chosen
  intro shown eligible count
  have positive : 0 < eligible.length := List.length_pos_iff.2 passing
  refine ⟨?_, ?_, ?_, ?_⟩
  · rw [composed]
    exact congrArg _ (shows.text_eq (fun showing found => branchShown_of_mem unique found))
  · intro listed
    have place : min count (eligible.length - 1) < eligible.length := by omega
    refine ⟨place, ?_⟩
    rw [← List.getElem?_eq_getElem place]
    exact law .stopping listed (by decide)
  · intro listed
    have place : count % eligible.length < eligible.length := Nat.mod_lt _ positive
    refine ⟨place, ?_⟩
    rw [← List.getElem?_eq_getElem place]
    exact law .cycle listed (by decide)
  · intro listed
    exact law .once listed (by decide)

/-- A list in the last branch of another one, after a branch with a guard. -/
def lanternCycle : Directive :=
  ⟨"c", .list .cycle, .discipline .cycle, .inline,
    [⟨none, [.text "drip"], default⟩, ⟨none, [.text "drop"], default⟩], default⟩

def lanternStopping : Directive :=
  ⟨"s", .list .stopping, .none, .inline,
    [⟨none, [.text "dark"], default⟩, ⟨some ⟨"lit", default⟩, [.text "bright"], default⟩,
      ⟨none, [.directive lanternCycle], default⟩], default⟩

/-- The lists stand before a condition that may have no answer. -/
def lanternDocument : Document :=
  ⟨"cave", [.directive lanternStopping, .text " ",
    .directive ⟨"g", .conditional, .condition ⟨"ghost", default⟩, .inline,
      [⟨none, [.text "boo"], default⟩], default⟩]⟩

/-- Guards are names of variables. -/
def lanternSession : Session :=
  withSource {} (fun bindings guard =>
    match bindings.get? guard with
    | some (.bool value) => .ok value
    | _ => .error "unknown") (.cyclic [])

/-- Bindings without a ghost let the visit fail after its lists have advanced. -/
def lanternBindings (lit : Bool) (ghost : Option Bool) : Bindings :=
  let known := KeyMap.empty.insert "lit" (.bool lit)
  match ghost with
  | some value => known.insert "ghost" (.bool value)
  | none => known

/-- Five visits, of which the second and the fourth fail. -/
def lanternCalls : List Bindings :=
  [lanternBindings false (some true), lanternBindings true none, lanternBindings true (some false),
    lanternBindings true none, lanternBindings true (some false)]

theorem shown_of_reached_lantern :
    (lanternSession.visitAll lanternDocument lanternCalls).shown lanternDocument
        (lanternBindings false (some true)) "c" = some 1 ∧
      lanternSession.timesShown lanternDocument "c" lanternCalls = 1 ∧
      lanternSession.timesShown lanternDocument "s" lanternCalls = 3 := by
  have distinct : (lanternDocument.directives.map Directive.identity).Nodup := by decide +kernel
  have succeeds : ((lanternSession.visitAll lanternDocument lanternCalls).resolve lanternDocument
      (lanternBindings false (some true))).1.toOption.isSome = true := by decide +kernel
  have once : lanternSession.timesShown lanternDocument "c" lanternCalls = 1 := by decide +kernel
  have chosen : (lanternSession.visitAll lanternDocument lanternCalls).shown lanternDocument
      (lanternBindings false (some true)) "s" = some 2 := by decide +kernel
  have reached : Reached ((lanternSession.visitAll lanternDocument lanternCalls).shown
      lanternDocument (lanternBindings false (some true))) lanternDocument.nodes lanternCycle :=
    Reached.inside (@Reached.top _ _ lanternStopping List.mem_cons_self) chosen List.mem_cons_self
  have passing : lanternCycle.eligible
      (lanternSession.evaluator (lanternBindings false (some true))) = [0, 1] := by decide +kernel
  refine ⟨?_, once, by decide +kernel⟩
  cases visited : (lanternSession.visitAll lanternDocument lanternCalls).resolve lanternDocument
      (lanternBindings false (some true)) with
  | mk outcome next =>
    cases outcome with
    | error error =>
      rw [visited] at succeeds
      cases succeeds
    | ok text =>
      have law := shown_of_reached rfl distinct lanternCalls visited reached
        (by rw [passing]; simp)
      obtain ⟨inside, shows⟩ := law.2.2.1 rfl
      refine shows.trans ?_
      rw [← List.getElem?_eq_getElem inside, passing]
      rw [show lanternSession.timesShown lanternDocument lanternCycle.identity lanternCalls = 1
        from once]
      rfl

end Session

end Narrative
