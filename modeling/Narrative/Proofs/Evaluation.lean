import Narrative.Proofs.Coverage
import Narrative.Proofs.Steps

/-!
The order of evaluation. At every directive that a resolution comes to it looks at the rules for
directives first, then at the guards that decide the choice, and then it goes on with what it has
chosen. Main statement: a visit fails exactly if one of the checks made in this order fails, and it
ends with the error of the first one, which names the directive that breaks a rule, or tells where
in the source the guard stands that has no answer.
-/

set_option autoImplicit false

namespace Narrative

/-- Something that may end a resolution. -/
inductive Check where
  /-- Whether a directive keeps the rules. -/
  | rules (directive : Directive)
  /-- Whether a guard has an answer. -/
  | guard (asked : Guard)

/-- The error of a guard without an answer. -/
def Guard.fault? (answer : String → Except String Bool) (guard : Guard) :
    Option EvaluationError :=
  match answer guard.text with
  | .ok _ => none
  | .error reason => some ⟨guard, reason⟩

/-- The error that a check ends a resolution with. -/
def Check.fault? (answer : String → Except String Bool) : Check → Option ResolutionError
  | rules directive => directive.problem?.map .definition
  | guard asked => (asked.fault? answer).map .evaluation

/-- The guards that decide what a directive shows: that in its heading if it is a conditional, and
else those of its branches, in the order of the text. -/
def Directive.deciding (directive : Directive) : List Guard :=
  match directive.kind with
  | .conditional => directive.guard?.toList
  | .list _ => directive.branches.filterMap Branch.guard

/-- What is looked at before a directive makes its choice. -/
def Directive.checks (directive : Directive) : List Check :=
  .rules directive :: directive.deciding.map .guard

/-- What is looked at in the course of a resolution. -/
def checksOf (steps : List Step) : List Check :=
  steps.flatMap (fun step => step.directive.checks)

/-- What a visit looks at, in the order in which it does. -/
def Session.checks (session : Session) (document : Document) (bindings : Bindings) : List Check :=
  checksOf (session.steps document bindings)

/-- The error of a step that fails. -/
def failure? {ε α : Type} : Except ε α → Option ε
  | .ok _ => none
  | .error error => some error

@[simp] theorem failure?_ok {ε α : Type} (value : α) :
    failure? (.ok value : Except ε α) = none := rfl

@[simp] theorem failure?_error {ε α : Type} (error : ε) :
    failure? (.error error : Except ε α) = some error := rfl

theorem failure?_eq_some_iff {ε α : Type} {result : Except ε α} {error : ε} :
    failure? result = some error ↔ result = .error error := by
  cases result with
  | ok value => simp
  | error other => simp

section

variable {answer : String → Except String Bool}

/-! ### Choices -/

theorem failure?_check (answer : String → Except String Bool) (guard : Guard) :
    failure? (guard.check answer) = guard.fault? answer := by
  unfold Guard.check Guard.fault?
  cases answer guard.text with
  | ok passes => rfl
  | error reason => rfl

/-- The branches of a list are judged by their guards in the order of the text, and the first guard
without an answer ends that. -/
theorem failure?_eligibleFrom (index : Nat) (branches : List Branch) :
    failure? (eligibleFrom answer index branches) =
      (branches.filterMap Branch.guard).findSome? (Guard.fault? answer) := by
  induction branches generalizing index with
  | nil => rfl
  | cons branch rest ih =>
    have behind := ih (index + 1)
    rw [eligibleFrom]
    cases guarded : branch.guard with
    | none =>
      rw [List.filterMap_cons_none guarded, ← behind]
      cases eligibleFrom answer (index + 1) rest with
      | ok more => rfl
      | error error => rfl
    | some guard =>
      have here := failure?_check answer guard
      rw [List.filterMap_cons_some guarded, List.findSome?_cons, ← here, checkGuard, ← behind]
      cases guard.check answer with
      | error error => rfl
      | ok passes =>
        cases eligibleFrom answer (index + 1) rest with
        | ok more => rfl
        | error error => rfl

theorem failure?_chooseConditional (directive : Directive) :
    failure? (directive.chooseConditional answer) =
      directive.guard?.toList.findSome? (Guard.fault? answer) := by
  unfold Directive.chooseConditional
  cases directive.guard? with
  | none => rfl
  | some guard =>
    have here := failure?_check answer guard
    rw [Option.toList_some, List.findSome?_singleton, ← here, checkGuard]
    cases guard.check answer with
    | error error => rfl
    | ok passes => cases passes <;> rfl

theorem failure?_chooseListed (directive : Directive) (kind : Discipline) (trail : Trail) :
    failure? (directive.chooseListed answer kind trail).1 =
      (directive.branches.filterMap Branch.guard).findSome? (Guard.fault? answer) := by
  rw [← failure?_eligibleFrom 0, Directive.chooseListed]
  cases eligibleFrom answer 0 directive.branches with
  | error error => rfl
  | ok eligible =>
    dsimp only
    split <;> rfl

theorem failure?_mapError {ε φ α : Type} (result : Except ε α) (wrap : ε → φ) :
    failure? (result.mapError wrap) = (failure? result).map wrap := by
  cases result <;> rfl

/-- A directive fails to choose with the first of its checks that fails. -/
theorem findSome?_checks (directive : Directive) (trail : Trail) :
    directive.checks.findSome? (Check.fault? answer) =
      failure? (directive.choose answer trail).1 := by
  have guards (asked : List Guard) : (asked.map Check.guard).findSome? (Check.fault? answer) =
      (asked.findSome? (Guard.fault? answer)).map ResolutionError.evaluation := by
    rw [List.findSome?_map, List.map_findSome?]
    rfl
  rw [Directive.checks, List.findSome?_cons, guards, Directive.choose, Directive.deciding,
    Check.fault?]
  cases directive.problem? with
  | some error => rfl
  | none =>
    cases directive.kind with
    | conditional =>
      dsimp only [Option.map_none]
      rw [failure?_mapError, failure?_chooseConditional]
    | list kind =>
      dsimp only [Option.map_none]
      rw [failure?_mapError, failure?_chooseListed]

/-! ### Courses -/

theorem findSome?_checksOf_append (front back : List Step) :
    (checksOf (front ++ back)).findSome? (Check.fault? answer) =
      ((checksOf front).findSome? (Check.fault? answer)).or
        ((checksOf back).findSome? (Check.fault? answer)) := by
  rw [checksOf, List.flatMap_append, List.findSome?_append]
  rfl

theorem failure?_andThen {α β : Type} (step : Except ResolutionError α × Trail)
    (next : α → Trail → Except ResolutionError β × Trail) :
    failure? (andThen step next).1 =
      match step with
      | (.error error, _) => some error
      | (.ok value, middle) => failure? (next value middle).1 := by
  obtain ⟨result, middle⟩ := step
  cases result <;> rfl

theorem failure?_resolveLaid (lay : String → String) (nodes : List Node) (trail : Trail) :
    failure? (resolveLaid answer lay nodes trail).1 =
      failure? (resolveNodes answer nodes trail).1 := by
  rw [resolveLaid]
  cases (resolveNodes answer nodes trail).1 <;> rfl

/-- A resolution fails with the first check in its course that fails. -/
theorem findSome?_checksOf (nodes : List Node) (place : List Nat) (index : Nat) (trail : Trail) :
    (checksOf (stepsFrom answer place index nodes trail)).findSome? (Check.fault? answer) =
      failure? (resolveNodes answer nodes trail).1 := by
  -- The trail is general: a content starts with the trail that the choice of its branch leaves, and
  -- the nodes behind a directive with the one that the directive leaves.
  induction nodes using nodes_induction generalizing place index trail with
  | nil => rfl
  | text content rest ih =>
    rw [resolveNodes_cons, failure?_andThen, Node.resolve]
    dsimp only
    rw [failure?_resolveLaid]
    exact ih place (index + 1) trail
  | directive directive rest inner ih =>
    have front : (checksOf (directive.steps answer (place ++ [index]) trail)).findSome?
        (Check.fault? answer) = failure? (directive.resolve answer trail).1 := by
      rw [Directive.steps_eq, Directive.resolve_eq, failure?_andThen, checksOf, List.flatMap_cons,
        List.findSome?_append, findSome?_checks]
      cases chosen : directive.choose answer trail with
      | mk result middle =>
        cases result with
        | error error => rfl
        | ok branch =>
          dsimp only
          rw [failure?_ok, Option.none_or, failure?_resolveLaid]
          exact inner branch _ 0 middle
    rw [stepsFrom, Node.steps, findSome?_checksOf_append, front, resolveNodes_cons,
      failure?_andThen, Node.resolve]
    cases resolved : directive.resolve answer trail with
    | mk result middle =>
      cases result with
      | error error => rfl
      | ok text =>
        dsimp only
        rw [failure?_ok, Option.none_or, failure?_resolveLaid]
        exact ih place (index + 1) middle

/-- An error that a check ends a resolution with is that of a rule that a directive breaks, or of a
guard without an answer. -/
theorem Check.cases_of_fault? {check : Check} {error : ResolutionError}
    (failed : check.fault? answer = some error) :
    (∃ directive broken, check = .rules directive ∧ directive.problem? = some broken ∧
      error = .definition broken) ∨
    ∃ asked reason, check = .guard asked ∧ answer asked.text = .error reason ∧
      error = .evaluation ⟨asked, reason⟩ := by
  cases check with
  | rules directive =>
    obtain ⟨broken, found, rfl⟩ := Option.map_eq_some_iff.1 failed
    exact Or.inl ⟨directive, broken, rfl, found, rfl⟩
  | guard asked =>
    obtain ⟨fault, found, rfl⟩ := Option.map_eq_some_iff.1 failed
    unfold Guard.fault? at found
    split at found
    · cases found
    · next reason unanswered =>
      cases found
      exact Or.inr ⟨asked, reason, rfl, unanswered, rfl⟩

end

theorem Directive.mem_checks_rules {directive other : Directive} :
    .rules other ∈ directive.checks ↔ other = directive := by
  simp [Directive.checks]

theorem Directive.mem_checks_guard {directive : Directive} {guard : Guard} :
    .guard guard ∈ directive.checks ↔ guard ∈ directive.deciding := by
  simp [Directive.checks]

theorem Directive.mem_deciding {directive : Directive} {guard : Guard}
    (member : guard ∈ directive.deciding) :
    directive.guard? = some guard ∨ ∃ branch ∈ directive.branches, branch.guard = some guard := by
  unfold Directive.deciding at member
  split at member
  · exact Or.inl (Option.mem_toList.1 member)
  · exact Or.inr (List.mem_filterMap.1 member)

/-- The guards of a parsed document stand at their spans. -/
theorem Document.guardsLocated_of_mem {options : ParseOptions} {source : String}
    {document : Document} (parsed : Document.parse options source = .ok document)
    {directive : Directive} (member : directive ∈ document.directives) :
    directive.GuardsLocated source.toList := by
  obtain ⟨front, value, back, split, legible, rfl⟩ := Document.placed_of_mem parsed member
  exact (value.covered_place _ legible ⟨front, back, split, rfl⟩).2

namespace Session

variable {session : Session} {document : Document} {bindings : Bindings}

theorem failure?_resolve (session : Session) (document : Document) (bindings : Bindings) :
    failure? (session.resolve document bindings).1 =
      failure? (resolveNodes (session.evaluator bindings) document.nodes session.trail).1 := by
  unfold resolve
  split
  · next text trail resolved =>
    rw [resolved]
    rfl
  · next error trail resolved => rw [resolved]

theorem mem_of_checks {check : Check} (member : check ∈ session.checks document bindings) :
    ∃ directive ∈ document.directives, check ∈ directive.checks := by
  obtain ⟨step, reached, found⟩ := List.mem_flatMap.1 member
  have listed : step.directive ∈ (session.steps document bindings).map Step.directive :=
    List.mem_map_of_mem reached
  have inside := (sublist_stepsFrom _ document.nodes [] 0 session.trail).subset listed
  exact ⟨step.directive, inside, found⟩

/-- A visit comes to directives in the order of the text, outer before inner, and it ends with an
error exactly if that is the one of the first check that fails. A broken rule is told with the
identity and the span of the directive that breaks it, a guard without an answer with its text as it
stands at its span in the source, and with the reason that was given for it. -/
theorem errors_traced {options : ParseOptions} {source : String}
    (parsed : Document.parse options source = .ok document) (session : Session)
    (bindings : Bindings) :
    ((session.steps document bindings).map Step.directive).Sublist document.directives ∧
    (∀ error, (session.resolve document bindings).1 = .error error ↔
      (session.checks document bindings).findSome? (Check.fault? (session.evaluator bindings)) =
        some error) ∧
    (∀ broken, (session.resolve document bindings).1 = .error (.definition broken) →
      ∃ directive ∈ document.directives, directive.violation? = some broken.violation ∧
        broken.identity = directive.identity ∧ broken.span = directive.span) ∧
    ∀ unanswered, (session.resolve document bindings).1 = .error (.evaluation unanswered) →
      slice? source.toList unanswered.guard.span = some unanswered.guard.text.toList ∧
        session.evaluator bindings unanswered.guard.text = .error unanswered.reason := by
  have first (error : ResolutionError) : (session.resolve document bindings).1 = .error error ↔
      (session.checks document bindings).findSome? (Check.fault? (session.evaluator bindings)) =
        some error := by
    rw [← failure?_eq_some_iff, failure?_resolve, checks, steps, findSome?_checksOf]
  refine ⟨sublist_stepsFrom _ document.nodes [] 0 session.trail, first, ?_, ?_⟩
  · intro broken failed
    obtain ⟨check, member, fault⟩ := List.exists_of_findSome?_eq_some ((first _).1 failed)
    obtain ⟨directive, inside, found⟩ := mem_of_checks member
    rcases Check.cases_of_fault? fault with
      ⟨culprit, other, rfl, problem, same⟩ | ⟨_, _, -, -, same⟩
    · cases same
      rw [Directive.mem_checks_rules.1 found] at problem
      obtain ⟨violation, breaks, rfl⟩ := Option.map_eq_some_iff.1 problem
      exact ⟨directive, inside, breaks, rfl, rfl⟩
    · cases same
  · intro unanswered failed
    obtain ⟨check, member, fault⟩ := List.exists_of_findSome?_eq_some ((first _).1 failed)
    obtain ⟨directive, inside, found⟩ := mem_of_checks member
    rcases Check.cases_of_fault? fault with
      ⟨_, _, -, -, same⟩ | ⟨asked, reason, rfl, answered, same⟩
    · cases same
    · cases same
      obtain ⟨heading, branches⟩ := Document.guardsLocated_of_mem parsed inside
      refine ⟨?_, answered⟩
      rcases Directive.mem_deciding (Directive.mem_checks_guard.1 found) with
        guarded | ⟨branch, listed, guarded⟩
      · exact heading asked guarded
      · exact branches branch listed asked guarded

/-- A conditional with too many branches, and two guards without an answer behind it. -/
def faultySource : String := "é\x7bx: \x7by: a|b|c\x7d|\x7bz: d\x7d\x7d\x7bw: e\x7d"

/-- A visit of a document that only knows `x`. -/
def visitKnowing (x : Bool) (document : Document) : Except ResolutionError String :=
  ((new {} comparisonEvaluator).resolve document (KeyMap.empty.insert "x" (.bool x))).1

theorem errors_traced_faultySource :
    ∃ document, Document.parse { document := "d" } faultySource = .ok document ∧
      (∃ directive ∈ document.directives, directive.violation? = some (.conditionalArity 3) ∧
        visitKnowing true document =
          .error (.definition ⟨.conditionalArity 3, directive.identity, directive.span⟩)) ∧
      ∃ guard, visitKnowing false document =
          .error (.evaluation ⟨guard, "unknown variable: z"⟩) ∧
        slice? faultySource.toList guard.span = some ['z'] := by
  have faults : (Document.parse { document := "d" } faultySource).toOption.map (fun document =>
      (failure? (visitKnowing true document), failure? (visitKnowing false document))) =
        some (some (.definition ⟨.conditionalArity 3, "d@6", ⟨⟨6, 1, 6⟩, ⟨16, 1, 16⟩⟩⟩),
          some (.evaluation ⟨⟨"z", ⟨⟨18, 1, 18⟩, ⟨19, 1, 19⟩⟩⟩, "unknown variable: z"⟩)) := by
    decide +kernel
  cases parsed : Document.parse { document := "d" } faultySource with
  | error error =>
    rw [parsed] at faults
    cases faults
  | ok document =>
    rw [parsed] at faults
    obtain ⟨broken, unanswered⟩ := Prod.mk.inj (Option.some.inj faults)
    rw [failure?_eq_some_iff] at broken unanswered
    obtain ⟨-, -, rules, -⟩ := errors_traced parsed (new {} comparisonEvaluator)
      (KeyMap.empty.insert "x" (.bool true))
    obtain ⟨-, -, -, guards⟩ := errors_traced parsed (new {} comparisonEvaluator)
      (KeyMap.empty.insert "x" (.bool false))
    obtain ⟨directive, inside, breaks, identity, span⟩ := rules _ broken
    refine ⟨document, rfl, ⟨directive, inside, breaks, ?_⟩, _, unanswered, (guards _ unanswered).1⟩
    rw [← identity, ← span]
    exact broken

end Session

end Narrative
