import Narrative.Proofs.Bounds
import Narrative.Proofs.Saving
import Narrative.Proofs.Visits

/-!
Visits with their bounds checked. A visit is resolved again with every selection checked, every
branch that a list chooses compared with the eligible ones, and every chosen branch required to
exist. Whatever store a session has and whatever document it resolves, no check fails.
-/

set_option autoImplicit false

namespace Narrative.Checked

/-! ### Choices -/

def chooseListed? (answer : String → Except String Bool) (directive : Directive)
    (kind : Discipline) (trail : Trail) :
    Option (Except EvaluationError (Option Nat) × Trail) :=
  match eligibleFrom answer 0 directive.branches with
  | .error error => some (.error error, trail)
  | .ok eligible => do
    let selection ← select? kind (trail.store.progress directive.identity) eligible trail.source
    match selection.branch with
    | none => return (.ok none, trail)
    | some branch =>
      if branch ∈ eligible then
        return (.ok (some branch),
          ⟨trail.store.insert directive.identity selection.progress, selection.source⟩)
      else none

def choose? (answer : String → Except String Bool) (directive : Directive) (trail : Trail) :
    Option (Except ResolutionError (Option Nat) × Trail) :=
  match directive.problem? with
  | some error => some (.error (.definition error), trail)
  | none =>
    match directive.kind with
    | .conditional => some ((directive.chooseConditional answer).mapError .evaluation, trail)
    | .list kind => do
      let (chosen, trail) ← chooseListed? answer directive kind trail
      return (chosen.mapError .evaluation, trail)

theorem chooseListed?_eq (answer : String → Except String Bool) (directive : Directive)
    (kind : Discipline) (trail : Trail) :
    chooseListed? answer directive kind trail =
      some (directive.chooseListed answer kind trail) := by
  unfold chooseListed? Directive.chooseListed
  cases eligibleFrom answer 0 directive.branches with
  | error error => rfl
  | ok eligible =>
    dsimp only
    rw [select?_eq, Option.bind_eq_bind, Option.bind_some]
    cases chosen : (select kind (trail.store.progress directive.identity) eligible
        trail.source).branch with
    | none => rfl
    | some branch =>
      dsimp only
      rw [if_pos (mem_of_select chosen)]
      rfl

theorem choose?_eq (answer : String → Except String Bool) (directive : Directive)
    (trail : Trail) : choose? answer directive trail = some (directive.choose answer trail) := by
  unfold choose? Directive.choose
  cases directive.problem? with
  | some error => rfl
  | none =>
    dsimp only
    cases directive.kind with
    | conditional => rfl
    | list kind =>
      dsimp only
      rw [chooseListed?_eq]
      rfl

/-- The branches that may be shown exist. -/
theorem lt_of_mem_eligible {answer : String → Except String Bool} {branches : List Branch}
    {eligible : List Nat} (passing : eligibleFrom answer 0 branches = .ok eligible) {index : Nat}
    (member : index ∈ eligible) : index < branches.length := by
  rw [eligibleFrom_eq passing] at member
  obtain ⟨⟨branch, place⟩, found, rfl⟩ := List.mem_map.1 member
  exact List.snd_lt_of_mem_zipIdx (List.mem_filter.1 found).1

/-- A conditional that keeps the rules has one or two branches. -/
theorem arity_of_conditional {directive : Directive} (conditional : directive.kind = .conditional)
    (sound : directive.problem? = none) :
    1 ≤ directive.branches.length ∧ directive.branches.length ≤ 2 := by
  rw [Directive.problem?, Option.map_eq_none_iff, Directive.violation?, conditional] at sound
  dsimp only at sound
  split at sound
  · cases sound
  · omega

/-- A directive that keeps the rules has a branch with every index that it chooses. -/
theorem lt_of_choose {answer : String → Except String Bool} {directive : Directive}
    {trail after : Trail} {index : Nat}
    (chosen : directive.choose answer trail = (.ok (some index), after)) :
    index < directive.branches.length := by
  cases sort : directive.kind with
  | list kind =>
    obtain ⟨eligible, selection, passing, rfl, shown, -⟩ := Directive.choose_listed sort chosen
    exact lt_of_mem_eligible passing (mem_of_select shown)
  | conditional =>
    unfold Directive.choose at chosen
    split at chosen
    · cases chosen
    · next sound =>
      -- The first branch is shown, or the second where there are two.
      have arity := arity_of_conditional sort sound
      rw [sort] at chosen
      dsimp only at chosen
      unfold Directive.chooseConditional at chosen
      split at chosen
      · cases chosen
      · cases chosen
        exact arity.1
      · split at chosen
        · next two =>
          cases chosen
          rw [two]
          exact Nat.one_lt_two
        · cases chosen

/-! ### Resolution -/

section

variable (answer : String → Except String Bool)

mutual

def resolveNode? : Node → Trail → Option (Except ResolutionError String × Trail)
  | .text content, trail => some (.ok content, trail)
  | .directive value, trail => resolveDirective? value trail

def resolveDirective? : Directive → Trail → Option (Except ResolutionError String × Trail)
  | ⟨identity, kind, heading, layout, branches, span⟩, trail => do
    let directive : Directive := ⟨identity, kind, heading, layout, branches, span⟩
    match ← choose? answer directive trail with
    | (.error error, trail) => return (.error error, trail)
    | (.ok none, trail) => return (.ok "", trail)
    | (.ok (some index), trail) =>
      match ← resolveAt? branches index trail with
      | (.error error, trail) => return (.error error, trail)
      | (.ok text, trail) => return (.ok (directive.finish text), trail)

/-- `resolveAt`, checked: there must be a branch with the index. -/
def resolveAt? : List Branch → Nat → Trail → Option (Except ResolutionError String × Trail)
  | [], _, _ => none
  | branch :: _, 0, trail => resolveBranch? branch trail
  | _ :: rest, index + 1, trail => resolveAt? rest index trail

def resolveBranch? : Branch → Trail → Option (Except ResolutionError String × Trail)
  | ⟨_, content, _⟩, trail => resolveNodes? content trail

def resolveNodes? : List Node → Trail → Option (Except ResolutionError String × Trail)
  | [], trail => some (.ok "", trail)
  | node :: rest, trail => do
    match ← resolveNode? node trail with
    | (.error error, trail) => return (.error error, trail)
    | (.ok text, trail) =>
      match ← resolveNodes? rest trail with
      | (.error error, trail) => return (.error error, trail)
      | (.ok more, trail) => return (.ok (text ++ more), trail)

end

mutual

theorem resolveNode?_eq (node : Node) (trail : Trail) :
    resolveNode? answer node trail = some (node.resolve answer trail) := by
  match node with
  | .text content => rfl
  | .directive value => exact resolveDirective?_eq value trail

theorem resolveDirective?_eq (directive : Directive) (trail : Trail) :
    resolveDirective? answer directive trail = some (directive.resolve answer trail) := by
  match directive with
  | ⟨identity, kind, heading, layout, branches, span⟩ =>
    rw [resolveDirective?, Directive.resolve, choose?_eq, Option.bind_eq_bind, Option.bind_some]
    cases chosen : Directive.choose answer ⟨identity, kind, heading, layout, branches, span⟩
        trail with
    | mk outcome after =>
      cases outcome with
      | error error => rfl
      | ok choice =>
        cases choice with
        | none => rfl
        | some index =>
          have inside : index < branches.length := lt_of_choose chosen
          dsimp only
          rw [resolveAt?_eq branches index after inside, Option.bind_eq_bind, Option.bind_some]
          cases resolveAt answer branches index after with
          | mk result last => cases result <;> rfl

theorem resolveAt?_eq (branches : List Branch) (index : Nat) (trail : Trail)
    (inside : index < branches.length) :
    resolveAt? answer branches index trail = some (resolveAt answer branches index trail) := by
  match branches, index with
  | branch :: rest, 0 => exact resolveBranch?_eq branch trail
  | branch :: rest, index + 1 =>
    exact resolveAt?_eq rest index trail (Nat.lt_of_succ_lt_succ inside)

theorem resolveBranch?_eq (branch : Branch) (trail : Trail) :
    resolveBranch? answer branch trail = some (branch.resolve answer trail) := by
  match branch with
  | ⟨_, content, _⟩ => exact resolveNodes?_eq content trail

/-- A resolution keeps all its bounds. -/
theorem resolveNodes?_eq (nodes : List Node) (trail : Trail) :
    resolveNodes? answer nodes trail = some (resolveNodes answer nodes trail) := by
  match nodes with
  | [] => rfl
  | node :: rest =>
    rw [resolveNodes?, resolveNodes, resolveNode?_eq node trail, Option.bind_eq_bind,
      Option.bind_some]
    cases node.resolve answer trail with
    | mk outcome after =>
      cases outcome with
      | error error => rfl
      | ok text =>
        dsimp only
        rw [resolveNodes?_eq rest after, Option.bind_some]
        cases resolveNodes answer rest after with
        | mk result last => cases result <;> rfl

end

end

def resolveSession? (session : Session) (document : Document) (bindings : Bindings) :
    Option (Except ResolutionError String × Session) := do
  match ← resolveNodes? (session.evaluator bindings) document.nodes session.trail with
  | (.ok text, trail) => return (.ok (session.localize .afterCompose text), { session with trail })
  | (.error error, trail) =>
    let identities := document.directives.map Directive.identity
    return (.error error,
      { session with
        trail := { trail with store := session.store.putBack identities trail.store } })

theorem resolveSession?_eq (session : Session) (document : Document) (bindings : Bindings) :
    resolveSession? session document bindings = some (session.resolve document bindings) := by
  unfold resolveSession? Session.resolve
  rw [resolveNodes?_eq, Option.bind_eq_bind, Option.bind_some]
  cases resolveNodes (session.evaluator bindings) document.nodes session.trail with
  | mk outcome after => cases outcome <;> rfl

/-- A visit keeps all its bounds, whatever the store of the session and the document are, and every
branch that is selected in it is one of the eligible branches and exists. -/
theorem resolve_inBounds (session : Session) (document : Document) (bindings : Bindings) :
    resolveSession? session document bindings = some (session.resolve document bindings) ∧
      ∀ (directive : Directive) (kind : Discipline) (trail : Trail) (eligible : List Nat)
        (branch : Nat),
        eligibleFrom (session.evaluator bindings) 0 directive.branches = .ok eligible →
        (select kind (trail.store.progress directive.identity) eligible trail.source).branch =
          some branch →
        branch ∈ eligible ∧ branch < directive.branches.length := by
  refine ⟨resolveSession?_eq session document bindings, ?_⟩
  intro directive kind trail eligible branch passing chosen
  have member := mem_of_select chosen
  exact ⟨member, lt_of_mem_eligible passing member⟩

/-- A list of two branches. -/
def staleList (kind : Discipline) : Directive :=
  ⟨"x", .list kind, .discipline kind, .inline,
    [⟨none, [.text "a"], default⟩, ⟨none, [.text "b"], default⟩], default⟩

/-- A shuffle and a cycle that share their progress. -/
def staleDocument : Document :=
  ⟨"d", [.directive (staleList .shuffle), .directive (staleList .cycle)]⟩

/-- A saved state in which nothing fits the lists of `staleDocument`. -/
def staleText : String :=
  "\x7b\"x\":\x7b\"counter\":4294967295,\"order\":[7,1,7],\"cursor\":9\x7d\x7d"

/-- A session with the store of `staleText`. -/
def staleSession : Session :=
  (Session.withSource {} (fun _ _ => .ok true) (.cyclic [5, 4000000000, 7])).withStore
    (KeyMap.empty.insert "x" ⟨4294967295, some [7, 1, 7], some 9⟩)

theorem resolve_inBounds_stale :
    (Store.restore? staleText).map KeyMap.entries = some staleSession.store.entries ∧
      resolveSession? staleSession staleDocument .empty =
        some (staleSession.resolve staleDocument .empty) ∧
      eligibleFrom (staleSession.evaluator .empty) 0 (staleList .shuffle).branches = .ok [0, 1] ∧
      (select .shuffle (staleSession.store.progress "x") [0, 1] staleSession.trail.source).branch =
        some 1 ∧
      1 ∈ [0, 1] ∧ 1 < (staleList .shuffle).branches.length := by
  have passing : eligibleFrom (staleSession.evaluator .empty) 0 (staleList .shuffle).branches =
      .ok [0, 1] := rfl
  have chosen : (select .shuffle (staleSession.store.progress "x") [0, 1]
      staleSession.trail.source).branch = some 1 := by cbv
  have written : staleText = staleSession.store.save := by decide +kernel
  have accepted : (Store.restore? staleText).map KeyMap.entries =
      some staleSession.store.entries := by
    rw [written, Store.restore?_save (by decide +kernel)]
    rfl
  obtain ⟨checked, member⟩ := resolve_inBounds staleSession staleDocument .empty
  exact ⟨accepted, checked, passing, chosen,
    member (staleList .shuffle) .shuffle staleSession.trail [0, 1] 1 passing chosen⟩

end Narrative.Checked
