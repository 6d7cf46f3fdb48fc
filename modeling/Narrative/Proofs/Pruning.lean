import Narrative.Proofs.Replay
import Narrative.Proofs.Steps

/-!
Branches that a resolution does not enter. To prune a document is to empty the branches at all but
some places. What a directive chooses is settled by its branches without their contents, so only
the contents of the branches that are entered count. Main statement: two documents that agree when
they are pruned to the branches that a visit of one of them enters are visited alike, with the same
text or error, the same progress and the same random words drawn.
-/

set_option autoImplicit false

namespace Narrative

/-- The place of the branch that a step enters, if it enters one. -/
def Step.entered? (answer : String → Except String Bool) (step : Step) : Option (List Nat) :=
  match step.directive.choose answer step.trail with
  | (.ok (some index), _) => some (step.place ++ [index])
  | _ => none

/-- The places of the branches that a visit enters, however far it comes. -/
def Session.entered (session : Session) (document : Document) (bindings : Bindings) :
    List (List Nat) :=
  (session.steps document bindings).filterMap (Step.entered? (session.evaluator bindings))

mutual

def Node.prune (kept : List (List Nat)) (place : List Nat) : Node → Node
  | .text content => .text content
  | .directive value => .directive (value.prune kept place)

def Directive.prune (kept : List (List Nat)) (place : List Nat) : Directive → Directive
  | ⟨identity, kind, heading, layout, branches, span⟩ =>
    ⟨identity, kind, heading, layout, pruneBranches kept place 0 branches, span⟩

def pruneBranches (kept : List (List Nat)) (place : List Nat) (index : Nat) :
    List Branch → List Branch
  | [] => []
  | branch :: rest =>
    branch.prune kept (place ++ [index]) :: pruneBranches kept place (index + 1) rest

def Branch.prune (kept : List (List Nat)) (place : List Nat) : Branch → Branch
  | ⟨guard, content, span⟩ =>
    ⟨guard, if place ∈ kept then pruneNodes kept place 0 content else [], span⟩

/-- Nodes at a place, the first of them with the given index, in which only the branches at kept
places have content. -/
def pruneNodes (kept : List (List Nat)) (place : List Nat) (index : Nat) :
    List Node → List Node
  | [] => []
  | node :: rest =>
    node.prune kept (place ++ [index]) :: pruneNodes kept place (index + 1) rest

end

/-- The document in which only the branches at kept places have content. -/
def Document.prune (document : Document) (kept : List (List Nat)) : Document :=
  { document with nodes := pruneNodes kept [] 0 document.nodes }

section

variable {answer : String → Except String Bool} {kept : List (List Nat)}

/-! ### Choices of a pruned directive -/

theorem Branch.guard_prune (branch : Branch) (place : List Nat) :
    (branch.prune kept place).guard = branch.guard := by
  obtain ⟨guard, content, span⟩ := branch
  rw [Branch.prune]

@[simp] theorem length_pruneBranches (place : List Nat) (index : Nat) (branches : List Branch) :
    (pruneBranches kept place index branches).length = branches.length := by
  induction branches generalizing index with
  | nil => rfl
  | cons branch rest ih => rw [pruneBranches, List.length_cons, List.length_cons, ih]

theorem map_guard_pruneBranches (kept : List (List Nat)) (place : List Nat) (index : Nat)
    (branches : List Branch) :
    (pruneBranches kept place index branches).map Branch.guard = branches.map Branch.guard := by
  induction branches generalizing index with
  | nil => rfl
  | cons branch rest ih =>
    rw [pruneBranches, List.map_cons, List.map_cons, Branch.guard_prune, ih]

/-- Which branches are eligible is settled by their guards. -/
theorem eligibleFrom_congr {branches others : List Branch}
    (same : others.map Branch.guard = branches.map Branch.guard) (index : Nat) :
    eligibleFrom answer index others = eligibleFrom answer index branches := by
  induction branches generalizing others index with
  | nil =>
    rw [List.map_eq_nil_iff.1 same]
  | cons branch rest ih =>
    obtain ⟨other, more, rfl, guard, behind⟩ := List.map_eq_cons_iff.1 same
    rw [eligibleFrom, eligibleFrom, guard, ih behind]

theorem Directive.prune_eq (directive : Directive) (place : List Nat) :
    directive.prune kept place =
      { directive with branches := pruneBranches kept place 0 directive.branches } := by
  obtain ⟨identity, kind, heading, layout, branches, span⟩ := directive
  rw [Directive.prune]

theorem Directive.problem?_prune (directive : Directive) (place : List Nat) :
    (directive.prune kept place).problem? = directive.problem? := by
  have guarded : (pruneBranches kept place 0 directive.branches).any
      (fun branch => branch.guard.isSome) =
        directive.branches.any (fun branch => branch.guard.isSome) := by
    have guards := congrArg (fun guards => guards.any Option.isSome)
      (map_guard_pruneBranches kept place 0 directive.branches)
    simp only [List.any_map] at guards
    exact guards
  rw [Directive.prune_eq]
  simp only [Directive.problem?, Directive.violation?, length_pruneBranches, guarded]

/-- A directive chooses without regard to the contents of its branches. -/
theorem Directive.choose_prune (directive : Directive) (place : List Nat) (trail : Trail) :
    (directive.prune kept place).choose answer trail = directive.choose answer trail := by
  have eligible : eligibleFrom answer 0 (pruneBranches kept place 0 directive.branches) =
      eligibleFrom answer 0 directive.branches :=
    eligibleFrom_congr (map_guard_pruneBranches kept place 0 directive.branches) 0
  rw [Directive.choose, Directive.problem?_prune, Directive.choose]
  simp only [Directive.prune_eq, Directive.chooseConditional, Directive.chooseListed,
    Directive.guard?, length_pruneBranches, eligible]

theorem Directive.finish_prune (directive : Directive) (place : List Nat) (text : String) :
    (directive.prune kept place).finish text = directive.finish text := by
  rw [Directive.prune_eq]
  rfl

theorem contentAt_pruneBranches (place : List Nat) (first index : Nat) (branches : List Branch) :
    contentAt (pruneBranches kept place first branches) index =
      if place ++ [first + index] ∈ kept then
        pruneNodes kept (place ++ [first + index]) 0 (contentAt branches index)
      else [] := by
  induction branches generalizing first index with
  | nil =>
    rw [pruneBranches, show contentAt [] index = [] from rfl, pruneNodes, ite_self]
  | cons branch rest ih =>
    cases index with
    | zero =>
      obtain ⟨guard, content, span⟩ := branch
      rw [pruneBranches, Branch.prune]
      rfl
    | succ index =>
      have behind := ih (first + 1) index
      rw [show first + 1 + index = first + (index + 1) by omega] at behind
      exact behind

/-- A branch that is kept has its content, pruned in turn. -/
theorem Directive.contentOf_prune (directive : Directive) (place : List Nat) {branch : Option Nat}
    (inside : ∀ index ∈ branch, place ++ [index] ∈ kept) :
    (directive.prune kept place).contentOf branch =
      pruneNodes kept (place ++ branch.toList) 0 (directive.contentOf branch) := by
  cases branch with
  | none => rfl
  | some index =>
    have found : place ++ [0 + index] ∈ kept := by
      rw [Nat.zero_add]
      exact inside index rfl
    rw [Directive.prune_eq, Directive.contentOf, contentAt_pruneBranches, if_pos found,
      Nat.zero_add]
    rfl

/-! ### Resolutions that enter kept branches only -/

/-- Every branch that is entered is at a kept place. -/
def EntersOnly (answer : String → Except String Bool) (kept : List (List Nat))
    (steps : List Step) : Prop :=
  ∀ step ∈ steps, ∀ place ∈ step.entered? answer, place ∈ kept

/-- Steps that begin alike are alike if they go on alike from where they lead. -/
theorem andThen_congr {α β : Type} {step : Except ResolutionError α × Trail}
    {next other : α → Trail → Except ResolutionError β × Trail}
    (same : ∀ value middle, step = (.ok value, middle) → other value middle = next value middle) :
    andThen step other = andThen step next := by
  obtain ⟨result, middle⟩ := step
  cases result with
  | error error => rfl
  | ok value => exact same value middle rfl

theorem resolveLaid_congr {lay otherLay : String → String} {nodes others : List Node}
    {trail : Trail} (laid : otherLay = lay)
    (same : resolveNodes answer others trail = resolveNodes answer nodes trail) :
    resolveLaid answer otherLay others trail = resolveLaid answer lay nodes trail := by
  rw [resolveLaid, resolveLaid, laid, same]

theorem exists_of_pruneNodes_cons {place : List Nat} {index : Nat} {node : Node}
    {rest others : List Node}
    (same : pruneNodes kept place index others = pruneNodes kept place index (node :: rest)) :
    ∃ other more, others = other :: more ∧
      other.prune kept (place ++ [index]) = node.prune kept (place ++ [index]) ∧
      pruneNodes kept place (index + 1) more = pruneNodes kept place (index + 1) rest := by
  cases others with
  | nil => cases same
  | cons other more =>
    rw [pruneNodes, pruneNodes] at same
    obtain ⟨here, behind⟩ := List.cons.inj same
    exact ⟨other, more, rfl, here, behind⟩

/-- Directives that agree when they are pruned resolve alike, if the contents they choose do. -/
theorem Directive.resolve_of_alike {directive other : Directive} {place : List Nat}
    {trail : Trail} (pruned : other.prune kept place = directive.prune kept place)
    (enters : EntersOnly answer kept (directive.steps answer place trail))
    (inner : ∀ branch others middle,
      pruneNodes kept (place ++ branch.toList) 0 others =
        pruneNodes kept (place ++ branch.toList) 0 (directive.contentOf branch) →
      EntersOnly answer kept (stepsFrom answer (place ++ branch.toList) 0
        (directive.contentOf branch) middle) →
      resolveNodes answer others middle =
        resolveNodes answer (directive.contentOf branch) middle) :
    other.resolve answer trail = directive.resolve answer trail := by
  have choosing : other.choose answer trail = directive.choose answer trail :=
    calc other.choose answer trail
      _ = (other.prune kept place).choose answer trail := (other.choose_prune place trail).symm
      _ = (directive.prune kept place).choose answer trail := by rw [pruned]
      _ = directive.choose answer trail := directive.choose_prune place trail
  have laid : other.finish = directive.finish := funext fun text =>
    calc other.finish text
      _ = (other.prune kept place).finish text := (other.finish_prune place text).symm
      _ = (directive.prune kept place).finish text := by rw [pruned]
      _ = directive.finish text := directive.finish_prune place text
  rw [Directive.resolve_eq, Directive.resolve_eq, choosing]
  apply andThen_congr
  intro branch middle chosen
  apply resolveLaid_congr laid
  rw [Directive.steps_eq, chosen] at enters
  obtain ⟨here, within⟩ := List.forall_mem_cons.1 enters
  -- The branch that is chosen is entered, and so its content is kept on both sides.
  have inside : ∀ index ∈ branch, place ++ [index] ∈ kept := by
    intro index found
    apply here
    rw [Step.entered?, chosen, Option.mem_def.1 found]
    rfl
  apply inner branch _ middle _ within
  rw [← other.contentOf_prune place inside, pruned, directive.contentOf_prune place inside]

/-- Two lists of nodes that agree when they are pruned to the branches entered in one of them are
resolved alike. -/
theorem resolveNodes_of_pruneNodes_eq (nodes : List Node) (place : List Nat) (index : Nat)
    {others : List Node} {trail : Trail}
    (same : pruneNodes kept place index others = pruneNodes kept place index nodes)
    (enters : EntersOnly answer kept (stepsFrom answer place index nodes trail)) :
    resolveNodes answer others trail = resolveNodes answer nodes trail := by
  -- The course is that of the first list, so the induction is on it, and the other one is taken
  -- apart along with it.
  induction nodes using nodes_induction generalizing place index others trail with
  | nil =>
    cases others with
    | nil => rfl
    | cons other more => cases same
  | text content rest ih =>
    obtain ⟨other, more, rfl, here, behind⟩ := exists_of_pruneNodes_cons same
    cases other with
    | directive value => cases here
    | text text =>
      cases here
      rw [resolveNodes_cons, resolveNodes_cons]
      exact resolveLaid_congr rfl (ih place (index + 1) behind enters)
  | directive directive rest inner ih =>
    obtain ⟨other, more, rfl, here, behind⟩ := exists_of_pruneNodes_cons same
    cases other with
    | text text => cases here
    | directive other =>
      rw [stepsFrom, Node.steps, Node.resolve] at enters
      obtain ⟨first, further⟩ := List.forall_mem_append.1 enters
      have front : other.resolve answer trail = directive.resolve answer trail :=
        Directive.resolve_of_alike (Node.directive.inj here) first
          (fun branch others middle => inner branch _ 0)
      rw [resolveNodes_cons, resolveNodes_cons, Node.resolve, Node.resolve, front]
      apply andThen_congr
      intro text middle resolved
      rw [resolved] at further
      exact resolveLaid_congr rfl (ih place (index + 1) behind further)

end

namespace Session

variable {session : Session} {document other : Document} {bindings : Bindings}

/-- A document that differs from another only in the contents of branches that a visit of the other
does not enter is visited like it: with the same text or error, and leaving the same session, which
holds the progress of all lists and the number of random words drawn. -/
theorem resolve_of_prune_eq
    (same : (other.prune (session.entered document bindings)).nodes =
      (document.prune (session.entered document bindings)).nodes) :
    session.resolve other bindings = session.resolve document bindings := by
  have enters : EntersOnly (session.evaluator bindings) (session.entered document bindings)
      (session.steps document bindings) :=
    fun step member place entered => List.mem_filterMap.2 ⟨step, member, entered⟩
  have alike := resolveNodes_of_pruneNodes_eq document.nodes [] 0 same enters
  cases resolved : resolveNodes (session.evaluator bindings) document.nodes session.trail with
  | mk result after =>
    rw [resolved] at alike
    cases result with
    | ok text => rw [resolve_of_ok session alike, resolve_of_ok session resolved]
    | error error => rw [resolve_of_error session alike, resolve_of_error session resolved]

/-- A conditional whose guard has no answer in `answerless`. -/
def unanswered : Directive :=
  ⟨"g", .conditional, .condition ⟨"g", ⟨.start, .start⟩⟩, .inline,
    [⟨none, [], ⟨.start, .start⟩⟩], ⟨.start, .start⟩⟩

/-- A shuffle of a branch with the given content and one with a list, and then a guard without an
answer. -/
def forkedDocument (content : List Node) : Document :=
  let branch (content : List Node) : Branch := ⟨none, content, ⟨.start, .start⟩⟩
  let list (identity : String) (kind : Discipline) (branches : List Branch) : Node :=
    .directive ⟨identity, .list kind, .none, .inline, branches, ⟨.start, .start⟩⟩
  ⟨"d", [list "s" .shuffle [branch content, branch [list "x" .cycle [branch [.text "a"]]]],
    .directive unanswered]⟩

/-- The shuffle enters its second branch, the list there its only one, and then the visit fails,
without regard to the guard in the branch that is not entered. -/
theorem resolve_of_prune_eq_forked :
    answerless.entered (forkedDocument [.text "b"]) .empty = [[0, 1], [0, 1, 0, 0]] ∧
    ((forkedDocument [.directive unanswered, .text "c"]).prune [[0, 1], [0, 1, 0, 0]]).nodes =
      ((forkedDocument [.text "b"]).prune [[0, 1], [0, 1, 0, 0]]).nodes ∧
    answerless.resolve (forkedDocument [.directive unanswered, .text "c"]) .empty =
      answerless.resolve (forkedDocument [.text "b"]) .empty := by
  have entered : answerless.entered (forkedDocument [.text "b"]) .empty =
      [[0, 1], [0, 1, 0, 0]] := by decide +kernel
  refine ⟨entered, rfl, resolve_of_prune_eq ?_⟩
  rw [entered]
  rfl

end Session

end Narrative
