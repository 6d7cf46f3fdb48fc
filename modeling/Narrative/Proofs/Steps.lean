import Narrative.Proofs.Choices
import Narrative.Session

/-!
The course of a resolution: the directives that it comes to, in the order in which it comes to them,
each with the place where it stands and the trail up to there. A resolution that fails ends its
course with the directive that made it fail, so what it did up to there is told as well.
-/

set_option autoImplicit false

namespace Narrative

/-- A directive that a resolution comes to. Its place is that of the branch around it and its index
among the nodes there, the place of a branch that of its directive and its own index. -/
structure Step where
  place : List Nat
  directive : Directive
  trail : Trail

mutual

def Node.steps (answer : String → Except String Bool) (place : List Nat) :
    Node → Trail → List Step
  | .text _, _ => []
  | .directive value, trail => value.steps answer place trail

def Directive.steps (answer : String → Except String Bool) (place : List Nat) :
    Directive → Trail → List Step
  | ⟨identity, kind, heading, layout, branches, span⟩, trail =>
    let directive : Directive := ⟨identity, kind, heading, layout, branches, span⟩
    ⟨place, directive, trail⟩ ::
      match directive.choose answer trail with
      | (.ok (some index), middle) => stepsAt answer (place ++ [index]) branches index middle
      | _ => []

def stepsAt (answer : String → Except String Bool) (place : List Nat) :
    List Branch → Nat → Trail → List Step
  | [], _, _ => []
  | branch :: _, 0, trail => branch.steps answer place trail
  | _ :: rest, index + 1, trail => stepsAt answer place rest index trail

def Branch.steps (answer : String → Except String Bool) (place : List Nat) :
    Branch → Trail → List Step
  | ⟨_, content, _⟩, trail => stepsFrom answer place 0 content trail

/-- The course of resolving nodes at a place, the first of them with the given index. -/
def stepsFrom (answer : String → Except String Bool) (place : List Nat) (index : Nat) :
    List Node → Trail → List Step
  | [], _ => []
  | node :: rest, trail =>
    node.steps answer (place ++ [index]) trail ++
      match node.resolve answer trail with
      | (.error _, _) => []
      | (.ok _, middle) => stepsFrom answer place (index + 1) rest middle

end

def Session.steps (session : Session) (document : Document) (bindings : Bindings) : List Step :=
  stepsFrom (session.evaluator bindings) [] 0 document.nodes session.trail

section

variable (answer : String → Except String Bool) (place : List Nat)

theorem stepsAt_eq (branches : List Branch) (index : Nat) (trail : Trail) :
    stepsAt answer place branches index trail =
      stepsFrom answer place 0 (contentAt branches index) trail := by
  induction branches generalizing index with
  | nil => rfl
  | cons branch rest ih =>
    cases index with
    | zero =>
      obtain ⟨guard, content, span⟩ := branch
      rw [stepsAt, Branch.steps]
      rfl
    | succ index =>
      rw [stepsAt, ih]
      rfl

/-- The course of a directive goes on with the content that its choice leads to. -/
theorem Directive.steps_eq (directive : Directive) (trail : Trail) :
    directive.steps answer place trail = ⟨place, directive, trail⟩ ::
      match directive.choose answer trail with
      | (.error _, _) => []
      | (.ok branch, middle) =>
        stepsFrom answer (place ++ branch.toList) 0 (directive.contentOf branch) middle := by
  obtain ⟨identity, kind, heading, layout, branches, span⟩ := directive
  rw [Directive.steps]
  obtain ⟨result, middle⟩ := Directive.choose answer _ trail
  cases result with
  | error error => rfl
  | ok branch =>
    cases branch with
    | none => rfl
    | some index =>
      dsimp only [Directive.contentOf]
      rw [stepsAt_eq]
      rfl

end

/-- A resolution comes to directives in the order of the text, outer before inner, and to each of
them once. -/
theorem sublist_stepsFrom (answer : String → Except String Bool) (nodes : List Node)
    (place : List Nat) (index : Nat) (trail : Trail) :
    ((stepsFrom answer place index nodes trail).map Step.directive).Sublist
      (directivesOfNodes nodes) := by
  induction nodes using nodes_induction generalizing place index trail with
  | nil => exact List.nil_sublist _
  | text content rest ih => exact ih place (index + 1) trail
  | directive directive rest inner ih =>
    have behind : ((match directive.resolve answer trail with
        | (.error _, _) => []
        | (.ok _, middle) => stepsFrom answer place (index + 1) rest middle).map
          Step.directive).Sublist (directivesOfNodes rest) := by
      split
      · exact List.nil_sublist _
      · next text middle resolved => exact ih place (index + 1) middle
    rw [stepsFrom, Node.steps, Node.resolve, Directive.steps_eq, List.cons_append, List.map_cons,
      List.map_append]
    split
    · next error middle chosen =>
      exact (behind.cons_cons directive).trans (directive.sublist_contentOf none rest)
    · next branch middle chosen =>
      have within := (inner branch (place ++ [index] ++ branch.toList) 0 middle).append behind
      exact (within.cons_cons directive).trans (directive.sublist_contentOf branch rest)

end Narrative
