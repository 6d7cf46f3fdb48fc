import Narrative.Document.Definition
import Narrative.Store
import Narrative.Text.Blank
import Narrative.Value

/-!
Resolution of documents into the text that one visit shows. Directives are resolved from left to
right and only inside chosen branches. A resolution that fails still tells how far it came.
-/

set_option autoImplicit false

namespace Narrative

/-- Answers guards. A failure carries its reason. -/
abbrev Evaluator := Bindings → String → Except String Bool

/-- A guard without an answer. -/
structure EvaluationError where
  guard : Guard
  reason : String
deriving DecidableEq

namespace EvaluationError

def code : String := "varia::evaluation"

def message (error : EvaluationError) : String :=
  "cannot evaluate guard `" ++ error.guard.text ++ "` at " ++ error.guard.span.display ++ ": " ++
    error.reason

end EvaluationError

/-- Why a document cannot be resolved. -/
inductive ResolutionError where
  | definition (error : DefinitionError)
  | evaluation (error : EvaluationError)
deriving DecidableEq

def ResolutionError.message : ResolutionError → String
  | definition error => error.message
  | evaluation error => error.message

/-- What a resolution leaves behind, whether it succeeds or not. -/
structure Trail where
  store : Store
  source : RandomSource

/-- Answers a guard, naming it if it has no answer. -/
def Guard.check (answer : String → Except String Bool) (guard : Guard) :
    Except EvaluationError Bool :=
  match answer guard.text with
  | .ok passes => .ok passes
  | .error reason => .error ⟨guard, reason⟩

/-- Answers a guard that may be absent. An absent guard passes. -/
def checkGuard (answer : String → Except String Bool) :
    Option Guard → Except EvaluationError Bool
  | some guard => guard.check answer
  | none => .ok true

/-- The indices of the branches whose guards pass, the first branch having the given index. All
guards are answered, in the order of the text. -/
def eligibleFrom (answer : String → Except String Bool) (index : Nat) :
    List Branch → Except EvaluationError (List Nat)
  | [] => .ok []
  | branch :: rest =>
    match checkGuard answer branch.guard with
    | .error error => .error error
    | .ok passes =>
      match eligibleFrom answer (index + 1) rest with
      | .error error => .error error
      | .ok more => .ok (if passes then index :: more else more)

namespace Directive

/-- The branch that a conditional shows: the first if its guard passes, else the second if there
is one. -/
def chooseConditional (answer : String → Except String Bool) (directive : Directive) :
    Except EvaluationError (Option Nat) :=
  match checkGuard answer directive.guard? with
  | .error error => .error error
  | .ok true => .ok (some 0)
  | .ok false => .ok (if directive.branches.length = 2 then some 1 else none)

/-- The branch that a list shows. Its progress is kept if it shows one. -/
def chooseListed (answer : String → Except String Bool) (directive : Directive)
    (kind : Discipline) (trail : Trail) : Except EvaluationError (Option Nat) × Trail :=
  match eligibleFrom answer 0 directive.branches with
  | .error error => (.error error, trail)
  | .ok eligible =>
    let selection := select kind (trail.store.progress directive.identity) eligible trail.source
    match selection.branch with
    | none => (.ok none, trail)
    | some branch =>
      (.ok (some branch),
        ⟨trail.store.insert directive.identity selection.progress, selection.source⟩)

/-- The branch that a directive shows. A directive that breaks a rule fails before any guard is
answered. -/
def choose (answer : String → Except String Bool) (directive : Directive) (trail : Trail) :
    Except ResolutionError (Option Nat) × Trail :=
  match directive.problem? with
  | some error => (.error (.definition error), trail)
  | none =>
    match directive.kind with
    | .conditional => ((directive.chooseConditional answer).mapError .evaluation, trail)
    | .list kind =>
      let (chosen, trail) := directive.chooseListed answer kind trail
      (chosen.mapError .evaluation, trail)

/-- The text of a chosen branch as the layout of its directive shows it. -/
def finish (directive : Directive) (text : String) : String :=
  match directive.layout with
  | .inline => text
  | .multiLine => String.ofList (trim text.toList)

end Directive

mutual

def Node.resolve (answer : String → Except String Bool) :
    Node → Trail → Except ResolutionError String × Trail
  | .text content, trail => (.ok content, trail)
  | .directive value, trail => value.resolve answer trail

/-- Resolves a directive. It shows nothing if it chooses nothing. -/
def Directive.resolve (answer : String → Except String Bool) :
    Directive → Trail → Except ResolutionError String × Trail
  | ⟨identity, kind, heading, layout, branches, span⟩, trail =>
    let directive : Directive := ⟨identity, kind, heading, layout, branches, span⟩
    match directive.choose answer trail with
    | (.error error, trail) => (.error error, trail)
    | (.ok none, trail) => (.ok "", trail)
    | (.ok (some index), trail) =>
      match resolveAt answer branches index trail with
      | (.error error, trail) => (.error error, trail)
      | (.ok text, trail) => (.ok (directive.finish text), trail)

def resolveAt (answer : String → Except String Bool) :
    List Branch → Nat → Trail → Except ResolutionError String × Trail
  | [], _, trail => (.ok "", trail)
  | branch :: _, 0, trail => branch.resolve answer trail
  | _ :: rest, index + 1, trail => resolveAt answer rest index trail

def Branch.resolve (answer : String → Except String Bool) :
    Branch → Trail → Except ResolutionError String × Trail
  | ⟨_, content, _⟩, trail => resolveNodes answer content trail

/-- Resolves nodes from left to right and joins their texts. -/
def resolveNodes (answer : String → Except String Bool) :
    List Node → Trail → Except ResolutionError String × Trail
  | [], trail => (.ok "", trail)
  | node :: rest, trail =>
    match node.resolve answer trail with
    | (.error error, trail) => (.error error, trail)
    | (.ok text, trail) =>
      match resolveNodes answer rest trail with
      | (.error error, trail) => (.error error, trail)
      | (.ok more, trail) => (.ok (text ++ more), trail)

end

end Narrative
