import Narrative.Document

/-!
Rules that a directive must keep before it can be resolved. A conditional has one or two branches
without guards of their own, a list has at least one branch.
-/

set_option autoImplicit false

namespace Narrative

/-- A rule that a directive breaks. -/
inductive Violation where
  /-- A conditional with another number of branches than one or two. -/
  | conditionalArity (branches : Nat)
  /-- A list without branches. -/
  | emptyList
  /-- A conditional with a guard on a branch. -/
  | guardedConditionalBranch
deriving DecidableEq

def Violation.message : Violation → String
  | .conditionalArity branches =>
    "conditional has " ++ toString branches ++ " branches, expected 1 or 2"
  | .emptyList => "list directive has no branches"
  | .guardedConditionalBranch => "conditional branches cannot have their own guards"

/-- The first rule that a directive breaks. -/
def Directive.violation? (directive : Directive) : Option Violation :=
  let count := directive.branches.length
  match directive.kind with
  | .conditional =>
    if count < 1 ∨ 2 < count then some (.conditionalArity count)
    else if directive.branches.any (fun branch => branch.guard.isSome) then
      some .guardedConditionalBranch
    else none
  | .list _ => if count = 0 then some .emptyList else none

structure DefinitionError where
  violation : Violation
  identity : String
  span : Span
deriving DecidableEq

namespace DefinitionError

def code : String := "varia::definition"

def message (error : DefinitionError) : String :=
  "invalid directive " ++ error.identity ++ " at " ++ error.span.display ++ ": " ++
    error.violation.message

end DefinitionError

/-- The error that resolving a directive would end with before anything is chosen. -/
def Directive.problem? (directive : Directive) : Option DefinitionError :=
  directive.violation?.map (fun violation => ⟨violation, directive.identity, directive.span⟩)

end Narrative
