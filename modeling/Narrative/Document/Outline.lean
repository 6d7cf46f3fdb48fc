import Narrative.Document
import Narrative.Text.Quoted

/-!
The outline of a document: its tree in one line. Texts are quoted, a directive is its kind and its
branches in parentheses, and guards stand in square brackets.
-/

set_option autoImplicit false

namespace Narrative

def Guard.outline (guard : Guard) : String := "[" ++ guard.text ++ "]"

mutual

def Node.outline : Node → String
  | .text content => Quoted.text content
  | .directive value => value.outline

/-- A directive as an outline shows it: kind, guard of the heading, branches. -/
def Directive.outline : Directive → String
  | ⟨_, kind, heading, _, branches, _⟩ =>
    let guard := match heading.guard? with
      | some guard => " " ++ guard.outline
      | none => ""
    "(" ++ kind.word ++ guard ++ outlineOfBranches branches ++ ")"

/-- Branches as an outline shows them, each after a space. -/
def outlineOfBranches : List Branch → String
  | [] => ""
  | branch :: rest => " " ++ branch.outline ++ outlineOfBranches rest

/-- A branch as an outline shows it: its guard, and its content after a space if there is any. -/
def Branch.outline : Branch → String
  | ⟨none, content, _⟩ => "(" ++ outlineOfNodes content ++ ")"
  | ⟨some guard, content, _⟩ =>
    "(" ++ guard.outline ++ (if content.isEmpty then "" else " ") ++ outlineOfNodes content ++ ")"

/-- Nodes as an outline shows them, with spaces between. -/
def outlineOfNodes : List Node → String
  | [] => ""
  | [node] => node.outline
  | node :: rest => node.outline ++ " " ++ outlineOfNodes rest

end

def Document.outline (document : Document) : String := outlineOfNodes document.nodes

end Narrative
