import Narrative.Text.Position

/-!
Documents: narrative text with embedded directives. A directive offers branches and says in its
heading which of them is shown; the content of a branch is text and directives again.
-/

set_option autoImplicit false

namespace Narrative

/-- The order in which the visits of a list show its branches. -/
inductive Discipline where
  /-- One branch after the other, then the last one for ever. -/
  | stopping
  /-- One branch after the other, then the first one again. -/
  | cycle
  /-- Every branch once in random order, then in a new random order. -/
  | shuffle
  /-- One branch after the other, then nothing. -/
  | once
deriving DecidableEq

namespace Discipline

def word : Discipline → String
  | stopping => "stopping"
  | cycle => "cycle"
  | shuffle => "shuffle"
  | once => "once"

def all : List Discipline := [stopping, cycle, shuffle, once]

def ofWord? (text : String) : Option Discipline := all.find? (fun kind => kind.word == text)

/-- The marker of the discipline as a heading spells it out. -/
def marker (kind : Discipline) : String := kind.word ++ ":"

theorem ofWord?_word (kind : Discipline) : ofWord? kind.word = some kind := by
  cases kind <;> decide

end Discipline

/-- What a directive does when it is resolved. -/
inductive Kind where
  /-- Shows its first branch if a guard passes, and its second one otherwise. -/
  | conditional
  /-- Chooses among its branches visit by visit. -/
  | list (discipline : Discipline)
deriving DecidableEq

def Kind.word : Kind → String
  | .conditional => "conditional"
  | .list discipline => discipline.word

inductive Layout where
  /-- On one line, separated by bars. The content of a branch counts as it stands. -/
  | inline
  /-- One entry after the other, each after a dash. The content of a branch is trimmed. -/
  | multiLine
deriving DecidableEq

/-- A condition in the words of the host, kept as it was written. -/
structure Guard where
  text : String
  span : Span
deriving DecidableEq

/-- What a directive says before its branches. -/
inductive Heading where
  | none
  | discipline (kind : Discipline)
  | condition (guard : Guard)
deriving DecidableEq

namespace Heading

/-- The kind that a heading asks for: a condition makes a conditional, a discipline makes a list
of that discipline, and a list is stopping if nothing is said. -/
def kind : Heading → Kind
  | none => .list .stopping
  | discipline kind => .list kind
  | condition _ => .conditional

def guard? : Heading → Option Guard
  | condition guard => some guard
  | _ => Option.none

end Heading

mutual

inductive Node where
  /-- Text that is shown as it stands. -/
  | text (content : String)
  | directive (value : Directive)

/-- A choice among branches. -/
structure Directive where
  /-- The key under which the progress of the directive is kept. -/
  identity : String
  kind : Kind
  heading : Heading
  layout : Layout
  branches : List Branch
  /-- The whole directive, braces included. -/
  span : Span

/-- One of the contents that a directive chooses from. -/
structure Branch where
  guard : Option Guard
  content : List Node
  span : Span

end

def Directive.guard? (directive : Directive) : Option Guard := directive.heading.guard?

def Node.directive? : Node → Option Directive
  | .text _ => none
  | .directive value => some value

def Node.isText (node : Node) : Bool := node.directive?.isNone

/-- The directives that stand directly in the branches of a directive. -/
def Directive.children (directive : Directive) : List Directive :=
  directive.branches.flatMap (fun branch => branch.content.filterMap Node.directive?)

mutual

/-- The directive that a node is, if it is one, and all directives inside. -/
def Node.directives : Node → List Directive
  | .text _ => []
  | .directive value => value.directives

/-- A directive and all directives inside, outer before inner. -/
def Directive.directives : Directive → List Directive
  | ⟨identity, kind, heading, layout, branches, span⟩ =>
    ⟨identity, kind, heading, layout, branches, span⟩ :: directivesOfBranches branches

def directivesOfBranches : List Branch → List Directive
  | [] => []
  | branch :: rest => branch.directives ++ directivesOfBranches rest

def Branch.directives : Branch → List Directive
  | ⟨_, content, _⟩ => directivesOfNodes content

def directivesOfNodes : List Node → List Directive
  | [] => []
  | node :: rest => node.directives ++ directivesOfNodes rest

end

/-- A text with a name. -/
structure Document where
  /-- The name of the document, from which the identities of its directives are formed. -/
  name : String
  nodes : List Node

namespace Document

/-- Every directive of a document, outer before inner, in the order of the text. -/
def directives (document : Document) : List Directive := directivesOfNodes document.nodes

/-- Whether a document has no directives. -/
def isPlain (document : Document) : Bool := document.nodes.all Node.isText

end Document

end Narrative
