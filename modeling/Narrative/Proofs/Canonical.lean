import Narrative.Proofs.Parsing

/-!
Canonical documents and their spelling. A canonical document is one that can be written down: its
texts hold no character that would end them, and no text, guard or heading could be read as
something else where it stands. Spelling writes every list with its long marker and begins every
entry of a block on a new line.

    directive = '{' heading (nodes '|')* nodes '}'
              | '{' heading '\n' ('-' indent (guard ':')? nodes)+ '}'
-/

set_option autoImplicit false

namespace Narrative

open Written (isGap isSpace isLabel isSign isLineEnd isArgumentText isEntryText)

/-- The text that nodes begin with, empty if they begin with a directive. -/
def leadingText : List Node → List Char
  | .text content :: _ => content.toList
  | _ => []

/-- The text that the first of the branches begins with. -/
def leadingTextOfBranches : List Branch → List Char
  | branch :: _ => leadingText branch.content
  | [] => []

/-- A guard with its colon is a label, and not the marker of a discipline. -/
def Heading.Canonical : Heading → Prop
  | condition guard =>
    guard.text ≠ "" ∧ (∀ c ∈ guard.text.toList, isLabel c = true) ∧
      Discipline.ofWord? guard.text = Option.none
  | _ => True

/-- Text after a heading on its line is not read as a part of the heading. -/
def Heading.Precedes (text : List Char) : Heading → Prop
  | none => Stops isSign text ∧ (':' ∈ text → text.head? = some ':')
  | _ => Stops isGap text

/-- Whether a character ends a run that could be the guard of an entry. -/
def isGuardEnd (c : Char) : Bool := isLineEnd c || c == '|' || c == ':'

/-- Text after the space of an entry is read neither as more space nor as a guard. -/
def Unguarded (text : List Char) : Prop :=
  Stops isSpace text ∧
    ∀ run rest, text = run ++ ':' :: rest → (∀ c ∈ run, isGuardEnd c = false) → run = []

/-- A guard of an entry can be told from the space before it and the text after it. -/
def Guard.Precedes (text : List Char) (guard : Guard) : Prop :=
  (guard.text ≠ "" ∧ (∀ c ∈ guard.text.toList, isLabel c = true) ∧
    Stops isGap guard.text.toList) ∧ Stops isGap text

mutual

/-- Texts are not empty, hold accepted characters only, and do not stand next to each other. -/
def canonicalNodes (accept : Char → Bool) : List Node → Prop
  | [] => True
  | .text content :: rest =>
    (content ≠ "" ∧ ∀ c ∈ content.toList, accept c = true) ∧
      (∀ next more, rest ≠ .text next :: more) ∧ canonicalNodes accept rest
  | .directive value :: rest => value.Canonical ∧ canonicalNodes accept rest

/-- The kind of a directive is the one that its heading asks for. -/
def Directive.Canonical : Directive → Prop
  | ⟨_, kind, heading, .inline, branches, _⟩ =>
    (branches ≠ [] ∧ kind = heading.kind ∧ heading.Canonical) ∧
      heading.Precedes (leadingTextOfBranches branches) ∧ canonicalArguments branches
  | ⟨_, kind, heading, .multiLine, branches, _⟩ =>
    (branches ≠ [] ∧ kind = heading.kind ∧ heading.Canonical) ∧ canonicalEntries branches

def canonicalArguments : List Branch → Prop
  | [] => True
  | ⟨guard, content, _⟩ :: rest =>
    guard = none ∧ canonicalNodes isArgumentText content ∧ canonicalArguments rest

def canonicalEntries : List Branch → Prop
  | [] => True
  | ⟨none, content, _⟩ :: rest =>
    Unguarded (leadingText content) ∧ canonicalNodes isEntryText content ∧ canonicalEntries rest
  | ⟨some guard, content, _⟩ :: rest =>
    guard.Precedes (leadingText content) ∧ canonicalNodes isEntryText content ∧
      canonicalEntries rest

end

/-! ### Spelling -/

def Heading.spell : Heading → List Char
  | none => []
  | discipline kind => kind.marker.toList
  | condition guard => guard.text.toList ++ [':']

def spellGuard : Option Guard → List Char
  | none => []
  | some guard => guard.text.toList ++ [':']

section

variable (indent : List Char)

mutual

/-- The characters of nodes, with `indent` after each dash. -/
def spellNodes : List Node → List Char
  | [] => []
  | .text content :: rest => content.toList ++ spellNodes rest
  | .directive value :: rest => value.spell ++ spellNodes rest

def Directive.spell : Directive → List Char
  | ⟨_, _, heading, .inline, branches, _⟩ =>
    '{' :: (heading.spell ++ spellInline branches ++ ['}'])
  | ⟨_, _, heading, .multiLine, branches, _⟩ =>
    '{' :: (heading.spell ++ '\n' :: spellMultiLine branches ++ ['}'])

/-- The characters of branches on one line, with bars between. -/
def spellInline : List Branch → List Char
  | [] => []
  | [⟨_, content, _⟩] => spellNodes content
  | ⟨_, content, _⟩ :: rest => spellNodes content ++ '|' :: spellInline rest

/-- The characters of branches on lines of their own, each after a dash. -/
def spellMultiLine : List Branch → List Char
  | [] => []
  | ⟨guard, content, _⟩ :: rest =>
    '-' :: (indent ++ spellGuard guard ++ spellNodes content ++ spellMultiLine rest)

end

end

/-- Space that begins a new line. After a dash it keeps the label of an entry from running over the
entries before it. -/
structure Indent where
  chars : List Char
  spaces : ∀ c ∈ chars, isSpace c = true
  breaks : ∃ c ∈ chars, isLineEnd c = true

/-- Nothing but a line feed. -/
def Indent.feed : Indent := ⟨['\n'], List.all_eq_true.1 rfl, '\n', by decide, rfl⟩

/-! ### What is written down -/

def Guard.unplaced (guard : Guard) : Guard := ⟨guard.text, ⟨.start, .start⟩⟩

def Heading.unplaced : Heading → Heading
  | condition guard => condition guard.unplaced
  | heading => heading

mutual

/-- Nodes without their identities and spans, which depend on where a document is written. -/
def unplacedNodes : List Node → List Node
  | [] => []
  | .text content :: rest => .text content :: unplacedNodes rest
  | .directive value :: rest => .directive value.unplaced :: unplacedNodes rest

def Directive.unplaced : Directive → Directive
  | ⟨_, kind, heading, layout, branches, _⟩ =>
    ⟨"", kind, heading.unplaced, layout, unplacedBranches branches, ⟨.start, .start⟩⟩

def unplacedBranches : List Branch → List Branch
  | [] => []
  | ⟨guard, content, _⟩ :: rest =>
    ⟨guard.map Guard.unplaced, unplacedNodes content, ⟨.start, .start⟩⟩ :: unplacedBranches rest

end

mutual

/-- The number of directives open at once in nodes. -/
def depthOfNodes : List Node → Nat
  | [] => 0
  | .text _ :: rest => depthOfNodes rest
  | .directive value :: rest => max value.depth (depthOfNodes rest)

def Directive.depth : Directive → Nat
  | ⟨_, _, _, _, branches, _⟩ => depthOfBranches branches + 1

def depthOfBranches : List Branch → Nat
  | [] => 0
  | ⟨_, content, _⟩ :: rest => max (depthOfNodes content) (depthOfBranches rest)

end

end Narrative
