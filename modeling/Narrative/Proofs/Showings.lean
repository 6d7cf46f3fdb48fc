import Narrative.Proofs.Parsing
import Narrative.Resolution

/-!
What a resolution shows: the directives it comes to, each with the branch it chooses there. A
resolution that succeeds is a tree of choices whose leaves are texts, so its text is the one that
the chosen branches compose, and its progress is what one choice after the other leaves.
-/

set_option autoImplicit false

namespace Narrative

/-- A directive that a resolution came to, and the branch that it showed there, if any. -/
structure Showing where
  directive : Directive
  branch : Option Nat

def contentAt (branches : List Branch) (index : Nat) : List Node :=
  match branches[index]? with
  | some branch => branch.content
  | none => []

mutual

def Node.showings (answer : String → Except String Bool) : Node → Trail → List Showing
  | .text _, _ => []
  | .directive value, trail => value.showings answer trail

def Directive.showings (answer : String → Except String Bool) :
    Directive → Trail → List Showing
  | ⟨identity, kind, heading, layout, branches, span⟩, trail =>
    let directive : Directive := ⟨identity, kind, heading, layout, branches, span⟩
    match directive.choose answer trail with
    | (.error _, _) => []
    | (.ok none, _) => [⟨directive, none⟩]
    | (.ok (some index), trail) =>
      ⟨directive, some index⟩ :: showingsAt answer branches index trail

def showingsAt (answer : String → Except String Bool) :
    List Branch → Nat → Trail → List Showing
  | [], _, _ => []
  | branch :: _, 0, trail => branch.showings answer trail
  | _ :: rest, index + 1, trail => showingsAt answer rest index trail

def Branch.showings (answer : String → Except String Bool) : Branch → Trail → List Showing
  | ⟨_, content, _⟩, trail => showingsOfNodes answer content trail

/-- What resolving nodes shows, in the order of the text and outer before inner. -/
def showingsOfNodes (answer : String → Except String Bool) :
    List Node → Trail → List Showing
  | [], _ => []
  | node :: rest, trail =>
    node.showings answer trail ++
      match node.resolve answer trail with
      | (.error _, _) => []
      | (.ok _, trail) => showingsOfNodes answer rest trail

end

/-- Nodes that resolve on a trail, with what they show, their text and the trail they leave. -/
inductive Shows (answer : String → Except String Bool) :
    List Node → Trail → List Showing → String → Trail → Prop
  | nil (trail : Trail) : Shows answer [] trail [] "" trail
  | text {nodes : List Node} {trail after : Trail} {showings : List Showing} {more : String}
    (content : String) (rest : Shows answer nodes trail showings more after) :
    Shows answer (.text content :: nodes) trail showings (content ++ more) after
  | nothing {directive : Directive} {nodes : List Node} {trail middle after : Trail}
    {showings : List Showing} {more : String}
    (chosen : directive.choose answer trail = (.ok none, middle))
    (rest : Shows answer nodes middle showings more after) :
    Shows answer (.directive directive :: nodes) trail (⟨directive, none⟩ :: showings)
      ("" ++ more) after
  | branch {directive : Directive} {index : Nat} {nodes : List Node}
    {trail first middle after : Trail} {inner showings : List Showing} {text more : String}
    (chosen : directive.choose answer trail = (.ok (some index), first))
    (content : Shows answer (contentAt directive.branches index) first inner text middle)
    (rest : Shows answer nodes middle showings more after) :
    Shows answer (.directive directive :: nodes) trail
      (⟨directive, some index⟩ :: (inner ++ showings)) (directive.finish text ++ more) after

section

variable {answer : String → Except String Bool}

/-- What a node shows stands before what the nodes after it show. -/
def Node.ShowsBefore (answer : String → Except String Bool) (node : Node) (trail : Trail)
    (text : String) (after : Trail) : Prop :=
  ∀ nodes showings more last, Shows answer nodes after showings more last →
    Shows answer (node :: nodes) trail (node.showings answer trail ++ showings) (text ++ more) last

mutual

theorem Node.showsBefore_of_resolve (node : Node) (trail : Trail) {text : String} {after : Trail}
    (resolved : node.resolve answer trail = (.ok text, after)) :
    node.ShowsBefore answer trail text after := by
  match node with
  | .text content =>
    rw [Node.resolve] at resolved
    cases resolved
    intro nodes showings more last rest
    exact .text _ rest
  | .directive value => exact Directive.showsBefore_of_resolve value trail resolved

theorem Directive.showsBefore_of_resolve (directive : Directive) (trail : Trail) {text : String}
    {after : Trail} (resolved : directive.resolve answer trail = (.ok text, after)) :
    (Node.directive directive).ShowsBefore answer trail text after := by
  match directive with
  | ⟨identity, kind, heading, layout, branches, span⟩ =>
    intro nodes showings more last rest
    rw [Directive.resolve] at resolved
    split at resolved
    · cases resolved
    · next middle chosen =>
      cases resolved
      rw [Node.showings, Directive.showings, chosen]
      exact .nothing chosen rest
    · next index middle chosen =>
      split at resolved
      · cases resolved
      · next inner behind within =>
        cases resolved
        rw [Node.showings, Directive.showings, chosen]
        exact .branch chosen (shows_of_resolveAt branches index middle within) rest

theorem shows_of_resolveAt (branches : List Branch) (index : Nat) (trail : Trail) {text : String}
    {after : Trail} (resolved : resolveAt answer branches index trail = (.ok text, after)) :
    Shows answer (contentAt branches index) trail (showingsAt answer branches index trail) text
      after := by
  match branches, index with
  | [], index =>
    rw [resolveAt] at resolved
    cases resolved
    exact .nil trail
  | ⟨guard, content, span⟩ :: rest, 0 =>
    rw [resolveAt, Branch.resolve] at resolved
    exact shows_of_resolveNodes content trail resolved
  | branch :: rest, index + 1 =>
    rw [resolveAt] at resolved
    exact shows_of_resolveAt rest index trail resolved

/-- A resolution that succeeds is a tree of choices. -/
theorem shows_of_resolveNodes (nodes : List Node) (trail : Trail) {text : String} {after : Trail}
    (resolved : resolveNodes answer nodes trail = (.ok text, after)) :
    Shows answer nodes trail (showingsOfNodes answer nodes trail) text after := by
  match nodes with
  | [] =>
    rw [resolveNodes] at resolved
    cases resolved
    exact .nil trail
  | node :: rest =>
    rw [resolveNodes] at resolved
    split at resolved
    · cases resolved
    · next first middle here =>
      split at resolved
      · cases resolved
      · next more last there =>
        cases resolved
        rw [showingsOfNodes, here]
        exact Node.showsBefore_of_resolve node trail here rest _ _ _
          (shows_of_resolveNodes rest middle there)

end

end

/-! ### Which directives are shown -/

variable {answer : String → Except String Bool} {nodes : List Node} {trail after : Trail}
  {showings : List Showing} {text : String}

theorem sublist_contentAt (branches : List Branch) (index : Nat) :
    (directivesOfNodes (contentAt branches index)).Sublist (directivesOfBranches branches) := by
  induction branches generalizing index with
  | nil => exact List.nil_sublist _
  | cons branch rest ih =>
    rw [directivesOfBranches_cons]
    cases index with
    | zero => exact List.sublist_append_left _ _
    | succ index => exact (ih index).trans (List.sublist_append_right _ _)

/-- Directives are shown in the order of the text, each at most once. -/
theorem Shows.sublist (shows : Shows answer nodes trail showings text after) :
    (showings.map Showing.directive).Sublist (directivesOfNodes nodes) := by
  induction shows with
  | nil trail => exact List.nil_sublist _
  | text content rest ih => exact ih
  | @nothing directive nodes trail middle after showings more chosen rest ih =>
    rw [List.map_cons, directivesOfNodes, Node.directives]
    obtain ⟨identity, kind, heading, layout, branches, span⟩ := directive
    rw [Directive.directives, List.cons_append]
    exact (ih.trans (List.sublist_append_right _ _)).cons_cons _
  | @branch directive index nodes trail first middle after inner showings text more chosen content
      rest inside outside =>
    rw [List.map_cons, List.map_append, directivesOfNodes, Node.directives]
    have within := inside.trans (sublist_contentAt directive.branches index)
    obtain ⟨identity, kind, heading, layout, branches, span⟩ := directive
    rw [Directive.directives, List.cons_append]
    exact (within.append outside).cons_cons _

/-- Every directive among the nodes is shown. -/
theorem Shows.top (shows : Shows answer nodes trail showings text after) {directive : Directive}
    (member : .directive directive ∈ nodes) : ∃ branch, ⟨directive, branch⟩ ∈ showings := by
  induction shows with
  | nil trail => cases member
  | text content rest ih =>
    rcases List.mem_cons.1 member with same | member
    · cases same
    · exact ih member
  | nothing chosen rest ih =>
    rcases List.mem_cons.1 member with same | member
    · cases same
      exact ⟨none, List.mem_cons_self⟩
    · obtain ⟨branch, found⟩ := ih member
      exact ⟨branch, List.mem_cons_of_mem _ found⟩
  | @branch _ index _ _ _ _ _ _ _ _ _ chosen content rest inside outside =>
    rcases List.mem_cons.1 member with same | member
    · cases same
      exact ⟨some index, List.mem_cons_self⟩
    · obtain ⟨branch, found⟩ := outside member
      exact ⟨branch, List.mem_cons_of_mem _ (List.mem_append_right _ found)⟩

/-- Every directive of a shown branch is shown. -/
theorem Shows.inside (shows : Shows answer nodes trail showings text after) {outer : Directive}
    {index : Nat} (shown : ⟨outer, some index⟩ ∈ showings) {directive : Directive}
    (member : .directive directive ∈ contentAt outer.branches index) :
    ∃ branch, ⟨directive, branch⟩ ∈ showings := by
  induction shows with
  | nil trail => cases shown
  | text content rest ih => exact ih shown
  | nothing chosen rest ih =>
    rcases List.mem_cons.1 shown with same | shown
    · cases same
    · obtain ⟨branch, found⟩ := ih shown
      exact ⟨branch, List.mem_cons_of_mem _ found⟩
  | branch chosen content rest inside outside =>
    rcases List.mem_cons.1 shown with same | shown
    · cases same
      obtain ⟨branch, found⟩ := content.top member
      exact ⟨branch, List.mem_cons_of_mem _ (List.mem_append_left _ found)⟩
    · rcases List.mem_append.1 shown with shown | shown
      · obtain ⟨branch, found⟩ := inside shown
        exact ⟨branch, List.mem_cons_of_mem _ (List.mem_append_left _ found)⟩
      · obtain ⟨branch, found⟩ := outside shown
        exact ⟨branch, List.mem_cons_of_mem _ (List.mem_append_right _ found)⟩

/-- The directives that are reached if each directive shows the branch given for its identity. -/
inductive Reached (shown : String → Option Nat) (nodes : List Node) : Directive → Prop
  | top {directive : Directive} (member : .directive directive ∈ nodes) :
    Reached shown nodes directive
  | inside {outer directive : Directive} {index : Nat} (reached : Reached shown nodes outer)
    (chosen : shown outer.identity = some index)
    (member : .directive directive ∈ contentAt outer.branches index) : Reached shown nodes directive

/-- The branch that the first directive of an identity showed. -/
def branchShown (showings : List Showing) (identity : String) : Option Nat :=
  (showings.find? (fun showing => showing.directive.identity == identity)).bind Showing.branch

/-- Each identity is shown at most once. -/
def Distinct (showings : List Showing) : Prop :=
  (showings.map (fun showing => showing.directive.identity)).Nodup

theorem Distinct.apart {earlier later : List Showing} {showing other : Showing}
    (distinct : Distinct (earlier ++ showing :: later)) (member : other ∈ earlier ++ later) :
    other.directive.identity ≠ showing.directive.identity := by
  rw [Distinct, List.map_append, List.map_cons, List.perm_middle.nodup_iff, ← List.map_append]
    at distinct
  intro same
  exact (List.nodup_cons.1 distinct).1 (same ▸ List.mem_map_of_mem member)

theorem branchShown_of_mem (distinct : Distinct showings) {showing : Showing}
    (member : showing ∈ showings) :
    branchShown showings showing.directive.identity = showing.branch := by
  induction showings with
  | nil => cases member
  | cons first rest ih =>
    obtain ⟨outside, later⟩ := List.nodup_cons.1 distinct
    rcases List.mem_cons.1 member with rfl | member
    · simp [branchShown]
    · have apart : first.directive.identity ≠ showing.directive.identity := by
        intro same
        exact outside (List.mem_map.2 ⟨showing, member, same.symm⟩)
      have found := ih later member
      rw [branchShown, List.find?_cons_of_neg (by simpa using apart)]
      exact found

theorem Shows.distinct (shows : Shows answer nodes trail showings text after)
    (nodup : ((directivesOfNodes nodes).map Directive.identity).Nodup) : Distinct showings := by
  have names := (shows.sublist.map Directive.identity).nodup nodup
  rwa [List.map_map] at names

/-- The directives that are reached through the shown branches are those that are shown. -/
theorem Shows.mem_of_reached (shows : Shows answer nodes trail showings text after)
    (nodup : ((directivesOfNodes nodes).map Directive.identity).Nodup) {directive : Directive}
    (reached : Reached (branchShown showings) nodes directive) :
    ∃ branch, ⟨directive, branch⟩ ∈ showings := by
  induction reached with
  | top member => exact shows.top member
  | @inside outer directive index reached chosen member ih =>
    obtain ⟨branch, found⟩ := ih
    have same : branch = some index := by
      rw [← chosen]
      exact (branchShown_of_mem (shows.distinct nodup) found).symm
    rw [same] at found
    exact shows.inside found member

/-- What is reached from nodes is reached from others if these reach the nodes. -/
theorem Reached.trans {shown : String → Option Nat} {inner : List Node} {directive : Directive}
    (reached : Reached shown inner directive)
    (all : ∀ outer, .directive outer ∈ inner → Reached shown nodes outer) :
    Reached shown nodes directive := by
  induction reached with
  | top member => exact all _ member
  | inside reached chosen member ih => exact .inside ih chosen member

/-- The directives that are shown are reached through the shown branches. -/
theorem Shows.reached_of_mem (shows : Shows answer nodes trail showings text after)
    {shown : String → Option Nat}
    (tells : ∀ showing ∈ showings, shown showing.directive.identity = showing.branch)
    {showing : Showing} (member : showing ∈ showings) :
    Reached shown nodes showing.directive := by
  induction shows with
  | nil trail => cases member
  | text content rest ih =>
    exact (ih tells member).trans (fun _ top => .top (List.mem_cons_of_mem _ top))
  | nothing chosen rest ih =>
    rcases List.mem_cons.1 member with rfl | member
    · exact .top List.mem_cons_self
    · have reached := ih (fun _ later => tells _ (List.mem_cons_of_mem _ later)) member
      exact reached.trans (fun _ top => .top (List.mem_cons_of_mem _ top))
  | branch chosen content rest inside outside =>
    have here := tells _ List.mem_cons_self
    rcases List.mem_cons.1 member with rfl | member
    · exact .top List.mem_cons_self
    · rcases List.mem_append.1 member with within | behind
      · have reached := inside
          (fun _ later => tells _ (List.mem_cons_of_mem _ (List.mem_append_left _ later))) within
        exact reached.trans (fun _ top => .inside (.top List.mem_cons_self) here top)
      · have reached := outside
          (fun _ later => tells _ (List.mem_cons_of_mem _ (List.mem_append_right _ later))) behind
        exact reached.trans (fun _ top => .top (List.mem_cons_of_mem _ top))

/-! ### The text that the shown branches compose -/

mutual

def Node.compose (shown : String → Option Nat) : Node → String
  | .text content => content
  | .directive value => value.compose shown

def Directive.compose (shown : String → Option Nat) : Directive → String
  | ⟨identity, kind, heading, layout, branches, span⟩ =>
    let directive : Directive := ⟨identity, kind, heading, layout, branches, span⟩
    match shown identity with
    | none => ""
    | some index => directive.finish (composeAt shown branches index)

def composeAt (shown : String → Option Nat) : List Branch → Nat → String
  | [], _ => ""
  | branch :: _, 0 => branch.compose shown
  | _ :: rest, index + 1 => composeAt shown rest index

def Branch.compose (shown : String → Option Nat) : Branch → String
  | ⟨_, content, _⟩ => composeNodes shown content

/-- The text of nodes of which each directive shows the branch given for its identity. -/
def composeNodes (shown : String → Option Nat) : List Node → String
  | [] => ""
  | node :: rest => node.compose shown ++ composeNodes shown rest

end

theorem composeAt_eq (shown : String → Option Nat) (branches : List Branch) (index : Nat) :
    composeAt shown branches index =
      composeNodes shown (contentAt branches index) := by
  induction branches generalizing index with
  | nil => rfl
  | cons branch rest ih =>
    cases index with
    | zero =>
      cases branch
      rfl
    | succ index => exact ih index

theorem Directive.compose_eq (shown : String → Option Nat) (directive : Directive) :
    directive.compose shown =
      match shown directive.identity with
      | none => ""
      | some index =>
        directive.finish (composeNodes shown (contentAt directive.branches index)) := by
  obtain ⟨identity, kind, heading, layout, branches, span⟩ := directive
  rw [Directive.compose]
  dsimp only
  split
  · rfl
  · rw [composeAt_eq]

/-- The text of a resolution is the one that the shown branches compose. -/
theorem Shows.text_eq (shows : Shows answer nodes trail showings text after)
    {shown : String → Option Nat}
    (tells : ∀ showing ∈ showings, shown showing.directive.identity = showing.branch) :
    text = composeNodes shown nodes := by
  induction shows with
  | nil trail => rfl
  | text content rest ih =>
    rw [composeNodes, Node.compose, ih tells]
  | nothing chosen rest ih =>
    have none := tells _ List.mem_cons_self
    rw [composeNodes, Node.compose, Directive.compose_eq, none,
      ih (fun showing member => tells showing (List.mem_cons_of_mem _ member))]
  | branch chosen content rest inside outside =>
    have index := tells _ List.mem_cons_self
    rw [composeNodes, Node.compose, Directive.compose_eq, index,
      inside (fun showing member =>
        tells showing (List.mem_cons_of_mem _ (List.mem_append_left _ member))),
      outside (fun showing member =>
        tells showing (List.mem_cons_of_mem _ (List.mem_append_right _ member)))]

end Narrative
