import Narrative.Proofs.Showings

/-!
Resolution told by choices. What a directive shows is the content of the branch that it chooses, and
nothing if it chooses none, so the result of nodes, the trail that they leave and what they show are
each given by a choice, by the content that it leads to and by the nodes behind. What is said of all
three goes by one induction, whose cases are those of the recursion.
-/

set_option autoImplicit false

namespace Narrative

/-- The content that a choice leads to. -/
def Directive.contentOf (directive : Directive) : Option Nat → List Node
  | some index => contentAt directive.branches index
  | none => []

section

variable {motive : List Node → Prop}

mutual

/-- Nodes are settled by those behind a text, and by those behind a directive and the contents that
it chooses from. -/
@[elab_as_elim]
theorem nodes_induction (nil : motive [])
    (text : ∀ content rest, motive rest → motive (.text content :: rest))
    (directive : ∀ directive rest, (∀ branch, motive (directive.contentOf branch)) → motive rest →
      motive (.directive directive :: rest)) (nodes : List Node) : motive nodes := by
  match nodes with
  | [] => exact nil
  | .text content :: rest => exact text content rest (nodes_induction nil text directive rest)
  | .directive ⟨identity, kind, heading, layout, branches, span⟩ :: rest =>
    refine directive _ rest (fun branch => ?_) (nodes_induction nil text directive rest)
    cases branch with
    | none => exact nil
    | some index => exact content_induction nil text directive branches index

theorem content_induction (nil : motive [])
    (text : ∀ content rest, motive rest → motive (.text content :: rest))
    (directive : ∀ directive rest, (∀ branch, motive (directive.contentOf branch)) → motive rest →
      motive (.directive directive :: rest)) (branches : List Branch) (index : Nat) :
    motive (contentAt branches index) := by
  match branches, index with
  | [], _ => exact nil
  | ⟨_, content, _⟩ :: _, 0 => exact nodes_induction nil text directive content
  | _ :: rest, index + 1 => exact content_induction nil text directive rest index

end

end

section

variable (answer : String → Except String Bool)

theorem resolveAt_eq (branches : List Branch) (index : Nat) (trail : Trail) :
    resolveAt answer branches index trail =
      resolveNodes answer (contentAt branches index) trail := by
  induction branches generalizing index with
  | nil => rfl
  | cons branch rest ih =>
    cases index with
    | zero =>
      obtain ⟨guard, content, span⟩ := branch
      rw [resolveAt, Branch.resolve]
      rfl
    | succ index =>
      rw [resolveAt, ih]
      rfl

theorem showingsAt_eq (branches : List Branch) (index : Nat) (trail : Trail) :
    showingsAt answer branches index trail =
      showingsOfNodes answer (contentAt branches index) trail := by
  induction branches generalizing index with
  | nil => rfl
  | cons branch rest ih =>
    cases index with
    | zero =>
      obtain ⟨guard, content, span⟩ := branch
      rw [showingsAt, Branch.showings]
      rfl
    | succ index =>
      rw [showingsAt, ih]
      rfl

/-- Without content there is nothing to lay out. -/
theorem Directive.finish_empty (directive : Directive) : directive.finish "" = "" := by
  unfold Directive.finish
  split <;> rfl

/-- A step and, if it succeeds, the one that its value leads to. -/
def andThen {α β : Type} (step : Except ResolutionError α × Trail)
    (next : α → Trail → Except ResolutionError β × Trail) : Except ResolutionError β × Trail :=
  match step with
  | (.error error, after) => (.error error, after)
  | (.ok value, after) => next value after

section

variable {α β : Type} {step : Except ResolutionError α × Trail}
  {next : α → Trail → Except ResolutionError β × Trail} {last : Trail}

theorem andThen_ok {value : β} (done : andThen step next = (.ok value, last)) :
    ∃ first middle, step = (.ok first, middle) ∧ next first middle = (.ok value, last) := by
  obtain ⟨first | first, middle⟩ := step
  · cases done
  · exact ⟨first, middle, rfl, done⟩

/-- Two steps fail with the first one, or with the second one after it. -/
theorem andThen_error {error : ResolutionError}
    (failed : andThen step next = (.error error, last)) :
    step = (.error error, last) ∨
      ∃ first middle, step = (.ok first, middle) ∧ next first middle = (.error error, last) := by
  obtain ⟨first | first, middle⟩ := step
  · left
    cases failed
    rfl
  · right
    exact ⟨first, middle, rfl, failed⟩

end

/-- What is shown after a step, which is nothing if it fails. -/
def shownAfter {α : Type} (step : Except ResolutionError α × Trail)
    (next : α → Trail → List Showing) : List Showing :=
  match step with
  | (.error _, _) => []
  | (.ok value, after) => next value after

theorem mem_shownAfter {α : Type} {step : Except ResolutionError α × Trail}
    {next : α → Trail → List Showing} {showing : Showing} (shown : showing ∈ shownAfter step next) :
    ∃ value after, step = (.ok value, after) ∧ showing ∈ next value after := by
  obtain ⟨result, after⟩ := step
  cases result with
  | error error => cases shown
  | ok value => exact ⟨value, after, rfl, shown⟩

/-- Resolves nodes and lays out their text. -/
def resolveLaid (lay : String → String) (nodes : List Node) (trail : Trail) :
    Except ResolutionError String × Trail :=
  ((resolveNodes answer nodes trail).1.map lay, (resolveNodes answer nodes trail).2)

section

variable {answer} {lay : String → String} {nodes : List Node} {trail last : Trail}

theorem resolveLaid_ok {text : String}
    (resolved : resolveLaid answer lay nodes trail = (.ok text, last)) :
    ∃ plain, resolveNodes answer nodes trail = (.ok plain, last) ∧ text = lay plain := by
  unfold resolveLaid at resolved
  cases inner : resolveNodes answer nodes trail with
  | mk result after =>
    rw [inner] at resolved
    cases result with
    | error error => cases resolved
    | ok plain =>
      cases resolved
      exact ⟨plain, rfl, rfl⟩

theorem resolveLaid_error {error : ResolutionError}
    (failed : resolveLaid answer lay nodes trail = (.error error, last)) :
    resolveNodes answer nodes trail = (.error error, last) := by
  unfold resolveLaid at failed
  cases inner : resolveNodes answer nodes trail with
  | mk result after =>
    rw [inner] at failed
    cases result with
    | error error =>
      cases failed
      rfl
    | ok plain => cases failed

end

/-- The text of nodes stands behind that of a node in front. -/
theorem resolveNodes_cons (node : Node) (rest : List Node) (trail : Trail) :
    resolveNodes answer (node :: rest) trail =
      andThen (node.resolve answer trail) (fun text => resolveLaid answer (text ++ ·) rest) := by
  rw [resolveNodes]
  obtain ⟨result, middle⟩ := node.resolve answer trail
  cases result with
  | error error => rfl
  | ok text =>
    dsimp only [andThen, resolveLaid]
    obtain ⟨more | more, after⟩ := resolveNodes answer rest middle
    · rfl
    · rfl

/-- Nodes resolve if the first one does and then, from where that leads, the others. -/
theorem resolveNodes_cons_ok {node : Node} {rest : List Node} {trail last : Trail}
    {text : String} :
    resolveNodes answer (node :: rest) trail = (.ok text, last) ↔
      ∃ front middle back, node.resolve answer trail = (.ok front, middle) ∧
        resolveNodes answer rest middle = (.ok back, last) ∧ text = front ++ back := by
  rw [resolveNodes_cons]
  constructor
  · intro resolved
    obtain ⟨front, middle, first, others⟩ := andThen_ok resolved
    obtain ⟨back, second, laid⟩ := resolveLaid_ok others
    exact ⟨front, middle, back, first, second, laid⟩
  · rintro ⟨front, middle, back, first, second, rfl⟩
    rw [first, andThen, resolveLaid, second]
    rfl

theorem showingsOfNodes_cons (node : Node) (rest : List Node) (trail : Trail) :
    showingsOfNodes answer (node :: rest) trail = node.showings answer trail ++
      shownAfter (node.resolve answer trail) (fun _ => showingsOfNodes answer rest) := by
  rw [showingsOfNodes]
  obtain ⟨result, after⟩ := node.resolve answer trail
  cases result <;> rfl

/-- A directive is resolved by its choice and the content that it leads to. -/
theorem Directive.resolve_eq (directive : Directive) (trail : Trail) :
    directive.resolve answer trail = andThen (directive.choose answer trail)
      (fun branch => resolveLaid answer directive.finish (directive.contentOf branch)) := by
  obtain ⟨identity, kind, heading, layout, branches, span⟩ := directive
  rw [Directive.resolve]
  obtain ⟨result, middle⟩ := Directive.choose answer _ trail
  cases result with
  | error error => rfl
  | ok branch =>
    dsimp only [andThen, resolveLaid]
    cases branch with
    | none =>
      dsimp only [Directive.contentOf]
      rw [resolveNodes]
      dsimp only [Except.map]
      rw [Directive.finish_empty]
    | some index =>
      dsimp only [Directive.contentOf]
      rw [resolveAt_eq]
      obtain ⟨text | text, after⟩ := resolveNodes answer (contentAt branches index) middle
      · rfl
      · rfl

/-- The choice that a directive makes, if it makes one. -/
def Directive.choices (directive : Directive) (trail : Trail) : List Showing :=
  shownAfter (directive.choose answer trail) (fun branch _ => [⟨directive, branch⟩])

/-- What a directive shows is its choice and what the content shows that it leads to. -/
theorem Directive.showings_eq (directive : Directive) (trail : Trail) :
    directive.showings answer trail = directive.choices answer trail ++
      shownAfter (directive.choose answer trail)
        (fun branch => showingsOfNodes answer (directive.contentOf branch)) := by
  obtain ⟨identity, kind, heading, layout, branches, span⟩ := directive
  rw [Directive.showings, Directive.choices]
  obtain ⟨result, middle⟩ := Directive.choose answer _ trail
  cases result with
  | error error => rfl
  | ok branch =>
    cases branch with
    | none => rfl
    | some index =>
      dsimp only [shownAfter, Directive.contentOf]
      rw [showingsAt_eq]
      rfl

end

/-! ### The directives that a choice leads to -/

theorem Directive.sublist_contentOf (directive : Directive) (branch : Option Nat)
    (rest : List Node) :
    (directive :: (directivesOfNodes (directive.contentOf branch) ++
      directivesOfNodes rest)).Sublist (directivesOfNodes (.directive directive :: rest)) := by
  have inner : (directivesOfNodes (directive.contentOf branch)).Sublist
      (directivesOfBranches directive.branches) := by
    cases branch with
    | none => exact List.nil_sublist _
    | some index => exact sublist_contentAt directive.branches index
  obtain ⟨identity, kind, heading, layout, branches, span⟩ := directive
  rw [directivesOfNodes, Node.directives, Directive.directives, List.cons_append]
  exact (inner.append (List.Sublist.refl _)).cons_cons _

/-- What a resolution shows is among its directives, however far it comes. -/
theorem mem_of_showingsOfNodes (answer : String → Except String Bool) (nodes : List Node)
    (trail : Trail) {showing : Showing} (shown : showing ∈ showingsOfNodes answer nodes trail) :
    showing.directive ∈ directivesOfNodes nodes := by
  induction nodes using nodes_induction generalizing trail with
  | nil => cases shown
  | text content rest ih => exact ih trail shown
  | directive directive rest inner ih =>
    rw [showingsOfNodes_cons, Node.showings, Directive.showings_eq, Node.resolve] at shown
    rcases List.mem_append.1 shown with here | behind
    · rcases List.mem_append.1 here with choice | content
      · obtain ⟨branch, middle, -, same⟩ := mem_shownAfter choice
        rw [List.mem_singleton.1 same]
        exact (directive.sublist_contentOf branch rest).subset List.mem_cons_self
      · obtain ⟨branch, middle, -, within⟩ := mem_shownAfter content
        exact (directive.sublist_contentOf branch rest).subset
          (List.mem_cons_of_mem _ (List.mem_append_left _ (inner branch middle within)))
    · obtain ⟨text, after, -, later⟩ := mem_shownAfter behind
      exact List.mem_append_right _ (ih after later)

theorem Directive.mem_of_showings {answer : String → Except String Bool} {directive : Directive}
    {trail : Trail} {showing : Showing} (shown : showing ∈ directive.showings answer trail) :
    showing.directive ∈ directive.directives := by
  have inside := mem_of_showingsOfNodes answer [.directive directive] trail
    (List.mem_append_left _ shown)
  rwa [directivesOfNodes, Node.directives, directivesOfNodes, List.append_nil] at inside

/-! ### Resolutions on related trails -/

/-- Two steps end with the same result and on related trails. -/
structure Related {α : Type} (relation : Trail → Trail → Prop)
    (one other : Except ResolutionError α × Trail) : Prop where
  result : other.1 = one.1
  trails : relation one.2 other.2

theorem Related.andThen {α β : Type} {relation : Trail → Trail → Prop}
    {one other : Except ResolutionError α × Trail}
    {next : α → Trail → Except ResolutionError β × Trail} (related : Related relation one other)
    (behind : ∀ value first second, relation first second →
      Related relation (next value first) (next value second)) :
    Related relation (Narrative.andThen one next) (Narrative.andThen other next) := by
  obtain ⟨result, middle⟩ := one
  obtain ⟨otherResult, otherMiddle⟩ := other
  obtain rfl : otherResult = result := related.result
  cases otherResult with
  | error error => exact ⟨rfl, related.trails⟩
  | ok value => exact behind value middle otherMiddle related.trails

/-- Nodes resolve alike on related trails if their directives choose alike on them. -/
theorem resolveNodes_related (relation : Trail → Trail → Prop)
    (answer : String → Except String Bool) (nodes : List Node)
    (chooses : ∀ directive ∈ directivesOfNodes nodes, ∀ first second, relation first second →
      Related relation (directive.choose answer first) (directive.choose answer second))
    {first second : Trail} (related : relation first second) :
    Related relation (resolveNodes answer nodes first) (resolveNodes answer nodes second) := by
  have laid {nodes : List Node} (lay : String → String) {first second : Trail}
      (inner : Related relation (resolveNodes answer nodes first)
        (resolveNodes answer nodes second)) :
      Related relation (resolveLaid answer lay nodes first)
        (resolveLaid answer lay nodes second) :=
    ⟨congrArg (Except.map lay) inner.result, inner.trails⟩
  induction nodes using nodes_induction generalizing first second with
  | nil => exact ⟨rfl, related⟩
  | text content rest ih =>
    rw [resolveNodes_cons, resolveNodes_cons]
    exact laid _ (ih chooses related)
  | directive directive rest inner ih =>
    have part (branch : Option Nat) := (directive.sublist_contentOf branch rest).subset
    rw [resolveNodes_cons, resolveNodes_cons, Node.resolve, Node.resolve, Directive.resolve_eq,
      Directive.resolve_eq]
    have choice := chooses directive (part none List.mem_cons_self) first second related
    refine (choice.andThen (fun branch middle otherMiddle related => ?content)).andThen
      (fun text middle otherMiddle related => ?behind)
    case content =>
      refine laid directive.finish (inner branch (fun inside member => ?_) related)
      exact chooses inside (part branch (List.mem_cons_of_mem _ (List.mem_append_left _ member)))
    case behind =>
      refine laid _ (ih (fun inside member => ?_) related)
      exact chooses inside (part none (List.mem_cons_of_mem _ (List.mem_append_right _ member)))

/-- What every choice keeps is kept by a resolution, whether it succeeds or fails. -/
theorem resolveNodes_keeps (holds : Trail → Prop) (answer : String → Except String Bool)
    (nodes : List Node)
    (keeps : ∀ directive ∈ directivesOfNodes nodes, ∀ trail, holds trail →
      holds (directive.choose answer trail).2)
    {trail : Trail} (start : holds trail) : holds (resolveNodes answer nodes trail).2 := by
  refine (resolveNodes_related (fun first second => second = first ∧ holds second)
    answer nodes (fun directive member first second related => ?_) ⟨rfl, start⟩).trails.2
  obtain ⟨rfl, held⟩ := related
  exact ⟨rfl, rfl, keeps directive member second held⟩

end Narrative
