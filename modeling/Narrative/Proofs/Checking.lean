import Narrative.Proofs.Choices
import Narrative.Proofs.Renderings
import Narrative.Proofs.Respelling

/-!
Checked files. A check looks at every directive of a document at once, a visit at those alone that
it comes to, and both refuse a directive for the same rules. Main statement: a check succeeds just
for a source that is read and keeps the rules, no visit of a document that was checked ends with a
broken rule, and what is read can break two of the rules only.
-/

set_option autoImplicit false

namespace Narrative

/-- Every directive of a document keeps the rules. -/
def Document.Sound (document : Document) : Prop :=
  ∀ directive ∈ document.directives, directive.problem? = none

/-- How a conditional that was read may break a rule: it has three branches or more, or it is a
block with a guard before one of its branches. -/
inductive Directive.Breaks (directive : Directive) : Violation → Prop
  | crowded (conditional : directive.kind = .conditional) (many : 3 ≤ directive.branches.length) :
    Breaks directive (.conditionalArity directive.branches.length)
  | guarded (conditional : directive.kind = .conditional) (few : directive.branches.length ≤ 2)
    (block : directive.layout = .multiLine) {branch : Branch}
    (member : branch ∈ directive.branches) (guarded : branch.guard.isSome = true) :
    Breaks directive .guardedConditionalBranch

/-! ### Visits -/

section

variable {answer : String → Except String Bool} {trail after : Trail} {error : DefinitionError}

/-- A choice that ends with a broken rule is made by the directive that breaks it. -/
theorem Directive.problem_of_choose {directive : Directive}
    (failed : directive.choose answer trail = (.error (.definition error), after)) :
    directive.problem? = some error := by
  unfold Directive.choose at failed
  split at failed
  · next problem found =>
    cases failed
    exact found
  · -- Later only a guard can fail.
    split at failed
    · cases chosen : directive.chooseConditional answer with
      | error reason =>
        rw [chosen] at failed
        cases failed
      | ok branch =>
        rw [chosen] at failed
        cases failed
    · next kind listed =>
      cases chosen : directive.chooseListed answer kind trail with
      | mk result middle =>
        rw [chosen] at failed
        cases result with
        | error reason => cases failed
        | ok branch => cases failed

/-- A visit that ends with a broken rule has come to a directive that breaks it. -/
theorem exists_problem_of_resolveNodes (nodes : List Node) (trail : Trail)
    (failed : resolveNodes answer nodes trail = (.error (.definition error), after)) :
    ∃ directive ∈ directivesOfNodes nodes, directive.problem? = some error := by
  induction nodes using nodes_induction generalizing trail with
  | nil => cases failed
  | text content rest ih =>
    rw [resolveNodes_cons] at failed
    rcases andThen_error failed with first | ⟨text, middle, first, others⟩
    · cases first
    · exact ih middle (resolveLaid_error others)
  | directive directive rest inner ih =>
    rw [resolveNodes_cons] at failed
    rcases andThen_error failed with first | ⟨text, middle, -, others⟩
    · rw [Node.resolve, Directive.resolve_eq] at first
      rcases andThen_error first with chosen | ⟨branch, middle, -, content⟩
      · have here := (directive.sublist_contentOf none rest).subset List.mem_cons_self
        exact ⟨directive, here, Directive.problem_of_choose chosen⟩
      · obtain ⟨broken, member, problem⟩ := inner branch middle (resolveLaid_error content)
        have inside : broken ∈ directive :: (directivesOfNodes (directive.contentOf branch) ++
            directivesOfNodes rest) := by simp [member]
        exact ⟨broken, (directive.sublist_contentOf branch rest).subset inside, problem⟩
    · obtain ⟨broken, member, problem⟩ := ih middle (resolveLaid_error others)
      refine ⟨broken, ?_, problem⟩
      rw [directivesOfNodes]
      exact List.mem_append_right _ member

/-- No visit of a document that keeps the rules ends with a broken one. -/
theorem Document.Sound.resolve_ne {document : Document} (sound : document.Sound)
    (session : Session) (bindings : Bindings) (error : DefinitionError) :
    (session.resolve document bindings).1 ≠ .error (.definition error) := by
  intro failed
  unfold Session.resolve at failed
  split at failed
  · cases failed
  · next reason trail resolved =>
    cases failed
    obtain ⟨broken, member, problem⟩ :=
      exists_problem_of_resolveNodes document.nodes session.trail resolved
    have kept := sound broken member
    rw [problem] at kept
    cases kept

end

/-! ### Checks -/

theorem Document.diagnostics_eq_nil_iff (document : Document) :
    document.diagnostics = [] ↔ document.Sound := by
  simp [Document.diagnostics, Document.Sound, List.filterMap_eq_nil_iff]

namespace Action

variable {view : FileView} {file : String}

theorem code_checkDocument (file source : String) (document : Document) :
    (checkDocument file source document).code = 0 ↔ document.Sound := by
  rw [← Document.diagnostics_eq_nil_iff]
  by_cases clean : document.diagnostics = []
  · simp only [checkDocument, clean, List.isEmpty_nil, Bool.not_true, Bool.false_eq_true, if_false]
    split <;> simp [Outcome.success]
  · simp [checkDocument, clean, Outcome.failure]

/-- A check succeeds if the file is read and the document in it keeps the rules. -/
theorem code_check : ((check file).run view).code = 0 ↔
    ∃ document, Reads view file document ∧ document.Sound := by
  constructor
  · intro checked
    change (withDocument view file (checkDocument file)).code = 0 at checked
    unfold withDocument at checked
    split at checked
    · cases checked
    · next source read =>
      split at checked
      · cases checked
      · next document parsed =>
        exact ⟨document, ⟨source, read, parsed⟩, (code_checkDocument _ _ _).1 checked⟩
  · rintro ⟨document, reads, sound⟩
    obtain ⟨source, same⟩ := withDocument_of_reads reads (checkDocument file)
    change (withDocument view file (checkDocument file)).code = 0
    rw [same]
    exact (code_checkDocument _ _ _).2 sound

/-- A file holds one document. -/
theorem Reads.unique {first second : Document} (reads : Reads view file first)
    (again : Reads view file second) : first = second := by
  obtain ⟨source, read, parsed⟩ := reads
  obtain ⟨other, found, same⟩ := again
  rw [read] at found
  cases found
  rw [parsed] at same
  exact Except.ok.inj same

end Action

/-! ### Broken rules -/

theorem unguarded_of_canonicalArguments {branches : List Branch}
    (canonical : canonicalArguments branches) : ∀ branch ∈ branches, branch.guard = none := by
  induction branches with
  | nil => simp
  | cons branch rest ih =>
    obtain ⟨guard, content, span⟩ := branch
    obtain ⟨none, -, others⟩ := canonical
    intro other member
    rcases List.mem_cons.1 member with rfl | member
    · exact none
    · exact ih others other member

/-- What can be written down has branches, and no guards before them on one line. -/
theorem Directive.Canonical.branches {directive : Directive} (canonical : directive.Canonical) :
    directive.branches ≠ [] ∧
      (directive.layout = .inline → ∀ branch ∈ directive.branches, branch.guard = none) := by
  obtain ⟨identity, kind, heading, _ | _, branches, span⟩ := directive
  · exact ⟨canonical.1.1, fun _ => unguarded_of_canonicalArguments canonical.2.2⟩
  · exact ⟨canonical.1.1, nofun⟩

theorem Directive.violation?_conditional {directive : Directive}
    (conditional : directive.kind = .conditional) :
    directive.violation? =
      if directive.branches.length < 1 ∨ 2 < directive.branches.length then
        some (.conditionalArity directive.branches.length)
      else if directive.branches.any (fun branch => branch.guard.isSome) then
        some .guardedConditionalBranch
      else none := by
  rw [Directive.violation?, conditional]

theorem Directive.violation?_list {directive : Directive} {kind : Discipline}
    (listed : directive.kind = .list kind) :
    directive.violation? = if directive.branches.length = 0 then some .emptyList else none := by
  rw [Directive.violation?, listed]

/-- Without branches a directive breaks the rule on their number, and without branches alone. -/
theorem Directive.branches_eq_nil_iff (directive : Directive) :
    directive.branches = [] ↔
      directive.violation? = some .emptyList ∨
        directive.violation? = some (.conditionalArity 0) := by
  rw [← List.length_eq_zero_iff]
  cases sort : directive.kind with
  | conditional =>
    rw [Directive.violation?_conditional sort]
    by_cases count : directive.branches.length < 1 ∨ 2 < directive.branches.length
    · rw [if_pos count]
      simp
    · rw [if_neg count]
      have filled : directive.branches.length ≠ 0 := by omega
      split <;> simp [filled]
  | list kind =>
    rw [Directive.violation?_list sort]
    by_cases none : directive.branches.length = 0 <;> simp [none]

/-- What can be written down breaks a rule only as a conditional. -/
theorem Directive.Canonical.violation?_eq_some_iff {directive : Directive}
    (canonical : directive.Canonical) (violation : Violation) :
    directive.violation? = some violation ↔ directive.Breaks violation := by
  obtain ⟨nonempty, unguarded⟩ := canonical.branches
  have positive := List.length_pos_of_ne_nil nonempty
  constructor
  · intro broken
    cases sort : directive.kind with
    | conditional =>
      rw [Directive.violation?_conditional sort] at broken
      by_cases count : directive.branches.length < 1 ∨ 2 < directive.branches.length
      · rw [if_pos count] at broken
        cases broken
        apply Directive.Breaks.crowded sort
        omega
      · rw [if_neg count] at broken
        split at broken
        · next guards =>
          cases broken
          obtain ⟨branch, member, guarded⟩ := List.any_eq_true.1 guards
          apply Directive.Breaks.guarded sort (by omega) _ member guarded
          cases layout : directive.layout with
          | inline => simp [unguarded layout branch member] at guarded
          | multiLine => rfl
        · cases broken
    | list kind =>
      rw [Directive.violation?_list sort, if_neg (by omega)] at broken
      cases broken
  · intro breaks
    cases breaks with
    | crowded conditional many =>
      rw [Directive.violation?_conditional conditional]
      apply if_pos
      omega
    | guarded conditional few block member guarded =>
      rw [Directive.violation?_conditional conditional, if_neg (by omega)]
      exact if_pos (List.any_eq_true.2 ⟨_, member, guarded⟩)

/-- Every directive of a parsed document can be written down. -/
theorem Document.canonical_of_mem {options : ParseOptions} {source : String} {document : Document}
    (parsed : Document.parse options source = .ok document) {directive : Directive}
    (member : directive ∈ document.directives) : directive.Canonical := by
  obtain ⟨front, value, back, -, legible, rfl⟩ := Document.placed_of_mem parsed member
  exact value.canonical_place _ legible _

/-- A check succeeds exactly if the file is read and every directive keeps the rules, and then no
visit of the document ends with a broken rule, whatever the session has gone through. What is read
breaks only the rules for conditionals, and never has a directive without branches. -/
theorem Action.check_settles (view : FileView) (file : String) :
    (((check file).run view).code = 0 ↔
      ∃ document, Reads view file document ∧
        ∀ directive ∈ document.directives, directive.problem? = none) ∧
    (((check file).run view).code = 0 → ∀ document, Reads view file document →
      ∀ (session : Session) bindings error,
        (session.resolve document bindings).1 ≠ .error (.definition error)) ∧
    (∀ options source document, Document.parse options source = .ok document →
      ∀ directive ∈ document.directives,
        (∀ violation, directive.violation? = some violation ↔ directive.Breaks violation) ∧
        directive.violation? ≠ some .emptyList ∧
        directive.violation? ≠ some (.conditionalArity 0)) ∧
    ∀ directive : Directive, directive.branches = [] ↔
      directive.violation? = some .emptyList ∨
        directive.violation? = some (.conditionalArity 0) := by
  refine ⟨code_check, ?_, ?_, Directive.branches_eq_nil_iff⟩
  · intro checked document reads session bindings error
    obtain ⟨other, again, sound⟩ := code_check.1 checked
    rw [reads.unique again]
    exact sound.resolve_ne session bindings error
  · intro options source document parsed directive member
    have canonical := Document.canonical_of_mem parsed member
    have branches : ¬ directive.branches = [] := canonical.branches.1
    rw [directive.branches_eq_nil_iff, not_or] at branches
    exact ⟨canonical.violation?_eq_some_iff, branches⟩

/-- A conditional with a block of guarded entries in its second branch. -/
def checkedSource : String := "\x7bx: a|\x7b~\n- y: b\n- c\x7d\x7d"

/-- A block with a guard under a condition, and conditionals with too many branches, one of them
inside the other. -/
def unsoundSource : String := "\x7bx:\n-a\n-g: b\x7d\x7by: a|b|\x7bz: c|d|e|f\x7d\x7d"

theorem Action.check_settles_checkedSource :
    ((check "d").run (fun _ => .ok checkedSource)).code = 0 ∧
    (∃ document, Reads (fun _ => .ok checkedSource) "d" document ∧
      document.directives.length = 2 ∧
      ∀ (session : Session) bindings error,
        (session.resolve document bindings).1 ≠ .error (.definition error)) ∧
    ∃ document, Document.parse { document := "d" } unsoundSource = .ok document ∧
      document.directives.map Directive.violation? = [some .guardedConditionalBranch,
        some (.conditionalArity 3), some (.conditionalArity 4)] ∧
      ∀ directive ∈ document.directives, ∃ violation,
        directive.violation? = some violation ∧ directive.Breaks violation := by
  have reads : (Document.parse { document := documentName "d" } checkedSource).toOption.map
      (fun document => (document.directives.length,
        document.directives.map Directive.problem?)) = some (2, [none, none]) := by
    decide +kernel
  have breaks : (Document.parse { document := "d" } unsoundSource).toOption.map
      (fun document => document.directives.map Directive.violation?) =
        some [some .guardedConditionalBranch, some (.conditionalArity 3),
          some (.conditionalArity 4)] := by
    decide +kernel
  cases parsed : Document.parse { document := documentName "d" } checkedSource with
  | error error =>
    rw [parsed] at reads
    cases reads
  | ok document =>
    cases read : Document.parse { document := "d" } unsoundSource with
    | error error =>
      rw [read] at breaks
      cases breaks
    | ok broken =>
      rw [parsed] at reads
      rw [read] at breaks
      obtain ⟨count, problems⟩ := Prod.mk.inj (Option.some.inj reads)
      have violations : broken.directives.map Directive.violation? = _ := Option.some.inj breaks
      have file : Reads (fun _ => .ok checkedSource) "d" document := ⟨_, rfl, parsed⟩
      have sound : ∀ directive ∈ document.directives, directive.problem? = none := by
        intro directive member
        have found := List.mem_map_of_mem (f := Directive.problem?) member
        rw [problems] at found
        simpa using found
      obtain ⟨settled, visits, rules, -⟩ := check_settles (fun _ => .ok checkedSource) "d"
      have passes := settled.2 ⟨document, file, sound⟩
      refine ⟨passes, ⟨document, file, count, visits passes document file⟩, broken, rfl, violations,
        ?_⟩
      intro directive member
      cases found : directive.violation? with
      | none =>
        have listed := List.mem_map_of_mem (f := Directive.violation?) member
        rw [violations, found] at listed
        simp at listed
      | some violation =>
        exact ⟨violation, rfl, ((rules _ _ broken read directive member).1 violation).1 found⟩

end Narrative
