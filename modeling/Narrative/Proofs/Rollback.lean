import Narrative.Proofs.Choices
import Narrative.Session

/-!
A visit that fails leaves no progress behind. Resolution changes progress at the identities of the
directives it comes to only, so putting back those of the whole document gives the store from
before, whichever of them the visit had come to.
-/

set_option autoImplicit false

namespace Narrative

namespace Store

variable {identities : List String} {first second third : Store}

/-- Two stores keep the same progress except at the given identities. -/
def AgreeOutside (identities : List String) (first second : Store) : Prop :=
  ∀ identity, identity ∉ identities → second.get? identity = first.get? identity

theorem AgreeOutside.refl (identities : List String) (store : Store) :
    AgreeOutside identities store store := fun _ _ => rfl

theorem AgreeOutside.trans (before : AgreeOutside identities first second)
    (after : AgreeOutside identities second third) : AgreeOutside identities first third := by
  intro identity outside
  rw [after identity outside, before identity outside]

theorem agreeOutside_insert (store : Store) {identity : String} (member : identity ∈ identities)
    (progress : Progress) : AgreeOutside identities store (store.insert identity progress) := by
  intro asked outside
  have different : asked ≠ identity := by
    rintro rfl
    exact outside member
  exact KeyMap.get?_insert_ne store different progress

/-- Putting back one identity changes nothing else. -/
theorem get?_putBack (earlier : Store) (identities : List String) (store : Store)
    (asked : String) :
    (putBack earlier identities store).get? asked =
      if asked ∈ identities then earlier.get? asked else store.get? asked := by
  induction identities generalizing store with
  | nil => simp [putBack]
  | cons identity rest ih =>
    rw [putBack, ih]
    by_cases later : asked ∈ rest
    · rw [if_pos later, if_pos (List.mem_cons_of_mem identity later)]
    · rw [if_neg later]
      by_cases here : asked = identity
      · subst here
        rw [if_pos List.mem_cons_self]
        cases found : earlier.get? asked with
        | none => exact KeyMap.get?_erase_self store asked
        | some progress => exact KeyMap.get?_insert_self store asked progress
      · have outside : asked ∉ identity :: rest := by simp [here, later]
        rw [if_neg outside]
        cases found : earlier.get? identity with
        | none => exact KeyMap.get?_erase_ne store here
        | some progress => exact KeyMap.get?_insert_ne store here progress

/-- Putting back all identities at which a store may differ gives the earlier store. -/
theorem putBack_of_agreeOutside (agree : AgreeOutside identities first second) :
    putBack first identities second = first := by
  apply KeyMap.eq_of_get?_eq
  intro asked
  rw [get?_putBack]
  by_cases inside : asked ∈ identities
  · rw [if_pos inside]
  · rw [if_neg inside]
    exact agree asked inside

end Store

/-! ### Where resolution changes progress -/

open Store (AgreeOutside)

section

variable (answer : String → Except String Bool) {identities : List String}

theorem Directive.agreeOutside_chooseListed (directive : Directive) (kind : Discipline)
    (trail : Trail) (covers : directive.identity ∈ identities) :
    AgreeOutside identities trail.store (directive.chooseListed answer kind trail).2.store := by
  unfold Directive.chooseListed
  split
  · exact AgreeOutside.refl identities trail.store
  · dsimp only
    split
    · exact AgreeOutside.refl identities trail.store
    · exact Store.agreeOutside_insert trail.store covers _

/-- A directive chooses with its own progress. -/
theorem Directive.agreeOutside_choose (directive : Directive) (trail : Trail)
    (covers : directive.identity ∈ identities) :
    AgreeOutside identities trail.store (directive.choose answer trail).2.store := by
  unfold Directive.choose
  split
  · exact AgreeOutside.refl identities trail.store
  · split
    · exact AgreeOutside.refl identities trail.store
    · exact directive.agreeOutside_chooseListed answer _ trail covers

/-- Resolving nodes changes progress only at the identities of directives among and in them. -/
theorem agreeOutside_resolveNodes (nodes : List Node) (trail : Trail)
    (covers : ∀ inside ∈ directivesOfNodes nodes, inside.identity ∈ identities) :
    AgreeOutside identities trail.store (resolveNodes answer nodes trail).2.store := by
  refine resolveNodes_keeps (fun after => AgreeOutside identities trail.store after.store) answer
    nodes (fun directive member after agree => ?_) (AgreeOutside.refl identities trail.store)
  exact agree.trans (directive.agreeOutside_choose answer after (covers directive member))

theorem Directive.agreeOutside_resolve (directive : Directive) (trail : Trail)
    (covers : ∀ inside ∈ directive.directives, inside.identity ∈ identities) :
    AgreeOutside identities trail.store (directive.resolve answer trail).2.store := by
  have alone := agreeOutside_resolveNodes answer [.directive directive] trail (fun inside member =>
    covers inside (by
      rwa [directivesOfNodes, Node.directives, directivesOfNodes, List.append_nil] at member))
  rw [resolveNodes_cons, Node.resolve] at alone
  cases resolved : directive.resolve answer trail with
  | mk result after =>
    rw [resolved] at alone
    cases result <;> exact alone

end

/-! ### Failed visits -/

namespace Session

variable {session after : Session} {document : Document} {bindings : Bindings}
  {error : ResolutionError}

/-- A resolution that fails leaves everything of the session but its random source as it was. -/
theorem store_of_resolve_error
    (failed : session.resolve document bindings = (.error error, after)) :
    after.store = session.store ∧
      after = { session with trail := { session.trail with source := after.trail.source } } := by
  have agree : AgreeOutside (document.directives.map Directive.identity) session.trail.store
      (resolveNodes (session.evaluator bindings) document.nodes session.trail).2.store :=
    agreeOutside_resolveNodes _ document.nodes session.trail
      (fun _ member => List.mem_map_of_mem member)
  unfold resolve at failed
  split at failed
  · cases failed
  · next reason trail resolved =>
    rw [resolved] at agree
    have back := Store.putBack_of_agreeOutside agree
    cases failed
    refine ⟨back, ?_⟩
    simp [store, back]

/-- Two visits of one list, one of a list without progress, and a guard. -/
def repeatedDocument : Document :=
  let list (identity : String) : Node :=
    .directive ⟨identity, .list .cycle, .none, .inline,
      [⟨none, [.text "a"], ⟨.start, .start⟩⟩, ⟨none, [.text "b"], ⟨.start, .start⟩⟩],
      ⟨.start, .start⟩⟩
  ⟨"d", [list "x", list "x", list "y",
    .directive ⟨"z", .conditional, .condition ⟨"g", ⟨.start, .start⟩⟩, .inline,
      [⟨none, [], ⟨.start, .start⟩⟩], ⟨.start, .start⟩⟩]⟩

/-- A session in which no guard has an answer and the list of `repeatedDocument` has progress. -/
def answerless : Session :=
  (withSource {} (fun _ _ => .error "unknown") (.cyclic [])).withStore
    (KeyMap.empty.insert "x" ⟨5, none, none⟩)

theorem store_of_resolve_error_repeated :
    ∃ error after, answerless.resolve repeatedDocument .empty = (.error error, after) ∧
      after.store = answerless.store ∧
      (resolveNodes (answerless.evaluator .empty) repeatedDocument.nodes
        answerless.trail).2.store ≠ answerless.store := by
  have fails : (answerless.resolve repeatedDocument .empty).1.toOption = none := by
    decide +kernel
  have advances : (resolveNodes (answerless.evaluator .empty) repeatedDocument.nodes
      answerless.trail).2.store.get? "x" ≠ answerless.store.get? "x" := by decide +kernel
  cases failed : answerless.resolve repeatedDocument .empty with
  | mk result after =>
    cases result with
    | ok text =>
      rw [failed] at fails
      cases fails
    | error error =>
      refine ⟨error, after, rfl, (store_of_resolve_error failed).1, ?_⟩
      intro same
      exact advances (congrArg (fun store => store.get? "x") same)

end Session

end Narrative
