import Narrative.Proofs.Changes

/-!
The life of a list. Visits keep the entry of a list and never lower its count, and a visit that
fails puts both back, so a list only goes forward from unvisited to active and on to exhausted. Once
it is exhausted it has been shown as often as it has branches, so that no visit finds another
eligible one to show, and its progress stays as it is.
-/

set_option autoImplicit false

namespace Narrative

/-- The place of a phase in the life of a list. -/
def Lifecycle.rank : Lifecycle → Nat
  | unvisited => 0
  | active => 1
  | exhausted => 2

namespace Store

/-- A list is exhausted if it shows each branch once and its count has come to their number. -/
theorem lifecycle_eq_exhausted_iff {store : Store} {directive : Directive} :
    store.lifecycle directive = .exhausted ↔ directive.kind = .list .once ∧
      ∃ progress, store.get? directive.identity = some progress ∧
        directive.branches.length ≤ progress.visits.toNat := by
  unfold lifecycle
  split
  · next missing =>
    rw [missing]
    simp
  · next found conditional => simp [conditional]
  · next progress kind found listed =>
    rw [found, listed]
    split
    · next ended => simp [ended.1, ended.2]
    · next going =>
      constructor
      · split <;> simp
      · rintro ⟨once, _, same, whole⟩
        cases same
        exact absurd ⟨Kind.list.inj once, whole⟩ going

/-- A store keeps the entry of an identity from before, with no lower count. -/
def Keeps (identity : String) (before after : Store) : Prop :=
  ∀ progress, before.get? identity = some progress →
    ∃ later, after.get? identity = some later ∧ progress.visits.toNat ≤ later.visits.toNat

variable {identity : String} {first second third : Store}

theorem keeps_of_get?_eq (same : second.get? identity = first.get? identity) :
    Keeps identity first second := by
  intro progress found
  exact ⟨progress, same.trans found, Nat.le_refl _⟩

theorem Keeps.trans (before : Keeps identity first second) (after : Keeps identity second third) :
    Keeps identity first third := by
  intro progress found
  obtain ⟨middle, kept, least⟩ := before progress found
  obtain ⟨later, last, more⟩ := after middle kept
  exact ⟨later, last, Nat.le_trans least more⟩

/-- With an entry that is kept, life only goes forward. -/
theorem Keeps.rank_lifecycle {directive : Directive}
    (keeps : Keeps directive.identity first second) :
    (first.lifecycle directive).rank ≤ (second.lifecycle directive).rank := by
  cases found : first.get? directive.identity with
  | none =>
    have unvisited : first.lifecycle directive = .unvisited := by rw [lifecycle, found]
    rw [unvisited]
    exact Nat.zero_le _
  | some progress =>
    obtain ⟨later, kept, more⟩ := keeps progress found
    cases sort : directive.kind with
    | conditional => exact Nat.le_of_eq (by rw [lifecycle, lifecycle, found, kept, sort])
    | list kind =>
      rw [lifecycle, lifecycle, found, kept, sort]
      dsimp only
      have counted : later.visits = 0 → progress.visits = 0 := by
        intro zero
        rw [zero] at more
        exact UInt32.toNat_inj.1 (Nat.le_zero.1 more)
      by_cases ended : kind = .once ∧ directive.branches.length ≤ progress.visits.toNat
      · have still : kind = .once ∧ directive.branches.length ≤ later.visits.toNat :=
          ⟨ended.1, Nat.le_trans ended.2 more⟩
        exact Nat.le_of_eq (by rw [if_pos ended, if_pos still])
      · rw [if_neg ended]
        by_cases fresh : progress.visits = 0
        · rw [if_pos fresh]
          exact Nat.zero_le _
        · rw [if_neg fresh, if_neg (fun zero => fresh (counted zero))]
          split
          · exact Nat.le_succ 1
          · exact Nat.le_refl 1

end Store

open Store (Keeps keeps_of_get?_eq)

section

variable {answer : String → Except String Bool} {trail after : Trail} {directive : Directive}

/-- A choice keeps every entry, and adds to the count of its own list at most. -/
theorem Directive.keeps_choose {branch : Option Nat}
    (chosen : directive.choose answer trail = (.ok branch, after)) (identity : String) :
    Keeps identity trail.store after.store := by
  by_cases idle : Showing.advances identity ⟨directive, branch⟩ = false
  · exact keeps_of_get?_eq (Directive.get?_choose chosen idle)
  · simp only [Showing.advances, Bool.not_eq_false, Bool.and_eq_true, beq_iff_eq, bne_iff_ne,
      ne_eq] at idle
    obtain ⟨⟨rfl, list⟩, shows⟩ := idle
    obtain ⟨index, rfl⟩ := Option.isSome_iff_exists.1 shows
    cases sort : directive.kind with
    | conditional => exact absurd sort list
    | list kind =>
      obtain ⟨later, kept, advanced⟩ := Directive.advanced_choose sort chosen
      intro progress found
      have bound := progress.visits.toNat_lt
      have visits := advanced.visits
      rw [Store.progress, found, Option.getD_some] at visits
      exact ⟨later, kept, by omega⟩

theorem Chain.keeps {showings : List Showing} (chain : Chain answer trail showings after)
    (identity : String) : Keeps identity trail.store after.store := by
  induction chain with
  | nil trail => exact keeps_of_get?_eq rfl
  | cons chosen others ih => exact (Directive.keeps_choose chosen identity).trans ih

/-- No more branches are eligible than there are. -/
theorem Directive.length_eligible_le (answer : String → Except String Bool)
    (directive : Directive) : (directive.eligible answer).length ≤ directive.branches.length := by
  rw [eligible, List.length_map]
  have part := List.length_filter_le (fun entry => entry.1.passes answer) directive.branches.zipIdx
  rwa [List.length_zipIdx] at part

end

namespace Session

variable {session next : Session} {document : Document} {directive : Directive}

/-- A visit keeps every entry, whether it succeeds or fails. -/
theorem keeps_resolve (session : Session) (document : Document) (bindings : Bindings)
    (identity : String) :
    Keeps identity session.store (session.resolve document bindings).2.store := by
  cases result : session.resolve document bindings with
  | mk outcome next =>
    cases outcome with
    | error error =>
      apply keeps_of_get?_eq
      rw [store_of_failed result]
    | ok text =>
      obtain ⟨plain, shows, -⟩ := shows_of_resolve result
      exact shows.chain.keeps identity

theorem keeps_visitAll (session : Session) (document : Document) (calls : List Bindings)
    (identity : String) : Keeps identity session.store (session.visitAll document calls).store := by
  induction calls generalizing session with
  | nil => exact keeps_of_get?_eq rfl
  | cons bindings rest ih =>
    exact (session.keeps_resolve document bindings identity).trans (ih _)

/-- A visit that reaches an exhausted list shows none of its branches, and leaves its progress. -/
theorem silent_of_exhausted (distinct : (document.directives.map Directive.identity).Nodup)
    (member : directive ∈ document.directives)
    (exhausted : session.store.lifecycle directive = .exhausted) {bindings : Bindings}
    {text : String} (visited : session.resolve document bindings = (.ok text, next)) :
    (Reached (session.shown document bindings) document.nodes directive →
      session.shown document bindings directive.identity = none) ∧
    next.store.get? directive.identity = session.store.get? directive.identity := by
  obtain ⟨plain, shows, -⟩ := shows_of_resolve visited
  have changes := shows.visited distinct
  obtain ⟨once, progress, found, whole⟩ := Store.lifecycle_eq_exhausted_iff.1 exhausted
  have ended : (directive.eligible (session.evaluator bindings)).length ≤
      session.store.visits directive.identity := by
    rw [Store.visits, Store.progress, found]
    exact Nat.le_trans (directive.length_eligible_le _) whole
  have silent (reached : Reached (session.shown document bindings) document.nodes directive) :
      session.shown document bindings directive.identity = none :=
    (changes.prescribed directive reached).eq_none_of_exhausted once ended
  refine ⟨silent, changes.kept directive.identity (fun other kind reached listed same => ?_)⟩
  have equal : other = directive :=
    List.inj_on_of_nodup_map distinct (shows.mem_directives distinct reached) member same
  subst equal
  exact silent reached

/-- An exhausted list stays as it is. -/
theorem get?_visitAll_of_exhausted (distinct : (document.directives.map Directive.identity).Nodup)
    (member : directive ∈ document.directives)
    (exhausted : session.store.lifecycle directive = .exhausted) (calls : List Bindings) :
    (session.visitAll document calls).store.get? directive.identity =
      session.store.get? directive.identity := by
  induction calls generalizing session with
  | nil => rfl
  | cons bindings rest ih =>
    have same : (session.resolve document bindings).2.store.get? directive.identity =
        session.store.get? directive.identity := by
      cases result : session.resolve document bindings with
      | mk outcome next =>
        cases outcome with
        | error error => rw [store_of_failed result]
        | ok text => exact (silent_of_exhausted distinct member exhausted result).2
    have still : (session.resolve document bindings).2.store.lifecycle directive = .exhausted := by
      rw [Store.lifecycle_eq_exhausted_iff] at exhausted ⊢
      rwa [same]
    rw [visitAll, ih still, same]

/-- Over any visits of a document, of which some may fail, a list goes forward in its life at most.
Once it is exhausted, its progress does not change, and every visit that succeeds and reaches it
shows nothing in its place. Only lists that show each branch once are ever exhausted, and a
conditional counts as unvisited. -/
theorem lifecycle_visitAll (distinct : (document.directives.map Directive.identity).Nodup)
    (member : directive ∈ document.directives) (session : Session) (calls : List Bindings) :
    let later := session.visitAll document calls
    (session.store.lifecycle directive).rank ≤ (later.store.lifecycle directive).rank ∧
    (session.store.lifecycle directive = .exhausted →
      later.store.lifecycle directive = .exhausted ∧
      later.store.get? directive.identity = session.store.get? directive.identity ∧
      ∀ bindings text next, later.resolve document bindings = (.ok text, next) →
        next.store.get? directive.identity = session.store.get? directive.identity ∧
        (Reached (later.shown document bindings) document.nodes directive →
          text = later.localize .afterCompose
            (composeNodes (later.shown document bindings) document.nodes) ∧
          directive.compose (later.shown document bindings) = "")) ∧
    (directive.kind ≠ .list .once → later.store.lifecycle directive ≠ .exhausted) ∧
    (directive.kind = .conditional → later.store.lifecycle directive = .unvisited) := by
  intro later
  refine ⟨(session.keeps_visitAll document calls _).rank_lifecycle, ?_, ?_, ?_⟩
  · intro exhausted
    have same := get?_visitAll_of_exhausted distinct member exhausted calls
    have still : later.store.lifecycle directive = .exhausted := by
      rw [Store.lifecycle_eq_exhausted_iff] at exhausted ⊢
      rwa [same]
    refine ⟨still, same, fun bindings text next visited => ?_⟩
    obtain ⟨silent, kept⟩ := silent_of_exhausted distinct member still visited
    refine ⟨kept.trans same, fun reached => ?_⟩
    obtain ⟨plain, shows, composed⟩ := shows_of_resolve visited
    have tells : ∀ showing ∈ later.showings document bindings,
        later.shown document bindings showing.directive.identity = showing.branch :=
      fun _ found => branchShown_of_mem (shows.distinct distinct) found
    refine ⟨composed.trans (congrArg _ (shows.text_eq tells)), ?_⟩
    rw [Directive.compose_eq, silent reached]
  · intro other exhausted
    exact other (Store.lifecycle_eq_exhausted_iff.1 exhausted).1
  · intro conditional
    rw [Store.lifecycle, conditional]
    split
    · rfl
    · rfl
    · next impossible => cases impossible

/-- A list that shows each branch once, the first of them under a guard. -/
def cellarOnce : Directive :=
  ⟨"o", .list .once, .discipline .once, .inline,
    [⟨some ⟨"lit", default⟩, [.text "torch"], default⟩, ⟨none, [.text "dust"], default⟩], default⟩

/-- The list stands before a condition that may have no answer. -/
def cellarDocument : Document :=
  ⟨"cellar", [.directive cellarOnce, .text " ",
    .directive ⟨"g", .conditional, .condition ⟨"ghost", default⟩, .inline,
      [⟨none, [.text "boo"], default⟩], default⟩]⟩

/-- Two visits that show a branch, with one between them that fails. -/
def cellarCalls : List Bindings :=
  [lanternBindings true (some false), lanternBindings true none, lanternBindings true (some false)]

theorem lifecycle_visitAll_cellar :
    let session := lanternSession.visitAll cellarDocument cellarCalls
    let later := session.visitAll cellarDocument [lanternBindings true none]
    (cellarDocument.directives.map Directive.identity).Nodup ∧
    (lanternSession.visitAll cellarDocument (cellarCalls.take 2)).store.lifecycle cellarOnce =
      .active ∧
    session.store.lifecycle cellarOnce = .exhausted ∧
    later.store.lifecycle cellarOnce = .exhausted ∧
    ∃ next, later.resolve cellarDocument (lanternBindings true (some true)) =
        (.ok " boo", next) ∧
      next.store.get? "o" = session.store.get? "o" ∧
      cellarOnce.compose (later.shown cellarDocument (lanternBindings true (some true))) = "" := by
  intro session later
  have distinct : (cellarDocument.directives.map Directive.identity).Nodup := by decide +kernel
  have exhausted : session.store.lifecycle cellarOnce = .exhausted := by decide +kernel
  have member : cellarOnce ∈ cellarDocument.directives := List.mem_cons_self
  obtain ⟨-, ended, -⟩ :=
    lifecycle_visitAll distinct member session [lanternBindings true none]
  obtain ⟨still, -, silent⟩ := ended exhausted
  have succeeds : (later.resolve cellarDocument (lanternBindings true (some true))).1.toOption =
      some " boo" := by decide +kernel
  refine ⟨distinct, by decide +kernel, exhausted, still, ?_⟩
  cases visited : later.resolve cellarDocument (lanternBindings true (some true)) with
  | mk outcome next =>
    cases outcome with
    | error error =>
      rw [visited] at succeeds
      cases succeeds
    | ok text =>
      rw [visited] at succeeds
      cases succeeds
      obtain ⟨kept, shows⟩ := silent _ _ next visited
      exact ⟨next, rfl, kept, (shows (.top List.mem_cons_self)).2⟩

end Session

end Narrative
