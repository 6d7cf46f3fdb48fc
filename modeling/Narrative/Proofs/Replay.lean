import Mathlib.Data.List.Permutation
import Narrative.Proofs.Choices
import Narrative.Proofs.Rounds
import Narrative.Proofs.Saving
import Narrative.Proofs.Visits

/-!
Two sessions that differ in their random sources. As long as shuffles go on with the orders that
they have, and none comes to the end of its order, the sessions give the same results and keep the
same progress. A shuffle that shows the last entry of its order still shows the same in both, and
only what it draws for its next round differs.
-/

set_option autoImplicit false

namespace Narrative

/-! ### Selections from two sources -/

/-- The entries of the order that are still to come: those from the cursor on. -/
def Progress.pending (progress : Progress) : List Nat :=
  (progress.order.getD []).drop (progress.cursor.getD 0)

namespace Selection

variable {progress : Progress} {eligible : List Nat}

/-- A shuffle with an eligible entry to come goes on with its order. -/
theorem exists_seek (found : ∃ entry ∈ eligible, entry ∈ progress.pending) :
    ∃ order cursor place, order = progress.order.getD [] ∧
      cursor = min (progress.cursor.getD 0) order.length ∧
      nextPlace? order eligible cursor = some place ∧
      ∀ source, seek order cursor eligible source = (order, cursor, place, source) := by
  obtain ⟨entry, member, coming⟩ := found
  have dropped : (progress.order.getD []).drop
      (min (progress.cursor.getD 0) (progress.order.getD []).length) = progress.pending :=
    List.drop_eq_drop_iff.2 (by omega)
  cases next : nextPlace? (progress.order.getD []) eligible
      (min (progress.cursor.getD 0) (progress.order.getD []).length) with
  | none =>
    have empty := held_eq_nil_iff.2 next
    rw [held, dropped, List.filter_eq_nil_iff] at empty
    exact absurd (List.contains_iff_mem.2 member) (empty entry coming)
  | some place =>
    refine ⟨_, _, place, rfl, rfl, next, fun source => ?_⟩
    rw [seek, next]

/-- The entry at the end of an order is the only one to come. -/
theorem pending_of_last {order : List Nat} {cursor place : Nat}
    (next : nextPlace? order eligible cursor = some place) (last : cursor + 1 = order.length) :
    ∃ entry, order.drop cursor = [entry] ∧
      ∀ other, (swapAt order cursor place).getD cursor other = entry := by
  obtain ⟨front, skipped, chosen, back, rfl, rfl, rfl, -, -⟩ := exists_skipped next
  simp only [List.length_append, List.length_cons] at last
  have none : skipped = [] := List.eq_nil_of_length_eq_zero (by omega)
  have end? : back = [] := List.eq_nil_of_length_eq_zero (by omega)
  subst none end?
  refine ⟨chosen, by simp, fun other => ?_⟩
  rw [List.length_nil, Nat.add_zero, swapAt_self]
  simp

end Selection

/-- If shuffles go on with their order, a selection does not depend on the source, and neither does
what it keeps unless it shows the last entry of an order. -/
theorem select_alike {kind : Discipline} {progress : Progress} {eligible : List Nat}
    (found : kind = .shuffle → eligible ≠ [] → ∃ entry ∈ eligible, entry ∈ progress.pending)
    (first second : RandomSource) :
    (select kind progress eligible second).branch = (select kind progress eligible first).branch ∧
    ((kind = .shuffle → ∀ entry, progress.pending = [entry] →
        (select kind progress eligible first).branch ≠ some entry) →
      (select kind progress eligible second).progress =
        (select kind progress eligible first).progress) := by
  by_cases shuffles : kind = .shuffle
  · subst shuffles
    cases eligible with
    | nil => exact ⟨rfl, fun _ => rfl⟩
    | cons head rest =>
      obtain ⟨order, cursor, place, stored, placed, next, sought⟩ :=
        Selection.exists_seek (found rfl (List.cons_ne_nil head rest))
      simp only [select, Selection.shuffled, ← stored, ← placed, sought, length_swapAt]
      by_cases last : cursor + 1 = order.length
      · simp only [if_pos last, true_and]
        obtain ⟨entry, pending, shown⟩ := Selection.pending_of_last next last
        intro unended
        have only : progress.pending = [entry] := by
          rw [← pending, placed, Progress.pending, stored]
          exact List.drop_eq_drop_iff.2 (by omega)
        exact absurd (congrArg some (shown head)) (unended trivial entry only)
      · simp only [if_neg last, implies_true, and_self]
  · rw [select_of_ne_shuffle shuffles, select_of_ne_shuffle shuffles]
    cases Selection.byVisits kind progress.visits.toNat eligible with
    | none => exact ⟨rfl, fun _ => rfl⟩
    | some branch => exact ⟨rfl, fun _ => rfl⟩

/-! ### Choices and shuffles -/

section

variable {answer : String → Except String Bool}

/-- What a list leaves behind that selected among its branches. -/
def Trail.selected (trail : Trail) (identity : String) (selection : Selection) : Trail :=
  match selection.branch with
  | none => trail
  | some _ => ⟨trail.store.insert identity selection.progress, selection.source⟩

/-- A directive chooses without regard to progress, or it is a list and selects among the branches
whose guards pass. -/
theorem Directive.choose_cases (answer : String → Except String Bool) (directive : Directive) :
    (∃ result, ∀ trail, directive.choose answer trail = (result, trail)) ∨
    ∃ kind, directive.kind = .list kind ∧ ∀ trail, ∃ selection,
      selection = select kind (trail.store.progress directive.identity)
        (directive.eligible answer) trail.source ∧
      directive.choose answer trail =
        (.ok selection.branch, trail.selected directive.identity selection) := by
  unfold Directive.choose
  cases directive.problem? with
  | some error => exact Or.inl ⟨_, fun trail => rfl⟩
  | none =>
    cases sort : directive.kind with
    | conditional => exact Or.inl ⟨_, fun trail => rfl⟩
    | list kind =>
      unfold Directive.chooseListed
      cases passing : eligibleFrom answer 0 directive.branches with
      | error error => exact Or.inl ⟨_, fun trail => rfl⟩
      | ok eligible =>
        have all : eligible = directive.eligible answer := eligibleFrom_eq passing
        subst all
        refine Or.inr ⟨kind, rfl, fun trail => ⟨_, rfl, ?_⟩⟩
        dsimp only
        unfold Trail.selected
        split
        · next missing =>
          rw [missing]
          rfl
        · next branch found =>
          rw [found]
          rfl

theorem Store.progress_congr {store other : Store} {identity : String}
    (same : other.get? identity = store.get? identity) :
    other.progress identity = store.progress identity := by
  rw [progress, same]
  rfl

/-- If a directive is a shuffle with branches to choose from, one of them is to come in its
order. -/
def Directive.Finds (answer : String → Except String Bool) (store : Store)
    (directive : Directive) : Prop :=
  directive.kind = .list .shuffle → directive.eligible answer ≠ [] →
    ∃ entry ∈ directive.eligible answer,
      entry ∈ (store.progress directive.identity).pending

instance (store : Store) (directive : Directive) : Decidable (directive.Finds answer store) :=
  inferInstanceAs (Decidable (_ → _ → ∃ entry ∈ directive.eligible answer,
    entry ∈ (store.progress directive.identity).pending))

/-- A shuffle shows the last entry of its order. An entry that it comes to by passing over others is
not the last, for these stay to come. -/
def Showing.EndsOrder (store : Store) (showing : Showing) : Prop :=
  showing.directive.kind = .list .shuffle ∧ ∃ entry ∈ showing.branch,
    (store.progress showing.directive.identity).pending = [entry]

instance (store : Store) (showing : Showing) : Decidable (showing.EndsOrder store) :=
  inferInstanceAs (Decidable (_ ∧ ∃ entry ∈ showing.branch,
    (store.progress showing.directive.identity).pending = [entry]))

/-! ### Resolutions on two trails -/

open Store (AgreeOutside)

/-- The identity of a shuffle is that of no other directive. -/
def Unshared (directives : List Directive) : Prop :=
  directives.Pairwise (fun one other =>
    one.kind = .list .shuffle ∨ other.kind = .list .shuffle → one.identity ≠ other.identity)

theorem unshared_of_unshuffled {directives : List Directive}
    (unshuffled : ∀ directive ∈ directives, directive.kind ≠ .list .shuffle) :
    Unshared directives := by
  refine List.pairwise_of_forall_mem_list (fun one first other second shuffles => ?_)
  rcases shuffles with here | there
  · exact absurd here (unshuffled one first)
  · exact absurd there (unshuffled other second)

/-- Two trails on which directives have the same progress, and shuffles that of a store from
before. -/
structure Aligned (base : Store) (directives : List Directive) (first second : Trail) : Prop where
  unshared : Unshared directives
  same : ∀ directive ∈ directives,
    second.store.get? directive.identity = first.store.get? directive.identity
  kept : ∀ directive ∈ directives, directive.kind = .list .shuffle →
    first.store.get? directive.identity = base.get? directive.identity

/-- Two steps end with the same result, and with the same progress wherever it was the same before
and no shuffle that was shown came to the end of its order. -/
structure Alike {α : Type} (base : Store) (showings : List Showing) (first second : Trail)
    (one other : Except ResolutionError α × Trail) : Prop where
  result : other.1 = one.1
  store : ∀ asked, second.store.get? asked = first.store.get? asked →
    (∀ showing ∈ showings, showing.EndsOrder base → showing.directive.identity ≠ asked) →
    other.2.store.get? asked = one.2.store.get? asked

variable {base : Store} {first second : Trail}

theorem Aligned.sublist {some all : List Directive} (aligned : Aligned base all first second)
    (part : some.Sublist all) : Aligned base some first second where
  unshared := aligned.unshared.sublist part
  same := fun directive member => aligned.same directive (part.subset member)
  kept := fun directive member => aligned.kept directive (part.subset member)

/-- After steps that are alike, the directives behind those that were shown stay aligned. -/
theorem Aligned.step {α : Type} {front back : List Directive} {showings : List Showing}
    {one other : Except ResolutionError α × Trail}
    (aligned : Aligned base (front ++ back) first second)
    (alike : Alike base showings first second one other)
    (shown : ∀ showing ∈ showings, showing.directive ∈ front)
    (changes : AgreeOutside (front.map Directive.identity) first.store one.2.store) :
    Aligned base back one.2 other.2 := by
  -- A directive in front may share its identity with one behind only if neither is a shuffle.
  obtain ⟨-, behind, across⟩ := List.pairwise_append.1 aligned.unshared
  refine ⟨behind, fun directive member => ?_, fun directive member shuffles => ?_⟩
  · have inside : directive ∈ front ++ back := List.mem_append_right front member
    refine alike.store directive.identity (aligned.same directive inside) ?_
    intro showing earlier ends
    exact across _ (shown showing earlier) directive member (Or.inl ends.1)
  · have inside : directive ∈ front ++ back := List.mem_append_right front member
    have outside : directive.identity ∉ front.map Directive.identity := by
      intro shared
      obtain ⟨earlier, before, same⟩ := List.mem_map.1 shared
      exact across earlier before directive member (Or.inr shuffles) same
    rw [changes directive.identity outside, aligned.kept directive inside shuffles]

/-- Steps that are alike lead to steps that are alike. -/
theorem Alike.andThen {α β : Type} {showings : List Showing}
    {one other : Except ResolutionError α × Trail}
    {next : α → Trail → Except ResolutionError β × Trail} {shown : α → Trail → List Showing}
    (alike : Alike base showings first second one other)
    (behind : ∀ value middle otherMiddle, one = (.ok value, middle) →
      other = (.ok value, otherMiddle) → Alike base (shown value middle) middle otherMiddle
        (next value middle) (next value otherMiddle)) :
    Alike base (showings ++ shownAfter one shown) first second
      (Narrative.andThen one next) (Narrative.andThen other next) := by
  obtain ⟨result, middle⟩ := one
  obtain ⟨otherResult, otherMiddle⟩ := other
  have same : otherResult = result := alike.result
  subst same
  have front (asked : String) (agree : second.store.get? asked = first.store.get? asked)
      (apart : ∀ showing ∈ showings ++ shownAfter (otherResult, middle) shown,
        showing.EndsOrder base → showing.directive.identity ≠ asked) :
      otherMiddle.store.get? asked = middle.store.get? asked :=
    alike.store asked agree
      (fun showing member => apart showing (List.mem_append_left _ member))
  cases otherResult with
  | error error => exact ⟨rfl, front⟩
  | ok value =>
    obtain ⟨last, store⟩ := behind value middle otherMiddle rfl rfl
    refine ⟨last, fun asked agree apart => ?_⟩
    exact store asked (front asked agree apart)
      (fun showing member => apart showing (List.mem_append_right _ member))

/-- A directive makes the same choice on two trails with the same progress of it, and it leaves
progress the same unless it shows the last entry of its order. -/
theorem Directive.choose_alike (directive : Directive)
    (aligned : Aligned base [directive] first second)
    (finds : ∀ showing ∈ directive.choices answer first, showing.directive.Finds answer base) :
    Alike base (directive.choices answer first) first second (directive.choose answer first)
      (directive.choose answer second) := by
  have same := aligned.same directive List.mem_cons_self
  have kept := aligned.kept directive List.mem_cons_self
  unfold Directive.choices at finds ⊢
  rcases directive.choose_cases answer with ⟨result, all⟩ | ⟨kind, listed, all⟩
  · rw [all, all]
    exact ⟨rfl, fun asked agree _ => agree⟩
  · obtain ⟨one, selected, chosen⟩ := all first
    obtain ⟨other, otherSelected, otherChosen⟩ := all second
    rw [Store.progress_congr same] at otherSelected
    have stored (shuffles : kind = .shuffle) : first.store.progress directive.identity =
        base.progress directive.identity := by
      apply Store.progress_congr
      apply kept
      rw [listed, shuffles]
    rw [chosen] at finds
    have found : kind = .shuffle → directive.eligible answer ≠ [] →
        ∃ entry ∈ directive.eligible answer,
          entry ∈ (first.store.progress directive.identity).pending := by
      intro shuffles some
      rw [stored shuffles]
      exact finds _ List.mem_cons_self (by rw [listed, shuffles]) some
    obtain ⟨branch, left⟩ := select_alike found first.source second.source
    rw [← selected, ← otherSelected] at branch left
    rw [chosen, otherChosen, branch]
    -- Progress that was drawn is kept only at the identity of a shuffle at the end of its order.
    refine ⟨rfl, fun asked agree apart => ?_⟩
    unfold Trail.selected
    cases shown : one.branch with
    | none =>
      rw [branch, shown]
      exact agree
    | some index =>
      rw [branch, shown]
      dsimp only
      by_cases here : asked = directive.identity
      · subst here
        have unended : kind = .shuffle → ∀ entry,
            (first.store.progress directive.identity).pending = [entry] →
              one.branch ≠ some entry := by
          intro shuffles entry last shows
          rw [stored shuffles] at last
          refine apart _ List.mem_cons_self ⟨?_, entry, shows, last⟩ rfl
          rw [listed, shuffles]
        rw [KeyMap.get?_insert_self, KeyMap.get?_insert_self, left unended]
      · rw [KeyMap.get?_insert_ne _ here, KeyMap.get?_insert_ne _ here]
        exact agree

/-- Nodes resolve alike on every two trails on which their directives are aligned. -/
def ResolveAlike (answer : String → Except String Bool) (base : Store) (nodes : List Node) : Prop :=
  ∀ first second : Trail, Aligned base (directivesOfNodes nodes) first second →
    (∀ showing ∈ showingsOfNodes answer nodes first, showing.directive.Finds answer base) →
    Alike base (showingsOfNodes answer nodes first) first second
      (resolveNodes answer nodes first) (resolveNodes answer nodes second)

/-- How a text is laid out does not matter. -/
theorem ResolveAlike.laid {nodes : List Node} (inner : ResolveAlike answer base nodes)
    (lay : String → String) (aligned : Aligned base (directivesOfNodes nodes) first second)
    (finds : ∀ showing ∈ showingsOfNodes answer nodes first,
      showing.directive.Finds answer base) :
    Alike base (showingsOfNodes answer nodes first) first second
      (resolveLaid answer lay nodes first) (resolveLaid answer lay nodes second) := by
  obtain ⟨result, store⟩ := inner first second aligned finds
  exact ⟨congrArg (Except.map lay) result, store⟩

/-- A directive resolves alike if the contents do that it chooses from. -/
theorem Directive.resolve_alike (directive : Directive)
    (inner : ∀ branch, ResolveAlike answer base (directive.contentOf branch)) {rest : List Node}
    (aligned : Aligned base (directivesOfNodes (.directive directive :: rest)) first second)
    (finds : ∀ showing ∈ directive.showings answer first, showing.directive.Finds answer base) :
    Alike base (directive.showings answer first) first second
      (directive.resolve answer first) (directive.resolve answer second) := by
  rw [Directive.showings_eq] at finds ⊢
  rw [Directive.resolve_eq, Directive.resolve_eq]
  have parts (branch : Option Nat) : Aligned base ([directive] ++
      (directivesOfNodes (directive.contentOf branch) ++ directivesOfNodes rest)) first second :=
    aligned.sublist (directive.sublist_contentOf branch rest)
  have choice := directive.choose_alike ((parts none).sublist (List.sublist_append_left _ _))
    (fun showing member => finds showing (List.mem_append_left _ member))
  have itself : ∀ showing ∈ directive.choices answer first, showing.directive ∈ [directive] := by
    intro showing shown
    obtain ⟨_, _, -, same⟩ := mem_shownAfter shown
    rw [List.mem_singleton.1 same]
    exact List.mem_cons_self
  have changes : AgreeOutside ([directive].map Directive.identity) first.store
      (directive.choose answer first).2.store :=
    directive.agreeOutside_choose answer first List.mem_cons_self
  refine choice.andThen (fun branch middle otherMiddle chosen otherChosen => ?_)
  have within := (parts branch).step choice itself changes
  rw [chosen, otherChosen] at within
  refine (inner branch).laid directive.finish (within.sublist (List.sublist_append_left _ _))
    (fun showing member => ?_)
  apply finds showing (List.mem_append_right _ _)
  rw [chosen]
  exact member

/-- What is resolved on two aligned trails is resolved alike. -/
theorem resolveNodes_alike (answer : String → Except String Bool) (base : Store)
    (nodes : List Node) : ResolveAlike answer base nodes := by
  induction nodes using nodes_induction with
  | nil =>
    intro first second _ _
    exact ⟨rfl, fun asked agree _ => agree⟩
  | text content rest ih =>
    intro first second aligned finds
    rw [resolveNodes_cons, resolveNodes_cons]
    exact ih.laid (content ++ ·) aligned finds
  | directive directive rest inner ih =>
    intro first second aligned finds
    rw [showingsOfNodes_cons, Node.showings, Node.resolve] at finds ⊢
    rw [resolveNodes_cons, resolveNodes_cons, Node.resolve, Node.resolve]
    have front := directive.resolve_alike inner aligned
      (fun showing member => finds showing (List.mem_append_left _ member))
    have changes : AgreeOutside (directive.directives.map Directive.identity) first.store
        (directive.resolve answer first).2.store :=
      Directive.agreeOutside_resolve answer directive first
        (fun inside member => List.mem_map_of_mem member)
    refine front.andThen (fun text middle otherMiddle resolved otherResolved => ?_)
    have behind := aligned.step front (fun _ shown => Directive.mem_of_showings shown) changes
    rw [resolved, otherResolved] at behind
    refine ih.laid (text ++ ·) behind (fun showing member => ?_)
    apply finds showing (List.mem_append_right _ _)
    rw [resolved]
    exact member

end

/-! ### Calls of two sessions -/

/-- A call of a session: a document and the variables that it is resolved with. -/
structure Call where
  document : Document
  bindings : Bindings

namespace Session

def drawing (session : Session) (source : RandomSource) : Session :=
  { session with trail := { session.trail with source } }

def results : Session → List Call → List (Except ResolutionError String)
  | _, [] => []
  | session, call :: rest =>
    (session.resolve call.document call.bindings).1 ::
      results (session.resolve call.document call.bindings).2 rest

/-- A property of calls, each with the session that it begins with. -/
def Throughout (holds : Session → Call → Prop) : Session → List Call → Prop
  | _, [] => True
  | session, call :: rest =>
    holds session call ∧ Throughout holds (session.resolve call.document call.bindings).2 rest

/-- Every shuffle that a call comes to goes on with the order that it has. The progress of a shuffle
when it is reached is that from the start of the call if no other directive has its identity. -/
def Finds (session : Session) (call : Call) : Prop :=
  ∀ showing ∈ session.showings call.document call.bindings,
    showing.directive.Finds (session.evaluator call.bindings) session.store

instance (session : Session) (call : Call) : Decidable (session.Finds call) :=
  inferInstanceAs (Decidable (∀ showing ∈ session.showings call.document call.bindings,
    showing.directive.Finds (session.evaluator call.bindings) session.store))

/-- A call succeeds, and a shuffle shows the last entry of its order in it. -/
def EndsOrder (session : Session) (call : Call) : Prop :=
  (session.resolve call.document call.bindings).1.toOption.isSome = true ∧
    ∃ showing ∈ session.showings call.document call.bindings, showing.EndsOrder session.store

instance (session : Session) (call : Call) : Decidable (session.EndsOrder call) :=
  inferInstanceAs (Decidable (_ ∧ ∃ showing ∈ session.showings call.document call.bindings,
    showing.EndsOrder session.store))

variable {session : Session} {call : Call}

theorem resolve_of_ok (session : Session) {document : Document} {bindings : Bindings}
    {text : String} {trail : Trail}
    (resolved : resolveNodes (session.evaluator bindings) document.nodes session.trail =
      (.ok text, trail)) :
    session.resolve document bindings =
      (.ok (session.localize .afterCompose text), { session with trail }) := by
  rw [resolve, resolved]

/-- A call that fails changes the random source at most. -/
theorem resolve_of_error (session : Session) {document : Document} {bindings : Bindings}
    {error : ResolutionError} {trail : Trail}
    (failed : resolveNodes (session.evaluator bindings) document.nodes session.trail =
      (.error error, trail)) :
    session.resolve document bindings = (.error error, session.drawing trail.source) := by
  have back := session.putBack_resolveNodes document bindings
  rw [failed] at back
  rw [resolve, failed]
  dsimp only
  rw [back]
  rfl

/-- A document resolves alike on two trails on which its directives are aligned, and a call that
fails leaves progress the same wherever it was. -/
theorem resolve_alike (session : Session) (document : Document) (bindings : Bindings) {base : Store}
    {other : Trail} (aligned : Aligned base document.directives session.trail other)
    (finds : ∀ showing ∈ session.showings document bindings,
      showing.directive.Finds (session.evaluator bindings) base) :
    (({ session with trail := other } : Session).resolve document bindings).1 =
      (session.resolve document bindings).1 ∧
    ∀ asked, other.store.get? asked = session.store.get? asked →
      ((session.resolve document bindings).1.toOption.isSome = true →
        ∀ showing ∈ session.showings document bindings, showing.EndsOrder base →
          showing.directive.identity ≠ asked) →
      (({ session with trail := other } : Session).resolve document bindings).2.store.get? asked =
        (session.resolve document bindings).2.store.get? asked := by
  have alike := resolveNodes_alike (session.evaluator bindings) base document.nodes session.trail
    other aligned finds
  cases resolved : resolveNodes (session.evaluator bindings) document.nodes session.trail with
  | mk result after =>
    cases otherResolved : resolveNodes (session.evaluator bindings) document.nodes other with
    | mk otherResult otherAfter =>
      rw [resolved, otherResolved] at alike
      have same : otherResult = result := alike.result
      subst same
      cases otherResult with
      | error error =>
        rw [resolve_of_error session resolved,
          resolve_of_error { session with trail := other } otherResolved]
        exact ⟨rfl, fun asked agree _ => agree⟩
      | ok text =>
        rw [resolve_of_ok session resolved,
          resolve_of_ok { session with trail := other } otherResolved]
        exact ⟨rfl, fun asked agree unended => alike.store asked agree (unended rfl)⟩

/-- A call in which shuffles go on with their orders has the same result with every random source,
and it leaves the same progress unless a shuffle shows the last entry of its order. -/
theorem resolve_drawing (unshared : Unshared call.document.directives)
    (finds : session.Finds call) (source : RandomSource) :
    ((session.drawing source).resolve call.document call.bindings).1 =
      (session.resolve call.document call.bindings).1 ∧
    (¬ session.EndsOrder call →
      ∃ other, ((session.drawing source).resolve call.document call.bindings).2 =
        (session.resolve call.document call.bindings).2.drawing other) := by
  have aligned : Aligned session.store call.document.directives session.trail
      (session.drawing source).trail := ⟨unshared, fun _ _ => rfl, fun _ _ _ => rfl⟩
  obtain ⟨result, store⟩ := session.resolve_alike call.document call.bindings aligned finds
  refine ⟨result, fun unended =>
    ⟨((session.drawing source).resolve call.document call.bindings).2.trail.source, ?_⟩⟩
  have kept : ((session.drawing source).resolve call.document call.bindings).2.store =
      (session.resolve call.document call.bindings).2.store :=
    KeyMap.eq_of_get?_eq (fun asked => store asked rfl
      (fun succeeds showing shown ends => absurd ⟨succeeds, showing, shown, ends⟩ unended))
  rw [resolve_snd, resolve_snd session]
  unfold drawing
  congr 1
  exact congrArg (Trail.mk · _) kept

/-- As long as no shuffle shows the last entry of its order, the results do not depend on the random
source, and neither does the result of the call in which one does. -/
theorem results_drawing (earlier : List Call) (last : Call) (session : Session)
    (source : RandomSource)
    (unshared : ∀ call ∈ earlier ++ [last], Unshared call.document.directives)
    (finds : session.Throughout Finds (earlier ++ [last]))
    (unended : session.Throughout (fun session call => ¬ session.EndsOrder call) earlier) :
    (session.drawing source).results (earlier ++ [last]) =
      session.results (earlier ++ [last]) := by
  -- On the calls before the last. After each of them the sessions differ in their sources only.
  induction earlier generalizing session source with
  | nil =>
    obtain ⟨result, -⟩ := resolve_drawing (unshared last List.mem_cons_self) finds.1 source
    rw [List.nil_append, results, results, result]
    rfl
  | cons call rest ih =>
    obtain ⟨result, after⟩ := resolve_drawing (unshared call List.mem_cons_self) finds.1 source
    obtain ⟨other, next⟩ := after unended.1
    have behind := ih _ other (fun call member => unshared call (List.mem_cons_of_mem _ member))
      finds.2 unended.2
    rw [List.cons_append, results, results, result, next, behind]

theorem throughout_of_forall {holds : Session → Call → Prop} {calls : List Call}
    (always : ∀ session, ∀ call ∈ calls, holds session call) (session : Session) :
    session.Throughout holds calls := by
  induction calls generalizing session with
  | nil => trivial
  | cons call rest ih =>
    refine ⟨always session call List.mem_cons_self, ih (fun session call member => ?_) _⟩
    exact always session call (List.mem_cons_of_mem _ member)

/-- Without shuffles the results do not depend on the random source. -/
theorem results_drawing_of_unshuffled (calls : List Call) (session : Session)
    (source : RandomSource)
    (unshuffled : ∀ call ∈ calls, ∀ directive ∈ call.document.directives,
      directive.kind ≠ .list .shuffle) :
    (session.drawing source).results calls = session.results calls := by
  rcases List.eq_nil_or_concat' calls with rfl | ⟨earlier, last, rfl⟩
  · rfl
  have shown : ∀ session : Session, ∀ call ∈ earlier ++ [last],
      ∀ showing ∈ session.showings call.document call.bindings,
        showing.directive.kind ≠ .list .shuffle := by
    intro session call member showing shows
    exact unshuffled call member showing.directive
      (mem_of_showingsOfNodes _ call.document.nodes session.trail shows)
  apply results_drawing
  · intro call member
    exact unshared_of_unshuffled (unshuffled call member)
  · refine throughout_of_forall (fun session call member showing shows shuffles => ?_) session
    exact absurd shuffles (shown session call member showing shows)
  · refine throughout_of_forall (fun session call member ends => ?_) session
    obtain ⟨-, showing, shows, shuffles, -⟩ := ends
    exact shown session call (List.mem_append_left _ member) showing shows shuffles

/-- A session restored from the progress that another saved goes on as the other does, whatever its
random source, as long as every shuffle that is reached goes on with its order: up to the first call
that succeeds and in which a shuffle shows the last entry of its order. Without shuffles it goes on
so in all calls. -/
theorem results_restored (session : Session) (fits : session.store.Fits) (other : Trail) :
    ∃ restored, ({ session with trail := other } : Session).restore session.save = .ok restored ∧
      (∀ (earlier : List Call) (last : Call),
        (∀ call ∈ earlier ++ [last], (call.document.directives.map Directive.identity).Nodup) →
        session.Throughout Finds (earlier ++ [last]) →
        session.Throughout (fun session call => ¬ session.EndsOrder call) earlier →
        restored.results (earlier ++ [last]) = session.results (earlier ++ [last])) ∧
      ∀ calls : List Call,
        (∀ call ∈ calls, ∀ directive ∈ call.document.directives,
          directive.kind ≠ .list .shuffle) →
        restored.results calls = session.results calls := by
  refine ⟨session.drawing other.source, restore_save _ fits, ?_, ?_⟩
  · intro earlier last distinct finds unended
    refine results_drawing earlier last session other.source (fun call member => ?_) finds unended
    have apart := List.pairwise_map.1 (distinct call member)
    refine List.Pairwise.imp ?_ apart
    intro one other different _
    exact different
  · intro calls unshuffled
    exact results_drawing_of_unshuffled calls session other.source unshuffled

/-- A shuffle of three branches, of which the one in the middle has a guard. -/
def rovingDocument : Document :=
  ⟨"d", [.directive ⟨"s", .list .shuffle, .discipline .shuffle, .inline,
    [⟨none, [.text "hall"], default⟩, ⟨some ⟨"lit", default⟩, [.text "attic"], default⟩,
      ⟨none, [.text "yard"], default⟩], default⟩]⟩

/-- A session in the middle of a round. -/
def rovingSession : Session :=
  lanternSession.withStore (KeyMap.empty.insert "s" ⟨1, some [2, 1, 0], some 1⟩)

def rovingCall (lit : Bool) : Call := ⟨rovingDocument, lanternBindings lit none⟩

/-- The attic is passed over and stays to come, and it is the last of its round. What the next round
begins with is up to the source. -/
theorem results_restored_roving :
    ∃ restored, ({ rovingSession with trail := ⟨.empty, .cyclic [0xFFFFFFFF]⟩ } : Session).restore
        rovingSession.save = .ok restored ∧
      restored.results [rovingCall false, rovingCall true] = [.ok "hall", .ok "attic"] ∧
      rovingSession.results [rovingCall false, rovingCall true, rovingCall true] =
        [.ok "hall", .ok "attic", .ok "yard"] ∧
      restored.results [rovingCall false, rovingCall true, rovingCall true] =
        [.ok "hall", .ok "attic", .ok "hall"] := by
  have fits : rovingSession.store.Fits := by decide +kernel
  obtain ⟨restored, read, same, -⟩ :=
    results_restored rovingSession fits ⟨.empty, .cyclic [0xFFFFFFFF]⟩
  have distinct : ∀ call ∈ [rovingCall false] ++ [rovingCall true],
      (call.document.directives.map Directive.identity).Nodup := by decide +kernel
  have finds : rovingSession.Throughout Finds ([rovingCall false] ++ [rovingCall true]) :=
    ⟨by decide +kernel, by decide +kernel, trivial⟩
  have unended : rovingSession.Throughout (fun session call => ¬ session.EndsOrder call)
      [rovingCall false] := ⟨by decide +kernel, trivial⟩
  refine ⟨restored, read, ?_, by cbv, ?_⟩
  · refine (same [rovingCall false] (rovingCall true) distinct finds unended).trans ?_
    cbv
  · cases (restore_save _ fits).symm.trans read
    cbv

end Session

end Narrative
