import Mathlib.Data.Finset.Basic
import Mathlib.Data.Finset.Card
import Narrative.Proofs.Effects
import Narrative.Proofs.Isolation

/-!
What is forgotten with a document. Its progress is found by the name and the at sign that begin its
identities, and so do the identities of every document whose name goes on behind them. All of that
progress is removed and nothing else, and the documents that are left go on as if nothing had
happened. Only the random words that a forgotten document draws would tell them.
-/

set_option autoImplicit false

namespace Narrative

/-! ### The keys of a map -/

namespace KeyMap

variable {α : Type}

theorem find?_eq_none_iff {key : String} {entries : List (String × α)} :
    find? key entries = none ↔ key ∉ entries.map Prod.fst := by
  induction entries with
  | nil => simp [find?]
  | cons head rest ih =>
    obtain ⟨other, value⟩ := head
    by_cases same : key = other
    · simp [find?, same]
    · rw [find?, if_neg same, ih, List.map_cons, List.mem_cons, not_or]
      exact (and_iff_right same).symm

def keys (map : KeyMap α) : Finset String := (map.entries.map Prod.fst).toFinset

@[simp] theorem mem_keys {map : KeyMap α} {key : String} :
    key ∈ map.keys ↔ map.get? key ≠ none := by
  rw [keys, List.mem_toFinset, get?, ne_eq, find?_eq_none_iff, not_not]

theorem card_keys (map : KeyMap α) : map.keys.card = map.size := by
  have apart : (map.entries.map Prod.fst).Nodup := by
    refine List.Pairwise.map Prod.fst (fun first second less same => ?_) map.sorted
    exact String.lt_irrefl _ (same ▸ less)
  rw [keys, List.toFinset_card_of_nodup apart, List.length_map, size]

theorem keys_keep_subset (map : KeyMap α) (test : String → Bool) :
    (map.keep test).keys ⊆ map.keys := by
  intro key
  rw [mem_keys, mem_keys, get?_keep]
  split
  · exact id
  · exact fun absent => absurd rfl absent

end KeyMap

/-! ### The documents that are forgotten together -/

/-- A document takes itself along when it is forgotten, and each one whose name begins with its
name and an at sign. -/
def Covers (document name : String) : Prop :=
  name = document ∨ (document.toList ++ ['@']) <+: name.toList

instance (document name : String) : Decidable (Covers document name) :=
  inferInstanceAs (Decidable (_ ∨ _))

/-- An identity counts as one of a document's if its own document is covered. -/
theorem Naming.BuiltIn.belongsTo_iff {naming : Naming} (builtIn : naming.BuiltIn)
    {document name : String} {span : Span} :
    Store.belongsTo document (naming name span) = true ↔ Covers document name := by
  obtain ⟨place, last, spelled⟩ := builtIn.exists_toList name span
  rw [Store.belongsTo, List.isPrefixOf_iff_prefix, spelled]
  constructor
  · rintro ⟨rest, split⟩
    rw [List.append_assoc, List.singleton_append] at split
    -- The at sign behind the name of the document is the last one of the identity or comes before.
    rcases List.append_eq_append_iff.1 split with
      ⟨between, longer, behind⟩ | ⟨between, shorter, behind⟩
    · cases between with
      | nil => exact Or.inl (String.toList_inj.1 (by rw [longer, List.append_nil]))
      | cons sign more =>
        obtain ⟨rfl, -⟩ := List.cons.inj behind
        exact Or.inr ⟨more, by rw [longer, List.append_assoc, List.singleton_append]⟩
    · cases between with
      | nil => exact Or.inl (String.toList_inj.1 (by rw [shorter, List.append_nil]))
      | cons sign more =>
        obtain ⟨rfl, rfl⟩ := List.cons.inj behind
        simp at last
  · rintro (rfl | begins)
    · exact ⟨place, by rw [List.append_assoc, List.singleton_append]⟩
    · exact begins.trans (List.prefix_append _ _)

namespace Store

theorem get?_forget (store : Store) (document identity : String) :
    (store.forget document).get? identity =
      if belongsTo document identity then none else store.get? identity := by
  rw [forget, KeyMap.get?_keep]
  cases belongsTo document identity <;> rfl

/-- The number that is told is that of the identities that are removed. -/
theorem forgotten_eq (store : Store) (document : String) :
    store.forgotten document = (store.keys \ (store.forget document).keys).card := by
  have fewer : (store.forget document).keys ⊆ store.keys := store.keys_keep_subset _
  rw [Finset.card_sdiff_of_subset fewer, KeyMap.card_keys, KeyMap.card_keys, forgotten]

end Store

namespace Session

/-! ### Where entries come from -/

def rendered (session : Session) (calls : List Rendering) : Session :=
  calls.foldl (fun session call =>
    (session.render call.document call.source call.bindings).2) session

theorem rendered_append_singleton (session : Session) (calls : List Rendering) (call : Rendering) :
    session.rendered (calls ++ [call]) =
      ((session.rendered calls).render call.document call.source call.bindings).2 := by
  rw [rendered, List.foldl_append]
  rfl

/-- Calls leave everything of a session but its trail as it was. -/
theorem rendered_eq (session : Session) (calls : List Rendering) :
    session.rendered calls = { session with trail := (session.rendered calls).trail } := by
  induction calls using List.reverseRecOn with
  | nil => rfl
  | append_singleton calls call ih =>
    rw [rendered_append_singleton, render_snd, ih]

/-- The settings of a session stay. -/
theorem settings_rendered (session : Session) (calls : List Rendering) :
    (session.rendered calls).settings = session.settings := by
  rw [rendered_eq]

/-- An identity had no progress until a call for a document gave it some. -/
def CreatedFor (session : Session) (calls : List Rendering) (name identity : String) : Prop :=
  ∃ earlier call later, calls = earlier ++ call :: later ∧ call.document = name ∧
    (session.rendered earlier).store.get? identity = none ∧
    (session.rendered (earlier ++ [call])).store.get? identity ≠ none

/-- Every identity with progress got it in some call. -/
theorem exists_createdFor (session : Session) (empty : session.store = .empty)
    (calls : List Rendering) {identity : String}
    (stored : (session.rendered calls).store.get? identity ≠ none) :
    ∃ name, session.CreatedFor calls name identity := by
  induction calls using List.reverseRecOn with
  | nil =>
    change session.store.get? identity ≠ none at stored
    rw [empty] at stored
    exact absurd rfl stored
  | append_singleton calls last ih =>
    by_cases absent : (session.rendered calls).store.get? identity = none
    · exact ⟨last.document, calls, last, [], rfl, rfl, absent, stored⟩
    · obtain ⟨name, earlier, call, later, rfl, created⟩ := ih absent
      exact ⟨name, earlier, call, later ++ [last], by rw [List.append_assoc, List.cons_append],
        created⟩

/-- The identity of an entry is named by the document that it was created for. -/
theorem CreatedFor.exists_span {session : Session} {calls : List Rendering}
    {name identity : String} (created : session.CreatedFor calls name identity) :
    ∃ span, identity = session.settings.naming name span := by
  obtain ⟨earlier, call, later, rfl, rfl, before, after⟩ := created
  by_contra other
  rw [rendered_append_singleton, get?_render_of_ne _ (fun span same => ?_)] at after
  · exact after before
  · rw [settings_rendered] at same
    exact other ⟨span, same⟩

/-! ### Sessions with and without the forgotten progress -/

def forgetting (session : Session) (document : String) : Session :=
  session.withStore (session.store.forget document)

/-- The identities of a document that is not forgotten keep their progress. -/
theorem get?_forgetting (session : Session) (builtIn : session.settings.naming.BuiltIn)
    (document name : String) (span : Span) :
    (session.forgetting document).store.get? (session.settings.naming name span) =
      if Covers document name then none
      else session.store.get? (session.settings.naming name span) := by
  change (session.store.forget document).get? _ = _
  rw [Store.get?_forget]
  exact if_congr builtIn.belongsTo_iff rfl rfl

end Session

/-- Two trails draw the same random words and keep the same progress for some identities. -/
structure Twins (kept : String → Prop) (first second : Trail) : Prop where
  source : second.source = first.source
  store : ∀ identity, kept identity → second.store.get? identity = first.store.get? identity

section

variable {kept : String → Prop} {first second : Trail}

/-- A list selects the same on both trails, and keeps the same progress and source. -/
theorem Directive.twins_choose (answer : String → Except String Bool) {directive : Directive}
    (inside : kept directive.identity) (twins : Twins kept first second) :
    Related (Twins kept) (directive.choose answer first) (directive.choose answer second) := by
  rcases directive.choose_cases answer with ⟨result, all⟩ | ⟨kind, -, all⟩
  · rw [all first, all second]
    exact ⟨rfl, twins⟩
  · obtain ⟨selection, selected, chosen⟩ := all first
    obtain ⟨other, otherSelected, otherChosen⟩ := all second
    rw [Store.progress_congr (twins.store _ inside), twins.source, ← selected] at otherSelected
    subst otherSelected
    rw [chosen, otherChosen]
    refine ⟨rfl, ?_⟩
    unfold Trail.selected
    split
    · exact twins
    · refine ⟨rfl, fun identity held => ?_⟩
      by_cases same : identity = directive.identity
      · rw [same, KeyMap.get?_insert_self, KeyMap.get?_insert_self]
      · rw [KeyMap.get?_insert_ne _ same, KeyMap.get?_insert_ne _ same]
        exact twins.store identity held

/-- Only shuffles draw random words. -/
theorem Directive.source_choose (answer : String → Except String Bool) {directive : Directive}
    (counted : directive.kind ≠ .list .shuffle) (trail : Trail) :
    (directive.choose answer trail).2.source = trail.source := by
  rcases directive.choose_cases answer with ⟨result, all⟩ | ⟨kind, sort, all⟩
  · rw [all trail]
  · obtain ⟨selection, selected, chosen⟩ := all trail
    rw [chosen, Trail.selected]
    have plain : kind ≠ .shuffle := fun shuffles => counted (shuffles ▸ sort)
    split
    · rfl
    · rw [selected]
      exact Selection.source_select plain _ _ _

end

namespace Session

/-- A document whose identities are all kept resolves alike on twin trails, and leaves twin trails
whether it succeeds or fails. -/
theorem resolve_twins (session : Session) {kept : String → Prop} {document : Document}
    (inside : ∀ directive ∈ document.directives, kept directive.identity) {other : Trail}
    (twins : Twins kept session.trail other) (bindings : Bindings) :
    (({ session with trail := other } : Session).resolve document bindings).1 =
        (session.resolve document bindings).1 ∧
      Twins kept (session.resolve document bindings).2.trail
        (({ session with trail := other } : Session).resolve document bindings).2.trail := by
  have related := resolveNodes_related (Twins kept) (session.evaluator bindings) document.nodes
    (fun directive member _ _ twins => Directive.twins_choose _ (inside directive member) twins)
    twins
  cases resolved : resolveNodes (session.evaluator bindings) document.nodes session.trail with
  | mk result after =>
    cases otherResolved : resolveNodes (session.evaluator bindings) document.nodes other with
    | mk otherResult otherAfter =>
      rw [resolved, otherResolved] at related
      obtain rfl : otherResult = result := related.result
      cases otherResult with
      | error error =>
        -- The progress from before is put back on both trails, and the words drawn stay drawn.
        rw [resolve_of_error session resolved,
          resolve_of_error { session with trail := other } otherResolved]
        exact ⟨rfl, related.trails.source, twins.store⟩
      | ok text =>
        rw [resolve_of_ok session resolved,
          resolve_of_ok { session with trail := other } otherResolved]
        exact ⟨rfl, related.trails⟩

/-- A call for a document whose identities are all kept has the same result on twin trails. -/
theorem render_twins (session : Session) {kept : String → Prop} {name : String}
    (inside : ∀ span, kept (session.settings.naming name span)) {other : Trail}
    (twins : Twins kept session.trail other) (source : String) (bindings : Bindings) :
    (({ session with trail := other } : Session).render name source bindings).1 =
        (session.render name source bindings).1 ∧
      Twins kept (session.render name source bindings).2.trail
        (({ session with trail := other } : Session).render name source bindings).2.trail := by
  have parse : ({ session with trail := other } : Session).parse name source =
    session.parse name source := rfl
  cases parsed : session.parse name source with
  | error error =>
    rw [render, render, parse, parsed]
    exact ⟨rfl, twins⟩
  | ok document =>
    have named (directive : Directive) (member : directive ∈ document.directives) :
        kept directive.identity := by
      rw [identity_of_parse parsed member]
      exact inside directive.span
    obtain ⟨result, after⟩ := session.resolve_twins named twins bindings
    rw [render, render, parse, parsed]
    exact ⟨congrArg (Except.mapError SessionError.unresolved) result, after⟩

/-- What a resolution draws stays drawn, whether it succeeds or fails. -/
theorem source_resolve (session : Session) (document : Document) (bindings : Bindings) :
    (session.resolve document bindings).2.trail.source =
      (resolveNodes (session.evaluator bindings) document.nodes session.trail).2.source := by
  cases resolved : resolveNodes (session.evaluator bindings) document.nodes session.trail with
  | mk result after =>
    cases result with
    | error error =>
      rw [resolve_of_error session resolved]
      rfl
    | ok text => rw [resolve_of_ok session resolved]

/-- A call without shuffles draws no random words. -/
theorem source_render (session : Session) {call : Rendering}
    (unshuffled : session.Unshuffled call) :
    (session.render call.document call.source call.bindings).2.trail.source =
      session.trail.source := by
  cases parsed : session.parse call.document call.source with
  | error error => rw [render, parsed]
  | ok document =>
    have undrawn := resolveNodes_keeps (fun trail => trail.source = session.trail.source)
      (session.evaluator call.bindings) document.nodes (fun directive member trail same =>
        (Directive.source_choose _ (unshuffled document parsed directive member) trail).trans same)
      rfl
    rw [render, parsed]
    exact (session.source_resolve document call.bindings).trans undrawn

/-- The results for a document that is not forgotten are the same on twin trails, if the calls for
the forgotten ones draw no random words. -/
theorem resultsFor_twins (session : Session) (builtIn : session.settings.naming.BuiltIn)
    {document name : String} (spared : ¬ Covers document name) (calls : List Rendering)
    (undrawn : ∀ call ∈ calls, Covers document call.document → session.Unshuffled call)
    (first second : Trail)
    (twins : Twins (fun identity => ¬ Store.belongsTo document identity) first second) :
    resultsFor name calls (({ session with trail := second } : Session).renders calls) =
      resultsFor name calls (({ session with trail := first } : Session).renders calls) := by
  induction calls generalizing first second with
  | nil => rfl
  | cons call rest ih =>
    have later := ih (fun other member => undrawn other (List.mem_cons_of_mem _ member))
    rw [renders, renders, render_snd, render_snd { session with trail := first }, resultsFor,
      resultsFor, List.zip_cons_cons, List.zip_cons_cons]
    by_cases covered : Covers document call.document
    · have other : call.document ≠ name := fun same => spared (same ▸ covered)
      have plain := undrawn call List.mem_cons_self covered
      rw [List.filter_cons_of_neg (by simpa using other),
        List.filter_cons_of_neg (by simpa using other)]
      refine later _ _ ⟨?_, fun identity kept => ?_⟩
      · exact (source_render { session with trail := second } plain).trans
          (twins.source.trans (source_render { session with trail := first } plain).symm)
      · have outside (span : Span) : identity ≠ session.settings.naming call.document span := by
          rintro rfl
          exact kept (builtIn.belongsTo_iff.2 covered)
        exact (get?_render_of_ne { session with trail := second } outside _ _).trans
          ((twins.store identity kept).trans
            (get?_render_of_ne { session with trail := first } outside _ _).symm)
    · have inside (span : Span) :
          ¬ Store.belongsTo document (session.settings.naming call.document span) := by
        rwa [builtIn.belongsTo_iff]
      obtain ⟨result, after⟩ := render_twins { session with trail := first } inside twins
        call.source call.bindings
      by_cases here : call.document = name
      · rw [List.filter_cons_of_pos (by simpa using here),
          List.filter_cons_of_pos (by simpa using here), List.map_cons, List.map_cons]
        exact congr (congrArg _ result) (later _ _ after)
      · rw [List.filter_cons_of_neg (by simpa using here),
          List.filter_cons_of_neg (by simpa using here)]
        exact later _ _ after

/-! ### Forgetting -/

/-- What forgetting a document does to a session that was empty and then made calls. -/
structure Forgets (session : Session) (calls : List Rendering) (document : String) : Prop where
  /-- Every entry was created for some document. -/
  created : ∀ identity, (session.rendered calls).store.get? identity ≠ none →
    ∃ name, session.CreatedFor calls name identity
  /-- The entries of the document are removed, with those of the documents that it covers, -/
  removed : ∀ name identity, session.CreatedFor calls name identity → Covers document name →
    ((session.rendered calls).forgetting document).store.get? identity = none
  /-- and no others. -/
  kept : ∀ name identity, session.CreatedFor calls name identity → ¬ Covers document name →
    ((session.rendered calls).forgetting document).store.get? identity =
      (session.rendered calls).store.get? identity
  /-- The number of removed entries is told. -/
  counted : (session.rendered calls).store.forgotten document =
    ((session.rendered calls).store.keys \
      ((session.rendered calls).forgetting document).store.keys).card
  /-- Whatever calls follow, a forgotten document without shuffles is shown as on a fresh
  session. -/
  anew : ∀ name, Covers document name → ∀ more : List Rendering,
    (∀ call ∈ more, call.document = name → session.Unshuffled call) → ∀ source,
    resultsFor name more (((session.rendered calls).forgetting document).renders more) =
      ({ session with trail := ⟨.empty, source⟩ } : Session).renders
        (more.filter (fun call => call.document = name))
  /-- Any other document is shown as if nothing had been forgotten, if it draws no random words or
  the forgotten documents draw none. -/
  undisturbed : ∀ name, ¬ Covers document name → ∀ more : List Rendering,
    ((∀ call ∈ more, call.document = name → session.Unshuffled call) ∨
      ∀ call ∈ more, Covers document call.document → session.Unshuffled call) →
    resultsFor name more (((session.rendered calls).forgetting document).renders more) =
      resultsFor name more ((session.rendered calls).renders more)

/-- Forgetting a document removes what was created for it and for the documents whose name begins
with its name and an at sign, tells how much that is, and touches no other document. -/
theorem forgets_covered (session : Session) (builtIn : session.settings.naming.BuiltIn)
    (empty : session.store = .empty) (calls : List Rendering) (document : String) :
    Forgets session calls document := by
  -- After the calls the session differs in its trail only.
  obtain ⟨trail, same⟩ : ∃ trail, session.rendered calls = { session with trail } :=
    ⟨_, session.rendered_eq calls⟩
  have found := (session.rendered calls).get?_forgetting (by rwa [settings_rendered]) document
  rw [settings_rendered] at found
  constructor
  · intro identity stored
    exact session.exists_createdFor empty calls stored
  · intro name identity created covered
    obtain ⟨span, rfl⟩ := created.exists_span
    rw [found, if_pos covered]
  · intro name identity created spared
    obtain ⟨span, rfl⟩ := created.exists_span
    rw [found, if_neg spared]
  · exact Store.forgotten_eq _ _
  · intro name covered more unshuffled source
    rw [same] at found ⊢
    refine resultsFor_renders session builtIn name more unshuffled _ _ (fun span => ?_)
    exact ((found name span).trans (if_pos covered)).symm
  · intro name spared more undrawn
    rw [same] at found ⊢
    rcases undrawn with unshuffled | undrawn
    · -- Both are what the document shows alone.
      rw [resultsFor_renders session builtIn name more unshuffled trail trail (fun _ => rfl)]
      refine resultsFor_renders session builtIn name more unshuffled _ trail (fun span => ?_)
      exact ((found name span).trans (if_neg spared)).symm
    · refine resultsFor_twins session builtIn spared more undrawn trail _ ⟨rfl, ?_⟩
      intro identity other
      exact (Store.get?_forget trail.store document identity).trans (if_neg other)

/-- Calls for a document, for one that it covers and for one whose name is only longer. -/
def hallCalls : List Rendering :=
  [⟨"hall", "\x7b&a|b|c\x7d", .empty⟩, ⟨"hall@1", "\x7ba|b\x7d", .empty⟩,
    ⟨"hallway", "\x7b~x|y|z\x7d", .empty⟩]

theorem forgets_covered_hall :
    Forgets lanternSession hallCalls "hall" ∧
      (lanternSession.rendered hallCalls).store.forgotten "hall" = 2 ∧
      ((lanternSession.rendered hallCalls).forgetting "hall").store.size = 1 :=
  ⟨forgets_covered lanternSession (Or.inl rfl) rfl hallCalls "hall", by decide +kernel,
    by decide +kernel⟩

/-- A document with another name need not be spared. -/
theorem not_spared_apart :
    ¬ ∀ (session : Session), session.settings.naming.BuiltIn → session.store = .empty →
      ∀ calls document name identity, session.CreatedFor calls name identity → name ≠ document →
        ((session.rendered calls).forgetting document).store.get? identity =
          (session.rendered calls).store.get? identity := by
  intro spared
  have created : lanternSession.CreatedFor [⟨"d@1", "\x7ba|b\x7d", .empty⟩] "d@1" "d@1@0" :=
    ⟨[], _, [], rfl, rfl, by decide +kernel, by decide +kernel⟩
  have kept := spared lanternSession (Or.inl rfl) rfl _ "d" "d@1" "d@1@0" created (by decide)
  revert kept
  decide +kernel

end Session

end Narrative
