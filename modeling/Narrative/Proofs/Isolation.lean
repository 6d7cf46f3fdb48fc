import Narrative.Proofs.Arrangement
import Narrative.Proofs.Replay

/-!
Documents of one session do not see each other. The identities of a document tell its name, so a
call for one document leaves the progress of every other one as it is, whether it succeeds or fails.
What is left to pass from one document to another is the random source, and only shuffles draw from
it.
-/

set_option autoImplicit false

namespace Narrative

/-- A call of a session by the name and the source of a document. -/
structure Rendering where
  document : String
  source : String
  bindings : Bindings

namespace Session

def renders : Session → List Rendering → List (Except SessionError String)
  | _, [] => []
  | session, call :: rest =>
    (session.render call.document call.source call.bindings).1 ::
      renders (session.render call.document call.source call.bindings).2 rest

/-- The results of those calls that are for a document. -/
def resultsFor (name : String) (calls : List Rendering)
    (results : List (Except SessionError String)) : List (Except SessionError String) :=
  ((calls.zip results).filter (fun entry => entry.1.document = name)).map Prod.snd

/-- A call reads no shuffle. -/
def Unshuffled (session : Session) (call : Rendering) : Prop :=
  ∀ document, session.parse call.document call.source = .ok document →
    ∀ directive ∈ document.directives, directive.kind ≠ .list .shuffle

instance (session : Session) (call : Rendering) : Decidable (session.Unshuffled call) :=
  match parsed : session.parse call.document call.source with
  | .error _ => .isTrue (fun document found => by
      rw [parsed] at found
      cases found)
  | .ok document =>
    decidable_of_iff (∀ directive ∈ document.directives, directive.kind ≠ .list .shuffle)
      ⟨fun plain other found => by
        rw [parsed] at found
        cases found
        exact plain, fun unshuffled => unshuffled document parsed⟩

variable {session : Session}

/-- A directive of a document is named by the name of the document and its span. -/
theorem identity_of_parse {name source : String} {document : Document}
    (parsed : session.parse name source = .ok document) {directive : Directive}
    (member : directive ∈ document.directives) :
    directive.identity = session.settings.naming name directive.span :=
  (Document.placed_of_mem parsed member).identity

/-- A call leaves everything of a session but its trail as it was. -/
theorem render_snd (session : Session) (name source : String) (bindings : Bindings) :
    (session.render name source bindings).2 =
      { session with trail := (session.render name source bindings).2.trail } := by
  unfold render
  split
  · rfl
  · exact resolve_snd session _ bindings

/-- A call changes no progress but that of its document, whether it succeeds or fails. -/
theorem get?_resolve (session : Session) (document : Document) (bindings : Bindings)
    {identity : String} (outside : identity ∉ document.directives.map Directive.identity) :
    (session.resolve document bindings).2.store.get? identity = session.store.get? identity := by
  have agree := agreeOutside_resolveNodes (session.evaluator bindings) document.nodes session.trail
    (fun _ member => List.mem_map_of_mem member) identity outside
  cases resolved : resolveNodes (session.evaluator bindings) document.nodes session.trail with
  | mk result after =>
    cases result with
    | error error =>
      rw [resolve_of_error session resolved]
      rfl
    | ok text =>
      rw [resolved] at agree
      rw [resolve_of_ok session resolved]
      exact agree

/-- A call changes no progress but that of the identities of its document. -/
theorem get?_render_of_ne (session : Session) {name identity : String}
    (outside : ∀ span, identity ≠ session.settings.naming name span) (source : String)
    (bindings : Bindings) :
    (session.render name source bindings).2.store.get? identity =
      session.store.get? identity := by
  unfold render
  split
  · rfl
  · next document parsed =>
    refine session.get?_resolve document bindings (fun inside => ?_)
    obtain ⟨directive, member, same⟩ := List.mem_map.1 inside
    rw [identity_of_parse parsed member] at same
    exact outside directive.span same.symm

theorem get?_render (session : Session) (builtIn : session.settings.naming.BuiltIn)
    {name other : String} (different : name ≠ other) (source : String) (bindings : Bindings)
    (span : Span) :
    (session.render other source bindings).2.store.get? (session.settings.naming name span) =
      session.store.get? (session.settings.naming name span) :=
  session.get?_render_of_ne (fun _ same => different (builtIn.inj same).1) source bindings

/-- Two trails keep the same progress for a document. -/
def AgreeOn (session : Session) (name : String) (first second : Trail) : Prop :=
  ∀ span, second.store.get? (session.settings.naming name span) =
    first.store.get? (session.settings.naming name span)

/-- A call without shuffles has the same result on two trails that keep the same progress for its
document, and they keep the same progress for it afterwards. -/
theorem render_alike (session : Session) {call : Rendering} (unshuffled : session.Unshuffled call)
    {other : Trail} (agree : session.AgreeOn call.document session.trail other) :
    (({ session with trail := other } : Session).render call.document call.source
        call.bindings).1 = (session.render call.document call.source call.bindings).1 ∧
      session.AgreeOn call.document
        (session.render call.document call.source call.bindings).2.trail
        (({ session with trail := other } : Session).render call.document call.source
          call.bindings).2.trail := by
  have parse : ({ session with trail := other } : Session).parse call.document call.source =
    session.parse call.document call.source := rfl
  cases parsed : session.parse call.document call.source with
  | error error =>
    rw [render, render, parse, parsed]
    exact ⟨rfl, agree⟩
  | ok document =>
    have plain := unshuffled document parsed
    have aligned : Aligned session.store document.directives session.trail other := by
      refine ⟨unshared_of_unshuffled plain, fun directive member => ?_, fun _ _ _ => rfl⟩
      rw [identity_of_parse parsed member]
      exact agree directive.span
    have shown : ∀ showing ∈ session.showings document call.bindings,
        showing.directive.kind ≠ .list .shuffle := fun showing shows =>
      plain showing.directive (mem_of_showingsOfNodes _ document.nodes session.trail shows)
    obtain ⟨result, store⟩ := session.resolve_alike document call.bindings aligned
      (fun showing shows shuffles => absurd shuffles (shown showing shows))
    rw [render, render, parse, parsed]
    dsimp only
    refine ⟨congrArg _ result, fun span => ?_⟩
    exact store _ (agree span) (fun _ showing shows ends => absurd ends.1 (shown showing shows))

/-- The results for a document are those of its calls alone, on any trail that keeps the same
progress for it. -/
theorem resultsFor_renders (session : Session) (builtIn : session.settings.naming.BuiltIn)
    (name : String) (calls : List Rendering)
    (unshuffled : ∀ call ∈ calls, call.document = name → session.Unshuffled call)
    (first second : Trail) (agree : session.AgreeOn name first second) :
    resultsFor name calls (({ session with trail := first } : Session).renders calls) =
      ({ session with trail := second } : Session).renders
        (calls.filter (fun call => call.document = name)) := by
  induction calls generalizing first second with
  | nil => rfl
  | cons call rest ih =>
    have later : ∀ call ∈ rest, call.document = name → session.Unshuffled call :=
      fun call member => unshuffled call (List.mem_cons_of_mem _ member)
    rw [renders, render_snd, resultsFor, List.zip_cons_cons]
    by_cases here : call.document = name
    · have plain := unshuffled call List.mem_cons_self here
      subst here
      obtain ⟨result, after⟩ := render_alike { session with trail := first } plain agree
      rw [List.filter_cons_of_pos (by simp), List.filter_cons_of_pos (by simp), List.map_cons,
        renders, render_snd { session with trail := second }]
      exact congr (congrArg _ result.symm) (ih later _ _ after)
    · rw [List.filter_cons_of_neg (by simpa using here),
        List.filter_cons_of_neg (by simpa using here)]
      -- The call is for another document, so only the first session makes it.
      refine ih later _ second (fun span => ?_)
      rw [agree span]
      exact (get?_render { session with trail := first } builtIn (fun same => here same.symm)
        call.source call.bindings span).symm

/-- Documents are isolated. Whatever calls for other documents a session makes in between, the
results for a document without shuffles are those of its calls alone on a fresh session, with any
random source. The session itself may be fresh, or have progress of other documents. -/
theorem renders_isolated (session : Session) (builtIn : session.settings.naming.BuiltIn)
    (name : String)
    (fresh : ∀ span, session.store.get? (session.settings.naming name span) = none)
    (calls : List Rendering)
    (unshuffled : ∀ call ∈ calls, call.document = name → session.Unshuffled call)
    (source : RandomSource) :
    resultsFor name calls (session.renders calls) =
      ({ session with trail := ⟨.empty, source⟩ } : Session).renders
        (calls.filter (fun call => call.document = name)) := by
  refine resultsFor_renders session builtIn name calls unshuffled session.trail ⟨.empty, source⟩ ?_
  intro span
  exact (fresh span).symm

/-- Calls for a document and for one whose name begins like its identities. The third one fails
after its list has advanced, and the document in between shuffles. -/
def crossedCalls : List Rendering :=
  [⟨"d", "\x7b&a|b|c\x7d", .empty⟩, ⟨"d@0", "\x7b~x|y\x7d", .empty⟩,
    ⟨"d", "\x7b&a|b|c\x7d\x7bghost: !\x7d", .empty⟩, ⟨"d@0", "\x7b&x|y\x7d", .empty⟩,
    ⟨"d", "\x7b&a|b|c\x7d", .empty⟩]

theorem renders_isolated_crossed :
    resultsFor "d" crossedCalls (lanternSession.renders crossedCalls) =
      (lanternSession.drawing (.cyclic [7])).renders
        (crossedCalls.filter (fun call => call.document = "d")) ∧
    (lanternSession.renders crossedCalls).map Except.toOption =
      [some "a", some "y", none, some "y", some "b"] := by
  have unshuffled : ∀ call ∈ crossedCalls, call.document = "d" →
      lanternSession.Unshuffled call := by decide +kernel
  exact ⟨renders_isolated lanternSession (Or.inl rfl) "d" (fun _ => rfl) crossedCalls unshuffled
    (.cyclic [7]), by decide +kernel⟩

end Session

end Narrative
