import Narrative.Command.Run
import Narrative.Proofs.Visits

/-!
How a rendering ends. It reads a document, its variables and the progress of its state file, and
resolves the document visit by visit. Either all of that succeeds, and the texts of the visits are
printed and the progress behind them is to be saved, or the first part that fails is the last, and
nothing is to be saved.
-/

set_option autoImplicit false

namespace Narrative

/-! ### Visits one after the other -/

namespace Session

/-- Visits of a document succeed, one after the other, each with its text. -/
inductive Tells (document : Document) (bindings : Bindings) :
    Session → List String → Session → Prop
  | nil (session : Session) : Tells document bindings session [] session
  | cons {session next last : Session} {text : String} {rest : List String}
    (visited : session.resolve document bindings = (.ok text, next))
    (others : Tells document bindings next rest last) :
    Tells document bindings session (text :: rest) last

variable {document : Document} {bindings : Bindings} {session last : Session}
  {texts : List String}

/-- Visits may be cut in two. -/
theorem Tells.split {earlier later : List String}
    (told : session.Tells document bindings (earlier ++ later) last) :
    ∃ middle, session.Tells document bindings earlier middle ∧
      middle.Tells document bindings later last := by
  induction earlier generalizing session with
  | nil => exact ⟨session, .nil session, told⟩
  | cons text rest ih =>
    cases told with
    | cons visited others =>
      obtain ⟨middle, before, behind⟩ := ih others
      exact ⟨middle, .cons visited before, behind⟩

/-- Visits leave everything of a session but its trail as it was. -/
theorem Tells.frame (told : session.Tells document bindings texts last) :
    last = { session with trail := last.trail } := by
  induction told with
  | nil session => rfl
  | @cons session next last text rest visited others ih =>
    have kept : next = { session with trail := next.trail } := by
      have whole := resolve_snd session document bindings
      rwa [visited] at whole
    rw [ih, kept]

/-- However many visits are made, they all succeed or one of them is the first that fails. -/
theorem tells_or_breaks (document : Document) (bindings : Bindings) (count : Nat)
    (session : Session) :
    (∃ texts last, session.Tells document bindings texts last ∧ texts.length = count) ∨
      ∃ texts middle error next, session.Tells document bindings texts middle ∧
        texts.length < count ∧ middle.resolve document bindings = (.error error, next) := by
  induction count generalizing session with
  | zero => exact Or.inl ⟨[], session, .nil session, rfl⟩
  | succ count ih =>
    cases visited : session.resolve document bindings with
    | mk result next =>
      cases result with
      | error error =>
        exact Or.inr ⟨[], session, error, next, .nil session, Nat.succ_pos count, visited⟩
      | ok text =>
        rcases ih next with ⟨texts, last, told, all⟩ | broken
        · exact Or.inl ⟨text :: texts, last, .cons visited told, congrArg Nat.succ all⟩
        · obtain ⟨texts, middle, error, left, told, within, failed⟩ := broken
          exact Or.inr ⟨text :: texts, middle, error, left, .cons visited told,
            Nat.succ_lt_succ within, failed⟩

end Session

/-- An outcome is a failure, and nothing is to be saved. -/
def Outcome.Failed (outcome : Outcome) : Prop := outcome.code = 1 ∧ outcome.save = none

namespace Action

variable {view : FileView} {file : String} {options : RenderOptions} {document : Document}
  {bindings : Bindings} {texts : List String}

/-! ### What a rendering prints -/

/-- The lines of visits, with their numbers if they are to be numbered. -/
def visitLines (numbered : Bool) : Nat → List String → String
  | _, [] => ""
  | visit, text :: rest =>
    (if numbered then "[" ++ toString visit ++ "] " else "") ++ text ++ "\n" ++
      visitLines numbered (visit + 1) rest

/-- The texts of visits as they are printed, numbered from one on if there are several. -/
def printed (texts : List String) : String := visitLines (1 < texts.length) 1 texts

section

variable {session last : Session}

theorem visits_of_tells (told : session.Tells document bindings texts last) (numbered : Bool)
    (visit : Nat) : visits document bindings numbered texts.length visit session =
      (visitLines numbered visit texts, .ok last) := by
  induction told generalizing visit with
  | nil session => rfl
  | cons visited others ih =>
    rw [List.length_cons, visits, visited]
    dsimp only
    rw [ih]
    rfl

/-- A visit that fails is the last. -/
theorem visits_of_breaks {error : ResolutionError} {next : Session}
    (told : session.Tells document bindings texts last)
    (failed : last.resolve document bindings = (.error error, next)) {count : Nat}
    (within : texts.length < count) (numbered : Bool) (visit : Nat) :
    (visits document bindings numbered count visit session).2 = .error error := by
  induction told generalizing count visit with
  | nil session =>
    obtain ⟨more, rfl⟩ := Nat.exists_eq_add_one_of_ne_zero (Nat.ne_of_gt within)
    rw [visits, failed]
  | cons visited others ih =>
    obtain ⟨more, rfl⟩ := Nat.exists_eq_add_one_of_ne_zero (Nat.ne_of_gt (Nat.zero_lt_of_lt within))
    rw [visits, visited]
    exact ih failed (Nat.lt_of_succ_lt_succ within) (visit + 1)

end

/-! ### How a rendering ends -/

/-- A file holds the source of a document. -/
def Reads (view : FileView) (file : String) (document : Document) : Prop :=
  ∃ source, view file = .ok source ∧
    Document.parse { document := documentName file } source = .ok document

/-- The session of a rendering that goes on with some progress. -/
def resumed (seed : UInt64) (store : Store) : Session :=
  (Session.new { seed } comparisonEvaluator).withStore store

theorem evaluator_resumed (seed : UInt64) (store : Store) :
    (resumed seed store).evaluator = comparisonEvaluator := rfl

theorem localizer_resumed (seed : UInt64) (store : Store) :
    (resumed seed store).localizer = none := rfl

theorem store_resumed (seed : UInt64) (store : Store) : (resumed seed store).store = store := rfl

/-- The progress that a rendering with a state file, or without one, goes on with. -/
inductive TakesUp (view : FileView) : Option String → Store → Prop
  | stateless : TakesUp view none .empty
  | absent {path : String} {error : FileError} (failed : view path = .error error)
    (absent : view.has path = false) : TakesUp view (some path) .empty
  | saved {path text : String} {store : Store} (read : view path = .ok text)
    (restored : Store.restore? text = some store) : TakesUp view (some path) store

/-- A rendering succeeds as far as its saving. It makes as many visits as it is asked for, each with
its text, and comes to the progress behind the last. -/
inductive Renders (view : FileView) (file : String) (options : RenderOptions) :
    List String → Store → Prop
  | visited {document : Document} {bindings : Bindings} {store : Store} {last : Session}
    {texts : List String} (reads : Reads view file document)
    (bound : bindings? options = some bindings) (takes : TakesUp view options.state store)
    (told : (resumed options.seed store).Tells document bindings texts last)
    (all : texts.length = options.visits) : Renders view file options texts last.store

/-- A rendering fails before it saves. -/
inductive Fails (view : FileView) (file : String) (options : RenderOptions) : Prop
  /-- The source cannot be read. -/
  | unreadable {error : FileError} (failed : view file = .error error)
  /-- The source is no document. -/
  | malformed {source : String} {error : SyntaxError} (read : view file = .ok source)
    (failed : Document.parse { document := documentName file } source = .error error)
  /-- The text of the variables gives none. -/
  | unbound (failed : bindings? options = none)
  /-- There is a state file, and it cannot be read. -/
  | closed {path : String} {error : FileError} (kept : options.state = some path)
    (failed : view path = .error error) (present : view.has path = true)
  /-- The state file holds no progress. -/
  | unrestored {path text : String} (kept : options.state = some path)
    (read : view path = .ok text) (failed : Store.restore? text = none)
  /-- Of the visits asked for, one fails behind some that succeed. -/
  | broken {document : Document} {bindings : Bindings} {store : Store} {middle next : Session}
    {texts : List String} {error : ResolutionError} (reads : Reads view file document)
    (bound : bindings? options = some bindings) (takes : TakesUp view options.state store)
    (told : (resumed options.seed store).Tells document bindings texts middle)
    (within : texts.length < options.visits)
    (failed : middle.resolve document bindings = (.error error, next))

theorem startSession_of_takesUp {store : Store} (takes : TakesUp view options.state store) :
    startSession view options = .ok (resumed options.seed store) := by
  unfold startSession
  generalize options.state = state at takes
  cases takes with
  | stateless => rfl
  | absent failed absent =>
    dsimp only
    rw [failed]
    dsimp only
    rw [absent]
    rfl
  | saved read restored =>
    dsimp only
    rw [read]
    dsimp only
    rw [Session.restore, restored]
    rfl

theorem takesUp_or_fails (view : FileView) (file : String) (options : RenderOptions) :
    (∃ store, TakesUp view options.state store) ∨ Fails view file options := by
  cases kept : options.state with
  | none => exact Or.inl ⟨_, .stateless⟩
  | some path =>
    cases read : view path with
    | ok text =>
      cases restored : Store.restore? text with
      | none => exact Or.inr (.unrestored kept read restored)
      | some store => exact Or.inl ⟨store, .saved read restored⟩
    | error error =>
      cases present : view.has path with
      | true => exact Or.inr (.closed kept read present)
      | false => exact Or.inl ⟨_, .absent read present⟩

/-- What comes before the saving of a rendering succeeds in all its parts, or it fails. -/
theorem renders_or_fails (view : FileView) (file : String) (options : RenderOptions) :
    (∃ texts store, Renders view file options texts store) ∨ Fails view file options := by
  cases read : view file with
  | error error => exact Or.inr (.unreadable read)
  | ok source =>
    cases parsed : Document.parse { document := documentName file } source with
    | error error => exact Or.inr (.malformed read parsed)
    | ok document =>
      cases bound : bindings? options with
      | none => exact Or.inr (.unbound bound)
      | some bindings =>
        rcases takesUp_or_fails view file options with ⟨store, takes⟩ | fails
        · have reads : Reads view file document := ⟨source, read, parsed⟩
          rcases (resumed options.seed store).tells_or_breaks document bindings options.visits with
            ⟨texts, last, told, all⟩ | ⟨texts, middle, error, next, told, within, failed⟩
          · exact Or.inl ⟨texts, last.store, .visited reads bound takes told all⟩
          · exact Or.inr (.broken reads bound takes told within failed)
        · exact Or.inr fails

theorem withDocument_of_reads (reads : Reads view file document)
    (next : String → Document → Outcome) :
    ∃ source, withDocument view file next = next source document := by
  obtain ⟨source, read, parsed⟩ := reads
  refine ⟨source, ?_⟩
  rw [withDocument, read]
  dsimp only
  rw [parsed]

/-- A rendering prints the texts of its visits, and what it saves is the progress behind them. -/
theorem Renders.run {store : Store} (renders : Renders view file options texts store) :
    run view (.render file options) =
      { Outcome.success (printed texts) with
        save := options.state.map (fun path => (path, store.savePretty)) } := by
  cases renders with
  | visited reads bound takes told all =>
    obtain ⟨source, same⟩ := withDocument_of_reads reads (renderDocument view options file)
    rw [Action.run, same, renderDocument, bound]
    dsimp only
    rw [startSession_of_takesUp takes]
    dsimp only
    rw [← all, visits_of_tells told]
    rfl

theorem Renders.readable {store : Store} (renders : Renders view file options texts store) :
    ∃ source, view file = .ok source := by
  cases renders with
  | visited reads _ _ _ _ =>
    obtain ⟨source, read, -⟩ := reads
    exact ⟨source, read⟩

theorem failed_withDocument {next : String → Document → Outcome}
    (failed : ∀ source document, (next source document).Failed) :
    (withDocument view file next).Failed := by
  unfold withDocument
  split
  · exact ⟨rfl, rfl⟩
  · split
    · exact ⟨rfl, rfl⟩
    · exact failed _ _

theorem failed_of_unstarted {reason : String}
    (unstarted : startSession view options = .error reason) (source : String)
    (document : Document) : (renderDocument view options file source document).Failed := by
  unfold renderDocument
  split
  · exact ⟨rfl, rfl⟩
  · rw [unstarted]
    exact ⟨rfl, rfl⟩

/-- A rendering that fails before it saves saves nothing. -/
theorem Fails.run (fails : Fails view file options) : (run view (.render file options)).Failed := by
  cases fails with
  | unreadable failed =>
    rw [Action.run, withDocument, failed]
    exact ⟨rfl, rfl⟩
  | malformed read failed =>
    rw [Action.run, withDocument, read]
    dsimp only
    rw [failed]
    exact ⟨rfl, rfl⟩
  | unbound failed =>
    refine failed_withDocument (fun source document => ?_)
    rw [renderDocument, failed]
    exact ⟨rfl, rfl⟩
  | @closed path error kept failed present =>
    have unstarted : startSession view options = .error (Action.unreadable path error) := by
      rw [startSession, kept]
      dsimp only
      rw [failed]
      dsimp only
      rw [if_pos present]
    exact failed_withDocument (failed_of_unstarted unstarted)
  | @unrestored path text kept read failed =>
    have unstarted : startSession view options = .error (path ++ ": invalid sequence state") := by
      rw [startSession, kept]
      dsimp only
      rw [read]
      dsimp only
      rw [Session.restore, failed]
    exact failed_withDocument (failed_of_unstarted unstarted)
  | broken reads bound takes told within failed =>
    obtain ⟨source, same⟩ := withDocument_of_reads reads (renderDocument view options file)
    have broken := visits_of_breaks told failed within (1 < options.visits) 1
    rw [Action.run, same, renderDocument, bound]
    dsimp only
    rw [startSession_of_takesUp takes]
    dsimp only
    split
    · exact ⟨rfl, rfl⟩
    · next output session visited =>
      rw [visited] at broken
      cases broken

theorem fails_iff : Fails view file options ↔ (run view (.render file options)).code ≠ 0 := by
  constructor
  · intro fails
    rw [fails.run.1]
    exact Nat.one_ne_zero
  · intro ended
    rcases renders_or_fails view file options with ⟨texts, store, renders⟩ | fails
    · rw [renders.run] at ended
      exact absurd rfl ended
    · exact fails

end Action

end Narrative
