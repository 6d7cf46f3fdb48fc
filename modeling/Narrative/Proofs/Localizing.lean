import Narrative.Proofs.Isolation

/-!
Localizers. What a session with a localizer answers and keeps is told by a session without one: a
localizer before parsing only changes the sources that are read, and one after composing only the
texts that are answered. Either is shown for a single step, and then for all steps of a host.
-/

set_option autoImplicit false

namespace Narrative.Session

/-- A step that a host takes with a session. -/
inductive Step where
  | parse (document source : String)
  | resolve (document : Document) (bindings : Bindings)
  | render (document source : String) (bindings : Bindings)

/-- What a session answers to a step. -/
inductive Answer where
  | parsed (result : Except SyntaxError Document)
  | resolved (result : Except ResolutionError String)
  | rendered (result : Except SessionError String)

/-- The step with its source put through a localizer. -/
def Step.mapSource (localizer : String → String) : Step → Step
  | parse document source => .parse document (localizer source)
  | resolve document bindings => .resolve document bindings
  | render document source bindings => .render document (localizer source) bindings

/-- The answer with its text put through a localizer. Errors and documents have none. -/
def Answer.mapText (localizer : String → String) : Answer → Answer
  | parsed result => .parsed result
  | resolved result => .resolved (result.map localizer)
  | rendered result => .rendered (result.map localizer)

def take (session : Session) : Step → Answer × Session
  | .parse document source => (.parsed (session.parse document source), session)
  | .resolve document bindings =>
    let (result, next) := session.resolve document bindings
    (.resolved result, next)
  | .render document source bindings =>
    let (result, next) := session.render document source bindings
    (.rendered result, next)

/-- The answers to steps, each with the trail that is left behind it. -/
def takeAll : Session → List Step → List (Answer × Trail)
  | _, [] => []
  | session, step :: rest =>
    let (answer, next) := session.take step
    (answer, next.trail) :: takeAll next rest

def localizedAt (session : Session) (stage : LocalizeStage) (localizer : String → String) :
    Session :=
  { session with
    settings := { session.settings with stage }
    localizer := some localizer }

def unlocalized (session : Session) : Session := { session with localizer := none }

/-- What a localizer does to the texts of a stage: nothing if it is for the other one. -/
def hookAt (stage asked : LocalizeStage) (localizer : String → String) : String → String :=
  if stage = asked then localizer else id

section

variable (session : Session) (stage : LocalizeStage) (localizer : String → String)

theorem localize_localizedAt (asked : LocalizeStage) (text : String) :
    (session.localizedAt stage localizer).localize asked text =
      hookAt stage asked localizer text := by
  unfold hookAt
  by_cases here : stage = asked
  · simp [localize, localizedAt, here]
  · simp [localize, localizedAt, here]

/-! ### One step -/

theorem parse_localizedAt (name source : String) :
    (session.localizedAt stage localizer).parse name source =
      session.unlocalized.parse name (hookAt stage .beforeParse localizer source) := by
  rw [parse, localize_localizedAt]
  rfl

/-- Errors, rollback and progress of a resolution are those without the localizer. -/
theorem resolve_localizedAt (document : Document) (bindings : Bindings) :
    (session.localizedAt stage localizer).resolve document bindings =
      ((session.unlocalized.resolve document bindings).1.map
          (hookAt stage .afterCompose localizer),
        (session.unlocalized.resolve document bindings).2.localizedAt stage localizer) := by
  cases resolved : resolveNodes (session.evaluator bindings) document.nodes session.trail with
  | mk result trail =>
    cases result with
    | error error =>
      rw [resolve_of_error (session.localizedAt stage localizer) resolved,
        resolve_of_error session.unlocalized resolved]
      rfl
    | ok text =>
      rw [resolve_of_ok (session.localizedAt stage localizer) resolved,
        resolve_of_ok session.unlocalized resolved, localize_localizedAt]
      rfl

theorem render_localizedAt (name source : String) (bindings : Bindings) :
    (session.localizedAt stage localizer).render name source bindings =
      ((session.unlocalized.render name (hookAt stage .beforeParse localizer source)
          bindings).1.map (hookAt stage .afterCompose localizer),
        (session.unlocalized.render name (hookAt stage .beforeParse localizer source)
          bindings).2.localizedAt stage localizer) := by
  unfold render
  rw [parse_localizedAt]
  cases session.unlocalized.parse name (hookAt stage .beforeParse localizer source) with
  | error error => rfl
  | ok document =>
    dsimp only
    rw [resolve_localizedAt]
    cases session.unlocalized.resolve document bindings with
    | mk result next => cases result <;> rfl

/-- A step with a localizer is one without, on the source that the localizer gives, and with its
text put through the localizer. -/
theorem take_localizedAt (step : Step) :
    (session.localizedAt stage localizer).take step =
      ((session.unlocalized.take (step.mapSource (hookAt stage .beforeParse localizer))).1.mapText
          (hookAt stage .afterCompose localizer),
        (session.unlocalized.take (step.mapSource
          (hookAt stage .beforeParse localizer))).2.localizedAt stage localizer) := by
  cases step with
  | parse document source =>
    rw [take, parse_localizedAt]
    rfl
  | resolve document bindings =>
    rw [take, resolve_localizedAt]
    rfl
  | render document source bindings =>
    rw [take, render_localizedAt]
    rfl

end

/-! ### All steps -/

/-- A step leaves everything of a session but its trail as it was. -/
theorem take_snd (session : Session) (step : Step) :
    (session.take step).2 = { session with trail := (session.take step).2.trail } := by
  cases step with
  | parse document source => rfl
  | resolve document bindings => exact resolve_snd session document bindings
  | render document source bindings => exact render_snd session document source bindings

/-- Steps with a localizer are steps without one, on the sources that the localizer gives, and with
their texts put through the localizer. -/
theorem takeAll_localizedAt (session : Session) (stage : LocalizeStage)
    (localizer : String → String) (steps : List Step) :
    (session.localizedAt stage localizer).takeAll steps =
      (session.unlocalized.takeAll
        (steps.map (Step.mapSource (hookAt stage .beforeParse localizer)))).map
          (fun entry => (entry.1.mapText (hookAt stage .afterCompose localizer), entry.2)) := by
  induction steps generalizing session with
  | nil => rfl
  | cons step rest ih =>
    have next := take_snd session.unlocalized
      (step.mapSource (hookAt stage .beforeParse localizer))
    rw [takeAll, take_localizedAt, List.map_cons, takeAll, List.map_cons]
    dsimp only
    rw [ih, next]
    rfl

theorem mapSource_id (step : Step) : step.mapSource id = step := by
  cases step <;> rfl

theorem mapText_id (answer : Answer) : answer.mapText id = answer := by
  cases answer with
  | parsed result => rfl
  | resolved result => cases result <;> rfl
  | rendered result => cases result <;> rfl

/-- A localizer is a wrapper. Before parsing, every step of any session is answered as without the
localizer on the source that it gives, and leaves the same progress. After composing, every step is
answered as without the localizer, with the text of a success put through it, and leaves the same
progress. -/
theorem takeAll_wrapped (session : Session) (localizer : String → String) (steps : List Step) :
    (session.localizedAt .beforeParse localizer).takeAll steps =
      session.unlocalized.takeAll (steps.map (Step.mapSource localizer)) ∧
    (session.localizedAt .afterCompose localizer).takeAll steps =
      (session.unlocalized.takeAll steps).map
        (fun entry => (entry.1.mapText localizer, entry.2)) := by
  constructor
  · have before : hookAt .beforeParse .beforeParse localizer = localizer := rfl
    have after : hookAt .beforeParse .afterCompose localizer = id := rfl
    have same : (fun entry : Answer × Trail => (entry.1.mapText id, entry.2)) = id := by
      funext entry
      rw [mapText_id]
      rfl
    rw [takeAll_localizedAt, before, after, same, List.map_id]
  · have before : hookAt .afterCompose .beforeParse localizer = id := rfl
    have after : hookAt .afterCompose .afterCompose localizer = localizer := rfl
    have same : Step.mapSource id = id := funext mapSource_id
    rw [takeAll_localizedAt, before, after, same, List.map_id]

end Narrative.Session
