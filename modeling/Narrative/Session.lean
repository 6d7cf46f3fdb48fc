import Narrative.Document.Parser
import Narrative.Guard.Comparison
import Narrative.Random.Keystream
import Narrative.Resolution
import Narrative.Store.Json

/-!
Sessions. A session keeps the progress of all lists it has shown, so that the next visit of a text
goes on where the last one ended. A visit that fails leaves no progress behind, though the random
words it drew stay drawn.
-/

set_option autoImplicit false

namespace Narrative

/-- When the localizer of a session is applied. -/
inductive LocalizeStage where
  /-- To a source text, before it is read. -/
  | beforeParse
  /-- To the resolved text. -/
  | afterCompose
deriving DecidableEq

structure Settings where
  /-- The seed of the random source. -/
  seed : UInt64 := 42
  maxDepth : Nat := 64
  naming : Naming := Naming.byOffset
  stage : LocalizeStage := .beforeParse

namespace Settings

/-- The settings with another bound on depth. No bound is less than one. -/
def withMaxDepth (settings : Settings) (depth : Nat) : Settings :=
  { settings with maxDepth := max depth 1 }

def parseOptions (settings : Settings) (document : String) : ParseOptions :=
  ParseOptions.withMaxDepth { document, naming := settings.naming } settings.maxDepth

end Settings

def comparisonEvaluator : Evaluator :=
  fun bindings guard => (GuardText.evaluate bindings guard).mapError GuardError.message

inductive SessionError where
  | malformed (error : SyntaxError)
  | unresolved (error : ResolutionError)
  /-- A saved state that cannot be read. -/
  | state
deriving DecidableEq

structure Session where
  settings : Settings
  evaluator : Evaluator
  localizer : Option (String → String)
  trail : Trail

namespace Session

def withSource (settings : Settings) (evaluator : Evaluator) (source : RandomSource) : Session :=
  ⟨settings, evaluator, none, ⟨.empty, source⟩⟩

/-- A session whose random source is that of its seed. -/
def new (settings : Settings) (evaluator : Evaluator) : Session :=
  withSource settings evaluator (Keystream.source settings.seed)

def store (session : Session) : Store := session.trail.store

def withStore (session : Session) (store : Store) : Session :=
  { session with trail := { session.trail with store } }

/-- Applies the localizer if its stage has come. -/
def localize (session : Session) (stage : LocalizeStage) (text : String) : String :=
  match session.localizer with
  | some localizer => if session.settings.stage = stage then localizer text else text
  | none => text

def parse (session : Session) (document source : String) : Except SyntaxError Document :=
  Document.parse (session.settings.parseOptions document)
    (session.localize .beforeParse source)

/-- Resolves a document. If that fails, the progress of its directives is put back to what it was,
which takes as long as the document and not as long as the store. -/
def resolve (session : Session) (document : Document) (bindings : Bindings) :
    Except ResolutionError String × Session :=
  match resolveNodes (session.evaluator bindings) document.nodes session.trail with
  | (.ok text, trail) => (.ok (session.localize .afterCompose text), { session with trail })
  | (.error error, trail) =>
    let identities := document.directives.map Directive.identity
    (.error error,
      { session with
        trail := { trail with store := session.store.putBack identities trail.store } })

def render (session : Session) (document source : String) (bindings : Bindings) :
    Except SessionError String × Session :=
  match session.parse document source with
  | .error error => (.error (.malformed error), session)
  | .ok document =>
    let (result, session) := session.resolve document bindings
    (result.mapError .unresolved, session)

def save (session : Session) : String := session.store.save

/-- Takes over the progress in a saved text. -/
def restore (session : Session) (text : String) : Except SessionError Session :=
  match Store.restore? text with
  | some store => .ok (session.withStore store)
  | none => .error .state

end Session

end Narrative
