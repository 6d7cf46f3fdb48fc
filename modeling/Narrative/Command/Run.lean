import Narrative.Command.Arguments
import Narrative.Command.Files
import Narrative.Diagnostic
import Narrative.Document.Outline
import Narrative.Session
import Narrative.Text.Table

/-!
What the commands do. A command sees files through a view and gives what it prints, how it ends,
and the state file that it wants written, which is nothing if it failed before.
-/

set_option autoImplicit false

namespace Narrative

structure Outcome where
  /-- The exit code. -/
  code : Nat
  /-- What is printed. -/
  output : String
  /-- The lines of messages to the author. -/
  messages : List String
  /-- A path and the text to be written there. -/
  save : Option (String × String)
deriving DecidableEq

namespace Outcome

def success (output : String) : Outcome := ⟨0, output, [], none⟩

/-- A command that fails with a reason, after some output and messages. -/
def failure (output : String) (messages : List String) (reason : String) : Outcome :=
  ⟨1, output, messages ++ ["error: " ++ reason], none⟩

/-- A command line that is not understood. -/
def misuse : Outcome := ⟨2, "", [], none⟩

/-- The version of the program, under the name of the program or of a subcommand. -/
def version (subcommand : Option Subcommand) : Outcome :=
  let name := match subcommand with
    | some subcommand => "varia-" ++ subcommand.name
    | none => "varia"
  success (name ++ " 0.1.0\n")

/-- The outcome once the text to be saved has been written, or could not be. -/
def afterSaving (outcome : Outcome) (path : String) : Except FileError Unit → Outcome
  | .ok _ => { outcome with save := none }
  | .error error =>
    failure outcome.output outcome.messages ("cannot write " ++ path ++ ": " ++ error.message)

end Outcome

namespace Action

def unreadable (file : String) (error : FileError) : String :=
  "cannot read " ++ file ++ ": " ++ error.message

/-- The messages of diagnostics: their reports and their number. -/
def diagnosticLines (diagnostics : List Diagnostic) (source file : String) : List String :=
  let count := diagnostics.length
  Diagnostic.reports diagnostics source file ++
    ["  " ++ toString count ++ (if count = 1 then " error" else " errors")]

/-- Reads a file and goes on with its text and its document. -/
def withDocument (view : FileView) (file : String) (next : String → Document → Outcome) :
    Outcome :=
  match view file with
  | .error error => .failure "" [] (unreadable file error)
  | .ok source =>
    match Document.parse { document := documentName file } source with
    | .error error =>
      .failure "" (diagnosticLines [.ofSyntax error] source file)
        ("syntax error at " ++ error.position.display)
    | .ok document => next source document

def layoutWord : Layout → String
  | .inline => "inline"
  | .multiLine => "multi-line"

/-- The guards of a directive: that of its heading and those of its branches. -/
def guards (directive : Directive) : List Guard :=
  directive.guard?.toList ++ directive.branches.filterMap Branch.guard

/-- The cells of a directive in the table of a check. -/
def cells (directive : Directive) : List String :=
  let guards := guards directive
  [directive.identity, directive.kind.word, layoutWord directive.layout,
    directive.span.start.display, toString directive.branches.length,
    if guards.isEmpty then "—" else String.intercalate ", " (guards.map Guard.text)]

def lines (texts : List String) : String := String.join (texts.map (· ++ "\n"))

/-- Checks every directive of a document and lists them in a table. -/
def checkDocument (file source : String) (document : Document) : Outcome :=
  let diagnostics := document.diagnostics
  let directives := document.directives
  if !diagnostics.isEmpty then
    .failure "" (diagnosticLines diagnostics source file)
      (toString diagnostics.length ++ " invalid directive(s)")
  else if directives.isEmpty then .success (lines ["  " ++ file ++ " contains no directives."])
  else
    let header := ["Identity", "Kind", "Form", "At", "Branches", "Guards"]
    .success (lines (Table.render header (directives.map cells) ++
      ["", "  All checks passed: " ++ toString directives.length ++ " directives in " ++ file]))

/-- Resolves a document so many times, numbering the visits from `visit` on if there are several
in all. Gives what was printed, and the session or the error that ended it. -/
def visits (document : Document) (bindings : Bindings) (numbered : Bool) :
    Nat → Nat → Session → String × Except ResolutionError Session
  | 0, _, session => ("", .ok session)
  | count + 1, visit, session =>
    match session.resolve document bindings with
    | (.error error, _) => ("", .error error)
    | (.ok text, session) =>
      let label := if numbered then "[" ++ toString visit ++ "] " else ""
      let (more, result) := visits document bindings numbered count (visit + 1) session
      (label ++ text ++ "\n" ++ more, result)

/-- The session of a rendering, with the progress of its state file if there is one. -/
def startSession (view : FileView) (options : RenderOptions) : Except String Session :=
  let session := Session.new { seed := options.seed } comparisonEvaluator
  match options.state with
  | none => .ok session
  | some path =>
    match view path with
    | .ok text =>
      match session.restore text with
      | .ok session => .ok session
      | .error _ => .error (path ++ ": invalid sequence state")
    | .error error => if view.has path then .error (unreadable path error) else .ok session

def bindings? (options : RenderOptions) : Option Bindings :=
  match options.bindings with
  | some text => Bindings.ofString? text
  | none => some .empty

/-- Resolves a document, visit by visit. Progress is saved only after the last visit. -/
def renderDocument (view : FileView) (options : RenderOptions) (file source : String)
    (document : Document) : Outcome :=
  match bindings? options with
  | none => .failure "" [] "invalid --vars"
  | some bindings =>
    match startSession view options with
    | .error reason => .failure "" [] reason
    | .ok session =>
      match visits document bindings (1 < options.visits) options.visits 1 session with
      | (output, .error error) =>
        .failure output (diagnosticLines [.ofResolution error] source file) error.message
      | (output, .ok session) =>
        { Outcome.success output with
          save := options.state.map (fun path => (path, session.store.savePretty)) }

/-- Runs a command on the files that it sees. -/
def run (view : FileView) : Action → Outcome
  | check file => withDocument view file (checkDocument file)
  | tree file => withDocument view file (fun _ document => .success (lines [document.outline]))
  | render file options => withDocument view file (renderDocument view options file)

/-- The paths that a command may read. -/
def paths : Action → List String
  | check file => [file]
  | tree file => [file]
  | render file options => file :: options.state.toList

end Action

namespace Directory

/-- Carries out an action in a directory, and gives the directory it leaves. -/
def perform (directory : Directory) (action : Action) : Outcome × Directory :=
  let outcome := action.run directory.view
  match outcome.save with
  | none => (outcome, directory)
  | some (path, text) =>
    match directory.write path text with
    | .ok written => (outcome.afterSaving path (.ok ()), written)
    | .error error => (outcome.afterSaving path (.error error), directory)

/-- Runs a command line in a directory. One that is not understood changes nothing. -/
def run (directory : Directory) (words : List String) : Outcome × Directory :=
  match Request.ofWords? words with
  | none => (.misuse, directory)
  | some (.version subcommand) => (.version subcommand, directory)
  | some (.perform action) => directory.perform action

end Directory

end Narrative
