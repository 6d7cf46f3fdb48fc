import Narrative.Resolution
import Narrative.Source.Error

/-!
Diagnostics: problems with a place in a source text, as reports to an author. Lines of a report are
counted by every Unicode line end, while the positions of the library know only the line feed.
-/

set_option autoImplicit false

namespace Narrative

/-- A problem with a place. -/
structure Diagnostic where
  /-- A stable code for the kind of problem. -/
  code : String
  message : String
  /-- Offset of the first byte that the report points at. -/
  start : Nat
  /-- Offset after the last byte that the report points at. -/
  stop : Nat
  /-- What stands beside the place. -/
  label : Option String
  notes : List String
deriving DecidableEq

namespace Diagnostic

/-- In one line, without the place. -/
def display (diagnostic : Diagnostic) : String :=
  "[" ++ diagnostic.code ++ "] " ++ diagnostic.message

def ofSyntax (error : SyntaxError) : Diagnostic where
  code := SyntaxError.code
  message := error.fault.message
  start := error.position.offset
  stop := error.position.offset + 1
  label := some "parsing stopped here"
  notes :=
    if error.expected.isEmpty then [] else ["expected " ++ SyntaxError.listing error.expected]

/-- How a broken rule can be mended. -/
def hint : Violation → String
  | .conditionalArity _ => "a conditional takes a branch for true and, optionally, one for false"
  | .emptyList => "give the list at least one branch"
  | .guardedConditionalBranch => "only the header of a conditional carries a guard"

def ofDefinition (error : DefinitionError) : Diagnostic where
  code := DefinitionError.code
  message := error.violation.message
  start := error.span.start.offset
  stop := error.span.stop.offset
  label := some ("directive " ++ error.identity)
  notes := [hint error.violation]

def ofEvaluation (error : EvaluationError) : Diagnostic where
  code := EvaluationError.code
  message := "cannot evaluate guard `" ++ error.guard.text ++ "`"
  start := error.guard.span.start.offset
  stop := error.guard.span.stop.offset
  label := some error.reason
  notes := []

def ofResolution : ResolutionError → Diagnostic
  | .definition error => ofDefinition error
  | .evaluation error => ofEvaluation error

/-- Whether a character ends a line of a report. A carriage return before a line feed does not. -/
def endsLine (c : Char) (next : Option Char) : Bool :=
  c == '\n' || c == '\x0B' || c == '\x0C' || c == '\u0085' || c == '\u2028' || c == '\u2029' ||
    (c == '\r' && next != some '\n')

/-- The line and column found `bytes` bytes after a given line and column. The end of a text that
ends a line still belongs to that line. -/
def walk : List Char → Nat → Nat → Nat → Nat × Nat
  | [], _, line, column => (line, column)
  | c :: text, bytes, line, column =>
    if bytes < c.utf8Size then (line, column)
    else if endsLine c text.head? && !text.isEmpty then walk text (bytes - c.utf8Size) (line + 1) 1
    else walk text (bytes - c.utf8Size) line (column + 1)

/-- The line and column of an offset in a report. -/
def locate (source : List Char) (offset : Nat) : Nat × Nat := walk source offset 1 1

/-- Whether a stretch of a text lies on more than one line of a report. -/
def isMultiLine (source : List Char) (start stop : Nat) : Bool :=
  start < stop && (locate source start).1 != (locate source (stop - 1)).1

/-- The first line of a text. A carriage return at its end belongs to the line end. -/
def firstLine (text : String) : String :=
  let line := text.toList.takeWhile (· != '\n')
  String.ofList (if line.getLast? = some '\r' then line.dropLast else line)

/-- What stands before a note, which has a number if there are several notes. -/
def noteLabel (count index : Nat) : String :=
  if count = 1 then "note: " else "note " ++ toString (index + 1) ++ ": "

/-- The lines of notes, one for each that is not empty. -/
def noteLines (notes : List String) : List String :=
  notes.zipIdx.filterMap (fun (note, index) =>
    if note.isEmpty then none else some (noteLabel notes.length index ++ firstLine note))

/-- The lines of a report without the excerpt: headline, place, and notes. Notes stand under the
excerpt of a single line only. -/
def report (diagnostic : Diagnostic) (source file : String) : List String :=
  let chars := source.toList
  let start := min diagnostic.start (byteLength chars)
  let stop := min diagnostic.stop (byteLength chars)
  let (line, column) := locate chars start
  ["[" ++ diagnostic.code ++ "] Error: " ++ firstLine diagnostic.message,
    "at " ++ file ++ ":" ++ toString line ++ ":" ++ toString column] ++
    if isMultiLine chars start stop then [] else noteLines diagnostic.notes

def reports (diagnostics : List Diagnostic) (source file : String) : List String :=
  diagnostics.flatMap (fun diagnostic => diagnostic.report source file)

end Diagnostic

namespace Document

/-- The diagnostics of the directives of a document that break a rule, in the order of the text. -/
def diagnostics (document : Document) : List Diagnostic :=
  document.directives.filterMap (fun directive =>
    directive.problem?.map Diagnostic.ofDefinition)

end Document

end Narrative
