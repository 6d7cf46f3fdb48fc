import Narrative.Source.Reader
import Narrative.Source.Token
import Narrative.Text.Quoted

/-!
Errors of malformed source texts: where reading stopped, why, and what could have come there.
-/

set_option autoImplicit false

namespace Narrative

/-- Something that could have come next. -/
inductive Expected where
  | char (c : Char)
  | text
  | directive
  | branch
  | condition
  | sequenceType
  | newline
  | endOfInput
deriving DecidableEq

def Expected.display : Expected → String
  | .char c => Quoted.char c
  | .text => "text"
  | .directive => "directive"
  | .branch => "branch"
  | .condition => "condition"
  | .sequenceType => "sequence type"
  | .newline => "newline"
  | .endOfInput => "end of input"

namespace Written

/-- The characters that continue a marker which is spelled out up to the end of `run`. -/
def markerContinuations (run : List Char) : List Expected :=
  Discipline.all.filterMap (fun kind =>
    let marker := kind.marker.toList
    if run.isPrefixOf marker then (marker.drop run.length).head?.map .char else none)

/-- Whether a line break could follow: at most a sign and a gap have been written. -/
def mayBreak : List Char → Bool
  | [] => true
  | c :: rest => (isGap c || (Sign.ofChar? c).isSome) && rest.all isGap

def afterArgument : List Expected := [.char '|', .char '}', .directive, .text]

/-- What can stand in the space before or inside an entry. -/
def spaces : List Expected := [.char ' ', .char '\t', .char '\r', .char '\n']

def afterEntry : List Expected := spaces ++ [.char '}', .branch, .directive, .text]

/-- The colon, if a label may still be open. -/
def colonIf (labelOpen : Bool) : List Expected := if labelOpen then [.char ':'] else []

/-- All that could have come where a reader stopped. -/
def Awaiting.expected : Awaiting → List Expected
  | piece => [.directive, .endOfInput, .text]
  | opening run =>
    afterArgument ++
      (if run.isEmpty then [.condition, .sequenceType]
        else .char ':' :: markerContinuations run) ++
      (if mayBreak run then [.char ' ', .char '\t', .newline] else [])
  | content => [.char ' ', .char '\t', .newline] ++ afterArgument
  | lineFeed => [.char '\n']
  | argument => afterArgument
  | dash => spaces ++ [.branch]
  | entry labelOpen => afterEntry ++ .condition :: colonIf labelOpen
  | entryContent labelOpen => afterEntry ++ colonIf labelOpen

end Written

inductive SyntaxFault where
  /-- A character that cannot stand where it does. -/
  | unexpected (c : Char)
  /-- The text ends inside the directive that opens at the given place. -/
  | unterminated (opened : Position)
  /-- The text ends where more must follow. -/
  | endOfInput
  /-- More open directives than are allowed. -/
  | tooDeep (limit : Nat)
deriving DecidableEq

def SyntaxFault.message : SyntaxFault → String
  | .unexpected c => "unexpected " ++ Quoted.char c
  | .unterminated opened => "unterminated directive opened at " ++ opened.display
  | .endOfInput => "unexpected end of input"
  | .tooDeep limit => "directives nested deeper than " ++ toString limit ++ " levels"

structure SyntaxError where
  fault : SyntaxFault
  /-- Where reading stopped. -/
  position : Position
  /-- What could have come there, in the order of the displayed forms, each once. -/
  expected : List String
deriving DecidableEq

namespace SyntaxError

def code : String := "varia::syntax"

/-- The expected items as a choice. -/
def listing (items : List String) : String := String.intercalate " or " items

def message (error : SyntaxError) : String :=
  error.fault.message ++ " at " ++ error.position.display ++
    (if error.expected.isEmpty then "" else ", expected " ++ listing error.expected)

/-- The error of a text in which reading stopped. -/
def ofStuck (source : List Char) (stuck : Written.Stuck) : SyntaxError where
  fault := match stuck.rest with
    | c :: _ => .unexpected c
    | [] => match unclosedBrace? source with
      | some opened => .unterminated (Position.ofOffset source opened)
      | none => .endOfInput
  position := Position.ofOffset source (byteLength source - byteLength stuck.rest)
  expected := ((stuck.awaiting.expected.map Expected.display).mergeSort (· ≤ ·)).eraseReps

/-- The error of a text that nests directives too deep. -/
def ofNesting (source : List Char) (nesting : Nesting) (limit : Nat) : SyntaxError where
  fault := .tooDeep limit
  position := Position.ofOffset source nesting.deepest
  expected := []

end SyntaxError

end Narrative
