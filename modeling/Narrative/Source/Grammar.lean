import Narrative.Document.Parser

/-!
The grammar of source texts as rules that try one form after the other. A rule that fails gives the
text back for another one, but the furthest place where any rule had to give up is never forgotten,
and the error of a malformed text is made of it.

    source    = (text | embed)*
    embed     = block | inline
    inline    = '{' (condition | sequence type)? argument ('|' argument)* '}'
    block     = '{' (condition | sequence type)? newline ('-' space condition? content space)+ '}'

The rule for embeds is recursive, and no depth bounds it. `bounded` is the same rule with a bound on
the braces that stand open.
-/

set_option autoImplicit false

namespace Narrative.Grammar

open Written

/-! ### Failures -/

/-- A place where a rule could not go on. Places are given by the text from there on. -/
structure Failure where
  rest : List Char
  /-- Where the error is reported. -/
  start : List Char
  /-- The character that was found. There is none at the end of the text. -/
  found : Option Char
  expected : List Expected
deriving DecidableEq

/-- The failure of a rule that looks at the next character. -/
def Failure.at (rest : List Char) (expected : List Expected) : Failure :=
  ⟨rest, rest, rest.head?, expected⟩

abbrev Furthest := Option Failure

namespace Furthest

/-- The further one of two failures. Of two at one place, the later one adds what it expected, and
what it found if the earlier one found nothing. -/
def add (known : Furthest) (failure : Failure) : Furthest :=
  match known with
  | none => some failure
  | some known =>
    if failure.rest.length < known.rest.length then some failure
    else if failure.rest.length = known.rest.length then
      some { known with
        found := known.found.or failure.found
        expected := known.expected ++ failure.expected }
    else some known

/-- The further one of two failures, the second of which was found by a rule with a label. Of two at
one place, the later one only adds what it expected. -/
def merge (known : Furthest) (inner : Furthest) : Furthest :=
  match known, inner with
  | known, none => known
  | none, some inner => some inner
  | some known, some inner =>
    if inner.rest.length < known.rest.length then some inner
    else if inner.rest.length = known.rest.length then
      some { known with expected := known.expected ++ inner.expected }
    else some known

/-- What a rule with a label expected at its own beginning is what the label says. -/
def relabel (source : List Char) (label : Expected) (inner : Furthest) : Furthest :=
  inner.map (fun failure =>
    if failure.rest.length = source.length then { failure with expected := [label] } else failure)

end Furthest

/-! ### Rules -/

/-- A rule reads a value from the front of a text. It is given the furthest failure so far and gives
back the furthest one after it, whether it succeeds or not. -/
def Rule (α : Type) := List Char → Furthest → Option (α × List Char) × Furthest

instance : Monad Rule where
  pure value := fun source furthest => (some (value, source), furthest)
  bind rule next := fun source furthest =>
    match rule source furthest with
    | (some (value, rest), furthest) => next value rest furthest
    | (none, furthest) => (none, furthest)

section

variable {α β : Type}

theorem bind_of_some {rule : Rule α} {next : α → Rule β} {source rest : List Char} {value : α}
    {furthest later : Furthest} (read : rule source furthest = (some (value, rest), later)) :
    (rule >>= next) source furthest = next value rest later := by
  show (match rule source furthest with
    | (some (value, rest), furthest) => next value rest furthest
    | (none, furthest) => (none, furthest)) = _
  rw [read]

theorem bind_of_none {rule : Rule α} {next : α → Rule β} {source : List Char}
    {furthest later : Furthest} (refused : rule source furthest = (none, later)) :
    (rule >>= next) source furthest = (none, later) := by
  show (match rule source furthest with
    | (some (value, rest), furthest) => next value rest furthest
    | (none, furthest) => (none, furthest)) = _
  rw [refused]

/-- Reads one character. -/
def one (accept : Char → Bool) (expected : List Expected) : Rule Char := fun source furthest =>
  match source with
  | c :: rest =>
    if accept c then (some (c, rest), furthest)
    else (none, furthest.add (.at (c :: rest) expected))
  | [] => (none, furthest.add (.at [] expected))

def char (c : Char) : Rule Char := one (· == c) [.char c]

def word : List Char → Rule Unit
  | [] => pure ()
  | c :: rest => do
    let _ ← char c
    word rest

/-- Reads nothing. -/
def fail : Rule α := fun _ furthest => (none, furthest)

/-- Tries a second rule where the first one fails. -/
def orElse (first second : Rule α) : Rule α := fun source furthest =>
  match first source furthest with
  | (some found, furthest) => (some found, furthest)
  | (none, furthest) => second source furthest

/-- Tries one rule after the other. -/
def firstOf (rules : List (Rule α)) : Rule α := rules.foldr orElse fail

/-- Tries a rule, and reads nothing where it fails. -/
def optional (rule : Rule α) : Rule (Option α) :=
  orElse (do let value ← rule; pure (some value)) (pure none)

/-- Repeats a rule as long as it succeeds and reads something. -/
def many (rule : Rule α) (source : List Char) (furthest : Furthest) :
    Option (List α × List Char) × Furthest :=
  match rule source furthest with
  | (none, furthest) => (some ([], source), furthest)
  | (some (value, rest), furthest) =>
    if rest.length < source.length then
      match many rule rest furthest with
      | (some (values, rest), furthest) => (some (value :: values, rest), furthest)
      | (none, furthest) => (none, furthest)
    else (some ([], source), furthest)
termination_by source.length

def oneOrMore (rule : Rule α) : Rule (List α) := do
  let first ← rule
  let more ← many rule
  pure (first :: more)

/-- Reads a closing brace after a rule. -/
def closed (rule : Rule α) : Rule α := do
  let value ← rule
  let _ ← char '}'
  pure value

/-- Calls what a rule expects by one name. -/
def labelled (label : Expected) (rule : Rule α) : Rule α := fun source furthest =>
  let (result, inner) := rule source none
  (result, furthest.merge (inner.relabel source label))

/-- Refuses some of the values of a rule, after they are read. -/
def filter (accept : α → Bool) (rule : Rule α) : Rule α := fun source furthest =>
  match rule source furthest with
  | (some (value, rest), furthest) =>
    if accept value then (some (value, rest), furthest)
    else (none, furthest.add ⟨rest, source, none, []⟩)
  | (none, furthest) => (none, furthest)

/-- Reads nothing, at the end of the text. -/
def ended : Rule Unit := fun source furthest =>
  match source with
  | [] => (some ((), []), furthest)
  | c :: rest => (none, furthest.add (.at (c :: rest) [.endOfInput]))

end

/-! ### The grammar -/

def gap : Rule (List Char) := many (one isGap [.char ' ', .char '\t'])

def space : Rule (List Char) := many (one isSpace spaces)

/-- A line break. Its value is whether it begins with a carriage return. -/
def newline : Rule Bool :=
  labelled .newline do
    let carriage ← optional (char '\r')
    let _ ← char '\n'
    pure carriage.isSome

/-- A spelled out discipline. Its value awaits the gap after it. -/
def marker (kind : Discipline) : Rule (List Char → Opening) := do
  word kind.marker.toList
  pure (.label kind.word.toList)

/-- A sign for a discipline. Its value awaits the gap after it. -/
def sign (value : Sign) : Rule (List Char → Opening) := do
  let _ ← char value.char
  pure (.sign value)

/-- The markers and signs, in the order in which they are tried. -/
def sequenceTypes : List (Rule (List Char → Opening)) :=
  [marker .stopping, marker .shuffle, marker .cycle, marker .once,
    sign .tilde, sign .ampersand, sign .bang]

def sequenceType : Rule Opening :=
  labelled .sequenceType do
    let opening ← firstOf sequenceTypes
    let gap ← gap
    pure (opening gap)

/-- A condition and the gap after its colon. -/
def condition : Rule (List Char × List Char) :=
  labelled .condition do
    let text ← oneOrMore (one isLabel [])
    let _ ← char ':'
    let gap ← gap
    pure (text, gap)

/-- A condition before the branches. Spelled out disciplines are none. -/
def headerCondition : Rule Opening := do
  let found ← filter (fun found => (Discipline.ofWord? (String.ofList found.1)).isNone) condition
  pure (.label found.1 found.2)

def header : Rule Opening := do
  let found ← optional (orElse headerCondition sequenceType)
  pure (found.getD .bare)

def text (accept : Char → Bool) : Rule Piece :=
  labelled .text do
    let run ← oneOrMore (one accept [])
    pure (.text run)

def pieces (accept : Char → Bool) (embed : Rule Embed) : Rule (List Piece) :=
  many (orElse (text accept) do
    let value ← embed
    pure (.embed value))

def barred (embed : Rule Embed) : Rule (List Piece) := do
  let _ ← char '|'
  pieces isArgumentText embed

def arguments (embed : Rule Embed) : Rule (List (List Piece)) := do
  let first ← pieces isArgumentText embed
  let more ← many (barred embed)
  pure (first :: more)

def inline (embed : Rule Embed) : Rule Embed := do
  let _ ← char '{'
  let opening ← header
  let arguments ← closed (arguments embed)
  pure (.inline opening arguments)

/-- What stands between a dash and the content of its entry. -/
def margin : Rule Margin := do
  let before ← space
  let guard ← optional condition
  pure ⟨before, guard⟩

/-- A dash and what follows it. The space after the content is not part of it. -/
def entry (embed : Rule Embed) : Rule Entry := do
  let _ ← char '-'
  let margin ← margin
  let content ← pieces isEntryText embed
  let _ ← space
  pure ⟨margin, content⟩

def branch (embed : Rule Embed) : Rule Entry := labelled .branch (entry embed)

/-- What stands below the line of the opening of a block. -/
def below (embed : Rule Embed) (opening : Opening) (gap : List Char) (carriage : Bool) :
    Rule Embed := do
  let space ← space
  let entries ← closed (oneOrMore (branch embed))
  pure (.block opening ⟨gap, carriage, space⟩ entries)

def block (embed : Rule Embed) : Rule Embed := do
  let _ ← char '{'
  let opening ← header
  let gap ← gap
  let carriage ← newline
  below embed opening gap carriage

/-- The rule for embeds, given the rule for the embeds inside. -/
def embedWith (embed : Rule Embed) : Rule Embed :=
  labelled .directive (orElse (block embed) (inline embed))

/-- The rule for embeds where it can take an opening brace only inside fewer than `depth` braces
that are still open. What it does with any other opening brace is up to `beyond`. -/
def bounded (beyond : Rule Embed) : Nat → Rule Embed
  | 0 => fun source furthest =>
    if source.head? = some '{' then beyond source furthest
    else embedWith beyond source furthest
  | depth + 1 => embedWith (bounded beyond depth)

/-- The rule for embeds. Each embed takes a character, so there are fewer in each other than a text
is long. -/
def embed : Rule Embed := fun source furthest => bounded fail source.length source furthest

/-- The rule for a whole source text, given the rule for embeds. -/
def source (embed : Rule Embed) : Rule (List Piece) := do
  let found ← pieces isTopText embed
  ended
  pure found

/-! ### Documents -/

/-- The fault of a text whose furthest failure found the given character. -/
def faultOf (source : List Char) : Option Char → SyntaxFault
  | some c => .unexpected c
  | none =>
    match unclosedBrace? source with
    | some opened => .unterminated (Position.ofOffset source opened)
    | none => .endOfInput

/-- The error of a text with the given furthest failure. -/
def Failure.toError (source : List Char) (failure : Failure) : SyntaxError where
  fault := faultOf source failure.found
  position := Position.ofOffset source (byteLength source - byteLength failure.start)
  expected := ((failure.expected.map Expected.display).mergeSort (· ≤ ·)).eraseReps

/-- What comes of a source text with a rule for embeds: its document, or the error of the furthest
failure. -/
def outcome (options : ParseOptions) (embed : Rule Embed) (text : String) :
    Except SyntaxError Document :=
  match source embed text.toList none with
  | (some (found, _), _) =>
    .ok ⟨options.document, (placePieces (options.naming options.document) .start found).1⟩
  | (none, furthest) => .error ((furthest.getD (.at [] [])).toError text.toList)

end Narrative.Grammar
