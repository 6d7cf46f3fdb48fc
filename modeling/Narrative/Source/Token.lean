import Narrative.Text.Position

/-!
Tokens of a source text: the characters that shape directives, line breaks, and runs of all else.
They serve the checks of nesting that come before the grammar.
-/

set_option autoImplicit false

namespace Narrative

inductive Token where
  | openBrace
  | closeBrace
  | pipe
  | dash
  /-- A line feed, with the carriage return before it if there is one. -/
  | newline
  /-- A longest run of other characters, or a carriage return on its own. -/
  | text
deriving DecidableEq

namespace Token

/-- The token that a character forms whatever stands around it. -/
def ofMark? : Char → Option Token
  | '{' => some openBrace
  | '}' => some closeBrace
  | '|' => some pipe
  | '-' => some dash
  | '\n' => some newline
  | _ => none

/-- Whether a character belongs to a run of text. -/
def isOrdinary (c : Char) : Bool := (ofMark? c).isNone && c != '\r'

/-- Cuts a text into tokens, each with its characters. -/
def split : List Char → List (Token × List Char)
  | [] => []
  | c :: rest =>
    match ofMark? c with
    | some token => (token, [c]) :: split rest
    | none =>
      if c = '\r' then
        if rest.head? = some '\n' then (newline, ['\r', '\n']) :: split rest.tail
        else (text, ['\r']) :: split rest
      else (text, c :: rest.takeWhile isOrdinary) :: split (rest.dropWhile isOrdinary)
termination_by source => source.length
decreasing_by
  all_goals simp only [List.length_cons, List.length_tail]
  · omega
  · omega
  · omega
  · exact Nat.lt_succ_of_le (List.dropWhile_suffix _).length_le

end Token

/-- A token and the bytes it covers. -/
structure Lexeme where
  token : Token
  start : Nat
  stop : Nat
deriving DecidableEq

namespace Lexeme

/-- Gives each piece of a text its byte offsets, the first piece starting at `start`. -/
def place : Nat → List (Token × List Char) → List Lexeme
  | _, [] => []
  | start, (token, chars) :: rest =>
    ⟨token, start, start + byteLength chars⟩ :: place (start + byteLength chars) rest

/-- The tokens of a source text with the bytes they cover. -/
def ofSource (source : List Char) : List Lexeme := place 0 (Token.split source)

end Lexeme

/-- The deepest point of the braces of a text. -/
structure Nesting where
  /-- Greatest number of braces open at once. -/
  depth : Nat
  /-- Offset of the first brace that reaches that depth. -/
  deepest : Nat
deriving DecidableEq

namespace Nesting

/-- Follows the depth of the open braces, from `depth` on, and keeps the deepest point. A closing
brace at depth zero is passed over. -/
def scan : Nat → Nesting → List Lexeme → Nesting
  | _, found, [] => found
  | depth, found, lexeme :: rest =>
    match lexeme.token with
    | .openBrace =>
      scan (depth + 1) (if found.depth < depth + 1 then ⟨depth + 1, lexeme.start⟩ else found) rest
    | .closeBrace => scan (depth - 1) found rest
    | _ => scan depth found rest

def ofSource (source : List Char) : Nesting := scan 0 ⟨0, 0⟩ (Lexeme.ofSource source)

end Nesting

/-- Follows the stack of open braces, innermost first. -/
def openBraces : List Nat → List Lexeme → List Nat
  | stack, [] => stack
  | stack, lexeme :: rest =>
    match lexeme.token with
    | .openBrace => openBraces (lexeme.start :: stack) rest
    | .closeBrace => openBraces stack.tail rest
    | _ => openBraces stack rest

/-- Offset of the innermost brace still open at the end of a source text. -/
def unclosedBrace? (source : List Char) : Option Nat :=
  (openBraces [] (Lexeme.ofSource source)).head?

end Narrative
