import Narrative.Document

/-!
Source texts as they are written. A piece of a source is a stretch of text or an embed, and an
embed keeps every character between its braces, so that `spell` gives back the text it was read
from.

    embed  = '{' opening (pieces '|')* pieces '}'
           | '{' opening gap line-break space entry+ '}'
    entry  = '-' space (label gap)? pieces

Labels end in a colon. Gaps are spaces and tabs, space may also hold line ends.
-/

set_option autoImplicit false

namespace Narrative.Written

def isGap (c : Char) : Bool := c == ' ' || c == '\t'

/-- The characters of the space around the entries of a block. -/
def isSpace (c : Char) : Bool := isGap c || c == '\r' || c == '\n'

def isLabel (c : Char) : Bool :=
  c != '\r' && c != '\n' && c != '|' && c != '{' && c != '}' && c != ':'

/-- The characters of text outside all embeds. -/
def isTopText (c : Char) : Bool := c != '{' && c != '}'

/-- The characters of text in an argument of an inline embed. -/
def isArgumentText (c : Char) : Bool :=
  c != '{' && c != '}' && c != '|' && c != '\r' && c != '\n'

/-- The characters of text in an entry of a block. -/
def isEntryText (c : Char) : Bool := c != '{' && c != '}' && c != '-'

/-- The signs that stand for a discipline. -/
inductive Sign where
  | tilde
  | ampersand
  | bang
deriving DecidableEq

namespace Sign

def char : Sign → Char
  | tilde => '~'
  | ampersand => '&'
  | bang => '!'

def ofChar? : Char → Option Sign
  | '~' => some tilde
  | '&' => some ampersand
  | '!' => some bang
  | _ => none

def discipline : Sign → Discipline
  | tilde => .shuffle
  | ampersand => .cycle
  | bang => .once

theorem ofChar?_char (sign : Sign) : ofChar? sign.char = some sign := by cases sign <;> rfl

end Sign

/-- What stands between the brace and the branches. -/
inductive Opening where
  | bare
  | sign (value : Sign) (gap : List Char)
  /-- A discipline spelled out, or a condition. -/
  | label (text gap : List Char)
deriving DecidableEq

def Opening.spell : Opening → List Char
  | bare => []
  | sign value gap => value.char :: gap
  | label text gap => text ++ ':' :: gap

/-- What stands before the content of an entry, after its dash. -/
structure Margin where
  space : List Char
  /-- The condition of the entry and the gap after its colon. -/
  label : Option (List Char × List Char)
deriving DecidableEq

def Margin.spell (margin : Margin) : List Char :=
  margin.space ++ match margin.label with
    | some (text, gap) => text ++ ':' :: gap
    | none => []

/-- What stands between the opening of a block and its first dash. -/
structure Break where
  gap : List Char
  /-- Whether a carriage return stands before the line feed. -/
  carriage : Bool
  space : List Char
deriving DecidableEq

def lineBreak (carriage : Bool) : List Char := if carriage then ['\r', '\n'] else ['\n']

def Break.spell (value : Break) : List Char :=
  value.gap ++ lineBreak value.carriage ++ value.space

mutual

inductive Piece where
  | text (chars : List Char)
  | embed (value : Embed)

/-- What stands between two braces. -/
inductive Embed where
  | inline (opening : Opening) (arguments : List (List Piece))
  | block (opening : Opening) (margin : Break) (entries : List Entry)

/-- A dash and what follows it. -/
structure Entry where
  margin : Margin
  pieces : List Piece

end

mutual

def Piece.spell : Piece → List Char
  | .text chars => chars
  | .embed value => value.spell

/-- The characters of an embed, braces included. -/
def Embed.spell : Embed → List Char
  | .inline opening arguments => '{' :: (opening.spell ++ spellArguments arguments ++ ['}'])
  | .block opening margin entries =>
    '{' :: (opening.spell ++ margin.spell ++ spellEntries entries ++ ['}'])

/-- The characters of an entry, from its dash on. -/
def Entry.spell : Entry → List Char
  | ⟨margin, pieces⟩ => '-' :: (margin.spell ++ spellPieces pieces)

def spellPieces : List Piece → List Char
  | [] => []
  | piece :: rest => piece.spell ++ spellPieces rest

/-- The characters of arguments, with bars between. -/
def spellArguments : List (List Piece) → List Char
  | [] => []
  | [pieces] => spellPieces pieces
  | pieces :: rest => spellPieces pieces ++ '|' :: spellArguments rest

def spellEntries : List Entry → List Char
  | [] => []
  | entry :: rest => entry.spell ++ spellEntries rest

end

/-- A stretch of text as a list of pieces, none if it is empty. -/
def textPieces (chars : List Char) : List Piece := if chars.isEmpty then [] else [.text chars]

@[simp] theorem spellPieces_textPieces (chars : List Char) :
    spellPieces (textPieces chars) = chars := by
  cases chars with
  | nil => simp [textPieces, spellPieces]
  | cons c rest => simp [textPieces, spellPieces, Piece.spell]

@[simp] theorem spellPieces_append (first second : List Piece) :
    spellPieces (first ++ second) = spellPieces first ++ spellPieces second := by
  induction first with
  | nil => simp [spellPieces]
  | cons piece rest ih => simp [spellPieces, ih]

end Narrative.Written
