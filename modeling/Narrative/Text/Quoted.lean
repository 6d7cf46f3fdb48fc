import Narrative.Text.CharacterClass

/-!
Quoted texts and characters, as outlines and messages show them: the delimiter and the backslash
are escaped, tabs and line ends and the null character have short escapes, and whatever cannot be
seen on its own is written by its code point.
-/

set_option autoImplicit false

namespace Narrative.Quoted

/-- The digits of a number in base sixteen, in lower case. -/
def hex (code : Nat) : List Char := Nat.toDigits 16 code

/-- How one character is written between two delimiters. -/
def escape (delimiter c : Char) : List Char :=
  if c = '\t' then ['\\', 't']
  else if c = '\n' then ['\\', 'n']
  else if c = '\r' then ['\\', 'r']
  else if c.toNat = 0 then ['\\', '0']
  else if c = '\\' then ['\\', '\\']
  else if c = delimiter then ['\\', c]
  else if CharacterClass.isInvisible c ||
      (CharacterClass.isExtending c && !CharacterClass.isSoundMark c) then
    ['\\', 'u', '{'] ++ hex c.toNat ++ ['}']
  else [c]

/-- The characters of a quoted text. -/
def chars (delimiter : Char) (content : List Char) : List Char :=
  delimiter :: content.flatMap (escape delimiter) ++ [delimiter]

/-- A text between double quotes. -/
def text (content : String) : String := String.ofList (chars '"' content.toList)

/-- A character between single quotes. -/
def char (c : Char) : String := String.ofList (chars '\'' [c])

end Narrative.Quoted
