import Narrative.Text.Emoji
import Narrative.Text.Ligature

/-!
The number of terminal columns that a text takes. The characters of a text are counted from its
right end: what a character adds depends on what stands to its right, since emoji sequences, flags
and ligatures take fewer columns than their characters one by one.
-/

set_option autoImplicit false

namespace Narrative

namespace Width

/-- An emoji sequence whose part on the right begins with a joiner or a closing sign. -/
inductive JoinedEmoji where
  | sequence
  /-- The sign that puts a keycap around the character before it. -/
  | keycap
  /-- One regional indicator. -/
  | indicator
  /-- An odd number of regional indicators beyond one. -/
  | oddIndicators
  /-- An even number of regional indicators. -/
  | evenIndicators
  /-- The tags at the end of the flag of a region, letters and after them digits. -/
  | tags (letters digits : Nat)
deriving DecidableEq

/-- What stands to the right of a character, as far as it changes the columns of the character. -/
inductive Neighbour where
  | plain
  | lineFeed
  /-- Arabic alef, perhaps after marks. -/
  | alef
  /-- The right end of a ligature, and whether a joiner stands before it. -/
  | ligature (ending : LigatureEnd) (joined : Bool)
  /-- The Kirat Rai vowel sign E, which other signs double. -/
  | vowelE
  /-- The Kirat Rai vowel sign AI. -/
  | vowelAI
  | emoji
  | tone
  /-- Regional indicators, and whether there are several. -/
  | indicators (several : Bool)
  | joined (part : JoinedEmoji)
deriving DecidableEq

/-- A variation selector, which changes the look of the character before it. -/
inductive Selector where
  | emoji
  | text
  /-- The second variation selector, which makes quotation marks wide. -/
  | wideQuote
deriving DecidableEq

def Selector.ofChar? (c : Char) : Option Selector :=
  match c.toNat with
  | 0xFE0F => some .emoji
  | 0xFE0E => some .text
  | 0xFE01 => some .wideQuote
  | _ => none

/-- What the columns of a character depend on: the neighbour, and a selector before it. -/
structure Context where
  neighbour : Neighbour
  selector : Option Selector
deriving DecidableEq

namespace Neighbour

/-- The neighbour without a selector. -/
def bare (neighbour : Neighbour) : Context := ⟨neighbour, none⟩

/-- Whether a letter to the left can complete a ligature, across a selector too. -/
def endsLigature : Neighbour → Bool
  | alef | ligature _ _ => true
  | _ => false

/-- Whether an emoji to the left becomes part of the emoji on the right. -/
def takesEmoji : Neighbour → Bool
  | joined .sequence | joined .keycap => true
  | _ => false

/-- The neighbour that a character is if it combines with nothing on its right. -/
def ofChar (c : Char) : Neighbour :=
  if Ligature.isAlef c then alef
  else if Emoji.isIndicator c then indicators false
  else if Emoji.isTone c then tone
  else if Emoji.isPresented c then emoji
  else
    match LigatureEnd.ofChar? c with
    | some ending => ligature ending false
    | none =>
      match c.toNat with
      | 0x16D67 => vowelE
      | 0x16D68 => vowelAI
      | _ => plain

end Neighbour

namespace Context

/-- The context once a selector stands before it. A ligature goes on across every selector, a
joined emoji across the one that asks for an emoji. -/
def select (context : Context) (selector : Selector) : Context :=
  if context.neighbour.endsLigature || (selector == .emoji && context.neighbour.takesEmoji) then
    ⟨context.neighbour, some selector⟩
  else ⟨.plain, some selector⟩

/-- The context of a character that a selector says nothing about. -/
def withoutSelector (context : Context) : Context :=
  if context.selector.isNone || context.neighbour.endsLigature then context.neighbour.bare
  else Neighbour.plain.bare

end Context

/-- What a character adds to the columns of a text, and the context of the character before it. -/
abbrev Step := Int × Context

/-- The columns of one character that stands alone. Two Khmer signs are as wide as the letters
they abbreviate. -/
def alone (c : Char) : Nat :=
  if CharacterClass.isColumnless c then 0
  else if c.toNat = 0x17D8 then 3
  else if c.toNat = 0x17A4 ∨ CharacterClass.isWide c then 2
  else 1

/-- A character that combines with nothing on its right. -/
def single (c : Char) : Step :=
  match Selector.ofChar? c with
  | some selector => (0, ⟨.plain, some selector⟩)
  | none => (alone c, (Neighbour.ofChar c).bare)

/-- A letter that completes a ligature, or a sign within it. -/
def ligate (c : Char) (joined : Bool) : LigatureEnd → Option (Int × Neighbour)
  | .lamed => if joined ∧ c.toNat = 0x5D0 then some (0, .plain) else none
  | .subscriptLetter => if c.toNat = 0x17D2 then some (-1, .plain) else none
  | .ya => if joined ∧ c.toNat = 0x1A17 then some (0, .ligature .vowelledYa false) else none
  | .vowelledYa => if c.toNat = 0x1A15 then some (0, .plain) else none
  | .consonant =>
    if c.toNat = 0x2D7F then some (1, .ligature .joinedConsonant false)
    else if joined ∧ Ligature.isConsonant c then some (0, .plain)
    else none
  | .joinedConsonant => if Ligature.isConsonant c then some (-1, .plain) else none
  | .tone => if 0xA4F8 ≤ c.toNat ∧ c.toNat ≤ 0xA4FB then some (0, .plain) else none
  | .orkhonI => if joined ∧ c.toNat = 0x10C32 then some (0, .plain) else none

/-- An emoji before the tags of a region: three to six letters, or three digits. -/
def isRegion (letters digits : Nat) : Bool := digits == 3 || (digits == 0 && 3 ≤ letters)

/-- A tag before other tags of a region, or the flag before all of them. -/
def tag (c : Char) (letters digits : Nat) : Option (Int × Neighbour) :=
  if 0xE0061 ≤ c.toNat ∧ c.toNat ≤ 0xE007A ∧ digits = 0 ∧ letters < 6 then
    some (0, .joined (.tags (letters + 1) 0))
  else if 0xE0030 ≤ c.toNat ∧ c.toNat ≤ 0xE0039 ∧ digits < 3 ∧ (0 < digits ∨ letters ≤ 4) then
    some (0, .joined (.tags letters (digits + 1)))
  else if c.toNat = 0x1F3F4 ∧ isRegion letters digits then some (0, .emoji)
  else none

/-- A character before a joined emoji. -/
def joinEmoji (c : Char) : JoinedEmoji → Option (Int × Neighbour)
  | .sequence =>
    if c.toNat = 0x20E3 then some (0, .joined .keycap)
    else if Emoji.isIndicator c then some (1, .joined .indicator)
    else if Emoji.isTone c then some (0, .tone)
    else if c.toNat = 0xE007F then some (0, .joined (.tags 0 0))
    else if Emoji.isPresented c then some (0, .emoji)
    else none
  | .keycap => none
  | .indicator => if Emoji.isIndicator c then some (-1, .joined .evenIndicators) else none
  | .oddIndicators =>
    if Emoji.isIndicator c then some (-1, .joined .evenIndicators)
    else if c = '\u200D' then some (0, .joined .sequence)
    else none
  | .evenIndicators =>
    if Emoji.isIndicator c then some (3, .joined .oddIndicators)
    else if c = '\u200D' then some (0, .joined .sequence)
    else none
  | .tags letters digits => tag c letters digits

/-- A character that combines with its neighbour: what it adds, and the neighbour of the character
before it. -/
def combine (c : Char) : Neighbour → Option (Int × Neighbour)
  | .alef =>
    if Ligature.isLam c then some (0, .plain)
    else if Ligature.isJoinedAcross c then some (0, .alef)
    else none
  | .ligature ending joined =>
    if c = '\u200D' then some (0, .ligature ending true)
    else if Ligature.isTransparent c then some (0, .ligature ending joined)
    else ligate c joined ending
  | .vowelE =>
    match c.toNat with
    | 0x16D63 => some (0, .plain)
    | 0x16D67 => some (0, .vowelAI)
    | 0x16D68 => some (1, .vowelE)
    | 0x16D69 => some (0, .plain)
    | _ => none
  | .vowelAI => if c.toNat = 0x16D63 then some (0, .plain) else none
  | .emoji => if c = '\u200D' then some (0, .joined .sequence) else none
  | .tone =>
    if Emoji.isToned c then some (0, .emoji)
    else if c = '\u200D' then some (0, .joined .sequence)
    else none
  | .indicators several =>
    if Emoji.isIndicator c then some (1, .indicators true)
    else if several ∧ c = '\u200D' then some (0, .joined .sequence)
    else none
  | .joined part => joinEmoji c part
  | .plain | .lineFeed => none

/-- What a character adds before a neighbour without a selector. -/
def beforeNeighbour (c : Char) (neighbour : Neighbour) : Step :=
  match combine c neighbour with
  | some (columns, neighbour) => (columns, neighbour.bare)
  | none => single c

/-- What a character up to the space without a break adds. Controls take a column, but a carriage
return and a line feed together take one. -/
def basic (c : Char) (neighbour : Neighbour) : Step :=
  if c = '\n' then (1, Neighbour.lineFeed.bare)
  else if c = '\r' ∧ neighbour = .lineFeed then (0, Neighbour.plain.bare)
  else (1, Neighbour.plain.bare)

/-- What a character adds before a context. -/
def step (c : Char) (context : Context) : Step :=
  if context.selector = some .emoji ∧ Emoji.isRestyled c then
    (if context.neighbour.takesEmoji then 0 else 2, Neighbour.emoji.bare)
  else if c ≤ '\u00A0' then basic c context.neighbour
  else
    match Selector.ofChar? c with
    | some selector => (0, context.select selector)
    | none =>
      if context.selector = some .text ∧ Emoji.isTextable c then (1, Neighbour.plain.bare)
      else if context.selector = some .wideQuote ∧ c ∈ ['‘', '’', '“', '”'] then
        (2, Neighbour.plain.bare)
      else beforeNeighbour c context.withoutSelector.neighbour

/-- The columns of a text, and the context of a character before it. -/
def ofChars (text : List Char) : Step :=
  text.foldr (fun c (columns, context) =>
    let (more, context) := step c context
    (columns + more, context)) (0, Neighbour.plain.bare)

end Width

def displayWidth (text : String) : Nat := (Width.ofChars text.toList).1.toNat

example : displayWidth "naïve e\u0301" = 7 := by decide +kernel

example : displayWidth "👩\u200D👩\u200D👧 🇫🇷" = 5 := by decide +kernel

example : displayWidth "1\uFE0F\u20E3 لا" = 4 := by decide +kernel

end Narrative
