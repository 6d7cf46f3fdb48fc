import Narrative.Proofs.Run

/-!
Legible written trees: those that reading gives, and so those that reading their spelling gives
back. An opening or a margin must be the one that its reader finds before the characters that
follow it, texts are longest runs, and an embed has at least one branch.
-/

set_option autoImplicit false

namespace Narrative.Written

def isSign (c : Char) : Bool := (Sign.ofChar? c).isSome

/-- An opening is what stands between a brace and the characters `after` it. -/
def Opening.Fits (after : List Char) : Opening → Prop
  | bare => ¬ Labelled after ∧ Stops isSign after
  | sign value gap =>
    (∀ c ∈ gap, isGap c = true) ∧ Stops isGap after ∧ ¬ Labelled (value.char :: (gap ++ after))
  | label text gap =>
    text ≠ [] ∧ (∀ c ∈ text, isLabel c = true) ∧ (∀ c ∈ gap, isGap c = true) ∧ Stops isGap after

/-- Whether an opening fits is settled before the brace that closes its embed. -/
theorem Opening.fits_append_close {value : Opening} {after : List Char} (rest : List Char) :
    value.Fits (after ++ '}' :: rest) ↔ value.Fits after := by
  cases value with
  | bare => rw [Fits, Fits, labelled_append_close, stops_append_cons rfl]
  | sign sign gap =>
    have labels : Labelled (sign.char :: (gap ++ (after ++ '}' :: rest))) ↔
        Labelled (sign.char :: (gap ++ after)) := by
      simpa using @labelled_append_close (sign.char :: (gap ++ after)) rest
    rw [Fits, Fits, labels, stops_append_cons rfl]
  | label text gap => rw [Fits, Fits, stops_append_cons rfl]

/-- A margin is what stands between a dash and the characters `after` it. -/
def Margin.Fits (after : List Char) : Margin → Prop
  | ⟨space, some (text, gap)⟩ =>
    (∀ c ∈ space, isSpace c = true) ∧ text ≠ [] ∧ Stops isSpace text ∧
      (∀ c ∈ text, isLabel c = true) ∧ (∀ c ∈ gap, isGap c = true) ∧ Stops isGap after
  | ⟨space, none⟩ =>
    (∀ c ∈ space, isSpace c = true) ∧ Stops isSpace after ∧ ¬ Labelled after

theorem Margin.fits_append_close {value : Margin} {after : List Char} (rest : List Char) :
    value.Fits (after ++ '}' :: rest) ↔ value.Fits after := by
  obtain ⟨space, _ | ⟨text, gap⟩⟩ := value
  · rw [Fits, Fits, labelled_append_close, stops_append_cons rfl]
  · rw [Fits, Fits, stops_append_cons rfl]

/-- A break holds nothing but a gap before its line break and space after it. -/
def Break.Blank (value : Break) : Prop :=
  (∀ c ∈ value.gap, isGap c = true) ∧ ∀ c ∈ value.space, isSpace c = true

/-- Whether a text comes first. -/
def textFirst : List Piece → Bool
  | .text _ :: _ => true
  | _ => false

mutual

def Embed.Legible : Embed → Prop
  | .inline opening arguments =>
    arguments ≠ [] ∧ opening.Fits (spellArguments arguments) ∧ legibleArguments arguments
  | .block opening margin entries =>
    entries ≠ [] ∧ opening.Fits (margin.spell ++ spellEntries entries) ∧ margin.Blank ∧
      legibleEntries entries

/-- A text is a run of accepted characters, and no text stands next to another one. -/
def legiblePieces (accept : Char → Bool) : List Piece → Prop
  | [] => True
  | .text chars :: rest =>
    (chars ≠ [] ∧ ∀ c ∈ chars, accept c = true) ∧ textFirst rest = false ∧
      legiblePieces accept rest
  | .embed value :: rest => value.Legible ∧ legiblePieces accept rest

def legibleArguments : List (List Piece) → Prop
  | [] => True
  | pieces :: rest => legiblePieces isArgumentText pieces ∧ legibleArguments rest

/-- The label of an entry may run over the dashes of the entries after it. -/
def legibleEntries : List Entry → Prop
  | [] => True
  | ⟨margin, pieces⟩ :: rest =>
    margin.Fits (spellPieces pieces ++ spellEntries rest) ∧ legiblePieces isEntryText pieces ∧
      legibleEntries rest

end

mutual

/-- The number of embeds open at once in a piece. -/
def Piece.depth : Piece → Nat
  | .text _ => 0
  | .embed value => value.depth

def Embed.depth : Embed → Nat
  | .inline _ arguments => depthOfArguments arguments + 1
  | .block _ _ entries => depthOfEntries entries + 1

def depthOfPieces : List Piece → Nat
  | [] => 0
  | piece :: rest => max piece.depth (depthOfPieces rest)

def depthOfArguments : List (List Piece) → Nat
  | [] => 0
  | pieces :: rest => max (depthOfPieces pieces) (depthOfArguments rest)

def depthOfEntries : List Entry → Nat
  | [] => 0
  | ⟨_, pieces⟩ :: rest => max (depthOfPieces pieces) (depthOfEntries rest)

end

theorem textPieces_of_ne_nil {chars : List Char} (nonempty : chars ≠ []) :
    textPieces chars = [.text chars] := by
  simp [textPieces, nonempty]

@[simp] theorem depthOfPieces_textPieces_append (chars : List Char) (rest : List Piece) :
    depthOfPieces (textPieces chars ++ rest) = depthOfPieces rest := by
  cases chars with
  | nil => rfl
  | cons c chars => simp [textPieces, depthOfPieces, Piece.depth]

theorem legiblePieces_textPieces_append {accept : Char → Bool} {chars : List Char}
    {rest : List Piece} (all : ∀ c ∈ chars, accept c = true) (apart : textFirst rest = false)
    (legible : legiblePieces accept rest) : legiblePieces accept (textPieces chars ++ rest) := by
  cases chars with
  | nil => exact legible
  | cons c chars => exact ⟨⟨by simp, all⟩, apart, legible⟩

theorem spellArguments_cons (first : List Piece) {rest : List (List Piece)} (more : rest ≠ []) :
    spellArguments (first :: rest) = spellPieces first ++ '|' :: spellArguments rest := by
  cases rest with
  | nil => exact absurd rfl more
  | cons next rest => rfl

theorem spellEntries_eq_cons {entries : List Entry} (nonempty : entries ≠ []) :
    ∃ inner, spellEntries entries = '-' :: inner := by
  cases entries with
  | nil => exact absurd rfl nonempty
  | cons entry rest =>
    obtain ⟨margin, pieces⟩ := entry
    exact ⟨_, rfl⟩

theorem Embed.spell_eq_cons (value : Embed) : ∃ inner, value.spell = '{' :: inner := by
  cases value <;> exact ⟨_, rfl⟩

/-! ### Where texts end -/

/-- The text that pieces begin with, empty if they begin with an embed. -/
def leadingChars : List Piece → List Char
  | .text chars :: _ => chars
  | _ => []

/-- After the text that legible pieces begin with comes a brace. -/
theorem exists_leading {accept : Char → Bool} {pieces : List Piece}
    (legible : legiblePieces accept pieces) :
    ∃ after, spellPieces pieces = leadingChars pieces ++ after ∧
      (after = [] ∨ ∃ inner, after = '{' :: inner) := by
  match pieces with
  | [] => exact ⟨[], rfl, Or.inl rfl⟩
  | .text chars :: [] => exact ⟨[], rfl, Or.inl rfl⟩
  | .text chars :: .text next :: rest => cases legible.2.1
  | .text chars :: .embed value :: rest =>
    obtain ⟨inner, begun⟩ := value.spell_eq_cons
    exact ⟨spellPieces (.embed value :: rest), rfl,
      Or.inr ⟨inner ++ spellPieces rest, by simp [spellPieces, Piece.spell, begun]⟩⟩
  | .embed value :: rest =>
    obtain ⟨inner, begun⟩ := value.spell_eq_cons
    exact ⟨_, rfl, Or.inr ⟨inner ++ spellPieces rest, by simp [Piece.spell, begun]⟩⟩

section

variable {accept : Char → Bool} {pieces : List Piece} {back : List Char}

theorem stops_spellPieces_append (legible : legiblePieces accept pieces) {run : Char → Bool}
    (brace : run '{' = false) (stops : Stops run (leadingChars pieces)) (ends : Stops run back) :
    Stops run (spellPieces pieces ++ back) := by
  obtain ⟨after, split, rfl | ⟨inner, rfl⟩⟩ := exists_leading legible
  · rw [split, List.append_nil]
    exact stops.append ends
  · rw [split, List.append_assoc]
    exact stops.append (by simpa using brace)

theorem labelled_spellPieces_append (legible : legiblePieces accept pieces)
    (unlabelling : Unlabelling back) (labelled : Labelled (spellPieces pieces ++ back)) :
    Labelled (leadingChars pieces) := by
  obtain ⟨after, split, rfl | ⟨inner, rfl⟩⟩ := exists_leading legible
  · rw [split, List.append_nil] at labelled
    exact unlabelling _ labelled
  · rw [split, List.append_assoc] at labelled
    exact unlabelling_cons _ rfl (by decide) _ labelled

theorem stops_leadingChars (legible : legiblePieces accept pieces) {run : Char → Bool}
    (stops : Stops run (spellPieces pieces ++ back)) : Stops run (leadingChars pieces) := by
  obtain ⟨after, split, -⟩ := exists_leading legible
  rw [split, List.append_assoc] at stops
  exact stops.of_append

theorem Labelled.spellPieces_append (legible : legiblePieces accept pieces)
    (labelled : Labelled (leadingChars pieces)) : Labelled (spellPieces pieces ++ back) := by
  obtain ⟨after, split, -⟩ := exists_leading legible
  rw [split, List.append_assoc]
  exact labelled.append _

theorem accept_leadingChars (legible : legiblePieces accept pieces) :
    ∀ c ∈ leadingChars pieces, accept c = true := by
  match pieces with
  | [] => simp [leadingChars]
  | .text chars :: rest => exact legible.1.2
  | .embed value :: rest => simp [leadingChars]

end

end Narrative.Written
