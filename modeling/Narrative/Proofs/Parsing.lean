import Narrative.Document.Parser
import Narrative.Proofs.Nesting

/-!
Parsing places legible pieces, and what holds of the embeds of legible pieces holds of the
directives of a parsed document.
-/

set_option autoImplicit false

namespace Narrative

/-- Parsing places the legible pieces that are spelled as the source, if they are not too deep. -/
theorem Document.parse_eq_ok_iff {options : ParseOptions} {source : String} {document : Document} :
    Document.parse options source = .ok document ↔
      ∃ pieces, Written.spellPieces pieces = source.toList ∧
        Written.legiblePieces Written.isTopText pieces ∧
        Written.depthOfPieces pieces ≤ options.maxDepth ∧
        document = ⟨options.document,
          (Written.placePieces (options.naming options.document) .start pieces).1⟩ := by
  unfold Document.parse
  constructor
  · intro parsed
    dsimp only at parsed
    split at parsed
    · cases parsed
    · split at parsed
      · cases parsed
      · next pieces reading =>
        cases parsed
        obtain ⟨spelled, legible, shallow⟩ := Written.read_eq_ok_iff.1 reading
        exact ⟨pieces, spelled, legible, shallow, rfl⟩
  · rintro ⟨pieces, spelled, legible, shallow, rfl⟩
    have deep := Written.depth_ofSource_spellPieces legible
    have reading := Written.read_eq_ok_iff.2 ⟨spelled, legible, shallow⟩
    rw [spelled] at deep
    dsimp only
    rw [if_neg (by omega), reading]

theorem eq_ok_of_toOption {ε α : Type} {result : Except ε α} {value : α}
    (found : result.toOption = some value) : result = .ok value := by
  cases result with
  | error error => cases found
  | ok other => exact congrArg Except.ok (Option.some.inj found)

theorem exists_of_toOption_map {ε α β : Type} {result : Except ε α} {view : α → β} {seen : β}
    (found : result.toOption.map view = some seen) :
    ∃ value, result = .ok value ∧ view value = seen := by
  obtain ⟨value, known, same⟩ := Option.map_eq_some_iff.1 found
  exact ⟨value, eq_ok_of_toOption known, same⟩

/-! ### Directives of a document -/

theorem Directive.directives_eq (directive : Directive) :
    directive.directives = directive :: directivesOfBranches directive.branches := by
  cases directive
  rw [Directive.directives]

theorem directivesOfBranches_cons (branch : Branch) (rest : List Branch) :
    directivesOfBranches (branch :: rest) =
      directivesOfNodes branch.content ++ directivesOfBranches rest := by
  cases branch
  rw [directivesOfBranches, Branch.directives]

namespace Written

/-- A directive is a legible embed of a text that begins at a place. -/
def Placed (identify : Span → String) (start : Position) (text : List Char)
    (directive : Directive) : Prop :=
  ∃ (front : List Char) (value : Embed) (back : List Char),
    text = front ++ (value.spell ++ back) ∧ value.Legible ∧
    directive = value.place identify (start.advance front)

theorem Placed.within {identify : Span → String} {start : Position} {text : List Char}
    {directive : Directive} (before after : List Char)
    (placed : Placed identify (start.advance before) text directive) :
    Placed identify start (before ++ (text ++ after)) directive := by
  obtain ⟨front, value, back, rfl, legible, rfl⟩ := placed
  exact ⟨before ++ front, value, back ++ after, by simp, legible, by
    rw [Position.advance_append]⟩

theorem placeArguments_cons (identify : Span → String) (start : Position) (pieces : List Piece)
    {rest : List (List Piece)} (more : rest ≠ []) :
    (placeArguments identify start (pieces :: rest)).1 =
      ⟨none, (placePieces identify start pieces).1, Span.ofText start (spellPieces pieces)⟩ ::
        (placeArguments identify (start.advance (spellPieces pieces ++ ['|'])) rest).1 := by
  cases rest with
  | nil => exact absurd rfl more
  | cons next rest =>
    rw [placeArguments, placePieces_snd, ← Position.advance_append, Span.ofText]
    simp

mutual

theorem Embed.placed_of_mem (identify : Span → String) (value : Embed) (legible : value.Legible)
    (start : Position) (directive : Directive)
    (member : directive ∈ (value.place identify start).directives) :
    Placed identify start value.spell directive := by
  rw [Directive.directives_eq] at member
  rcases List.mem_cons.1 member with rfl | member
  · exact ⟨[], value, [], by simp, legible, rfl⟩
  · match value with
    | .inline opening arguments =>
      have inside := placed_of_mem_arguments identify arguments legible.2.2 _ directive member
      rw [← Position.advance_append] at inside
      have whole := inside.within _ ['}']
      simpa [Embed.spell] using whole
    | .block opening margin entries =>
      have inside := placed_of_mem_entries identify entries legible.2.2.2 _ directive member
      rw [← Position.advance_append, ← Position.advance_append] at inside
      have whole := inside.within _ ['}']
      simpa [Embed.spell] using whole

theorem placed_of_mem_pieces (identify : Span → String) {accept : Char → Bool}
    (pieces : List Piece) (legible : legiblePieces accept pieces) (start : Position)
    (directive : Directive)
    (member : directive ∈ directivesOfNodes (placePieces identify start pieces).1) :
    Placed identify start (spellPieces pieces) directive := by
  match pieces with
  | [] => cases member
  | .text chars :: rest =>
    have inside := placed_of_mem_pieces identify rest legible.2.2 _ directive member
    simpa [spellPieces, Piece.spell] using inside.within chars []
  | .embed value :: rest =>
    rw [placePieces, directivesOfNodes, List.mem_append] at member
    rcases member with member | member
    · have inside := Embed.placed_of_mem identify value legible.1 start directive member
      simpa [spellPieces, Piece.spell] using inside.within [] (spellPieces rest)
    · rw [Piece.place_snd] at member
      have inside := placed_of_mem_pieces identify rest legible.2 _ directive member
      simpa [spellPieces, Piece.spell] using inside.within value.spell []

theorem placed_of_mem_arguments (identify : Span → String) (arguments : List (List Piece))
    (legible : legibleArguments arguments) (start : Position) (directive : Directive)
    (member : directive ∈ directivesOfBranches (placeArguments identify start arguments).1) :
    Placed identify start (spellArguments arguments) directive := by
  match arguments with
  | [] => cases member
  | [pieces] =>
    rw [placeArguments, directivesOfBranches_cons, List.mem_append] at member
    rcases member with member | member
    · exact placed_of_mem_pieces identify pieces legible.1 start directive member
    · cases member
  | pieces :: next :: rest =>
    rw [placeArguments_cons identify start pieces (by simp), directivesOfBranches_cons,
      List.mem_append] at member
    rw [spellArguments_cons pieces (by simp)]
    rcases member with member | member
    · have inside := placed_of_mem_pieces identify pieces legible.1 start directive member
      exact inside.within [] _
    · have inside := placed_of_mem_arguments identify (next :: rest) legible.2 _ directive member
      simpa using inside.within _ []

theorem placed_of_mem_entries (identify : Span → String) (entries : List Entry)
    (legible : legibleEntries entries) (start : Position) (directive : Directive)
    (member : directive ∈ directivesOfBranches (placeEntries identify start entries).1) :
    Placed identify start (spellEntries entries) directive := by
  match entries with
  | [] => cases member
  | ⟨margin, pieces⟩ :: rest =>
    rw [placeEntries, directivesOfBranches_cons, List.mem_append, Entry.place_span] at member
    rw [spellEntries]
    rcases member with member | member
    · rw [Entry.place, ← Position.advance_append] at member
      have inside := placed_of_mem_pieces identify pieces legible.2.1 _ directive member
      simpa [Entry.spell] using inside.within _ (spellEntries rest)
    · have inside := placed_of_mem_entries identify rest legible.2.2 _ directive member
      simpa using inside.within _ []

end

/-! ### Branches of a directive -/

/-- A branch is that of an argument or an entry that stands in a source. The margin of an entry is
the one that its characters ask for. -/
inductive BranchOf (identify : Span → String) (source : List Char) : Layout → Branch → Prop
  | argument {front back : List Char} {pieces : List Piece}
    (split : source = front ++ (spellPieces pieces ++ back)) :
    BranchOf identify source .inline
      ⟨none, (placePieces identify (Position.start.advance front) pieces).1,
        Span.ofText (Position.start.advance front) (spellPieces pieces)⟩
  | entry {front back : List Char} {margin : Margin} {pieces : List Piece}
    (split : source = front ++ '-' :: (margin.spell ++ (spellPieces pieces ++ back)))
    (fits : margin.Fits (spellPieces pieces ++ back)) :
    BranchOf identify source .multiLine
      ((Entry.mk margin pieces).place identify (Position.start.advance front))

section

variable {source front back : List Char} (identify : Span → String)

theorem branchOf_placeArguments (arguments : List (List Piece))
    (split : source = front ++ (spellArguments arguments ++ back)) :
    ∀ branch ∈ (placeArguments identify (Position.start.advance front) arguments).1,
      BranchOf identify source .inline branch := by
  induction arguments generalizing front with
  | nil => exact List.forall_mem_nil _
  | cons pieces rest ih =>
    by_cases last : rest = []
    · subst last
      intro branch member
      rw [placeArguments, placePieces_snd] at member
      rw [List.mem_singleton.1 member]
      exact .argument split
    · rw [spellArguments_cons pieces last] at split
      rw [placeArguments_cons identify _ pieces last]
      intro branch member
      rcases List.mem_cons.1 member with rfl | member
      · apply BranchOf.argument
        rw [split, List.append_assoc]
      · rw [← Position.advance_append] at member
        apply ih _ branch member
        simp [split]

theorem branchOf_placeEntries (entries : List Entry) (legible : legibleEntries entries)
    (split : source = front ++ (spellEntries entries ++ '}' :: back)) :
    ∀ branch ∈ (placeEntries identify (Position.start.advance front) entries).1,
      BranchOf identify source .multiLine branch := by
  induction entries generalizing front with
  | nil => exact List.forall_mem_nil _
  | cons entry rest ih =>
    obtain ⟨margin, pieces⟩ := entry
    obtain ⟨fits, -, legibles⟩ := legible
    rw [spellEntries] at split
    rw [placeEntries, Entry.place_span]
    intro branch member
    rcases List.mem_cons.1 member with rfl | member
    · have whole : source = front ++ '-' :: (margin.spell ++
          (spellPieces pieces ++ (spellEntries rest ++ '}' :: back))) := by
        simpa [Entry.spell] using split
      -- Whether the margin fits is settled before the brace behind the entries.
      have behind := (Margin.fits_append_close back).2 fits
      rw [List.append_assoc] at behind
      exact .entry whole behind
    · rw [Span.ofText, ← Position.advance_append] at member
      apply ih legibles _ branch member
      simp [split]

/-- Every branch of a legible embed is that of an argument or an entry of its source. -/
theorem Embed.branchOf_place (value : Embed) (legible : value.Legible)
    (split : source = front ++ (value.spell ++ back)) :
    let directive := value.place identify (Position.start.advance front)
    ∀ branch ∈ directive.branches, BranchOf identify source directive.layout branch := by
  cases value with
  | inline opening arguments =>
    have inside : source = (front ++ '{' :: opening.spell) ++
        (spellArguments arguments ++ '}' :: back) := by
      simpa [Embed.spell] using split
    have branches := branchOf_placeArguments identify arguments inside
    rw [Position.advance_append, Position.advance_cons] at branches
    exact branches
  | block opening margin entries =>
    have inside : source = (front ++ '{' :: (opening.spell ++ margin.spell)) ++
        (spellEntries entries ++ '}' :: back) := by
      simpa [Embed.spell] using split
    have branches := branchOf_placeEntries identify entries legible.2.2.2 inside
    rw [Position.advance_append, Position.advance_cons, Position.advance_append] at branches
    exact branches

end

end Written

/-- Every directive of a parsed document is a legible embed of its source, in its place. -/
theorem Document.placed_of_mem {options : ParseOptions} {source : String} {document : Document}
    (parsed : Document.parse options source = .ok document) {directive : Directive}
    (member : directive ∈ document.directives) :
    Written.Placed (options.naming options.document) .start source.toList directive := by
  obtain ⟨pieces, spelled, legible, -, rfl⟩ := Document.parse_eq_ok_iff.1 parsed
  rw [← spelled]
  exact Written.placed_of_mem_pieces _ pieces legible .start directive member

end Narrative
