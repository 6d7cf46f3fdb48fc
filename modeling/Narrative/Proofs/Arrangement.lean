import Narrative.Proofs.Naming
import Narrative.Proofs.Parsing

/-!
How the directives of a parsed document lie in its source. Outer directives begin before the ones
inside, spans nest as the tree does, and siblings follow one another. Every directive is placed in
the characters that its part of the tree spells, so where it lies is a matter of lengths, and two
directives that begin at different offsets have different lines or columns too.
-/

set_option autoImplicit false

namespace Narrative

/-! ### Offsets, lines and columns -/

theorem Position.offset_le_advance (place : Position) (text : List Char) :
    place.offset ≤ (place.advance text).offset := by
  rw [advance_offset]
  exact Nat.le_add_right _ _

/-- A text leads to a later line or to a later column. -/
theorem Position.advance_line_column (place : Position) {text : List Char} (some : text ≠ []) :
    place.line < (place.advance text).line ∨
      place.line = (place.advance text).line ∧ place.column < (place.advance text).column := by
  induction text generalizing place with
  | nil => exact absurd rfl some
  | cons c rest ih =>
    have step : place.line < (place.step c).line ∨
        place.line = (place.step c).line ∧ place.column < (place.step c).column := by
      unfold Position.step
      split
      · exact Or.inl (Nat.lt_succ_self _)
      · exact Or.inr ⟨rfl, Nat.lt_succ_self _⟩
    by_cases last : rest = []
    · subst last
      exact step
    · have more := ih (place.step c) last
      rw [advance_cons]
      omega

/-- Places of one source that differ in their offsets differ in their lines or columns. -/
theorem Position.advance_ne (place : Position) {first second back rest : List Char}
    (same : first ++ back = second ++ rest) (less : byteLength first < byteLength second) :
    ¬ ((place.advance first).line = (place.advance second).line ∧
      (place.advance first).column = (place.advance second).column) := by
  obtain ⟨between, rfl, -⟩ | ⟨between, rfl, -⟩ := List.append_eq_append_iff.1 same
  · have some : between ≠ [] := by
      rintro rfl
      simp at less
    have later := (place.advance first).advance_line_column some
    rw [advance_append]
    omega
  · rw [byteLength_append] at less
    omega

namespace Written

/-! ### Where directives are placed -/

variable {identify : Span → String} {start : Position} {text : List Char} {directive : Directive}

theorem Embed.byteLength_spell_pos (value : Embed) : 0 < byteLength value.spell := by
  obtain ⟨inner, begun⟩ := value.spell_eq_cons
  rw [begun]
  exact byteLength_pos (List.cons_ne_nil _ _)

/-- A directive lies in the text that it is placed in. -/
theorem Placed.offsets (placed : Placed identify start text directive) :
    start.offset ≤ directive.span.start.offset ∧
      directive.span.start.offset < directive.span.stop.offset ∧
      directive.span.stop.offset ≤ start.offset + byteLength text := by
  obtain ⟨front, value, back, rfl, -, rfl⟩ := placed
  have positive := value.byteLength_spell_pos
  rw [Embed.place_span, Span.ofText]
  simp only [Position.advance_offset, byteLength_append]
  omega

/-- A directive is named by its span. -/
theorem Placed.identity (placed : Placed identify start text directive) :
    directive.identity = identify directive.span := by
  obtain ⟨front, value, back, -, -, rfl⟩ := placed
  cases value <;> rfl

/-- Directives of one text that begin at different offsets begin on different lines or in different
columns. -/
theorem Placed.line_column {other : Directive} (placed : Placed identify start text directive)
    (placedToo : Placed identify start text other)
    (less : directive.span.start.offset < other.span.start.offset) :
    ¬ (directive.span.start.line = other.span.start.line ∧
      directive.span.start.column = other.span.start.column) := by
  obtain ⟨front, value, back, split, -, rfl⟩ := placed
  obtain ⟨before, embed, behind, splitToo, -, rfl⟩ := placedToo
  rw [Embed.place_span, Embed.place_span] at less ⊢
  simp only [Span.ofText, Position.advance_offset] at less
  exact start.advance_ne (split.symm.trans splitToo) (by omega)

end Written

/-! ### The order of directives -/

/-- Each directive begins before those behind it. -/
def Ascending (directives : List Directive) : Prop :=
  directives.Pairwise (fun first second => first.span.start.offset < second.span.start.offset)

/-- Each directive ends before those behind it begin. -/
def Apart (directives : List Directive) : Prop :=
  directives.Pairwise (fun first second => first.span.stop.offset ≤ second.span.start.offset)

theorem Ascending.append {first second : List Directive} (middle : Nat)
    (ascending : Ascending first) (ascendingToo : Ascending second)
    (before : ∀ directive ∈ first, directive.span.start.offset < middle)
    (behind : ∀ directive ∈ second, middle ≤ directive.span.start.offset) :
    Ascending (first ++ second) := by
  refine List.pairwise_append.2 ⟨ascending, ascendingToo, ?_⟩
  intro directive member other memberToo
  exact Nat.lt_of_lt_of_le (before directive member) (behind other memberToo)

namespace Written

variable (identify : Span → String)

mutual

theorem Embed.ascending_place (value : Embed) (legible : value.Legible) (start : Position) :
    Ascending (value.place identify start).directives := by
  rw [Directive.directives_eq]
  refine List.pairwise_cons.2 ⟨?_, ?_⟩
  · intro inner member
    have brace := Char.utf8Size_pos '{'
    have begins : (value.place identify start).span.start.offset = start.offset := by
      rw [Embed.place_span]
      rfl
    match value with
    | .inline opening arguments =>
      have placed := placed_of_mem_arguments identify arguments legible.2.2 _ inner member
      have after := placed.offsets.1
      simp only [Position.advance_offset, byteLength_cons, byteLength_nil] at after
      omega
    | .block opening margin entries =>
      have placed := placed_of_mem_entries identify entries legible.2.2.2 _ inner member
      have after := placed.offsets.1
      simp only [Position.advance_offset, byteLength_cons, byteLength_nil] at after
      omega
  · match value with
    | .inline opening arguments => exact ascending_placeArguments arguments legible.2.2 _
    | .block opening margin entries => exact ascending_placeEntries entries legible.2.2.2 _

theorem ascending_placePieces {accept : Char → Bool} (pieces : List Piece)
    (legible : legiblePieces accept pieces) (start : Position) :
    Ascending (directivesOfNodes (placePieces identify start pieces).1) := by
  match pieces with
  | [] => exact List.Pairwise.nil
  | .text chars :: rest => exact ascending_placePieces rest legible.2.2 _
  | .embed value :: rest =>
    rw [placePieces, directivesOfNodes, Piece.place_snd]
    refine Ascending.append (start.advance value.spell).offset
      (Embed.ascending_place value legible.1 start) (ascending_placePieces rest legible.2 _) ?_ ?_
    · intro directive member
      have offsets := (Embed.placed_of_mem identify value legible.1 start directive member).offsets
      rw [Position.advance_offset]
      omega
    · intro directive member
      exact (placed_of_mem_pieces identify rest legible.2 _ directive member).offsets.1

theorem ascending_placeArguments (arguments : List (List Piece))
    (legible : legibleArguments arguments) (start : Position) :
    Ascending (directivesOfBranches (placeArguments identify start arguments).1) := by
  match arguments with
  | [] => exact List.Pairwise.nil
  | [pieces] =>
    rw [placeArguments, directivesOfBranches_cons, directivesOfBranches, List.append_nil]
    exact ascending_placePieces pieces legible.1 start
  | pieces :: next :: rest =>
    rw [placeArguments_cons identify start pieces (by simp), directivesOfBranches_cons]
    refine Ascending.append (start.advance (spellPieces pieces ++ ['|'])).offset
      (ascending_placePieces pieces legible.1 start)
      (ascending_placeArguments (next :: rest) legible.2 _) ?_ ?_
    · intro directive member
      have offsets :=
        (placed_of_mem_pieces identify pieces legible.1 start directive member).offsets
      rw [Position.advance_offset, byteLength_append]
      omega
    · intro directive member
      exact (placed_of_mem_arguments identify (next :: rest) legible.2 _ directive member).offsets.1

theorem ascending_placeEntries (entries : List Entry) (legible : legibleEntries entries)
    (start : Position) :
    Ascending (directivesOfBranches (placeEntries identify start entries).1) := by
  match entries with
  | [] => exact List.Pairwise.nil
  | ⟨margin, pieces⟩ :: rest =>
    rw [placeEntries, directivesOfBranches_cons, Entry.place_span]
    refine Ascending.append (start.advance (Entry.spell ⟨margin, pieces⟩)).offset
      (ascending_placePieces pieces legible.2.1 _) (ascending_placeEntries rest legible.2.2 _) ?_ ?_
    · intro directive member
      have offsets :=
        (placed_of_mem_pieces identify pieces legible.2.1 _ directive member).offsets
      simp only [Position.advance_offset, Entry.spell, byteLength_cons, byteLength_append,
        byteLength_nil] at offsets ⊢
      omega
    · intro directive member
      exact (placed_of_mem_entries identify rest legible.2.2 _ directive member).offsets.1

end

end Written

/-! ### Branches and what lies in them -/

/-- The directives of a branch lie in it, and those directly in it follow one another. -/
structure Branch.Arranged (branch : Branch) : Prop where
  nested : ∀ inner ∈ directivesOfNodes branch.content, branch.span.contains inner.span = true
  apart : Apart (branch.content.filterMap Node.directive?)

/-- Branches that follow one another between two offsets. -/
structure ArrangedBetween (low high : Nat) (branches : List Branch) : Prop where
  within : ∀ branch ∈ branches, low ≤ branch.span.start.offset ∧ branch.span.stop.offset ≤ high
  apart : branches.Pairwise (fun first second => first.span.stop.offset ≤ second.span.start.offset)
  arranged : ∀ branch ∈ branches, branch.Arranged

/-- The branches of a directive follow one another in it, and so do the directives directly in
them. -/
structure Directive.Arranged (directive : Directive) : Prop where
  nonempty : directive.span.start.offset < directive.span.stop.offset
  within : ∀ branch ∈ directive.branches, directive.span.contains branch.span = true
  branches : directive.branches.Pairwise
    (fun first second => first.span.stop.offset ≤ second.span.start.offset)
  nested : ∀ branch ∈ directive.branches, ∀ inner ∈ directivesOfNodes branch.content,
    branch.span.contains inner.span = true
  children : Apart directive.children

theorem Span.contains_iff {outer inner : Span} :
    outer.contains inner = true ↔
      outer.start.offset ≤ inner.start.offset ∧ inner.stop.offset ≤ outer.stop.offset := by
  simp [contains]

theorem mem_directivesOfNodes {nodes : List Node} {directive : Directive}
    (member : directive ∈ nodes.filterMap Node.directive?) :
    directive ∈ directivesOfNodes nodes := by
  induction nodes with
  | nil => cases member
  | cons node rest ih =>
    rw [directivesOfNodes, List.mem_append]
    cases node with
    | text content => exact Or.inr (ih member)
    | directive value =>
      rcases List.mem_cons.1 member with rfl | member
      · refine Or.inl ?_
        rw [Node.directives, Directive.directives_eq]
        exact List.mem_cons_self
      · exact Or.inr (ih member)

theorem ArrangedBetween.cons {low middle high : Nat} {branch : Branch} {rest : List Branch}
    (begins : low ≤ branch.span.start.offset) (ends : branch.span.stop.offset ≤ middle)
    (up : low ≤ middle) (onward : middle ≤ high) (arranged : branch.Arranged)
    (behind : ArrangedBetween middle high rest) : ArrangedBetween low high (branch :: rest) where
  within := by
    intro other member
    rcases List.mem_cons.1 member with rfl | member
    · exact ⟨begins, Nat.le_trans ends onward⟩
    · obtain ⟨above, below⟩ := behind.within other member
      exact ⟨Nat.le_trans up above, below⟩
  apart := List.pairwise_cons.2
    ⟨fun other member => Nat.le_trans ends (behind.within other member).1, behind.apart⟩
  arranged := by
    intro other member
    rcases List.mem_cons.1 member with rfl | member
    · exact arranged
    · exact behind.arranged other member

theorem ArrangedBetween.nil (low high : Nat) : ArrangedBetween low high [] :=
  ⟨by simp, List.Pairwise.nil, by simp⟩

/-- Directives of branches that follow one another do so too. -/
theorem ArrangedBetween.children {low high : Nat} {directive : Directive}
    (between : ArrangedBetween low high directive.branches) : Apart directive.children := by
  unfold Directive.children
  refine List.pairwise_flatMap.2 ⟨fun branch member => (between.arranged branch member).apart, ?_⟩
  refine between.apart.imp_of_mem ?_
  intro branch other member memberToo before inner here outer there
  have ends := Span.contains_iff.1
    ((between.arranged branch member).nested inner (mem_directivesOfNodes here))
  have begins := Span.contains_iff.1
    ((between.arranged other memberToo).nested outer (mem_directivesOfNodes there))
  omega

namespace Written

variable (identify : Span → String)

theorem apart_placePieces {accept : Char → Bool} (pieces : List Piece)
    (legible : legiblePieces accept pieces) (start : Position) :
    Apart ((placePieces identify start pieces).1.filterMap Node.directive?) := by
  induction pieces generalizing start with
  | nil => exact List.Pairwise.nil
  | cons piece rest ih =>
    cases piece with
    | text chars => exact ih legible.2.2 _
    | embed value =>
      refine List.pairwise_cons.2 ⟨?_, ih legible.2 _⟩
      intro other member
      have placed := placed_of_mem_pieces identify rest legible.2 _ other
        (mem_directivesOfNodes member)
      exact placed.offsets.1

/-- A branch of placed pieces that begins before them is arranged. -/
theorem arranged_placePieces {accept : Char → Bool} (pieces : List Piece)
    (legible : legiblePieces accept pieces) {start inside : Position}
    (before : start.offset ≤ inside.offset) (guard : Option Guard) :
    Branch.Arranged ⟨guard, (placePieces identify inside pieces).1,
      ⟨start, (placePieces identify inside pieces).2⟩⟩ where
  nested := by
    intro inner member
    have offsets := (placed_of_mem_pieces identify pieces legible inside inner member).offsets
    rw [placePieces_snd, Span.contains_iff, Position.advance_offset]
    dsimp only
    omega
  apart := apart_placePieces identify pieces legible inside

theorem arranged_placeArguments (arguments : List (List Piece))
    (legible : legibleArguments arguments) (start : Position) :
    ArrangedBetween start.offset (start.advance (spellArguments arguments)).offset
      (placeArguments identify start arguments).1 := by
  induction arguments generalizing start with
  | nil => exact .nil _ _
  | cons pieces rest ih =>
    have here := arranged_placePieces identify pieces legible.1 (Nat.le_refl start.offset) none
    rw [placePieces_snd] at here
    by_cases last : rest = []
    · subst last
      rw [placeArguments, placePieces_snd, spellArguments]
      exact .cons (Nat.le_refl _) (Nat.le_refl _) (start.offset_le_advance _) (Nat.le_refl _) here
        (.nil _ _)
    · have behind := ih legible.2 (start.advance (spellPieces pieces ++ ['|']))
      rw [placeArguments_cons identify start pieces last, spellArguments_cons pieces last,
        List.append_cons, Position.advance_append]
      refine .cons (Nat.le_refl _) ?_ (start.offset_le_advance _) (Position.offset_le_advance _ _)
        here behind
      rw [Position.advance_append]
      exact Position.offset_le_advance _ _

theorem arranged_placeEntries (entries : List Entry) (legible : legibleEntries entries)
    (start : Position) :
    ArrangedBetween start.offset (start.advance (spellEntries entries)).offset
      (placeEntries identify start entries).1 := by
  induction entries generalizing start with
  | nil => exact .nil _ _
  | cons entry rest ih =>
    obtain ⟨margin, pieces⟩ := entry
    have inside : start.offset ≤ ((start.advance ['-']).advance margin.spell).offset := by
      rw [← Position.advance_append]
      exact start.offset_le_advance _
    have here := arranged_placePieces identify pieces legible.2.1 inside
      (margin.guard? (start.advance ['-']))
    have span := Entry.place_span identify start ⟨margin, pieces⟩
    have behind := ih legible.2.2 (start.advance (Entry.spell ⟨margin, pieces⟩))
    rw [placeEntries, span, spellEntries, Position.advance_append]
    refine .cons ?_ ?_ (start.offset_le_advance _) (Position.offset_le_advance _ _) here behind
    · rw [span]
      exact Nat.le_refl _
    · rw [span]
      exact Nat.le_refl _

/-- A placed embed is arranged in itself. -/
theorem Embed.arranged_place (value : Embed) (legible : value.Legible) (start : Position) :
    (value.place identify start).Arranged := by
  have positive := value.byteLength_spell_pos
  have span := value.place_span identify start
  obtain ⟨low, high, begins, ends, between⟩ : ∃ low high,
      (value.place identify start).span.start.offset ≤ low ∧
      high ≤ (value.place identify start).span.stop.offset ∧
      ArrangedBetween low high (value.place identify start).branches := by
    cases value with
    | inline opening arguments =>
      refine ⟨_, _, ?_, ?_, arranged_placeArguments identify arguments legible.2.2 _⟩
      · rw [← Position.advance_append]
        exact start.offset_le_advance _
      · rw [← placeArguments_snd identify]
        exact Position.offset_le_advance _ _
    | block opening margin entries =>
      refine ⟨_, _, ?_, ?_, arranged_placeEntries identify entries legible.2.2.2 _⟩
      · rw [← Position.advance_append, ← Position.advance_append]
        exact start.offset_le_advance _
      · rw [← placeEntries_snd identify]
        exact Position.offset_le_advance _ _
  refine ⟨?_, fun branch member => ?_, between.apart,
    fun branch member => (between.arranged branch member).nested, between.children⟩
  · rw [span, Span.ofText, Position.advance_offset]
    dsimp only
    omega
  · obtain ⟨above, below⟩ := between.within branch member
    rw [Span.contains_iff]
    omega

end Written

/-! ### Parsed documents -/

/-- The directives of a parsed document begin one after the other, spans nest as the tree does, and
no two siblings overlap. Under both namings no two directives have the same identity, whatever the
name of the document. -/
theorem arranged_of_parse {options : ParseOptions} {source : String} {document : Document}
    (parsed : Document.parse options source = .ok document) :
    (options.naming.BuiltIn → (document.directives.map Directive.identity).Nodup) ∧
    document.directives.Pairwise
      (fun first second => first.span.start.offset < second.span.start.offset) ∧
    (document.nodes.filterMap Node.directive?).Pairwise
      (fun first second => first.span.stop.offset ≤ second.span.start.offset) ∧
    ∀ directive ∈ document.directives, directive.Arranged := by
  have placed := @Document.placed_of_mem options source document parsed
  obtain ⟨pieces, -, legible, -, rfl⟩ := Document.parse_eq_ok_iff.1 parsed
  have ascending := Written.ascending_placePieces (options.naming options.document) pieces legible
    .start
  refine ⟨fun builtIn => ?_, ascending, Written.apart_placePieces _ pieces legible .start, ?_⟩
  · refine List.pairwise_map.2 (ascending.imp_of_mem ?_)
    intro first second member memberToo less same
    rw [(placed member).identity, (placed memberToo).identity] at same
    rcases (builtIn.inj same).2 with offsets | place
    · exact absurd offsets (Nat.ne_of_lt less)
    · exact (placed member).line_column (placed memberToo) less place
  · intro directive member
    obtain ⟨front, value, back, -, legible, rfl⟩ := placed member
    exact value.arranged_place _ legible _

/-- Siblings and nested directives in both layouts, on two lines. -/
def crowdedSource : String := "é\x7ba|\x7bb\x7d\x7bc\x7d\x7d\x7b\n- x: \x7bd\x7d\n- e\x7d"

/-- The name of the document ends as an identity does. -/
def crowdedOptions : ParseOptions := { document := "d@1:2", naming := Naming.byLine }

theorem arranged_of_parse_crowdedSource :
    ∃ document, Document.parse crowdedOptions crowdedSource = .ok document ∧
      document.directives.map Directive.identity =
        ["d@1:2@1:2", "d@1:2@1:5", "d@1:2@1:8", "d@1:2@1:12", "d@1:2@2:6"] ∧
      (document.directives.map Directive.identity).Nodup ∧
      ∀ directive ∈ document.directives, directive.Arranged := by
  have names : (Document.parse crowdedOptions crowdedSource).toOption.map
      (fun document => document.directives.map Directive.identity) =
        some ["d@1:2@1:2", "d@1:2@1:5", "d@1:2@1:8", "d@1:2@1:12", "d@1:2@2:6"] := by
    decide +kernel
  cases parsed : Document.parse crowdedOptions crowdedSource with
  | error error =>
    rw [parsed] at names
    cases names
  | ok document =>
    rw [parsed] at names
    obtain ⟨distinct, -, -, arranged⟩ := arranged_of_parse parsed
    exact ⟨document, rfl, Option.some.inj names, distinct (Or.inr rfl), arranged⟩

end Narrative
