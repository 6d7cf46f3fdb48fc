import Narrative.Proofs.Spelling

/-!
Parsing undoes canonical spelling. Placing the written tree of canonical nodes gives the nodes back,
and placing any legible tree gives canonical nodes, so that every parsed document has a canonical
spelling. Spans and identities depend on where a document is written and are left out.
-/

set_option autoImplicit false

namespace Narrative

open Written

/-! ### Placing gives the nodes back -/

theorem Heading.heading_opening {heading : Heading} (canonical : heading.Canonical)
    (start : Position) :
    (heading.opening.heading start).kind = heading.kind ∧
      (heading.opening.heading start).unplaced = heading.unplaced := by
  cases heading with
  | none => exact ⟨rfl, rfl⟩
  | discipline kind =>
    rw [opening, Opening.heading, String.ofList_toList, Discipline.ofWord?_word]
    exact ⟨rfl, rfl⟩
  | condition guard =>
    obtain ⟨-, -, unknown⟩ := canonical
    rw [opening, Opening.heading, String.ofList_toList, unknown]
    refine ⟨rfl, ?_⟩
    simp [unplaced, Guard.unplaced, guardAt]

section

variable (identify : Span → String) (indent : List Char)

mutual

theorem unplacedNodes_placePieces {accept : Char → Bool} (nodes : List Node)
    (canonical : canonicalNodes accept nodes) (start : Position) :
    unplacedNodes (placePieces identify start (piecesOfNodes indent nodes)).1 =
      unplacedNodes nodes := by
  match nodes with
  | [] => rfl
  | .text content :: rest =>
    rw [piecesOfNodes, placePieces, Piece.place, unplacedNodes, unplacedNodes,
      unplacedNodes_placePieces rest canonical.2.2, String.ofList_toList]
  | .directive value :: rest =>
    rw [piecesOfNodes, placePieces, Piece.place, unplacedNodes, unplacedNodes,
      unplacedNodes_placePieces rest canonical.2, Directive.unplaced_place value canonical.1]

theorem Directive.unplaced_place (directive : Directive) (canonical : directive.Canonical)
    (start : Position) :
    ((directive.embed indent).place identify start).unplaced = directive.unplaced := by
  match directive with
  | ⟨_, _, heading, .inline, branches, _⟩ =>
    obtain ⟨⟨-, rfl, written⟩, -, canonical⟩ := canonical
    obtain ⟨kind, headings⟩ := heading.heading_opening written (start.advance ['{'])
    rw [Directive.embed, Embed.place, Directive.unplaced, Directive.unplaced, kind, headings,
      unplacedBranches_placeArguments branches canonical]
  | ⟨_, _, heading, .multiLine, branches, _⟩ =>
    obtain ⟨⟨-, rfl, written⟩, canonical⟩ := canonical
    obtain ⟨kind, headings⟩ := heading.heading_opening written (start.advance ['{'])
    rw [Directive.embed, Embed.place, Directive.unplaced, Directive.unplaced, kind, headings,
      unplacedBranches_placeEntries branches canonical]

theorem unplacedBranches_placeArguments (branches : List Branch)
    (canonical : canonicalArguments branches) (start : Position) :
    unplacedBranches (placeArguments identify start (argumentsOfBranches indent branches)).1 =
      unplacedBranches branches := by
  match branches with
  | [] => rfl
  | [⟨guard, content, _⟩] =>
    obtain ⟨rfl, inside, -⟩ := canonical
    rw [argumentsOfBranches, argumentsOfBranches, placeArguments, unplacedBranches,
      unplacedBranches, unplacedNodes_placePieces content inside]
    rfl
  | ⟨guard, content, _⟩ :: next :: rest =>
    obtain ⟨rfl, inside, canonical⟩ := canonical
    rw [argumentsOfBranches,
      placeArguments_cons identify start _ (argumentsOfBranches_ne_nil indent (by simp)),
      unplacedBranches, unplacedBranches, unplacedNodes_placePieces content inside,
      unplacedBranches_placeArguments (next :: rest) canonical]

theorem unplacedBranches_placeEntries (branches : List Branch)
    (canonical : canonicalEntries branches) (start : Position) :
    unplacedBranches (placeEntries identify start (entriesOfBranches indent branches)).1 =
      unplacedBranches branches := by
  match branches with
  | [] => rfl
  | ⟨none, content, _⟩ :: rest =>
    obtain ⟨-, inside, canonical⟩ := canonical
    rw [entriesOfBranches, placeEntries, Entry.place, unplacedBranches, unplacedBranches,
      unplacedNodes_placePieces content inside, unplacedBranches_placeEntries rest canonical]
    rfl
  | ⟨some guard, content, _⟩ :: rest =>
    obtain ⟨-, inside, canonical⟩ := canonical
    rw [entriesOfBranches, placeEntries, Entry.place, unplacedBranches, unplacedBranches,
      unplacedNodes_placePieces content inside, unplacedBranches_placeEntries rest canonical]
    simp [Margin.guard?, marginOfGuard, Guard.unplaced, guardAt]

end

end

/-! ### Placed nodes are canonical -/

namespace Written

section

variable (identify : Span → String)

theorem leadingText_placePieces (start : Position) (pieces : List Piece) :
    leadingText (placePieces identify start pieces).1 = leadingChars pieces := by
  match pieces with
  | [] => rfl
  | .text chars :: rest => exact String.toList_ofList
  | .embed value :: rest => rfl

theorem leadingText_placeArguments (start : Position) (first : List Piece)
    (rest : List (List Piece)) :
    leadingTextOfBranches (placeArguments identify start (first :: rest)).1 =
      leadingChars first := by
  by_cases last : rest = []
  · rw [last, placeArguments]
    exact leadingText_placePieces identify start first
  · rw [placeArguments_cons identify start first last]
    exact leadingText_placePieces identify start first

/-- What an opening means is canonical. -/
theorem Opening.canonical_heading {value : Opening} {after : List Char} (fits : value.Fits after)
    (start : Position) : (value.heading start).Canonical := by
  cases value with
  | bare => trivial
  | sign sign gap => trivial
  | label text gap =>
    obtain ⟨nonempty, labels, -⟩ := fits
    rw [Opening.heading]
    split
    · trivial
    · next unknown =>
      refine ⟨by simpa [guardAt] using nonempty, ?_, unknown⟩
      simpa [guardAt] using labels

theorem Opening.precedes_heading {value : Opening} {first : List Piece} {after : List Char}
    (legible : legiblePieces isArgumentText first) (fits : value.Fits (spellPieces first ++ after))
    (start : Position) : (value.heading start).Precedes (leadingChars first) := by
  cases value with
  | bare =>
    obtain ⟨unlabelled, sign⟩ := fits
    refine ⟨stops_leadingChars legible sign, (not_labelled_argument_iff
      (accept_leadingChars legible)).1 ?_⟩
    exact fun labelled => unlabelled (labelled.spellPieces_append legible)
  | sign sign gap => exact stops_leadingChars legible fits.2.1
  | label text gap =>
    have stops := stops_leadingChars legible fits.2.2.2
    rw [Opening.heading]
    split <;> exact stops

theorem Margin.precedes_guard {space text gap : List Char} {pieces : List Piece}
    {after : List Char} (legible : legiblePieces isEntryText pieces)
    (fits : Margin.Fits (spellPieces pieces ++ after) ⟨space, some (text, gap)⟩)
    (start : Position) : (guardAt start text).Precedes (leadingChars pieces) := by
  obtain ⟨-, nonempty, begins, labels, -, stops⟩ := fits
  refine ⟨⟨by simpa [guardAt] using nonempty, by simpa [guardAt] using labels, ?_⟩,
    stops_leadingChars legible stops⟩
  rw [guardAt, String.toList_ofList]
  exact begins.mono (fun _ => isSpace_of_isGap)

theorem Margin.unguarded {space : List Char} {pieces : List Piece} {after : List Char}
    (legible : legiblePieces isEntryText pieces)
    (fits : Margin.Fits (spellPieces pieces ++ after) ⟨space, none⟩) :
    Unguarded (leadingChars pieces) := by
  obtain ⟨-, stops, unlabelled⟩ := fits
  refine ⟨stops_leadingChars legible stops, (not_labelled_entry_iff
    (accept_leadingChars legible)).1 ?_⟩
  exact fun labelled => unlabelled (labelled.spellPieces_append legible)

theorem placeEntries_ne_nil {entries : List Entry} (nonempty : entries ≠ []) (start : Position) :
    (placeEntries identify start entries).1 ≠ [] := by
  cases entries with
  | nil => exact absurd rfl nonempty
  | cons entry rest => simp [placeEntries]

theorem placeArguments_ne_nil (first : List Piece) (rest : List (List Piece)) (start : Position) :
    (placeArguments identify start (first :: rest)).1 ≠ [] := by
  cases rest <;> simp [placeArguments]

mutual

theorem canonicalNodes_placePieces {accept : Char → Bool} (pieces : List Piece)
    (legible : legiblePieces accept pieces) (start : Position) :
    canonicalNodes accept (placePieces identify start pieces).1 := by
  match pieces with
  | [] => trivial
  | .text chars :: rest =>
    obtain ⟨⟨nonempty, all⟩, apart, legible⟩ := legible
    refine ⟨⟨by simpa using nonempty, by simpa using all⟩, ?_,
      canonicalNodes_placePieces rest legible _⟩
    match rest with
    | [] => simp [placePieces]
    | .text next :: more => cases apart
    | .embed value :: more => simp [placePieces, Piece.place]
  | .embed value :: rest =>
    obtain ⟨inside, legible⟩ := legible
    exact ⟨Embed.canonical_place value inside start, canonicalNodes_placePieces rest legible _⟩

theorem Embed.canonical_place (value : Embed) (legible : value.Legible) (start : Position) :
    (value.place identify start).Canonical := by
  match value with
  | .inline opening [] => exact absurd rfl legible.1
  | .inline opening (first :: rest) =>
    obtain ⟨-, fits, legible⟩ := legible
    have arguments := canonicalArguments_placeArguments (first :: rest) legible
      ((start.advance ['{']).advance opening.spell)
    obtain ⟨after, split, -⟩ := spellArguments_split first rest
    rw [split] at fits
    refine ⟨⟨placeArguments_ne_nil identify first rest _, rfl, opening.canonical_heading fits _⟩,
      ?_, arguments⟩
    rw [leadingText_placeArguments]
    exact opening.precedes_heading legible.1 fits _
  | .block opening margin entries =>
    obtain ⟨nonempty, fits, -, legible⟩ := legible
    exact ⟨⟨placeEntries_ne_nil identify nonempty _, rfl, opening.canonical_heading fits _⟩,
      canonicalEntries_placeEntries entries legible _⟩

theorem canonicalArguments_placeArguments (arguments : List (List Piece))
    (legible : legibleArguments arguments) (start : Position) :
    canonicalArguments (placeArguments identify start arguments).1 := by
  match arguments with
  | [] => trivial
  | [pieces] => exact ⟨rfl, canonicalNodes_placePieces pieces legible.1 start, trivial⟩
  | pieces :: next :: rest =>
    rw [placeArguments_cons identify start pieces (by simp)]
    exact ⟨rfl, canonicalNodes_placePieces pieces legible.1 start,
      canonicalArguments_placeArguments (next :: rest) legible.2 _⟩

theorem canonicalEntries_placeEntries (entries : List Entry) (legible : legibleEntries entries)
    (start : Position) : canonicalEntries (placeEntries identify start entries).1 := by
  match entries with
  | [] => trivial
  | ⟨⟨space, none⟩, pieces⟩ :: rest =>
    obtain ⟨fits, inside, legible⟩ := legible
    refine ⟨?_, canonicalNodes_placePieces pieces inside _,
      canonicalEntries_placeEntries rest legible _⟩
    rw [leadingText_placePieces]
    exact Margin.unguarded inside fits
  | ⟨⟨space, some (text, gap)⟩, pieces⟩ :: rest =>
    obtain ⟨fits, inside, legible⟩ := legible
    refine ⟨?_, canonicalNodes_placePieces pieces inside _,
      canonicalEntries_placeEntries rest legible _⟩
    rw [leadingText_placePieces]
    exact Margin.precedes_guard inside fits _

end

mutual

theorem depthOfNodes_placePieces (pieces : List Piece) (start : Position) :
    depthOfNodes (placePieces identify start pieces).1 = depthOfPieces pieces := by
  match pieces with
  | [] => rfl
  | .text chars :: rest =>
    rw [placePieces, Piece.place, depthOfNodes, depthOfNodes_placePieces rest, depthOfPieces,
      Piece.depth, Nat.zero_max]
  | .embed value :: rest =>
    rw [placePieces, Piece.place, depthOfNodes, depthOfNodes_placePieces rest, depthOfPieces,
      Piece.depth, Embed.depth_place value]

theorem Embed.depth_place (value : Embed) (start : Position) :
    (value.place identify start).depth = value.depth := by
  match value with
  | .inline opening arguments =>
    rw [Embed.place, Directive.depth, Embed.depth, depthOfBranches_placeArguments arguments]
  | .block opening margin entries =>
    rw [Embed.place, Directive.depth, Embed.depth, depthOfBranches_placeEntries entries]

theorem depthOfBranches_placeArguments (arguments : List (List Piece)) (start : Position) :
    depthOfBranches (placeArguments identify start arguments).1 = depthOfArguments arguments := by
  match arguments with
  | [] => rfl
  | [pieces] =>
    rw [placeArguments, depthOfBranches, depthOfNodes_placePieces pieces, depthOfArguments]
    rfl
  | pieces :: next :: rest =>
    rw [placeArguments_cons identify start pieces (by simp), depthOfBranches,
      depthOfNodes_placePieces pieces, depthOfBranches_placeArguments (next :: rest),
      depthOfArguments.eq_2 pieces (next :: rest)]

theorem depthOfBranches_placeEntries (entries : List Entry) (start : Position) :
    depthOfBranches (placeEntries identify start entries).1 = depthOfEntries entries := by
  match entries with
  | [] => rfl
  | ⟨margin, pieces⟩ :: rest =>
    rw [placeEntries, Entry.place, depthOfBranches, depthOfNodes_placePieces pieces,
      depthOfBranches_placeEntries rest, depthOfEntries]

end

end

end Written

/-! ### Documents -/

/-- What a parsed document holds is canonical, and no deeper than the options allow. -/
theorem Document.canonical_of_parse {options : ParseOptions} {source : String}
    {document : Document} (parsed : Document.parse options source = .ok document) :
    canonicalNodes isTopText document.nodes ∧ depthOfNodes document.nodes ≤ options.maxDepth := by
  obtain ⟨pieces, -, legible, shallow, rfl⟩ := Document.parse_eq_ok_iff.1 parsed
  refine ⟨canonicalNodes_placePieces _ pieces legible .start, ?_⟩
  rw [depthOfNodes_placePieces]
  exact shallow

/-- Canonical nodes are parsed from their spelling. -/
theorem Document.exists_parse_spellNodes (options : ParseOptions) (indent : Indent)
    {nodes : List Node} (canonical : canonicalNodes isTopText nodes)
    (shallow : depthOfNodes nodes ≤ options.maxDepth) :
    ∃ document, Document.parse options (String.ofList (spellNodes indent.chars nodes)) =
        .ok document ∧
      unplacedNodes document.nodes = unplacedNodes nodes := by
  refine ⟨_, Document.parse_eq_ok_iff.2 ⟨piecesOfNodes indent.chars nodes, ?_,
    legiblePieces_piecesOfNodes indent nodes canonical, ?_, rfl⟩,
    unplacedNodes_placePieces _ indent.chars nodes canonical .start⟩
  · rw [String.toList_ofList, spellPieces_piecesOfNodes]
  · rw [depthOfPieces_piecesOfNodes]
    exact shallow

/-- Parsing undoes canonical spelling, and every parsed document has a canonical spelling. -/
theorem parse_spellNodes (options : ParseOptions) (indent : Indent) :
    (∀ nodes, canonicalNodes isTopText nodes → depthOfNodes nodes ≤ options.maxDepth →
      ∃ document, Document.parse options (String.ofList (spellNodes indent.chars nodes)) =
          .ok document ∧
        unplacedNodes document.nodes = unplacedNodes nodes) ∧
    ∀ source document, Document.parse options source = .ok document →
      canonicalNodes isTopText document.nodes ∧ depthOfNodes document.nodes ≤ options.maxDepth ∧
      ∃ again, Document.parse options
          (String.ofList (spellNodes indent.chars document.nodes)) = .ok again ∧
        unplacedNodes again.nodes = unplacedNodes document.nodes := by
  constructor
  · intro nodes canonical shallow
    exact Document.exists_parse_spellNodes options indent canonical shallow
  · intro source document parsed
    obtain ⟨canonical, shallow⟩ := Document.canonical_of_parse parsed
    exact ⟨canonical, shallow, Document.exists_parse_spellNodes options indent canonical shallow⟩

/-! ### Instances -/

theorem canonicalNodes_text {accept : Char → Bool} {content : String} (nonempty : content ≠ "")
    (all : content.toList.all accept = true) : canonicalNodes accept [.text content] :=
  ⟨⟨nonempty, List.all_eq_true.1 all⟩, by simp, trivial⟩

/-- A document with both layouts, the block with entries of both forms. -/
def nestedNodes : List Node :=
  [.text "é",
    .directive ⟨"", .conditional, .condition ⟨"x>0", ⟨.start, .start⟩⟩, .inline,
      [⟨none, [.text "b"], ⟨.start, .start⟩⟩,
        ⟨none, [.directive ⟨"", .list .shuffle, .discipline .shuffle, .multiLine,
          [⟨some ⟨"g", ⟨.start, .start⟩⟩, [.text "a:\r\n"], ⟨.start, .start⟩⟩,
            ⟨none, [.text "|c:d"], ⟨.start, .start⟩⟩], ⟨.start, .start⟩⟩], ⟨.start, .start⟩⟩],
      ⟨.start, .start⟩⟩]

theorem canonicalNodes_nestedNodes : canonicalNodes isTopText nestedNodes := by
  have guarded : Guard.Precedes "a:\r\n".toList ⟨"g", ⟨.start, .start⟩⟩ :=
    ⟨⟨by decide, List.all_eq_true.1 (by decide), (stops_cons isGap 'g' []).2 rfl⟩,
      (stops_cons isGap 'a' _).2 rfl⟩
  have unguarded : Unguarded "|c:d".toList := by
    refine ⟨(stops_cons isSpace '|' _).2 rfl, ?_⟩
    intro run rest split free
    cases run with
    | nil => rfl
    | cons first run =>
      obtain ⟨rfl, -⟩ := List.cons.inj split
      cases free '|' List.mem_cons_self
  refine ⟨⟨by decide, List.all_eq_true.1 (by decide)⟩, by simp,
    ⟨⟨by simp, rfl, by decide, List.all_eq_true.1 (by decide), by decide⟩,
    (stops_cons isGap 'b' []).2 rfl, rfl, canonicalNodes_text (by decide) (by decide), rfl, ?_,
    trivial⟩, trivial⟩
  exact ⟨⟨⟨by simp, rfl, trivial⟩, guarded, canonicalNodes_text (by decide) (by decide), unguarded,
    canonicalNodes_text (by decide) (by decide), trivial⟩, trivial⟩

theorem parse_spellNodes_nestedNodes :
    (canonicalNodes isTopText nestedNodes ∧ depthOfNodes nestedNodes ≤ 2) ∧
      ∃ document, Document.parse { document := "d", maxDepth := 2 }
          (String.ofList (spellNodes Indent.feed.chars nestedNodes)) = .ok document ∧
        unplacedNodes document.nodes = unplacedNodes nestedNodes := by
  have shallow : depthOfNodes nestedNodes ≤ 2 := by decide
  exact ⟨⟨canonicalNodes_nestedNodes, shallow⟩,
    (parse_spellNodes { document := "d", maxDepth := 2 } Indent.feed).1 nestedNodes
      canonicalNodes_nestedNodes shallow⟩

/-- A block whose second entry has a guard. -/
def guardedBlock : List Node :=
  [.directive ⟨"", .list .stopping, .none, .multiLine, [⟨none, [.text "a"], ⟨.start, .start⟩⟩,
    ⟨some ⟨"b", ⟨.start, .start⟩⟩, [.text "c"], ⟨.start, .start⟩⟩], ⟨.start, .start⟩⟩]

theorem canonicalNodes_guardedBlock : canonicalNodes isTopText guardedBlock := by
  have unguarded : Unguarded "a".toList := by
    refine ⟨(stops_cons isSpace 'a' []).2 rfl, ?_⟩
    intro run rest split free
    have colon : ':' ∈ "a".toList := by simp [split]
    cases colon with
    | tail _ colon => cases colon
  have guarded : Guard.Precedes "c".toList ⟨"b", ⟨.start, .start⟩⟩ :=
    ⟨⟨by decide, List.all_eq_true.1 (by decide), (stops_cons isGap 'b' []).2 rfl⟩,
      (stops_cons isGap 'c' []).2 rfl⟩
  exact ⟨⟨⟨by simp, rfl, trivial⟩, unguarded, canonicalNodes_text (by decide) (by decide), guarded,
    canonicalNodes_text (by decide) (by decide), trivial⟩, trivial⟩

/-- The guard that is read if the entries of `guardedBlock` are not on lines of their own. -/
def overrunGuard (blank : List Char) : List Char := 'a' :: '-' :: (blank ++ ['b'])

/-- A block of one entry with that guard. -/
def overrunBlock (blank : List Char) : Embed :=
  .block .bare ⟨[], false, []⟩ [⟨⟨blank, some (overrunGuard blank, [])⟩, [.text ['c']]⟩]

section

variable {blank : List Char} (gaps : ∀ c ∈ blank, isGap c = true)

include gaps

theorem isLabel_overrunGuard : ∀ c ∈ overrunGuard blank, isLabel c = true := by
  simp only [overrunGuard, List.mem_cons, List.mem_append, List.not_mem_nil, or_false]
  rintro c (rfl | rfl | member | rfl)
  · rfl
  · rfl
  · have gap := gaps c member
    simp only [isGap, Bool.or_eq_true, beq_iff_eq] at gap
    rcases gap with rfl | rfl <;> rfl
  · rfl

theorem legible_overrunBlock : (overrunBlock blank).Legible := by
  have opening : Opening.bare.Fits (Break.spell ⟨[], false, []⟩ ++
      spellEntries [⟨⟨blank, some (overrunGuard blank, [])⟩, [.text ['c']]⟩]) :=
    ⟨@not_labelled_line [] (by simp) false _, (stops_cons isSign '\n' _).2 rfl⟩
  have margin : Margin.Fits ['c'] ⟨blank, some (overrunGuard blank, [])⟩ :=
    ⟨fun c member => isSpace_of_isGap (gaps c member), by simp [overrunGuard],
      (stops_cons isSpace 'a' _).2 rfl, isLabel_overrunGuard gaps, by simp,
      (stops_cons isGap 'c' []).2 rfl⟩
  exact ⟨by simp, opening, ⟨by simp, by simp⟩, margin,
    ⟨⟨by simp, List.all_eq_true.1 rfl⟩, rfl, trivial⟩, trivial⟩

/-- Indents must break lines. After a gap the guard of an entry runs over the entry before it. -/
theorem exists_parse_spellNodes_ne (options : ParseOptions) (deep : 0 < options.maxDepth) :
    ∃ nodes document, canonicalNodes isTopText nodes ∧ depthOfNodes nodes ≤ options.maxDepth ∧
      Document.parse options (String.ofList (spellNodes blank nodes)) = .ok document ∧
      unplacedNodes document.nodes ≠ unplacedNodes nodes := by
  have spelled : spellPieces [.embed (overrunBlock blank)] =
      (String.ofList (spellNodes blank guardedBlock)).toList := by
    simp [overrunBlock, guardedBlock, overrunGuard, spellPieces, Piece.spell, Embed.spell,
      Opening.spell, Break.spell, lineBreak, spellEntries, Entry.spell, Margin.spell, spellNodes,
      Directive.spell, Heading.spell, spellMultiLine, spellGuard]
  have depth : depthOfPieces [.embed (overrunBlock blank)] = 1 := rfl
  have same : depthOfNodes guardedBlock = 1 := rfl
  refine ⟨guardedBlock, _, canonicalNodes_guardedBlock, by omega, Document.parse_eq_ok_iff.2
    ⟨[.embed (overrunBlock blank)], spelled, ⟨legible_overrunBlock gaps, trivial⟩, by omega, rfl⟩,
    ?_⟩
  simp [guardedBlock, overrunBlock, placePieces, Piece.place, Embed.place, placeEntries,
    Entry.place, unplacedNodes, Directive.unplaced, unplacedBranches]

end

end Narrative
