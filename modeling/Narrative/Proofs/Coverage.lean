import Narrative.Proofs.Parsing

/-!
Spans account for every character of a source. Main statement: in a parsed document the texts and
the slices at the spans of directives join to the source, and so do, inside each directive, its
braces, heading and branches, and inside each branch its guard and content.
-/

set_option autoImplicit false

namespace Narrative

open Written (isGap isSpace lineBreak)

/-- The characters of a node: a text is itself, a directive what stands at its span. -/
def Node.source? (source : List Char) : Node → Option (List Char)
  | .text content => some content.toList
  | .directive value => slice? source value.span

/-- The characters of nodes, one after the other. -/
def sourceOfNodes? (source : List Char) (nodes : List Node) : Option (List Char) :=
  (nodes.mapM (Node.source? source)).map List.flatten

/-- A heading may be written so, the gap after it left out. -/
def Heading.WrittenAs : Heading → List Char → Prop
  | none, text => text = []
  | discipline kind, text =>
    text = kind.marker.toList ∨ ∃ sign : Written.Sign, sign.discipline = kind ∧ text = [sign.char]
  | condition guard, text => text = guard.text.toList ++ [':']

/-- A guard stands at its span. -/
def Guard.Located (source : List Char) (guard : Guard) : Prop :=
  slice? source guard.span = some guard.text.toList

/-- The guards in the heading and before the branches of a directive stand at their spans. -/
def Directive.GuardsLocated (source : List Char) (directive : Directive) : Prop :=
  (∀ guard, directive.guard? = some guard → guard.Located source) ∧
    ∀ branch ∈ directive.branches, ∀ guard, branch.guard = some guard → guard.Located source

/-- The content of an argument is all that stands at its span. -/
def Branch.CoveredArgument (source : List Char) (branch : Branch) : Prop :=
  ∃ text, slice? source branch.span = some text ∧ sourceOfNodes? source branch.content = some text

/-- At the span of an entry stand its dash, space, a guard with its gap, and the content. -/
def Branch.CoveredEntry (source : List Char) (branch : Branch) : Prop :=
  ∃ space label content, slice? source branch.span = some ('-' :: (space ++ label ++ content)) ∧
    (∀ c ∈ space, isSpace c = true) ∧
    (match branch.guard with
      | none => label = []
      | some guard =>
        ∃ gap, (∀ c ∈ gap, isGap c = true) ∧ label = guard.text.toList ++ ':' :: gap) ∧
    sourceOfNodes? source branch.content = some content

/-- At the span of a directive stand its braces, its heading and its branches. -/
def Directive.Covered (source : List Char) (directive : Directive) : Prop :=
  ∃ head gap branches, directive.heading.WrittenAs head ∧ (∀ c ∈ gap, isGap c = true) ∧
    directive.branches.mapM (fun branch => slice? source branch.span) = some branches ∧
    match directive.layout with
    | .inline =>
      (directive.heading = .none → gap = []) ∧
      slice? source directive.span =
        some ('{' :: (head ++ gap ++ ['|'].intercalate branches ++ ['}'])) ∧
      ∀ branch ∈ directive.branches, branch.CoveredArgument source
    | .multiLine =>
      (∃ carriage space, (∀ c ∈ space, isSpace c = true) ∧ slice? source directive.span =
        some ('{' :: (head ++ gap ++ lineBreak carriage ++ space ++ branches.flatten ++ ['}']))) ∧
      ∀ branch ∈ directive.branches, branch.CoveredEntry source

/-! ### Slices -/

/-- A text stands at a place of a source. -/
def Stands (source : List Char) (place : Position) (text : List Char) : Prop :=
  ∃ front back, source = front ++ (text ++ back) ∧ place = Position.start.advance front

section

variable {source text first second : List Char} {place : Position}

theorem Stands.slice? (stands : Stands source place text) :
    slice? source (Span.ofText place text) = some text := by
  obtain ⟨front, back, rfl, rfl⟩ := stands
  have begun : (Position.start.advance front).offset = byteLength front := by
    rw [Position.advance_offset]
    exact Nat.zero_add _
  have ended : ((Position.start.advance front).advance text).offset =
      byteLength front + byteLength text := by
    rw [Position.advance_offset, begun]
  rw [Narrative.slice?, Span.ofText]
  dsimp only
  rw [begun, ended, if_neg (by omega), cutAt?_append]
  dsimp only
  rw [Nat.add_sub_cancel_left, cutAt?_append]
  rfl

theorem Stands.left (stands : Stands source place (first ++ second)) :
    Stands source place first := by
  obtain ⟨front, back, rfl, rfl⟩ := stands
  exact ⟨front, second ++ back, by simp, rfl⟩

theorem Stands.right (stands : Stands source place (first ++ second)) :
    Stands source (place.advance first) second := by
  obtain ⟨front, back, rfl, rfl⟩ := stands
  exact ⟨front ++ first, back, by simp, (Position.advance_append _ _ _).symm⟩

end

namespace Written

variable {source : List Char} {place : Position} (identify : Span → String)

theorem sourceOfNodes?_placePieces (pieces : List Piece)
    (stands : Stands source place (spellPieces pieces)) :
    sourceOfNodes? source (placePieces identify place pieces).1 = some (spellPieces pieces) := by
  induction pieces generalizing place with
  | nil => rfl
  | cons piece rest ih =>
    rw [spellPieces] at stands
    have here : (piece.place identify place).1.source? source = some piece.spell := by
      cases piece with
      | text chars => simp [Piece.place, Piece.spell, Node.source?]
      | embed value =>
        rw [Piece.place, Node.source?, Embed.place_span]
        exact stands.left.slice?
    have there := ih stands.right
    rw [← Piece.place_snd identify] at there
    obtain ⟨parts, found, joined⟩ := Option.map_eq_some_iff.1 there
    rw [sourceOfNodes?, placePieces, List.mapM_cons, here]
    simp [found, joined, spellPieces]

theorem spellArguments_eq (arguments : List (List Piece)) :
    spellArguments arguments = ['|'].intercalate (arguments.map spellPieces) := by
  induction arguments with
  | nil => rfl
  | cons pieces rest ih =>
    cases rest with
    | nil => simp [spellArguments, List.intercalate]
    | cons next rest =>
      rw [spellArguments_cons pieces (by simp), ih]
      simp [List.intercalate]

theorem spellEntries_eq (entries : List Entry) :
    spellEntries entries = (entries.map Entry.spell).flatten := by
  induction entries with
  | nil => rfl
  | cons entry rest ih => rw [spellEntries, ih, List.map_cons, List.flatten_cons]

/-- Placed arguments cover their characters. -/
theorem covered_placeArguments (arguments : List (List Piece))
    (stands : Stands source place (spellArguments arguments)) :
    (placeArguments identify place arguments).1.mapM (fun branch => slice? source branch.span) =
        some (arguments.map spellPieces) ∧
      ∀ branch ∈ (placeArguments identify place arguments).1,
        branch.guard = none ∧ branch.CoveredArgument source := by
  induction arguments generalizing place with
  | nil =>
    rw [placeArguments]
    exact ⟨rfl, by simp⟩
  | cons pieces rest ih =>
    by_cases last : rest = []
    · subst last
      rw [spellArguments] at stands
      have filled := sourceOfNodes?_placePieces identify pieces stands
      rw [placeArguments, placePieces_snd]
      refine ⟨?_, ?_⟩
      · rw [List.mapM_cons, show slice? source ⟨place, place.advance (spellPieces pieces)⟩ = _ from
          stands.slice?]
        rfl
      · intro branch member
        cases List.mem_singleton.1 member
        exact ⟨rfl, _, stands.slice?, filled⟩
    · rw [spellArguments_cons pieces last, List.append_cons] at stands
      have filled := sourceOfNodes?_placePieces identify pieces stands.left.left
      obtain ⟨slices, covered⟩ := ih stands.right
      rw [placeArguments_cons identify place pieces last]
      refine ⟨?_, ?_⟩
      · rw [List.mapM_cons, stands.left.left.slice?, slices]
        rfl
      · intro branch member
        rcases List.mem_cons.1 member with rfl | member
        · exact ⟨rfl, _, stands.left.left.slice?, filled⟩
        · exact covered branch member

theorem Entry.covered_place (entry : Entry) {after : List Char} (fits : entry.margin.Fits after)
    (stands : Stands source place entry.spell) :
    (entry.place identify place).CoveredEntry source ∧
      ∀ guard, (entry.place identify place).guard = some guard → guard.Located source := by
  have slice := stands.slice?
  rw [← Entry.place_span identify] at slice
  obtain ⟨⟨space, label⟩, pieces⟩ := entry
  rw [Entry.spell, ← List.singleton_append] at stands
  have filled := sourceOfNodes?_placePieces identify pieces stands.right.right
  cases label with
  | none =>
    refine ⟨⟨space, [], _, slice.trans ?_, fits.1, rfl, filled⟩, ?_⟩
    · simp [Entry.spell, Margin.spell]
    · intro guard found
      cases found
  | some label =>
    obtain ⟨text, gap⟩ := label
    obtain ⟨spaces, -, -, -, gaps, -⟩ := fits
    have located := stands.right.left
    rw [Margin.spell] at located
    refine ⟨⟨space, text ++ ':' :: gap, _, slice.trans ?_, spaces, ⟨gap, gaps, ?_⟩, filled⟩, ?_⟩
    · simp [Entry.spell, Margin.spell]
    · exact congrArg (· ++ ':' :: gap) String.toList_ofList.symm
    · intro guard found
      cases found
      exact located.right.left.slice?.trans (congrArg some String.toList_ofList.symm)

theorem covered_placeEntries (entries : List Entry) (legible : legibleEntries entries)
    (stands : Stands source place (spellEntries entries)) :
    (placeEntries identify place entries).1.mapM (fun branch => slice? source branch.span) =
        some (entries.map Entry.spell) ∧
      ∀ branch ∈ (placeEntries identify place entries).1,
        branch.CoveredEntry source ∧
          ∀ guard, branch.guard = some guard → guard.Located source := by
  induction entries generalizing place with
  | nil =>
    rw [placeEntries]
    exact ⟨rfl, by simp⟩
  | cons entry rest ih =>
    obtain ⟨margin, pieces⟩ := entry
    obtain ⟨fits, -, legibles⟩ := legible
    rw [spellEntries] at stands
    obtain ⟨slices, covered⟩ := ih legibles stands.right
    rw [placeEntries, Entry.place_span]
    refine ⟨?_, ?_⟩
    · rw [List.mapM_cons, Entry.place_span, stands.left.slice?]
      dsimp only [Span.ofText]
      rw [slices]
      rfl
    · intro branch member
      rcases List.mem_cons.1 member with rfl | member
      · exact Entry.covered_place identify _ fits stands.left
      · exact covered branch member

/-- An opening writes the heading that it means, and a gap after it. -/
theorem Opening.heading_writtenAs (opening : Opening) (start : Position) {after : List Char}
    (fits : opening.Fits after) :
    ∃ head gap, opening.spell = head ++ gap ∧ (opening.heading start).WrittenAs head ∧
      (∀ c ∈ gap, isGap c = true) ∧ (opening.heading start = .none → gap = []) := by
  cases opening with
  | bare => exact ⟨[], [], rfl, rfl, by simp, fun _ => rfl⟩
  | sign sign gap =>
    refine ⟨[sign.char], gap, rfl, Or.inr ⟨sign, rfl, rfl⟩, fits.1, ?_⟩
    intro bare
    cases bare
  | label text gap =>
    refine ⟨text ++ [':'], gap, by simp [spell], ?_, fits.2.2.1, ?_⟩
    · rw [heading]
      split
      · next kind found =>
        have word : kind.word = String.ofList text := by
          simpa using List.find?_some found
        refine Or.inl ?_
        rw [Discipline.marker, word, String.toList_append, String.toList_ofList]
        rfl
      · rw [Heading.WrittenAs, guardAt, String.toList_ofList]
    · intro bare
      rw [heading] at bare
      split at bare <;> cases bare

theorem Opening.heading_located (opening : Opening)
    (stands : Stands source place opening.spell) :
    ∀ guard, (opening.heading place).guard? = some guard → guard.Located source := by
  intro guard found
  cases opening with
  | bare => cases found
  | sign sign gap => cases found
  | label text gap =>
    rw [heading] at found
    split at found
    · cases found
    · cases found
      rw [spell] at stands
      exact stands.left.slice?.trans (congrArg some String.toList_ofList.symm)

theorem Embed.covered_place (value : Embed) (legible : value.Legible)
    (stands : Stands source place value.spell) :
    (value.place identify place).Covered source ∧
      (value.place identify place).GuardsLocated source := by
  have slice := stands.slice?
  rw [← Embed.place_span identify] at slice
  cases value with
  | inline opening arguments =>
    obtain ⟨-, fits, -⟩ := legible
    rw [Embed.spell, ← List.singleton_append] at stands
    have inside := stands.right.left
    obtain ⟨head, gap, split, written, gaps, bare⟩ :=
      opening.heading_writtenAs (place.advance ['{']) fits
    obtain ⟨slices, covered⟩ := covered_placeArguments identify arguments inside.right
    refine ⟨⟨head, gap, _, written, gaps, slices, bare, slice.trans ?_,
      fun branch member => (covered branch member).2⟩, ?_, ?_⟩
    · rw [Embed.spell, split, spellArguments_eq]
    · exact opening.heading_located inside.left
    · intro branch member guard found
      rw [(covered branch member).1] at found
      cases found
  | block opening margin entries =>
    obtain ⟨-, fits, blank, legible⟩ := legible
    obtain ⟨before, carriage, space⟩ := margin
    rw [Embed.spell, ← List.singleton_append] at stands
    have inside := stands.right.left
    obtain ⟨head, gap, split, written, gaps, -⟩ :=
      opening.heading_writtenAs (place.advance ['{']) fits
    have behind := inside.right
    rw [Position.advance_append] at behind
    obtain ⟨slices, covered⟩ := covered_placeEntries identify entries legible behind
    refine ⟨⟨head, gap ++ before, _, written, ?_, slices,
      ⟨carriage, space, blank.2, slice.trans ?_⟩,
      fun branch member => (covered branch member).1⟩, ?_, ?_⟩
    · intro c member
      exact (List.mem_append.1 member).elim (gaps c) (blank.1 c)
    · rw [Embed.spell, split, spellEntries_eq, Break.spell]
      simp
    · exact opening.heading_located inside.left.left
    · exact fun branch member => (covered branch member).2

end Written

/-- Texts and slices at spans join to the whole source, and inside each directive to all of it. -/
theorem covered_of_parse {options : ParseOptions} {source : String} {document : Document}
    (parsed : Document.parse options source = .ok document) :
    sourceOfNodes? source.toList document.nodes = some source.toList ∧
      ∀ directive ∈ document.directives,
        directive.Covered source.toList ∧ directive.GuardsLocated source.toList := by
  constructor
  · obtain ⟨pieces, spelled, -, -, rfl⟩ := Document.parse_eq_ok_iff.1 parsed
    rw [← spelled]
    exact Written.sourceOfNodes?_placePieces _ pieces ⟨[], [], by simp, rfl⟩
  · intro directive member
    obtain ⟨front, value, back, split, legible, rfl⟩ := Document.placed_of_mem parsed member
    exact value.covered_place _ legible ⟨front, back, split, rfl⟩

/-- Both layouts inside each other, after a character of two bytes and with a carriage return. -/
def nestedSource : String :=
  "é\x7bx>0: b|\x7b~c\x7d\x7d\x7b&\r\n - g: \x7ba|\t\x7d\n-e\x7d"

theorem covered_of_parse_nestedSource :
    ∃ document, Document.parse { document := "d" } nestedSource = .ok document ∧
      sourceOfNodes? nestedSource.toList document.nodes = some nestedSource.toList ∧
      ∀ directive ∈ document.directives, directive.Covered nestedSource.toList ∧
        directive.GuardsLocated nestedSource.toList := by
  have reads : (Document.parse { document := "d" } nestedSource).toOption.isSome = true := by
    decide +kernel
  cases parsed : Document.parse { document := "d" } nestedSource with
  | ok document => exact ⟨document, rfl, covered_of_parse parsed⟩
  | error error =>
    rw [parsed] at reads
    cases reads

end Narrative
