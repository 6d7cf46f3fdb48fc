import Narrative.Proofs.Joining
import Narrative.Proofs.Viability

/-!
Edits of earlier lines. If a front part of a source is parsed by itself, the rest is read as if it
stood alone, so its directives are the same behind any other front part. Behind whole lines they
keep their columns, and behind as many lines their lines too. Main statement: under the naming by
lines, two sources that differ in front parts of as many whole lines have the same directives in the
rest, up to offsets, identities included.
-/

set_option autoImplicit false

namespace Narrative

/-! ### The rest of a source -/

namespace Written

theorem Reads.unique {α : Type} {source rest back : List Char}
    {result : Except Stuck (Taken α source)} {value other : α} (reads : Reads result value rest)
    (again : Reads result other back) : value = other ∧ rest = back := by
  obtain ⟨taken, found, rfl, rfl⟩ := reads
  obtain ⟨same, foundToo, rfl, rfl⟩ := again
  rw [found] at foundToo
  cases foundToo
  exact ⟨rfl, rfl⟩

/-- A text begins with one embed at most. -/
theorem Embed.eq_of_append {first second : Embed} (legible : first.Legible)
    (legibleToo : second.Legible) {rest back : List Char}
    (same : first.spell ++ rest = second.spell ++ back) : first = second ∧ rest = back := by
  obtain ⟨inner, begun, reading⟩ :=
    first.reads legible (Nat.le_max_left first.depth second.depth) rest
  obtain ⟨innerToo, begunToo, readingToo⟩ :=
    second.reads legibleToo (Nat.le_max_right first.depth second.depth) back
  rw [begun, begunToo, List.cons_append, List.cons_append] at same
  rw [(List.cons.inj same).2] at reading
  exact reading.unique readingToo

section

variable {accept : Char → Bool} {whole : List Piece} {chars rest : List Char}

/-- Pieces of a text that begins with plain characters begin with a text. -/
theorem exists_text_of_append (brace : accept '{' = false) (legible : legiblePieces accept whole)
    (nonempty : chars ≠ []) (all : ∀ c ∈ chars, accept c = true)
    (same : spellPieces whole = chars ++ rest) :
    ∃ more others, whole = .text (chars ++ more) :: others ∧ rest = more ++ spellPieces others := by
  obtain ⟨c, front, rfl⟩ := List.exists_cons_of_ne_nil nonempty
  match whole with
  | [] => cases same
  | .embed value :: others =>
    obtain ⟨inner, begun⟩ := value.spell_eq_cons
    rw [spellPieces, Piece.spell, begun] at same
    obtain ⟨rfl, -⟩ := List.cons.inj same
    rw [all '{' List.mem_cons_self] at brace
    cases brace
  | .text run :: others =>
    obtain ⟨-, apart, -⟩ := legible
    have stops : Stops accept (spellPieces others ++ []) :=
      stops_spellPieces brace apart (stops_nil accept)
    rw [List.append_nil] at stops
    rw [spellPieces, Piece.spell] at same
    rcases List.append_eq_append_iff.1 same with ⟨more, split, behind⟩ | ⟨more, rfl, behind⟩
    · cases more with
      | nil =>
        rw [List.append_nil] at split
        exact ⟨[], others, by rw [List.append_nil, split], behind.symm⟩
      | cons d more =>
        -- The text would end before a character that belongs to it.
        rw [behind, List.cons_append, stops_cons, all d (split ▸ by simp)] at stops
        cases stops
    · exact ⟨more, others, rfl, behind⟩

theorem exists_embed_of_append {value : Embed} (brace : accept '{' = false)
    (legible : value.Legible) (legibleToo : legiblePieces accept whole)
    (same : spellPieces whole = value.spell ++ rest) :
    ∃ others, whole = .embed value :: others ∧ spellPieces others = rest := by
  obtain ⟨inner, begun⟩ := value.spell_eq_cons
  match whole with
  | [] =>
    rw [begun] at same
    cases same
  | .text run :: others =>
    obtain ⟨⟨nonempty, all⟩, -⟩ := legibleToo
    obtain ⟨c, front, rfl⟩ := List.exists_cons_of_ne_nil nonempty
    rw [begun] at same
    obtain ⟨rfl, -⟩ := List.cons.inj same
    rw [all '{' List.mem_cons_self] at brace
    cases brace
  | .embed other :: others =>
    rw [spellPieces, Piece.spell] at same
    obtain ⟨rfl, behind⟩ := Embed.eq_of_append legibleToo.1 legible same
    exact ⟨others, rfl, behind⟩

theorem joinPieces_text (more : List Char) {others : List Piece}
    (apart : textFirst others = false) :
    joinPieces [.text chars] (textPieces more ++ others) = .text (chars ++ more) :: others := by
  cases more with
  | cons c more => rfl
  | nil =>
    rw [List.append_nil]
    match others with
    | [] => rfl
    | .text run :: others => cases apart
    | .embed value :: others => rfl

theorem joinPieces_embed (value : Embed) (more second : List Piece) :
    joinPieces (.embed value :: more) second = .embed value :: joinPieces more second := by
  cases more <;> rfl

/-- Pieces whose characters begin as those of other pieces do are these joined with some more. -/
theorem exists_eq_joinPieces (brace : accept '{' = false) (first : List Piece)
    (legible : legiblePieces accept first) (legibleToo : legiblePieces accept whole)
    (same : spellPieces whole = spellPieces first ++ rest) :
    ∃ second, whole = joinPieces first second ∧ spellPieces second = rest ∧
      legiblePieces accept second := by
  induction first generalizing whole with
  | nil => exact ⟨whole, rfl, same, legibleToo⟩
  | cons piece more ih =>
    rw [spellPieces, List.append_assoc] at same
    cases piece with
    | embed value =>
      obtain ⟨others, rfl, behind⟩ :=
        exists_embed_of_append brace legible.1 legibleToo same
      obtain ⟨second, rfl, spelled, legibles⟩ := ih legible.2 legibleToo.2 behind
      exact ⟨second, (joinPieces_embed value more second).symm, spelled, legibles⟩
    | text chars =>
      obtain ⟨⟨nonempty, all⟩, apart, legible⟩ := legible
      obtain ⟨extra, others, rfl, behind⟩ :=
        exists_text_of_append brace legibleToo nonempty all same
      obtain ⟨⟨-, alls⟩, apartToo, legibleToo⟩ := legibleToo
      match more with
      | [] =>
        refine ⟨textPieces extra ++ others, (joinPieces_text extra apartToo).symm, ?_, ?_⟩
        · simpa [spellPieces] using behind.symm
        · exact legiblePieces_textPieces_append
            (fun c member => alls c (List.mem_append_right _ member)) apartToo legibleToo
      | .text run :: more => cases apart
      | .embed value :: more =>
        -- The text ends at the brace of the embed behind it.
        have ended : extra = [] := by
          cases extra with
          | nil => rfl
          | cons c extra =>
            obtain ⟨inner, begun⟩ := value.spell_eq_cons
            rw [spellPieces, Piece.spell, begun] at behind
            obtain ⟨rfl, -⟩ := List.cons.inj behind
            rw [alls '{' (by simp)] at brace
            cases brace
        subst ended
        obtain ⟨second, rfl, spelled, legibles⟩ := ih legible legibleToo behind.symm
        refine ⟨second, ?_, spelled, legibles⟩
        rw [List.append_nil]
        rfl

end

end Written

/-- The directives of a document that begin at an offset or behind it. -/
def Document.directivesFrom (document : Document) (offset : Nat) : List Directive :=
  document.directives.filter (fun directive => offset ≤ directive.span.start.offset)

theorem Document.directivesFrom_of_split {document : Document} {offset : Nat}
    {before behind : List Directive} (split : document.directives = before ++ behind)
    (earlier : ∀ directive ∈ before, directive.span.start.offset < offset)
    (later : ∀ directive ∈ behind, offset ≤ directive.span.start.offset) :
    document.directivesFrom offset = behind := by
  have none : before.filter (fun directive => offset ≤ directive.span.start.offset) = [] := by
    simpa [List.filter_eq_nil_iff] using earlier
  have all : behind.filter (fun directive => offset ≤ directive.span.start.offset) = behind := by
    simpa [List.filter_eq_self] using later
  rw [directivesFrom, split, List.filter_append, none, all, List.nil_append]

/-- Behind a front part that is parsed by itself, the rest of a source is parsed as it is alone. The
directives of the whole are those of the front part and those of the rest, moved behind it. -/
theorem Document.exists_of_parse_append {options : ParseOptions} {first second : String}
    {whole : Document} (parses : Parses first.toList)
    (parsed : Document.parse options (first ++ second) = .ok whole) :
    ∃ front back, Document.parse options first = .ok front ∧
      Document.parse options second = .ok back ∧
      whole.directives = front.directives ++ whole.directivesFrom (byteLength first.toList) ∧
      whole.directivesFrom (byteLength first.toList) = directivesOfNodes
        (nodesBehind (options.naming options.document) (Position.start.advance first.toList)
          back.nodes) := by
  obtain ⟨earlier, document, parsedAlone⟩ := parses
  rw [String.ofList_toList] at parsedAlone
  obtain ⟨pieces, spelled, legible, -, -⟩ := Document.parse_eq_ok_iff.1 parsedAlone
  obtain ⟨all, spelledAll, legibleAll, shallow, rfl⟩ := Document.parse_eq_ok_iff.1 parsed
  rw [String.toList_append, ← spelled] at spelledAll
  obtain ⟨others, rfl, spelledToo, legibleToo⟩ :=
    Written.exists_eq_joinPieces rfl pieces legible legibleAll spelledAll
  rw [Written.depthOfPieces_joinPieces] at shallow
  have parsedFirst := Document.parse_eq_ok_iff.2
    ⟨pieces, spelled, legible, show _ ≤ options.maxDepth by omega, rfl⟩
  have parsedSecond := Document.parse_eq_ok_iff.2
    ⟨others, spelledToo, legibleToo, show _ ≤ options.maxDepth by omega, rfl⟩
  let identify := options.naming options.document
  let base := Position.start.advance first.toList
  have moved : nodesBehind identify base (Written.placePieces identify .start others).1 =
      (Written.placePieces identify base others).1 :=
    Written.placePieces_behind identify base others Position.counted_start
  have opened : Position.start.offset = 0 := rfl
  have offset : base.offset = byteLength first.toList := by
    rw [Position.advance_offset, opened, Nat.zero_add]
  have split : directivesOfNodes
      (Written.placePieces identify .start (Written.joinPieces pieces others)).1 =
        directivesOfNodes (Written.placePieces identify .start pieces).1 ++
          directivesOfNodes (Written.placePieces identify base others).1 := by
    rw [Written.placePieces_joinPieces, spelled, directivesOfNodes_joinNodes]
  have late := @Document.directivesFrom_of_split ⟨options.document, _⟩ base.offset _ _ split
    (fun directive member => by
      have placed := Written.placed_of_mem_pieces identify pieces legible .start directive member
      rw [spelled] at placed
      have offsets := placed.offsets
      omega)
    (fun directive member =>
      (Written.placed_of_mem_pieces identify others legibleToo base directive member).offsets.1)
  rw [offset] at late
  refine ⟨_, _, parsedFirst, parsedSecond, split.trans ?_, late.trans ?_⟩
  · rw [late]
    rfl
  · exact congrArg directivesOfNodes moved.symm

/-! ### Directives without their offsets -/

def Position.withoutOffset (place : Position) : Position := { place with offset := 0 }

def Span.withoutOffsets (span : Span) : Span :=
  ⟨span.start.withoutOffset, span.stop.withoutOffset⟩

def Guard.withoutOffsets (guard : Guard) : Guard :=
  { guard with span := guard.span.withoutOffsets }

def Heading.withoutOffsets : Heading → Heading
  | .condition guard => .condition guard.withoutOffsets
  | heading => heading

mutual

/-- Nodes in which all places keep no more than their lines and columns. -/
def nodesWithoutOffsets : List Node → List Node
  | [] => []
  | .text content :: rest => .text content :: nodesWithoutOffsets rest
  | .directive value :: rest => .directive value.withoutOffsets :: nodesWithoutOffsets rest

/-- A directive in which all places keep no more than their lines and columns. Its identity, kind,
heading and layout are kept, and so are those of all directives inside. -/
def Directive.withoutOffsets : Directive → Directive
  | ⟨identity, kind, heading, layout, branches, span⟩ =>
    ⟨identity, kind, heading.withoutOffsets, layout, branchesWithoutOffsets branches,
      span.withoutOffsets⟩

def branchesWithoutOffsets : List Branch → List Branch
  | [] => []
  | ⟨guard, content, span⟩ :: rest =>
    ⟨guard.map Guard.withoutOffsets, nodesWithoutOffsets content, span.withoutOffsets⟩ ::
      branchesWithoutOffsets rest

end

section

variable {identify : Span → String} {base other : Position}

theorem Position.withoutOffset_behind (level : base.withoutOffset = other.withoutOffset)
    (place : Position) :
    (place.behind base).withoutOffset = (place.behind other).withoutOffset := by
  simp only [withoutOffset, Position.mk.injEq, true_and] at level
  simp only [withoutOffset, behind, level]

theorem Span.withoutOffsets_behind (level : base.withoutOffset = other.withoutOffset)
    (span : Span) : (span.behind base).withoutOffsets = (span.behind other).withoutOffsets := by
  simp only [withoutOffsets, behind, Position.withoutOffset_behind level]

theorem Guard.withoutOffsets_behind (level : base.withoutOffset = other.withoutOffset)
    (guard : Guard) : (guard.behind base).withoutOffsets = (guard.behind other).withoutOffsets := by
  simp only [withoutOffsets, behind, Span.withoutOffsets_behind level]

theorem Heading.withoutOffsets_behind (level : base.withoutOffset = other.withoutOffset)
    (heading : Heading) :
    (heading.behind base).withoutOffsets = (heading.behind other).withoutOffsets := by
  cases heading with
  | none => rfl
  | discipline kind => rfl
  | condition guard => simp only [behind, withoutOffsets, Guard.withoutOffsets_behind level]

mutual

/-- What lies behind two places of one line and column differs in offsets only, if no name tells an
offset. -/
theorem nodesWithoutOffsets_behind (blind : ∀ span, identify span.withoutOffsets = identify span)
    (level : base.withoutOffset = other.withoutOffset) (nodes : List Node) :
    nodesWithoutOffsets (nodesBehind identify base nodes) =
      nodesWithoutOffsets (nodesBehind identify other nodes) := by
  match nodes with
  | [] => rfl
  | .text content :: rest =>
    rw [nodesBehind, nodesBehind, Node.behind, Node.behind, nodesWithoutOffsets,
      nodesWithoutOffsets, nodesWithoutOffsets_behind blind level rest]
  | .directive value :: rest =>
    rw [nodesBehind, nodesBehind, Node.behind, Node.behind, nodesWithoutOffsets,
      nodesWithoutOffsets, nodesWithoutOffsets_behind blind level rest,
      Directive.withoutOffsets_behind blind level value]

theorem Directive.withoutOffsets_behind
    (blind : ∀ span, identify span.withoutOffsets = identify span)
    (level : base.withoutOffset = other.withoutOffset) (directive : Directive) :
    (directive.behind identify base).withoutOffsets =
      (directive.behind identify other).withoutOffsets := by
  match directive with
  | ⟨identity, kind, heading, layout, branches, span⟩ =>
    have spans := Span.withoutOffsets_behind level span
    have named : identify (span.behind base) = identify (span.behind other) := by
      rw [← blind, spans, blind]
    have headings := Heading.withoutOffsets_behind level heading
    rw [Directive.behind, Directive.behind, Directive.withoutOffsets, Directive.withoutOffsets,
      spans, named, headings, branchesWithoutOffsets_behind blind level branches]

theorem branchesWithoutOffsets_behind
    (blind : ∀ span, identify span.withoutOffsets = identify span)
    (level : base.withoutOffset = other.withoutOffset) (branches : List Branch) :
    branchesWithoutOffsets (branchesBehind identify base branches) =
      branchesWithoutOffsets (branchesBehind identify other branches) := by
  match branches with
  | [] => rfl
  | ⟨guard, content, span⟩ :: rest =>
    have guards : (guard.map (fun guard => guard.behind base)).map Guard.withoutOffsets =
        (guard.map (fun guard => guard.behind other)).map Guard.withoutOffsets := by
      cases guard with
      | none => rfl
      | some guard => exact congrArg some (Guard.withoutOffsets_behind level guard)
    rw [branchesBehind, branchesBehind, Branch.behind, Branch.behind, branchesWithoutOffsets,
      branchesWithoutOffsets, guards, Span.withoutOffsets_behind level span,
      nodesWithoutOffsets_behind blind level content,
      branchesWithoutOffsets_behind blind level rest]

end

end

mutual

/-- The directives without their offsets are those of the nodes without their offsets. -/
theorem directivesOfNodes_withoutOffsets (nodes : List Node) :
    directivesOfNodes (nodesWithoutOffsets nodes) =
      (directivesOfNodes nodes).map Directive.withoutOffsets := by
  match nodes with
  | [] => rfl
  | .text content :: rest => exact directivesOfNodes_withoutOffsets rest
  | .directive value :: rest =>
    rw [nodesWithoutOffsets, directivesOfNodes, directivesOfNodes, List.map_append, Node.directives,
      Node.directives, directivesOfNodes_withoutOffsets rest,
      Directive.directives_withoutOffsets value]

theorem Directive.directives_withoutOffsets (directive : Directive) :
    directive.withoutOffsets.directives = directive.directives.map Directive.withoutOffsets := by
  match directive with
  | ⟨identity, kind, heading, layout, branches, span⟩ =>
    rw [Directive.withoutOffsets, Directive.directives, Directive.directives, List.map_cons,
      Directive.withoutOffsets, directivesOfBranches_withoutOffsets branches]

theorem directivesOfBranches_withoutOffsets (branches : List Branch) :
    directivesOfBranches (branchesWithoutOffsets branches) =
      (directivesOfBranches branches).map Directive.withoutOffsets := by
  match branches with
  | [] => rfl
  | ⟨guard, content, span⟩ :: rest =>
    rw [branchesWithoutOffsets, directivesOfBranches, directivesOfBranches, Branch.directives,
      Branch.directives, List.map_append, directivesOfNodes_withoutOffsets content,
      directivesOfBranches_withoutOffsets rest]

end

/-! ### Whole lines -/

/-- A text of whole lines: it is empty or ends with a line feed. -/
def WholeLines (text : List Char) : Prop := text = [] ∨ ∃ front, text = front ++ ['\n']

theorem Position.advance_line (place : Position) (text : List Char) :
    (place.advance text).line = place.line + text.count '\n' := by
  induction text generalizing place with
  | nil => rfl
  | cons c rest ih =>
    rw [advance_cons, ih, step, List.count_cons]
    split
    · next feed =>
      simp only [feed, beq_self_eq_true, if_true]
      omega
    · next other => simp [other]

theorem WholeLines.advance_column {text : List Char} (lines : WholeLines text) :
    (Position.start.advance text).column = 1 := by
  rcases lines with rfl | ⟨front, rfl⟩
  · rfl
  · rw [Position.advance_append]
    rfl

/-- As many whole lines lead to the same line and column. -/
theorem WholeLines.level {first second : List Char} (lines : WholeLines first)
    (linesToo : WholeLines second) (same : first.count '\n' = second.count '\n') :
    (Position.start.advance first).withoutOffset =
      (Position.start.advance second).withoutOffset := by
  simp only [Position.withoutOffset, Position.advance_line, lines.advance_column,
    linesToo.advance_column, same]

/-- Edits of earlier lines keep the names of directives. Take two sources with the same rest, behind
front parts that are parsed by themselves and have as many whole lines. Under the naming by lines
their directives in the rest are, one after the other, the same but for the offsets of places, with
their identities, kinds and branches, whatever stands in the lines before them. -/
theorem Document.directivesFrom_of_edit {options : ParseOptions} {first second rest : String}
    {whole edited : Document} (byLine : options.naming = Naming.byLine)
    (parses : Parses first.toList) (parsesToo : Parses second.toList)
    (lines : WholeLines first.toList) (linesToo : WholeLines second.toList)
    (same : first.toList.count '\n' = second.toList.count '\n')
    (parsed : Document.parse options (first ++ rest) = .ok whole)
    (parsedToo : Document.parse options (second ++ rest) = .ok edited) :
    (whole.directivesFrom (byteLength first.toList)).map Directive.withoutOffsets =
      (edited.directivesFrom (byteLength second.toList)).map Directive.withoutOffsets := by
  obtain ⟨-, back, -, parsedBack, -, late⟩ := Document.exists_of_parse_append parses parsed
  obtain ⟨-, backToo, -, parsedBackToo, -, lateToo⟩ :=
    Document.exists_of_parse_append parsesToo parsedToo
  obtain rfl : back = backToo := Except.ok.inj (parsedBack.symm.trans parsedBackToo)
  have blind (span : Span) : options.naming options.document span.withoutOffsets =
      options.naming options.document span := by
    rw [byLine]
    rfl
  rw [late, lateToo, ← directivesOfNodes_withoutOffsets, ← directivesOfNodes_withoutOffsets,
    nodesWithoutOffsets_behind blind (lines.level linesToo same)]

/-- Lines with characters of two bytes, a carriage return, and a directive over three of them. -/
def editedFront : String := "é\x7ba|b\x7d\r\n\x7b\n- x\n- ß\x7d\n"

/-- As many lines, with other directives and longer characters in them. -/
def editedFrontToo : String := "\n\x7b~😀|y\x7d\x7bz\x7d\n\n\n"

/-- Directives in each other, on a line that goes on and on later ones. -/
def keptRest : String := " ü\x7b~c|\x7bg: d\x7d\x7d\r\n\x7bonce:\n- h: e\n- \x7bf\x7d\x7d"

theorem Document.directivesFrom_of_edit_keptRest :
    ∃ whole edited,
      Document.parse { document := "d", naming := Naming.byLine } (editedFront ++ keptRest) =
        .ok whole ∧
      Document.parse { document := "d", naming := Naming.byLine } (editedFrontToo ++ keptRest) =
        .ok edited ∧
      (whole.directivesFrom (byteLength editedFront.toList)).map Directive.identity =
        ["d@5:3", "d@5:7", "d@6:1", "d@8:3"] ∧
      (whole.directivesFrom (byteLength editedFront.toList)).map Directive.withoutOffsets =
        (edited.directivesFrom (byteLength editedFrontToo.toList)).map
          Directive.withoutOffsets := by
  have parses {source : String}
      (reads : (Document.parse { document := "d" } source).toOption.isSome = true) :
      Parses source.toList := by
    obtain ⟨document, found⟩ := Option.isSome_iff_exists.1 reads
    exact ⟨_, document, (congrArg _ String.ofList_toList).trans (eq_ok_of_toOption found)⟩
  have lines : WholeLines editedFront.toList :=
    Or.inr ⟨"é\x7ba|b\x7d\r\n\x7b\n- x\n- ß\x7d".toList, by decide⟩
  have linesToo : WholeLines editedFrontToo.toList :=
    Or.inr ⟨"\n\x7b~😀|y\x7d\x7bz\x7d\n\n".toList, by decide⟩
  have names : (Document.parse { document := "d", naming := Naming.byLine }
      (editedFront ++ keptRest)).toOption.map (fun document =>
        (document.directivesFrom (byteLength editedFront.toList)).map Directive.identity) =
      some ["d@5:3", "d@5:7", "d@6:1", "d@8:3"] := by
    decide +kernel
  have reads : (Document.parse { document := "d", naming := Naming.byLine }
      (editedFrontToo ++ keptRest)).toOption.isSome = true := by
    decide +kernel
  obtain ⟨whole, parsed, seen⟩ := exists_of_toOption_map names
  obtain ⟨edited, found⟩ := Option.isSome_iff_exists.1 reads
  have parsedToo := eq_ok_of_toOption found
  exact ⟨whole, edited, parsed, parsedToo, seen,
    Document.directivesFrom_of_edit rfl (parses (by decide +kernel)) (parses (by decide +kernel))
      lines linesToo (by decide) parsed parsedToo⟩

end Narrative
