import Narrative.Proofs.Respelling

/-!
Where a document is deepest. The braces that the tokens of a parsed source open are its directives,
each at the level at which it stands in the tree. So the check of the nesting counts every directive
of the document, finds the first of the deepest ones, and refuses no text but one that is too deep.
-/

set_option autoImplicit false

namespace Narrative

/-! ### Levels -/

mutual

/-- The directives in nodes that stand in `outer` directives, outer before inner, each with its
level, which is one more than the number of directives around it. -/
def levelsOfNodes (outer : Nat) : List Node → List (Nat × Directive)
  | [] => []
  | .text _ :: rest => levelsOfNodes outer rest
  | .directive value :: rest => value.levels outer ++ levelsOfNodes outer rest

def Directive.levels (outer : Nat) : Directive → List (Nat × Directive)
  | ⟨identity, kind, heading, layout, branches, span⟩ =>
    (outer + 1, ⟨identity, kind, heading, layout, branches, span⟩) ::
      levelsOfBranches (outer + 1) branches

def levelsOfBranches (outer : Nat) : List Branch → List (Nat × Directive)
  | [] => []
  | ⟨_, content, _⟩ :: rest => levelsOfNodes outer content ++ levelsOfBranches outer rest

end

/-- The directives of a document with their levels. Those in no other directive are at level one. -/
def Document.levels (document : Document) : List (Nat × Directive) :=
  levelsOfNodes 0 document.nodes

theorem Directive.levels_eq (outer : Nat) (directive : Directive) :
    directive.levels outer =
      (outer + 1, directive) :: levelsOfBranches (outer + 1) directive.branches := by
  cases directive
  rw [Directive.levels]

mutual

theorem levelsOfNodes_snd (outer : Nat) (nodes : List Node) :
    (levelsOfNodes outer nodes).map Prod.snd = directivesOfNodes nodes := by
  match nodes with
  | [] => rfl
  | .text _ :: rest =>
    rw [levelsOfNodes, levelsOfNodes_snd outer rest]
    rfl
  | .directive value :: rest =>
    rw [levelsOfNodes, List.map_append, Directive.levels_snd outer value,
      levelsOfNodes_snd outer rest]
    rfl

theorem Directive.levels_snd (outer : Nat) (directive : Directive) :
    (directive.levels outer).map Prod.snd = directive.directives := by
  match directive with
  | ⟨identity, kind, heading, layout, branches, span⟩ =>
    rw [Directive.levels, List.map_cons, levelsOfBranches_snd (outer + 1) branches,
      Directive.directives]

theorem levelsOfBranches_snd (outer : Nat) (branches : List Branch) :
    (levelsOfBranches outer branches).map Prod.snd = directivesOfBranches branches := by
  match branches with
  | [] => rfl
  | ⟨guard, content, span⟩ :: rest =>
    rw [levelsOfBranches, List.map_append, levelsOfNodes_snd outer content,
      levelsOfBranches_snd outer rest]
    rfl

end

/-! ### Braces of a placed embed -/

/-- Where the brace of a directive opens, and how many are open from there on. -/
def openingPoint (leveled : Nat × Directive) : Nesting :=
  ⟨leveled.1, leveled.2.span.start.offset⟩

theorem braces_openBrace (opened : Nat) (place : Position) (rest : List Char) :
    braces opened place ('{' :: rest) =
      ⟨opened + 1, place.offset⟩ :: braces (opened + 1) (place.advance ['{']) rest := rfl

theorem braces_closeBrace (opened : Nat) (place : Position) (rest : List Char) :
    braces (opened + 1) place ('}' :: rest) = braces opened (place.advance ['}']) rest := rfl

namespace Written

variable (identify : Span → String)

mutual

/-- The braces of an embed open where its directives begin, at their levels. -/
theorem Embed.braces_spell (value : Embed) (legible : value.Legible) (opened : Nat)
    (start : Position) (rest : List Char) :
    braces opened start (value.spell ++ rest) =
      ((value.place identify start).levels opened).map openingPoint ++
        braces opened (start.advance value.spell) rest := by
  have begins : (value.place identify start).span.start = start := by
    rw [Embed.place_span]
    rfl
  rw [Directive.levels_eq, List.map_cons, openingPoint, begins]
  match value with
  | .inline opening arguments =>
    obtain ⟨-, fits, legible⟩ := legible
    have inside := braces_spellArguments arguments legible (opened + 1)
      ((start.advance ['{']).advance opening.spell) ('}' :: rest)
    rw [braces_closeBrace] at inside
    rw [Embed.spell, List.cons_append, List.append_assoc, List.append_assoc, List.singleton_append,
      braces_openBrace, braces_run fits.isTopText, inside]
    simp [Embed.place, Position.advance_append]
  | .block opening margin entries =>
    obtain ⟨-, fits, blank, legible⟩ := legible
    have inside := braces_spellEntries entries legible (opened + 1)
      (((start.advance ['{']).advance opening.spell).advance margin.spell) ('}' :: rest)
    rw [braces_closeBrace] at inside
    rw [Embed.spell, List.cons_append, List.append_assoc, List.append_assoc, List.append_assoc,
      List.singleton_append, braces_openBrace, braces_run fits.isTopText,
      braces_run blank.isTopText, inside]
    simp [Embed.place, Position.advance_append]

theorem braces_spellPieces {accept : Char → Bool}
    (plain : ∀ c, accept c = true → isTopText c = true) (pieces : List Piece)
    (legible : legiblePieces accept pieces) (opened : Nat) (start : Position) (rest : List Char) :
    braces opened start (spellPieces pieces ++ rest) =
      (levelsOfNodes opened (placePieces identify start pieces).1).map openingPoint ++
        braces opened (start.advance (spellPieces pieces)) rest := by
  match pieces with
  | [] => rfl
  | .text chars :: more =>
    obtain ⟨⟨-, all⟩, -, legible⟩ := legible
    rw [spellPieces, Piece.spell, List.append_assoc,
      braces_run (fun c member => plain c (all c member)),
      braces_spellPieces plain more legible, placePieces, Piece.place, levelsOfNodes,
      Position.advance_append]
  | .embed value :: more =>
    obtain ⟨legible, legibles⟩ := legible
    rw [spellPieces, Piece.spell, List.append_assoc, Embed.braces_spell value legible,
      braces_spellPieces plain more legibles, placePieces, Piece.place_snd, Piece.place,
      levelsOfNodes, List.map_append, List.append_assoc, Piece.spell, Position.advance_append]

theorem braces_spellArguments (arguments : List (List Piece)) (legible : legibleArguments arguments)
    (opened : Nat) (start : Position) (rest : List Char) :
    braces opened start (spellArguments arguments ++ rest) =
      (levelsOfBranches opened (placeArguments identify start arguments).1).map openingPoint ++
        braces opened (start.advance (spellArguments arguments)) rest := by
  match arguments with
  | [] => rfl
  | [pieces] =>
    rw [spellArguments, placeArguments, levelsOfBranches, levelsOfBranches, List.append_nil]
    exact braces_spellPieces (fun _ => isTopText_of_isArgumentText) pieces legible.1 opened start
      rest
  | pieces :: next :: more =>
    rw [spellArguments_cons pieces (by simp), List.append_assoc, List.cons_append,
      braces_spellPieces (fun _ => isTopText_of_isArgumentText) pieces legible.1, braces_text rfl,
      braces_spellArguments (next :: more) legible.2, placeArguments_cons identify start pieces
        (by simp), levelsOfBranches, List.map_append, List.append_assoc]
    simp [Position.advance_append]

theorem braces_spellEntries (entries : List Entry) (legible : legibleEntries entries)
    (opened : Nat) (start : Position) (rest : List Char) :
    braces opened start (spellEntries entries ++ rest) =
      (levelsOfBranches opened (placeEntries identify start entries).1).map openingPoint ++
        braces opened (start.advance (spellEntries entries)) rest := by
  match entries with
  | [] => rfl
  | ⟨margin, pieces⟩ :: more =>
    obtain ⟨fits, legible, legibles⟩ := legible
    rw [spellEntries, Entry.spell, List.cons_append, List.cons_append, List.append_assoc,
      List.append_assoc, braces_text rfl, braces_run fits.isTopText,
      braces_spellPieces (fun _ => isTopText_of_isEntryText) pieces legible,
      braces_spellEntries more legibles, placeEntries, Entry.place_span, Entry.place,
      levelsOfBranches, List.map_append, List.append_assoc]
    simp [Entry.spell, Span.ofText, Position.advance_append]

end

/-- The braces of a spelling are those of its directives. -/
theorem braces_eq_levels {pieces : List Piece} (legible : legiblePieces isTopText pieces) :
    braces 0 .start (spellPieces pieces) =
      (levelsOfNodes 0 (placePieces identify .start pieces).1).map openingPoint := by
  have whole := braces_spellPieces identify (fun _ text => text) pieces legible 0 .start []
  rw [List.append_nil, braces, List.append_nil] at whole
  exact whole

end Written

/-! ### The first of the deepest points -/

/-- A point is deeper than those before it and at least as deep as those behind it. -/
def Nesting.FirstDeepest (points : List Nesting) (point : Nesting) : Prop :=
  ∃ earlier later, points = earlier ++ point :: later ∧
    (∀ other ∈ earlier, other.depth < point.depth) ∧ ∀ other ∈ later, other.depth ≤ point.depth

theorem Nesting.FirstDeepest.cons {points : List Nesting} {head point : Nesting}
    (shallow : head.depth < point.depth) (first : FirstDeepest points point) :
    FirstDeepest (head :: points) point := by
  obtain ⟨earlier, later, rfl, before, behind⟩ := first
  refine ⟨head :: earlier, later, rfl, ?_, behind⟩
  rintro other (_ | ⟨_, member⟩)
  · exact shallow
  · exact before other member

/-- A walk that keeps the deeper point ends where it began if no point is deeper, and else at the
first of the deepest points. -/
theorem Nesting.foldl_deeper (points : List Nesting) (found : Nesting) :
    (points.foldl deeper found = found ∧ ∀ point ∈ points, point.depth ≤ found.depth) ∨
      found.depth < (points.foldl deeper found).depth ∧
        FirstDeepest points (points.foldl deeper found) := by
  induction points generalizing found with
  | nil => exact Or.inl ⟨rfl, by simp⟩
  | cons head rest ih =>
    rw [List.foldl_cons, deeper]
    split
    · next above =>
      -- The new point is the first of the deepest ones, or one behind it is deeper still.
      rcases ih head with ⟨stays, bound⟩ | ⟨further, first⟩
      · rw [stays]
        exact Or.inr ⟨above, [], rest, rfl, by simp, bound⟩
      · exact Or.inr ⟨Nat.lt_trans above further, first.cons further⟩
    · next below =>
      have low := Nat.le_of_not_lt below
      rcases ih found with ⟨stays, bound⟩ | ⟨further, first⟩
      · refine Or.inl ⟨stays, ?_⟩
        rintro other (_ | ⟨_, member⟩)
        · exact low
        · exact bound other member
      · exact Or.inr ⟨further, first.cons (Nat.lt_of_le_of_lt low further)⟩

theorem Nesting.length_points (opened : Nat) (lexemes : List Lexeme) :
    (points opened lexemes).length =
      lexemes.countP (fun lexeme => lexeme.token = .openBrace) := by
  induction lexemes generalizing opened with
  | nil => rfl
  | cons lexeme rest ih =>
    obtain ⟨token, start, stop⟩ := lexeme
    cases token with
    | openBrace =>
      rw [points, List.length_cons, ih, List.countP_cons_of_pos (by simp)]
    | closeBrace => rw [points, ih, List.countP_cons_of_neg (by simp)]
    | pipe | dash | newline | text =>
      rw [List.countP_cons_of_neg (by simp)]
      exact ih opened

/-- The number of braces that open in a text is that of its tokens of this kind. -/
theorem length_braces (source : List Char) :
    (braces 0 .start source).length =
      (Lexeme.ofSource source).countP (fun lexeme => lexeme.token = .openBrace) := by
  rw [← points_split, Nesting.length_points]
  rfl

theorem depth_pos_of_mem_braces {source : List Char} {opened : Nat} {place : Position}
    {point : Nesting} (member : point ∈ braces opened place source) : 0 < point.depth := by
  induction source generalizing opened place with
  | nil => cases member
  | cons c rest ih =>
    unfold braces at member
    split at member
    · rcases List.mem_cons.1 member with rfl | member
      · exact Nat.succ_pos opened
      · exact ih member
    · split at member
      · exact ih member
      · exact ih member

/-- The nesting of a text with braces is the first of the deepest places where one opens. -/
theorem firstDeepest_ofSource {source : List Char} (opens : braces 0 .start source ≠ []) :
    Nesting.FirstDeepest (braces 0 .start source) (Nesting.ofSource source) := by
  rw [ofSource_eq_foldl]
  rcases Nesting.foldl_deeper (braces 0 .start source) ⟨0, 0⟩ with ⟨-, flat⟩ | ⟨-, first⟩
  · obtain ⟨point, member⟩ := List.exists_mem_of_ne_nil _ opens
    exact absurd (flat point member) (Nat.not_le_of_gt (depth_pos_of_mem_braces member))
  · exact first

/-! ### Parsed documents -/

namespace Document

/-- A directive is the first of the deepest ones of a document. -/
def FirstDeepest (document : Document) (directive : Directive) : Prop :=
  ∃ earlier later, document.levels =
      earlier ++ (depthOfNodes document.nodes, directive) :: later ∧
    (∀ other ∈ earlier, other.1 < depthOfNodes document.nodes) ∧
    ∀ other ∈ later, other.1 ≤ depthOfNodes document.nodes

theorem exists_firstDeepest {document : Document} {point : Nesting}
    (depth : point.depth = depthOfNodes document.nodes)
    (first : Nesting.FirstDeepest (document.levels.map openingPoint) point) :
    ∃ directive, document.FirstDeepest directive ∧
      point.deepest = directive.span.start.offset := by
  obtain ⟨earlier, later, split, before, behind⟩ := first
  obtain ⟨front, back, levels, rfl, rest⟩ := List.map_eq_append_iff.1 split
  obtain ⟨⟨level, directive⟩, tail, rfl, rfl, rfl⟩ := List.map_eq_cons_iff.1 rest
  change level = _ at depth
  subst depth
  refine ⟨directive, ⟨front, tail, levels, fun other member => ?_, fun other member => ?_⟩, rfl⟩
  · exact before _ (List.mem_map_of_mem member)
  · exact behind _ (List.mem_map_of_mem member)

theorem levels_snd (document : Document) : document.levels.map Prod.snd = document.directives :=
  levelsOfNodes_snd 0 document.nodes

variable {options : ParseOptions} {source : String} {document : Document}

/-- The braces of a parsed source open where the directives begin, at their levels. -/
theorem braces_of_parse (parsed : Document.parse options source = .ok document) :
    braces 0 .start source.toList = document.levels.map openingPoint := by
  obtain ⟨pieces, spelled, legible, -, rfl⟩ := parse_eq_ok_iff.1 parsed
  rw [← spelled]
  exact Written.braces_eq_levels _ legible

theorem depth_of_parse (parsed : Document.parse options source = .ok document) :
    (Nesting.ofSource source.toList).depth = depthOfNodes document.nodes := by
  obtain ⟨pieces, spelled, legible, -, rfl⟩ := parse_eq_ok_iff.1 parsed
  rw [← spelled, Written.depth_ofSource_spellPieces legible, Written.depthOfNodes_placePieces]

/-- Other options refuse the source of a document for its nesting if its tree is deeper than they
allow. -/
theorem parse_of_deeper (parsed : Document.parse options source = .ok document)
    {other : ParseOptions} (deeper : other.maxDepth < depthOfNodes document.nodes) :
    Document.parse other source =
      .error (.ofNesting source.toList (Nesting.ofSource source.toList) other.maxDepth) := by
  unfold Document.parse
  dsimp only
  rw [depth_of_parse parsed, if_pos deeper]

theorem exists_parse_of_within (parsed : Document.parse options source = .ok document)
    {other : ParseOptions} (within : depthOfNodes document.nodes ≤ other.maxDepth) :
    ∃ again, Document.parse other source = .ok again := by
  obtain ⟨pieces, spelled, legible, -, rfl⟩ := parse_eq_ok_iff.1 parsed
  rw [Written.depthOfNodes_placePieces] at within
  exact ⟨_, parse_eq_ok_iff.2 ⟨pieces, spelled, legible, within, rfl⟩⟩

end Document

/-- The check of the nesting is exact for the sources of documents. It finds the depth of the tree
and where the first of the deepest directives begins, and the tokens open as many braces as there
are directives. A source is refused whenever its tree is deeper than allowed, and never else. -/
theorem nesting_of_parse {options : ParseOptions} {source : String} {document : Document}
    (parsed : Document.parse options source = .ok document) :
    (Nesting.ofSource source.toList).depth = depthOfNodes document.nodes ∧
    document.directives.length =
      (Lexeme.ofSource source.toList).countP (fun lexeme => lexeme.token = .openBrace) ∧
    (document.directives = [] → Nesting.ofSource source.toList = ⟨0, 0⟩) ∧
    (document.directives ≠ [] → ∃ directive, document.FirstDeepest directive ∧
      (Nesting.ofSource source.toList).deepest = directive.span.start.offset) ∧
    ∀ other : ParseOptions,
      (other.maxDepth < depthOfNodes document.nodes → Document.parse other source =
        .error (.ofNesting source.toList (Nesting.ofSource source.toList) other.maxDepth)) ∧
      (depthOfNodes document.nodes ≤ other.maxDepth →
        ∃ again, Document.parse other source = .ok again) := by
  have opens := Document.braces_of_parse parsed
  have depth := Document.depth_of_parse parsed
  have levels := document.levels_snd
  refine ⟨depth, ?_, fun none => ?_, fun some => ?_, fun other =>
    ⟨Document.parse_of_deeper parsed, Document.exists_parse_of_within parsed⟩⟩
  · rw [← length_braces, opens, ← levels, List.length_map, List.length_map]
  · rw [none, List.map_eq_nil_iff] at levels
    rw [ofSource_eq_foldl, opens, levels]
    rfl
  · refine Document.exists_firstDeepest depth ?_
    rw [← opens]
    refine firstDeepest_ofSource ?_
    rw [opens, ne_eq, List.map_eq_nil_iff, ← List.map_eq_nil_iff (f := Prod.snd), levels]
    exact some

/-- Two directives at level three, the first of them in an entry with a guard, after a carriage
return on its own and a line break of two characters. -/
def deepSource : String :=
  "é\x7ba|\x7b~b\x7d\x7d\r\x7bx>0:\r\n - g: \x7bc|\x7b&\td\x7d\x7d\x7b!\x7be\x7d\x7d\r- f\x7d"

theorem nesting_of_parse_deepSource :
    ∃ document, Document.parse { document := "d" } deepSource = .ok document ∧
      document.directives.length = 7 ∧ depthOfNodes document.nodes = 3 ∧
      (∃ directive, document.FirstDeepest directive ∧ directive.span.start.offset = 27) ∧
      Document.parse { document := "d", maxDepth := 2 } deepSource =
        .error (.ofNesting deepSource.toList ⟨3, 27⟩ 2) := by
  have reads : (Document.parse { document := "d" } deepSource).toOption.isSome = true := by
    decide +kernel
  have nesting : Nesting.ofSource deepSource.toList = ⟨3, 27⟩ := by decide +kernel
  have opens : (Lexeme.ofSource deepSource.toList).countP
      (fun lexeme => lexeme.token = .openBrace) = 7 := by
    decide +kernel
  cases parsed : Document.parse { document := "d" } deepSource with
  | error error =>
    rw [parsed] at reads
    cases reads
  | ok document =>
    obtain ⟨depth, counts, -, deepest, bounds⟩ := nesting_of_parse parsed
    rw [nesting] at depth deepest bounds
    rw [opens] at counts
    have some : document.directives ≠ [] := by
      intro none
      rw [none] at counts
      cases counts
    have deep : depthOfNodes document.nodes = 3 := depth.symm
    obtain ⟨directive, first, place⟩ := deepest some
    refine ⟨document, rfl, counts, deep, ⟨directive, first, place.symm⟩, ?_⟩
    refine (bounds { document := "d", maxDepth := 2 }).1 ?_
    rw [deep]
    decide

end Narrative
