import Narrative.Source.Error

/-!
Documents from source texts. A text is first read into its written pieces, which are then placed:
each directive, branch and guard gets its span, and each directive its identity. Spans are found in
one walk, and `Embed.place_span` says that they cover the characters of what they belong to.
-/

set_option autoImplicit false

namespace Narrative

/-- A rule for the identity of a directive, from the name of its document and its span. -/
abbrev Naming := String → Span → String

namespace Naming

def byOffset : Naming := fun document span => document ++ "@" ++ toString span.start.offset

/-- Names a directive by its document, line and column, which edits of earlier lines keep. -/
def byLine : Naming := fun document span => document ++ "@" ++ span.start.display

end Naming

structure ParseOptions where
  /-- The name of the document. -/
  document : String
  /-- Greatest number of directives open at once. -/
  maxDepth : Nat := 64
  naming : Naming := Naming.byOffset

/-- The options with another bound on depth. No bound is less than one. -/
def ParseOptions.withMaxDepth (options : ParseOptions) (depth : Nat) : ParseOptions :=
  { options with maxDepth := max depth 1 }

namespace Written

/-- A guard with the given text from a place on. -/
def guardAt (start : Position) (text : List Char) : Guard :=
  ⟨String.ofList text, Span.ofText start text⟩

/-- The heading that an opening means. Spelled out disciplines are never conditions. -/
def Opening.heading (start : Position) : Opening → Heading
  | bare => .none
  | sign value _ => .discipline value.discipline
  | label text _ =>
    match Discipline.ofWord? (String.ofList text) with
    | some kind => .discipline kind
    | none => .condition (guardAt start text)

def Margin.guard? (start : Position) (margin : Margin) : Option Guard :=
  margin.label.map (fun (text, _) => guardAt (start.advance margin.space) text)

mutual

/-- The node of a piece from a place on, and the place after it. -/
def Piece.place (identify : Span → String) (start : Position) : Piece → Node × Position
  | .text chars => (.text (String.ofList chars), start.advance chars)
  | .embed value =>
    let directive := value.place identify start
    (.directive directive, directive.span.stop)

/-- The directive of an embed from a place on. -/
def Embed.place (identify : Span → String) (start : Position) : Embed → Directive
  | .inline opening arguments =>
    let inside := start.advance ['{']
    let heading := opening.heading inside
    let branches := placeArguments identify (inside.advance opening.spell) arguments
    let span := ⟨start, branches.2.advance ['}']⟩
    { identity := identify span
      kind := heading.kind
      heading
      layout := .inline
      branches := branches.1
      span }
  | .block opening margin entries =>
    let inside := start.advance ['{']
    let heading := opening.heading inside
    let branches := placeEntries identify
      ((inside.advance opening.spell).advance margin.spell) entries
    let span := ⟨start, branches.2.advance ['}']⟩
    { identity := identify span
      kind := heading.kind
      heading
      layout := .multiLine
      branches := branches.1
      span }

def Entry.place (identify : Span → String) (start : Position) : Entry → Branch
  | ⟨margin, pieces⟩ =>
    let inside := start.advance ['-']
    let content := placePieces identify (inside.advance margin.spell) pieces
    { guard := margin.guard? inside, content := content.1, span := ⟨start, content.2⟩ }

def placePieces (identify : Span → String) (start : Position) : List Piece → List Node × Position
  | [] => ([], start)
  | piece :: rest =>
    let node := piece.place identify start
    let nodes := placePieces identify node.2 rest
    (node.1 :: nodes.1, nodes.2)

def placeArguments (identify : Span → String) (start : Position) :
    List (List Piece) → List Branch × Position
  | [] => ([], start)
  | [pieces] =>
    let content := placePieces identify start pieces
    ([{ guard := none, content := content.1, span := ⟨start, content.2⟩ }], content.2)
  | pieces :: rest =>
    let content := placePieces identify start pieces
    let branches := placeArguments identify (content.2.advance ['|']) rest
    ({ guard := none, content := content.1, span := ⟨start, content.2⟩ } :: branches.1,
      branches.2)

def placeEntries (identify : Span → String) (start : Position) :
    List Entry → List Branch × Position
  | [] => ([], start)
  | entry :: rest =>
    let branch := entry.place identify start
    let branches := placeEntries identify branch.span.stop rest
    (branch :: branches.1, branches.2)

end

mutual

/-- The place after a piece is that after its characters. -/
theorem Piece.place_snd (identify : Span → String) (start : Position) (piece : Piece) :
    (piece.place identify start).2 = start.advance piece.spell := by
  match piece with
  | .text chars => simp [Piece.place, Piece.spell]
  | .embed value =>
    simp [Piece.place, Piece.spell, Embed.place_span identify start value, Span.ofText]

/-- The span of a directive is that of its characters. -/
theorem Embed.place_span (identify : Span → String) (start : Position) (embed : Embed) :
    (embed.place identify start).span = Span.ofText start embed.spell := by
  match embed with
  | .inline opening arguments =>
    simp [Embed.place, Embed.spell, Span.ofText, Position.advance_append,
      placeArguments_snd identify _ arguments]
  | .block opening margin entries =>
    simp [Embed.place, Embed.spell, Span.ofText, Position.advance_append,
      placeEntries_snd identify _ entries]

/-- The span of a branch is that of its characters, from its dash on. -/
theorem Entry.place_span (identify : Span → String) (start : Position) (entry : Entry) :
    (entry.place identify start).span = Span.ofText start entry.spell := by
  match entry with
  | ⟨margin, pieces⟩ =>
    simp [Entry.place, Entry.spell, Span.ofText, Position.advance_append,
      placePieces_snd identify _ pieces]

theorem placePieces_snd (identify : Span → String) (start : Position) (pieces : List Piece) :
    (placePieces identify start pieces).2 = start.advance (spellPieces pieces) := by
  match pieces with
  | [] => simp [placePieces, spellPieces]
  | piece :: rest =>
    simp [placePieces, spellPieces, Position.advance_append, Piece.place_snd identify _ piece,
      placePieces_snd identify _ rest]

theorem placeArguments_snd (identify : Span → String) (start : Position)
    (arguments : List (List Piece)) :
    (placeArguments identify start arguments).2 = start.advance (spellArguments arguments) := by
  match arguments with
  | [] => simp [placeArguments, spellArguments]
  | [pieces] => simp [placeArguments, spellArguments, placePieces_snd identify _ pieces]
  | pieces :: next :: rest =>
    simp [placeArguments, spellArguments, Position.advance_append,
      placePieces_snd identify _ pieces, placeArguments_snd identify _ (next :: rest)]

theorem placeEntries_snd (identify : Span → String) (start : Position) (entries : List Entry) :
    (placeEntries identify start entries).2 = start.advance (spellEntries entries) := by
  match entries with
  | [] => simp [placeEntries, spellEntries]
  | entry :: rest =>
    simp [placeEntries, spellEntries, Position.advance_append, Entry.place_span identify _ entry,
      placeEntries_snd identify _ rest, Span.ofText]

end

end Written

namespace Document

/-- Reads a source text. Nesting that is too deep is refused before anything else. -/
def parse (options : ParseOptions) (source : String) : Except SyntaxError Document :=
  let chars := source.toList
  let nesting := Nesting.ofSource chars
  if options.maxDepth < nesting.depth then
    .error (.ofNesting chars nesting options.maxDepth)
  else
    match Written.read options.maxDepth chars with
    | .error stuck => .error (.ofStuck chars stuck)
    | .ok pieces =>
      let identify := options.naming options.document
      .ok ⟨options.document, (Written.placePieces identify .start pieces).1⟩

end Document

end Narrative
