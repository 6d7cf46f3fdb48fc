import Narrative.Proofs.Arrangement
import Narrative.Proofs.Isolation

/-!
Sources joined end to end. Reading never looks past the brace that closes a directive, so the whole
has the pieces of both parts, with the texts at the seam joined to one, and the second part is
placed as it was, behind the first one. Main statement: parsing a joined source gives the nodes of
the first part as they are and those of the second part moved, and a visit of the whole leaves the
progress of the first part as a visit of that part does.
-/

set_option autoImplicit false

namespace Narrative

/-! ### Places behind a text -/

/-- A place whose line and column count from one. -/
structure Position.Counted (place : Position) : Prop where
  line : 1 ≤ place.line
  column : 1 ≤ place.column

/-- Where a place of a text lies if the text begins at `base`. Lines go on from that of the base,
and so do the columns of the first line. -/
def Position.behind (place base : Position) : Position where
  offset := base.offset + place.offset
  line := base.line + (place.line - 1)
  column := if place.line = 1 then base.column + (place.column - 1) else place.column

namespace Position

variable {place : Position}

theorem counted_start : start.Counted := ⟨Nat.le_refl 1, Nat.le_refl 1⟩

theorem Counted.step (counted : place.Counted) (c : Char) : (place.step c).Counted := by
  unfold Position.step
  split
  · exact ⟨Nat.le_succ_of_le counted.line, Nat.le_refl 1⟩
  · exact ⟨counted.line, Nat.le_succ_of_le counted.column⟩

theorem Counted.advance (counted : place.Counted) (text : List Char) :
    (place.advance text).Counted := by
  induction text generalizing place with
  | nil => exact counted
  | cons c rest ih => exact ih (counted.step c)

theorem Counted.behind_step (counted : place.Counted) (base : Position) (c : Char) :
    (place.step c).behind base = (place.behind base).step c := by
  have line := counted.line
  have column := counted.column
  unfold Position.step
  split
  · have later : place.line + 1 ≠ 1 := by omega
    simp only [behind, if_neg later, Position.mk.injEq, and_true]
    omega
  · simp only [behind, Position.mk.injEq, true_and]
    constructor
    · omega
    · split
      · omega
      · rfl

/-- Going on over a text and moving are the same in either order. -/
theorem Counted.behind_advance (counted : place.Counted) (base : Position) (text : List Char) :
    (place.advance text).behind base = (place.behind base).advance text := by
  induction text generalizing place with
  | nil => rfl
  | cons c rest ih => rw [advance_cons, advance_cons, ih (counted.step c), counted.behind_step]

end Position

def Span.behind (span : Span) (base : Position) : Span :=
  ⟨span.start.behind base, span.stop.behind base⟩

def Guard.behind (guard : Guard) (base : Position) : Guard :=
  { guard with span := guard.span.behind base }

def Heading.behind (base : Position) : Heading → Heading
  | .condition guard => .condition (guard.behind base)
  | heading => heading

mutual

def Node.behind (identify : Span → String) (base : Position) : Node → Node
  | .text content => .text content
  | .directive value => .directive (value.behind identify base)

/-- A directive of a text that begins at `base`, named by where it lies then. -/
def Directive.behind (identify : Span → String) (base : Position) : Directive → Directive
  | ⟨_, kind, heading, layout, branches, span⟩ =>
    ⟨identify (span.behind base), kind, heading.behind base, layout,
      branchesBehind identify base branches, span.behind base⟩

def branchesBehind (identify : Span → String) (base : Position) : List Branch → List Branch
  | [] => []
  | branch :: rest => branch.behind identify base :: branchesBehind identify base rest

def Branch.behind (identify : Span → String) (base : Position) : Branch → Branch
  | ⟨guard, content, span⟩ =>
    ⟨guard.map (fun guard => guard.behind base), nodesBehind identify base content,
      span.behind base⟩

def nodesBehind (identify : Span → String) (base : Position) : List Node → List Node
  | [] => []
  | node :: rest => node.behind identify base :: nodesBehind identify base rest

end

namespace Written

variable (identify : Span → String) (base : Position) {start : Position}

theorem guardAt_behind (counted : start.Counted) (text : List Char) :
    (guardAt start text).behind base = guardAt (start.behind base) text := by
  simp [guardAt, Guard.behind, Span.behind, Span.ofText, counted.behind_advance]

theorem Opening.heading_behind (counted : start.Counted) (opening : Opening) :
    (opening.heading start).behind base = opening.heading (start.behind base) := by
  cases opening with
  | bare => rfl
  | sign sign gap => rfl
  | label text gap =>
    unfold heading
    dsimp only
    split
    · rfl
    · rw [Heading.behind, guardAt_behind base counted]

theorem Opening.kind_behind (counted : start.Counted) (opening : Opening) :
    (opening.heading start).kind = (opening.heading (start.behind base)).kind := by
  rw [← heading_behind base counted]
  cases opening.heading start <;> rfl

theorem Margin.guard?_behind (counted : start.Counted) (margin : Margin) :
    (margin.guard? start).map (fun guard => guard.behind base) =
      margin.guard? (start.behind base) := by
  obtain ⟨space, _ | ⟨text, gap⟩⟩ := margin
  · rfl
  · simp [Margin.guard?, guardAt_behind base (counted.advance space), counted.behind_advance]

mutual

theorem Piece.place_behind (piece : Piece) {start : Position} (counted : start.Counted) :
    (piece.place identify start).1.behind identify base =
      (piece.place identify (start.behind base)).1 := by
  match piece with
  | .text chars => rfl
  | .embed value => simp only [Piece.place, Node.behind, Embed.place_behind value counted]

/-- What is placed behind a base is what is placed at the start and moved there. -/
theorem Embed.place_behind (value : Embed) {start : Position} (counted : start.Counted) :
    (value.place identify start).behind identify base =
      value.place identify (start.behind base) := by
  have inside := counted.advance ['{']
  match value with
  | .inline opening arguments =>
    have first := inside.advance opening.spell
    have last := first.advance (spellArguments arguments)
    have kind := Opening.kind_behind base inside opening
    rw [counted.behind_advance] at kind
    simp only [Embed.place, Directive.behind, Span.behind, placeArguments_snd,
      placeArguments_behind arguments first, last.behind_advance, first.behind_advance,
      inside.behind_advance, counted.behind_advance, Opening.heading_behind base inside, kind]
  | .block opening margin entries =>
    have broken := inside.advance opening.spell
    have first := broken.advance margin.spell
    have last := first.advance (spellEntries entries)
    have kind := Opening.kind_behind base inside opening
    rw [counted.behind_advance] at kind
    simp only [Embed.place, Directive.behind, Span.behind, placeEntries_snd,
      placeEntries_behind entries first, last.behind_advance, first.behind_advance,
      broken.behind_advance, inside.behind_advance, counted.behind_advance,
      Opening.heading_behind base inside, kind]

theorem Entry.place_behind (entry : Entry) {start : Position} (counted : start.Counted) :
    (entry.place identify start).behind identify base =
      entry.place identify (start.behind base) := by
  have inside := counted.advance ['-']
  match entry with
  | ⟨margin, pieces⟩ =>
    have first := inside.advance margin.spell
    simp only [Entry.place, Branch.behind, Span.behind, placePieces_snd,
      placePieces_behind pieces first, first.behind_advance, inside.behind_advance,
      counted.behind_advance, Margin.guard?_behind base inside]

theorem placePieces_behind (pieces : List Piece) {start : Position} (counted : start.Counted) :
    nodesBehind identify base (placePieces identify start pieces).1 =
      (placePieces identify (start.behind base) pieces).1 := by
  match pieces with
  | [] => rfl
  | piece :: rest =>
    have next := counted.advance piece.spell
    simp only [placePieces, nodesBehind, Piece.place_snd, Piece.place_behind piece counted,
      placePieces_behind rest next, counted.behind_advance]

theorem placeArguments_behind (arguments : List (List Piece)) {start : Position}
    (counted : start.Counted) :
    branchesBehind identify base (placeArguments identify start arguments).1 =
      (placeArguments identify (start.behind base) arguments).1 := by
  match arguments with
  | [] => rfl
  | [pieces] =>
    simp only [placeArguments, branchesBehind, Branch.behind, Span.behind, placePieces_snd,
      placePieces_behind pieces counted, counted.behind_advance, Option.map_none]
  | pieces :: second :: rest =>
    have next := counted.advance (spellPieces pieces ++ ['|'])
    rw [placeArguments_cons identify start pieces (by simp),
      placeArguments_cons identify (start.behind base) pieces (by simp)]
    simp only [branchesBehind, Branch.behind, Span.behind, Span.ofText,
      placePieces_behind pieces counted, placeArguments_behind (second :: rest) next,
      counted.behind_advance, Option.map_none]

theorem placeEntries_behind (entries : List Entry) {start : Position} (counted : start.Counted) :
    branchesBehind identify base (placeEntries identify start entries).1 =
      (placeEntries identify (start.behind base) entries).1 := by
  match entries with
  | [] => rfl
  | entry :: rest =>
    have next := counted.advance entry.spell
    simp only [placeEntries, branchesBehind, Entry.place_span, Span.ofText,
      Entry.place_behind entry counted, placeEntries_behind rest next, counted.behind_advance]

end

/-! ### Pieces end to end -/

/-- Pieces end to end, with texts that meet joined to one. -/
def joinPieces : List Piece → List Piece → List Piece
  | [], second => second
  | [.text front], .text back :: rest => .text (front ++ back) :: rest
  | [last], second => last :: second
  | first :: next :: rest, second => first :: joinPieces (next :: rest) second

theorem spellPieces_joinPieces (first second : List Piece) :
    spellPieces (joinPieces first second) = spellPieces first ++ spellPieces second := by
  fun_induction joinPieces first second with
  | case1 second => rfl
  | case2 front back rest => simp [spellPieces, Piece.spell]
  | case3 last second apart => simp [spellPieces]
  | case4 first next rest second ih => simp [spellPieces, ih]

theorem depthOfPieces_joinPieces (first second : List Piece) :
    depthOfPieces (joinPieces first second) = max (depthOfPieces first) (depthOfPieces second) := by
  fun_induction joinPieces first second with
  | case1 second => simp [depthOfPieces]
  | case2 front back rest => simp [depthOfPieces, Piece.depth]
  | case3 last second apart => simp [depthOfPieces]
  | case4 first next rest second ih => simp only [depthOfPieces, ih, Nat.max_assoc]

theorem textFirst_joinPieces (value : Embed) (rest second : List Piece) :
    textFirst (joinPieces (.embed value :: rest) second) = false := by
  cases rest <;> rfl

theorem legiblePieces_joinPieces {accept : Char → Bool} (first second : List Piece)
    (legible : legiblePieces accept first) (legibleToo : legiblePieces accept second) :
    legiblePieces accept (joinPieces first second) := by
  fun_induction joinPieces first second with
  | case1 second => exact legibleToo
  | case2 front back rest =>
    obtain ⟨⟨-, fronts⟩, -, -⟩ := legible
    obtain ⟨⟨nonempty, backs⟩, apart, legibles⟩ := legibleToo
    refine ⟨⟨List.append_ne_nil_of_right_ne_nil front nonempty, ?_⟩, apart, legibles⟩
    intro c member
    exact (List.mem_append.1 member).elim (fronts c) (backs c)
  | case3 last second apart =>
    cases last with
    | text chars =>
      refine ⟨legible.1, ?_, legibleToo⟩
      match second with
      | [] => rfl
      | .text back :: rest => exact absurd rfl (apart chars back rest rfl)
      | .embed value :: rest => rfl
    | embed value => exact ⟨legible.1, legibleToo⟩
  | case4 first next rest second ih =>
    cases first with
    | text chars =>
      obtain ⟨all, apart, legible⟩ := legible
      refine ⟨all, ?_, ih legible legibleToo⟩
      cases next with
      | text chars => cases apart
      | embed value => exact textFirst_joinPieces value rest second
    | embed value => exact ⟨legible.1, ih legible.2 legibleToo⟩

end Written

/-- Nodes end to end, with texts that meet joined to one. -/
def joinNodes : List Node → List Node → List Node
  | [], second => second
  | [.text front], .text back :: rest => .text (front ++ back) :: rest
  | [last], second => last :: second
  | first :: next :: rest, second => first :: joinNodes (next :: rest) second

/-- What is placed of joined pieces are joined nodes, the second ones behind the first. -/
theorem Written.placePieces_joinPieces (identify : Span → String) (start : Position)
    (first second : List Written.Piece) :
    (Written.placePieces identify start (Written.joinPieces first second)).1 =
      joinNodes (Written.placePieces identify start first).1
        (Written.placePieces identify (start.advance (Written.spellPieces first)) second).1 := by
  fun_induction Written.joinPieces first second generalizing start with
  | case1 second => rfl
  | case2 front back rest =>
    simp [Written.placePieces, Written.Piece.place, Written.spellPieces, Written.Piece.spell,
      joinNodes, Position.advance_append]
  | case3 last second apart =>
    rw [Written.placePieces, Written.placePieces, Written.placePieces, Written.Piece.place_snd,
      Written.spellPieces, Written.spellPieces, List.append_nil]
    -- Two texts meet among the nodes only if they did among the pieces.
    match last, second with
    | .embed value, second => rfl
    | .text front, [] => rfl
    | .text front, .text back :: rest => exact absurd rfl (apart front back rest rfl)
    | .text front, .embed value :: rest => rfl
  | case4 first next rest second ih =>
    rw [Written.placePieces, ih]
    simp [Written.placePieces, Written.spellPieces, joinNodes, Position.advance_append, Written.Piece.place_snd]

/-! ### Visits of joined nodes -/

section

variable (answer : String → Except String Bool) {trail last : Trail} {text : String}

/-- A visit of joined nodes visits the first ones and then, from where that leads, the second. -/
theorem resolveNodes_joinNodes {first second : List Node}
    (resolved : resolveNodes answer (joinNodes first second) trail = (.ok text, last)) :
    ∃ front middle back, resolveNodes answer first trail = (.ok front, middle) ∧
      resolveNodes answer second middle = (.ok back, last) ∧ text = front ++ back := by
  fun_induction joinNodes first second generalizing trail text with
  | case1 second => exact ⟨"", trail, text, rfl, resolved, (String.empty_append).symm⟩
  | case2 front back rest =>
    obtain ⟨_, _, more, shown, behind, rfl⟩ := (resolveNodes_cons_ok answer).1 resolved
    cases shown
    refine ⟨front, trail, back ++ more, ?_, ?_, String.append_assoc⟩
    · exact (resolveNodes_cons_ok answer).2 ⟨front, trail, "", rfl, rfl, String.append_empty.symm⟩
    · exact (resolveNodes_cons_ok answer).2 ⟨back, trail, more, rfl, behind, rfl⟩
  | case3 node second apart =>
    obtain ⟨front, middle, back, shown, behind, rfl⟩ := (resolveNodes_cons_ok answer).1 resolved
    refine ⟨front, middle, back, ?_, behind, rfl⟩
    exact (resolveNodes_cons_ok answer).2
      ⟨front, middle, "", shown, rfl, String.append_empty.symm⟩
  | case4 node next rest second ih =>
    obtain ⟨front, middle, more, shown, behind, rfl⟩ := (resolveNodes_cons_ok answer).1 resolved
    obtain ⟨inner, after, back, first, second, rfl⟩ := ih behind
    refine ⟨front ++ inner, after, back, ?_, second, String.append_assoc.symm⟩
    exact (resolveNodes_cons_ok answer).2 ⟨front, middle, inner, shown, first, rfl⟩

end

theorem directivesOfNodes_joinNodes (first second : List Node) :
    directivesOfNodes (joinNodes first second) =
      directivesOfNodes first ++ directivesOfNodes second := by
  fun_induction joinNodes first second with
  | case1 second => rfl
  | case2 front back rest => simp [directivesOfNodes, Node.directives]
  | case3 last second apart => simp [directivesOfNodes]
  | case4 first next rest second ih => simp [directivesOfNodes, ih]

/-! ### Joined sources -/

/-- Directives of a source that do not begin at the same offset have different names. -/
theorem Written.Placed.identity_ne {options : ParseOptions} (builtIn : options.naming.BuiltIn)
    {text : List Char} {directive other : Directive}
    (placed : Placed (options.naming options.document) .start text directive)
    (placedToo : Placed (options.naming options.document) .start text other)
    (less : directive.span.start.offset < other.span.start.offset) :
    directive.identity ≠ other.identity := by
  intro same
  rw [placed.identity, placedToo.identity] at same
  rcases (builtIn.inj same).2 with offsets | place
  · exact absurd offsets (Nat.ne_of_lt less)
  · exact placed.line_column placedToo less place

/-- A visit of joined nodes leaves the progress of the first ones as a visit of those does, if none
of the second ones has an identity of theirs. -/
theorem Session.get?_resolve_joinNodes (session : Session) {whole front : Document}
    {second : List Node} (joined : whole.nodes = joinNodes front.nodes second)
    (bindings : Bindings) {text : String}
    (resolved : (session.resolve whole bindings).1 = .ok text) :
    (∃ shown, (session.resolve front bindings).1 = .ok shown) ∧
      ∀ identity, identity ∉ (directivesOfNodes second).map Directive.identity →
        (session.resolve whole bindings).2.store.get? identity =
          (session.resolve front bindings).2.store.get? identity := by
  cases visit : resolveNodes (session.evaluator bindings) whole.nodes session.trail with
  | mk result last =>
    cases result with
    | error error =>
      rw [resolve_of_error session visit] at resolved
      cases resolved
    | ok shown =>
      rw [resolve_of_ok session visit]
      rw [joined] at visit
      obtain ⟨before, middle, after, first, behind, -⟩ := resolveNodes_joinNodes _ visit
      rw [resolve_of_ok session first]
      refine ⟨⟨_, rfl⟩, fun identity outside => ?_⟩
      have agree := agreeOutside_resolveNodes (session.evaluator bindings) second middle
        (fun _ member => List.mem_map_of_mem member) identity outside
      rw [behind] at agree
      exact agree

/-- A source joined from two that are parsed is parsed. Its nodes are those of the first part as
they are and those of the second part behind them, so the directives of the first part keep their
spans and their names. Under both namings a visit of the whole leaves their progress as a visit of
the first part alone does. -/
theorem Document.parse_append {options : ParseOptions} {first second : String}
    {front back : Document} (parsed : Document.parse options first = .ok front)
    (parsedToo : Document.parse options second = .ok back) :
    let base := Position.start.advance first.toList
    let moved := nodesBehind (options.naming options.document) base back.nodes
    ∃ whole, Document.parse options (first ++ second) = .ok whole ∧
      base.offset = byteLength first.toList ∧
      whole.nodes = joinNodes front.nodes moved ∧
      whole.directives = front.directives ++ directivesOfNodes moved ∧
      (options.naming.BuiltIn → ∀ (session : Session) (bindings : Bindings) (text : String),
        (session.resolve whole bindings).1 = .ok text →
          (∃ shown, (session.resolve front bindings).1 = .ok shown) ∧
          ∀ directive ∈ front.directives,
            (session.resolve whole bindings).2.store.get? directive.identity =
              (session.resolve front bindings).2.store.get? directive.identity) := by
  intro base moved
  have placed := @Document.placed_of_mem options first front parsed
  obtain ⟨pieces, spelled, legible, shallow, rfl⟩ := Document.parse_eq_ok_iff.1 parsed
  obtain ⟨others, spelledToo, legibleToo, shallowToo, rfl⟩ := Document.parse_eq_ok_iff.1 parsedToo
  let identify := options.naming options.document
  have offset : base.offset = byteLength first.toList := by
    rw [Position.advance_offset]
    exact Nat.zero_add _
  have behind : moved = (Written.placePieces identify base others).1 :=
    Written.placePieces_behind identify base others Position.counted_start
  have whole : Document.parse options (first ++ second) =
      .ok ⟨options.document, joinNodes (Written.placePieces identify .start pieces).1 moved⟩ := by
    refine Document.parse_eq_ok_iff.2 ⟨Written.joinPieces pieces others, ?_, ?_, ?_, ?_⟩
    · rw [Written.spellPieces_joinPieces, spelled, spelledToo, String.toList_append]
    · exact Written.legiblePieces_joinPieces pieces others legible legibleToo
    · rw [Written.depthOfPieces_joinPieces]
      exact Nat.max_le.2 ⟨shallow, shallowToo⟩
    · rw [Written.placePieces_joinPieces, spelled, behind]
  have directives := directivesOfNodes_joinNodes (Written.placePieces identify .start pieces).1 moved
  refine ⟨_, whole, offset, rfl, directives, ?_⟩
  intro builtIn session bindings text resolved
  obtain ⟨shown, agree⟩ := @Session.get?_resolve_joinNodes session _
    ⟨options.document, (Written.placePieces identify .start pieces).1⟩ moved rfl bindings text
    resolved
  refine ⟨shown, fun directive member => agree directive.identity (fun inside => ?_)⟩
  -- What stands behind the first part begins at a later offset, so it has another name.
  obtain ⟨other, memberToo, same⟩ := List.mem_map.1 inside
  have inWhole : ∀ inner ∈ directivesOfNodes (Written.placePieces identify .start pieces).1 ++
      directivesOfNodes moved,
      Written.Placed identify .start (first ++ second).toList inner := by
    rw [← directives]
    exact fun inner here => Document.placed_of_mem whole here
  have before := (placed member).offsets
  rw [behind] at memberToo
  have later := (Written.placed_of_mem_pieces identify others legibleToo base other memberToo).offsets
  rw [← behind] at memberToo
  have start : Position.start.offset = 0 := rfl
  exact (inWhole directive (List.mem_append_left _ member)).identity_ne builtIn
    (inWhole other (List.mem_append_right _ memberToo)) (by omega) same.symm

/-- A source that ends in a text, behind a character of two bytes. -/
def seamFront : String := "é\x7b~a|b\x7d x"

/-- A source that begins with a text and has its directives on a later line. -/
def seamBack : String := "y\n \x7b!c\x7d\x7be: f\x7d"

theorem Document.parse_append_seam :
    ∃ front back whole, Document.parse { document := "d" } seamFront = .ok front ∧
      Document.parse { document := "d" } seamBack = .ok back ∧
      Document.parse { document := "d" } (seamFront ++ seamBack) = .ok whole ∧
      back.directives.map Directive.identity = ["d@3", "d@7"] ∧
      whole.directives.map Directive.identity = ["d@2", "d@13", "d@17"] ∧
      whole.directives = front.directives ++ directivesOfNodes
        (nodesBehind (Naming.byOffset "d") (Position.start.advance seamFront.toList) back.nodes) := by
  have backNames : (Document.parse { document := "d" } seamBack).toOption.map
      (fun document => document.directives.map Directive.identity) = some ["d@3", "d@7"] := by
    decide +kernel
  have wholeNames : (Document.parse { document := "d" } (seamFront ++ seamBack)).toOption.map
      (fun document => document.directives.map Directive.identity) =
        some ["d@2", "d@13", "d@17"] := by
    decide +kernel
  cases parsed : Document.parse { document := "d" } seamFront with
  | error error =>
    have reads : (Document.parse { document := "d" } seamFront).toOption.isSome = true := by
      decide +kernel
    rw [parsed] at reads
    cases reads
  | ok front =>
    cases parsedToo : Document.parse { document := "d" } seamBack with
    | error error =>
      rw [parsedToo] at backNames
      cases backNames
    | ok back =>
      obtain ⟨whole, joined, -, -, directives, -⟩ := Document.parse_append parsed parsedToo
      rw [parsedToo] at backNames
      rw [joined] at wholeNames
      exact ⟨front, back, whole, rfl, rfl, joined, Option.some.inj backNames,
        Option.some.inj wholeNames, directives⟩

end Narrative
