import Narrative.Proofs.Conditions
import Narrative.Proofs.Coverage
import Narrative.Proofs.Resuming
import Narrative.Proofs.Safety

/-!
Resolution as splicing. What a document resolves to is its source with the span of each directive
replaced by what the directive resolves to, and that is in turn the source at the content of the
branch that it chooses, with the directives there replaced in the same way. Nothing but the source
and the spans is needed to say so: no text of a node is looked at.
-/

set_option autoImplicit false

namespace Narrative

open Written (isGap isSpace)

/-- The characters at a span of a source, those at the spans of some parts, from left to right,
replaced by other texts. -/
def splice? (source : List Char) : Span → List (Span × List Char) → Option (List Char)
  | span, [] => slice? source span
  | span, (part, text) :: rest => do
    let before ← slice? source ⟨span.start, part.start⟩
    let behind ← splice? source ⟨part.stop, span.stop⟩ rest
    return before ++ (text ++ behind)

/-- The spans of directives, each with the text that it resolves to after those before it. -/
def replacements? (answer : String → Except String Bool) :
    List Directive → Trail → Option (List (Span × List Char) × Trail)
  | [], trail => some ([], trail)
  | directive :: rest, trail =>
    match directive.resolve answer trail with
    | (.error _, _) => none
    | (.ok shown, middle) => do
      let (parts, after) ← replacements? answer rest middle
      return ((directive.span, shown.toList) :: parts, after)

/-- Nodes become the source at a span, with the directives among them replaced by what they resolve
to. -/
def SplicedAt (source : List Char) (span : Span) (answer : String → Except String Bool)
    (nodes : List Node) (trail : Trail) (text : List Char) (after : Trail) : Prop :=
  ∃ parts, replacements? answer (nodes.filterMap Node.directive?) trail = some (parts, after) ∧
    splice? source span parts = some text

/-- The characters of a source from a place on. -/
def charsFrom (source : List Char) (place : Position) : List Char :=
  match cutAt? place.offset source with
  | some (_, back) => back
  | none => []

/-- The place behind the longest run of accepted characters from a place on. -/
def Position.past (accept : Char → Bool) (source : List Char) (place : Position) : Position :=
  place.advance ((charsFrom source place).takeWhile accept)

/-- Where the content of a branch begins. An argument is all content. In an entry the content comes
after its dash and the space there, or after its guard, a colon and the gap there. -/
def Branch.contentStart (source : List Char) (layout : Layout) (branch : Branch) : Position :=
  match layout, branch.guard with
  | .inline, _ => branch.span.start
  | .multiLine, none => (branch.span.start.advance ['-']).past isSpace source
  | .multiLine, some guard => (guard.span.stop.advance [':']).past isGap source

def Branch.contentSpan (source : List Char) (layout : Layout) (branch : Branch) : Span :=
  ⟨branch.contentStart source layout, branch.span.stop⟩

/-- The text of a content as a layout shows it. -/
def Layout.lay : Layout → List Char → List Char
  | inline, text => text
  | multiLine, text => trim text

/-- A directive becomes nothing if it chooses nothing, and else the source at the content of the
branch that it chooses, spliced. -/
inductive Directive.Spliced (source : List Char) (answer : String → Except String Bool)
    (directive : Directive) (trail : Trail) : List Char → Trail → Prop
  | nothing {after : Trail} (chosen : directive.choose answer trail = (.ok none, after)) :
    Spliced source answer directive trail [] after
  | branch {index : Nat} {branch : Branch} {middle after : Trail} {content : List Char}
    (chosen : directive.choose answer trail = (.ok (some index), middle))
    (found : directive.branches[index]? = some branch)
    (spliced : SplicedAt source (branch.contentSpan source directive.layout) answer branch.content
      middle content after) :
    Spliced source answer directive trail (directive.layout.lay content) after

/-! ### Places in a source -/

section

variable {accept : Char → Bool} {front run after : List Char}

theorem charsFrom_append (front text : List Char) :
    charsFrom (front ++ text) (Position.start.advance front) = text := by
  have begun : (Position.start.advance front).offset = byteLength front := by
    rw [Position.advance_offset]
    exact Nat.zero_add _
  rw [charsFrom, begun, cutAt?_append]

theorem Position.past_append (all : ∀ c ∈ run, accept c = true) (stops : Stops accept after) :
    (start.advance front).past accept (front ++ (run ++ after)) = start.advance (front ++ run) := by
  rw [past, charsFrom_append, takeWhile_run all stops, advance_append]

end

/-! ### Steps of a visit -/

section

variable {source front more : List Char} {span : Span} {start stop : Position}
  {answer : String → Except String Bool} {nodes : List Node} {trail middle after : Trail}
  {shown : String}

/-- Texts among the nodes say nothing about what is spliced. -/
theorem SplicedAt.text (spliced : SplicedAt source span answer nodes trail more after)
    (content : String) : SplicedAt source span answer (.text content :: nodes) trail more after :=
  spliced

/-- A directive is replaced by what it resolves to, between the source before it and what follows
its span. -/
theorem SplicedAt.directive {directive : Directive}
    (before : slice? source ⟨start, directive.span.start⟩ = some front)
    (resolved : directive.resolve answer trail = (.ok shown, middle))
    (behind : SplicedAt source ⟨directive.span.stop, stop⟩ answer nodes middle more after) :
    SplicedAt source ⟨start, stop⟩ answer (.directive directive :: nodes) trail
      (front ++ (shown.toList ++ more)) after := by
  obtain ⟨parts, replaced, spliced⟩ := behind
  refine ⟨(directive.span, shown.toList) :: parts, ?_, ?_⟩
  · change replacements? answer (directive :: nodes.filterMap Node.directive?) trail = _
    rw [replacements?, resolved]
    dsimp only
    rw [replaced]
    rfl
  · rw [splice?, before, spliced]
    rfl

/-- A directive that resolves has chosen, and its content resolves from where that leads. -/
theorem Directive.resolve_ok {directive : Directive}
    (resolved : directive.resolve answer trail = (.ok shown, after)) :
    ∃ choice middle content, directive.choose answer trail = (.ok choice, middle) ∧
      resolveNodes answer (directive.contentOf choice) middle = (.ok content, after) ∧
      shown = directive.finish content := by
  rw [Directive.resolve_eq] at resolved
  obtain ⟨choice, middle, chosen, laid⟩ := andThen_ok resolved
  obtain ⟨content, inner, finished⟩ := resolveLaid_ok laid
  exact ⟨choice, middle, content, chosen, inner, finished⟩

theorem Directive.toList_finish (directive : Directive) (content : String) :
    (directive.finish content).toList = directive.layout.lay content.toList := by
  unfold Directive.finish
  cases directive.layout with
  | inline => rfl
  | multiLine => exact String.toList_ofList

end

namespace Written

variable {source back : List Char} {place : Position} (identify : Span → String)

/-- The content of a branch is that of written pieces, which stand at its span. -/
def Holds (source : List Char) (layout : Layout) (branch : Branch) : Prop :=
  ∃ place pieces, Stands source place (spellPieces pieces) ∧
    branch.content = (placePieces identify place pieces).1 ∧
    branch.contentSpan source layout = Span.ofText place (spellPieces pieces)

/-- The content of an entry begins where its margin ends. -/
theorem Entry.contentStart_place {margin : Margin} {pieces : List Piece} {front after : List Char}
    (fits : margin.Fits after) (split : source = front ++ '-' :: (margin.spell ++ after)) :
    ((Entry.mk margin pieces).place identify (Position.start.advance front)).contentStart source
      .multiLine = Position.start.advance (front ++ '-' :: margin.spell) := by
  obtain ⟨space, _ | ⟨text, gap⟩⟩ := margin
  · obtain ⟨spaces, stops, -⟩ := fits
    have whole : source = (front ++ ['-']) ++ (space ++ after) := by
      simpa [Margin.spell] using split
    change ((Position.start.advance front).advance ['-']).past isSpace source = _
    rw [whole, ← Position.advance_append, Position.past_append spaces stops, Margin.spell]
    simp
  · obtain ⟨-, -, -, -, gaps, stops⟩ := fits
    have whole : source = (front ++ '-' :: (space ++ (text ++ [':']))) ++ (gap ++ after) := by
      simpa [Margin.spell] using split
    change (((((Position.start.advance front).advance ['-']).advance space).advance text).advance
      [':']).past isGap source = _
    simp only [← Position.advance_append]
    have start : front ++ ['-'] ++ space ++ text ++ [':'] =
        front ++ '-' :: (space ++ (text ++ [':'])) := by simp
    rw [start, whole, Position.past_append gaps stops, Margin.spell]
    simp

/-- A branch of a source holds the pieces of its argument or its entry. -/
theorem BranchOf.holds {layout : Layout} {branch : Branch}
    (here : BranchOf identify source layout branch) : Holds identify source layout branch := by
  cases here with
  | @argument front back pieces split =>
    exact ⟨Position.start.advance front, pieces, ⟨front, back, split, rfl⟩, rfl, rfl⟩
  | @entry front back margin pieces split fits =>
    refine ⟨Position.start.advance (front ++ '-' :: margin.spell), pieces, ?_, ?_, ?_⟩
    · refine ⟨front ++ '-' :: margin.spell, back, ?_, rfl⟩
      simpa using split
    · rw [Position.advance_append, Position.advance_cons]
      rfl
    · rw [Branch.contentSpan, Entry.contentStart_place identify fits split, Entry.place_span,
        Entry.spell, Span.ofText, Span.ofText]
      simp [Position.advance_append]

/-! ### Visits of written pieces -/

variable {answer : String → Except String Bool} {trail after : Trail} {text : String}

/-- Written pieces become their characters, spliced. The induction carries the text in front of
them up to the last directive. -/
theorem splicedAt_behind (pieces : List Piece) (front : List Char)
    (stands : Stands source place (front ++ spellPieces pieces))
    (resolved : resolveNodes answer (placePieces identify (place.advance front) pieces).1 trail =
      (.ok text, after)) :
    SplicedAt source (Span.ofText place (front ++ spellPieces pieces)) answer
      (placePieces identify (place.advance front) pieces).1 trail (front ++ text.toList) after := by
  induction pieces generalizing place front trail text with
  | nil =>
    rw [placePieces, resolveNodes] at resolved
    cases resolved
    refine ⟨[], rfl, ?_⟩
    simpa [splice?, spellPieces] using stands.slice?
  | cons piece rest ih =>
    rw [placePieces, Piece.place_snd] at resolved ⊢
    obtain ⟨first, middle, more, shown, behind, rfl⟩ := (resolveNodes_cons_ok answer).1 resolved
    cases piece with
    | text chars =>
      rw [Piece.place, Node.resolve] at shown
      cases shown
      rw [Piece.spell, ← Position.advance_append] at behind ⊢
      rw [spellPieces, Piece.spell, ← List.append_assoc] at stands ⊢
      have spliced := ih (front ++ chars) stands behind
      simpa [Piece.place] using SplicedAt.text spliced (String.ofList chars)
    | embed value =>
      rw [Piece.place, Node.resolve] at shown
      rw [spellPieces, Piece.spell] at stands ⊢
      have spliced := ih [] stands.right.right behind
      have before : slice? source ⟨place, (value.place identify (place.advance front)).span.start⟩ =
          some front := by
        rw [Embed.place_span]
        exact stands.left.slice?
      rw [String.toList_append]
      change SplicedAt source (Span.ofText place _) answer (.directive _ :: _) trail _ after
      apply SplicedAt.directive before shown
      rw [Embed.place_span]
      simpa [Span.ofText, Piece.spell, Position.advance_append] using spliced

theorem splicedAt_placePieces (pieces : List Piece)
    (stands : Stands source place (spellPieces pieces))
    (resolved : resolveNodes answer (placePieces identify place pieces).1 trail =
      (.ok text, after)) :
    SplicedAt source (Span.ofText place (spellPieces pieces)) answer
      (placePieces identify place pieces).1 trail text.toList after :=
  splicedAt_behind identify pieces [] stands resolved

/-- A legible embed becomes the content of the branch that it chooses, spliced. -/
theorem Embed.spliced_place (value : Embed) (legible : value.Legible) {front : List Char}
    (split : source = front ++ (value.spell ++ back))
    (resolved : (value.place identify (Position.start.advance front)).resolve answer trail =
      (.ok text, after)) :
    (value.place identify (Position.start.advance front)).Spliced source answer trail text.toList
      after := by
  have branches := value.branchOf_place identify legible split
  generalize value.place identify (Position.start.advance front) = directive
    at resolved branches ⊢
  obtain ⟨choice, middle, content, chosen, shown, rfl⟩ := Directive.resolve_ok resolved
  cases choice with
  | none =>
    rw [Directive.contentOf, resolveNodes] at shown
    cases shown
    rw [Directive.finish_empty]
    exact .nothing chosen
  | some index =>
    have inside := Checked.lt_of_choose chosen
    have found := List.getElem?_eq_getElem inside
    obtain ⟨place, pieces, stands, filled, span⟩ := (branches _ (List.getElem_mem inside)).holds
    rw [Directive.contentOf, contentAt, found] at shown
    dsimp only at shown
    rw [Directive.toList_finish]
    apply Directive.Spliced.branch chosen found
    rw [filled, span]
    rw [filled] at shown
    exact splicedAt_placePieces identify pieces stands shown

end Written

/-! ### Visits of documents -/

/-- A source without braces is read as the one text that it is. -/
theorem Document.exists_parse_of_braceless (options : ParseOptions) {source : String}
    (opens : '{' ∉ source.toList) (closes : '}' ∉ source.toList) :
    ∃ document, Document.parse options source = .ok document ∧
      ∀ answer trail, resolveNodes answer document.nodes trail = (.ok source, trail) := by
  have plain : ∀ c ∈ source.toList, Written.isTopText c = true := by
    intro c member
    have notOpen : c ≠ '{' := ne_of_mem_of_not_mem member opens
    have notClose : c ≠ '}' := ne_of_mem_of_not_mem member closes
    simp [Written.isTopText, notOpen, notClose]
  by_cases empty : source.toList = []
  · have parsed : Document.parse options source = .ok ⟨options.document, []⟩ := by
      rw [Document.parse_eq_ok_iff]
      exact ⟨[], empty.symm, trivial, Nat.zero_le _, rfl⟩
    refine ⟨_, parsed, ?_⟩
    intro answer trail
    rw [resolveNodes, String.toList_eq_nil_iff.1 empty]
  · have parsed : Document.parse options source = .ok ⟨options.document, [.text source]⟩ := by
      rw [Document.parse_eq_ok_iff]
      refine ⟨[.text source.toList], ?_, ⟨⟨empty, plain⟩, rfl, trivial⟩, Nat.zero_le _, ?_⟩
      · simp [Written.spellPieces, Written.Piece.spell]
      · simp [Written.placePieces, Written.Piece.place]
    refine ⟨_, parsed, ?_⟩
    intro answer trail
    simp [resolveNodes, Node.resolve]

/-- Without a localizer a document resolves to its source, spliced, and so does each of its
directives, whatever the visits before. A source without braces stays as it is, and a visit of it
changes nothing. -/
theorem Session.resolve_splices (session : Session) (unlocalized : session.localizer = none)
    (source : String) :
    (∀ options document, Document.parse options source = .ok document → ∀ bindings,
      (∀ text next, session.resolve document bindings = (.ok text, next) →
        SplicedAt source.toList (Span.ofText .start source.toList) (session.evaluator bindings)
          document.nodes session.trail text.toList next.trail) ∧
      ∀ directive ∈ document.directives, ∀ trail shown after,
        directive.resolve (session.evaluator bindings) trail = (.ok shown, after) →
        directive.Spliced source.toList (session.evaluator bindings) trail shown.toList after) ∧
    ('{' ∉ source.toList → '}' ∉ source.toList →
      ∀ name bindings, session.render name source bindings = (.ok source, session)) := by
  refine ⟨?_, ?_⟩
  · intro options document parsed bindings
    constructor
    · intro text next visited
      obtain ⟨pieces, spelled, -, -, rfl⟩ := Document.parse_eq_ok_iff.1 parsed
      unfold Session.resolve at visited
      split at visited
      · next plain trail resolved =>
        rw [localize_of_unlocalized unlocalized] at visited
        cases visited
        rw [← spelled]
        exact Written.splicedAt_placePieces _ pieces ⟨[], [], by simp, rfl⟩ resolved
      · cases visited
    · intro directive member trail shown after resolved
      obtain ⟨front, value, back, split, legible, rfl⟩ := Document.placed_of_mem parsed member
      exact value.spliced_place _ legible split resolved
  · intro opens closes name bindings
    obtain ⟨document, parsed, resolved⟩ :=
      Document.exists_parse_of_braceless (session.settings.parseOptions name) opens closes
    have read : session.parse name source = .ok document := by
      rw [Session.parse, localize_of_unlocalized unlocalized, parsed]
    rw [Session.render, read]
    dsimp only
    rw [resolve_of_ok session (resolved _ _), localize_of_unlocalized unlocalized]
    rfl

/-- Directives in both layouts, each with another one in the branch that it chooses, and with white
space at both ends of it. -/
def splicedSource : String :=
  "é\x7bx: b|[\x7b~c \x7d]\x7d\x7b&\n-\tg: \u00a0d \x7b!e \x7d\u2003\n-f\x7d."

/-- A session in which no guard passes but `g`. -/
def splicingSession : Session := .new {} (fun _ guard => .ok (guard == "g"))

theorem Session.resolve_splices_splicedSource :
    splicingSession.localizer = none ∧
    (∃ document next, Document.parse { document := "d" } splicedSource = .ok document ∧
      splicingSession.resolve document .empty = (.ok "é[c ]d e.", next) ∧
      SplicedAt splicedSource.toList (Span.ofText .start splicedSource.toList)
        (splicingSession.evaluator .empty) document.nodes splicingSession.trail
        "é[c ]d e.".toList next.trail ∧
      document.directives.length = 4 ∧
      ∀ directive ∈ document.directives, ∃ shown after,
        directive.resolve (splicingSession.evaluator .empty) splicingSession.trail =
          (.ok shown, after) ∧
        directive.Spliced splicedSource.toList (splicingSession.evaluator .empty)
          splicingSession.trail shown.toList after) ∧
    splicingSession.render "d" "no brace" .empty = (.ok "no brace", splicingSession) := by
  have reads : (Document.parse { document := "d" } splicedSource).toOption.map (fun document =>
      ((splicingSession.resolve document .empty).1.toOption, document.directives.length,
        document.directives.all (fun directive => (directive.resolve
          (splicingSession.evaluator .empty) splicingSession.trail).1.toOption.isSome))) =
      some (some "é[c ]d e.", 4, true) := by
    decide +kernel
  cases parsed : Document.parse { document := "d" } splicedSource with
  | error error =>
    rw [parsed] at reads
    cases reads
  | ok document =>
    rw [parsed] at reads
    obtain ⟨visited, counted⟩ := Prod.mk.inj (Option.some.inj reads)
    obtain ⟨count, resolves⟩ := Prod.mk.inj counted
    have text := eq_ok_of_toOption visited
    obtain ⟨spliced, inside⟩ :=
      (splicingSession.resolve_splices rfl splicedSource).1 _ document parsed .empty
    refine ⟨rfl, ⟨document, _, rfl, Prod.ext text rfl, spliced _ _ (Prod.ext text rfl), count, ?_⟩,
      (splicingSession.resolve_splices rfl "no brace").2 (by decide) (by decide) "d" .empty⟩
    intro directive member
    have resolvable := List.all_eq_true.1 resolves directive member
    obtain ⟨shown, found⟩ := Option.isSome_iff_exists.1 resolvable
    have resolved := eq_ok_of_toOption found
    exact ⟨shown, _, Prod.ext resolved rfl, inside directive member _ _ _ (Prod.ext resolved rfl)⟩

end Narrative
