import Narrative.Proofs.Coverage

/-!
What decides the heading of a directive, its layout and the guards of its branches. Each is a matter
of the characters that follow one place of the source, whatever else stands in it: a label with its
colon comes before a sign, a word for a discipline is no condition, and a line break behind the
heading makes a block. Main statement: every directive of a parsed document is as these characters
ask for, at whatever depth it stands.
-/

set_option autoImplicit false

namespace Narrative

open Written (isGap isSpace isLabel isLineEnd lineBreak Labelled)

/-! ### What characters ask for -/

/-- The longest run of label characters that a text begins with, if it is not empty and a colon
follows it. -/
def leadingLabel? (text : List Char) : Option (List Char) :=
  let run := text.takeWhile isLabel
  if run ≠ [] ∧ (text.drop run.length).head? = some ':' then some run else none

/-- The heading that a label from a place on asks for: a discipline if it is the word for one. -/
def labelHeading (place : Position) (label : List Char) : Heading :=
  match Discipline.ofWord? (String.ofList label) with
  | some kind => .discipline kind
  | none => .condition ⟨String.ofList label, Span.ofText place label⟩

/-- The heading that a sign at the front of a text asks for, and the sign. -/
def signHeading : List Char → Heading × List Char
  | '~' :: _ => (.discipline .shuffle, ['~'])
  | '&' :: _ => (.discipline .cycle, ['&'])
  | '!' :: _ => (.discipline .once, ['!'])
  | _ => (.none, [])

/-- The heading that the text behind a brace asks for, and the characters that ask for it. A sign
counts only where there is no label. -/
def askedHeading (place : Position) (text : List Char) : Heading × List Char :=
  match leadingLabel? text with
  | some label => (labelHeading place label, label ++ [':'])
  | none => signHeading text

/-- Whether a text begins with a line break. -/
def beginsWithBreak : List Char → Bool
  | '\n' :: _ => true
  | '\r' :: '\n' :: _ => true
  | _ => false

/-- The layout that the text behind a heading asks for: a block if a line break comes after the gap
there. -/
def askedLayout (text : List Char) : Layout :=
  if beginsWithBreak (text.dropWhile isGap) then .multiLine else .inline

/-- The guard that the text behind a dash asks for: the label after the space there. -/
def askedGuard (place : Position) (text : List Char) : Option Guard :=
  (leadingLabel? (text.dropWhile isSpace)).map (fun label =>
    ⟨String.ofList label, Span.ofText (place.advance (text.takeWhile isSpace)) label⟩)

/-- A branch has the guard that the text behind its dash asks for, if it begins with one. The
branches of an inline directive do not, and have no guards. -/
def Branch.AsAsked (source : List Char) (layout : Layout) (branch : Branch) : Prop :=
  match layout with
  | .inline => branch.guard = none
  | .multiLine => ∃ front text, source = front ++ '-' :: text ∧
    branch.span.start = Position.start.advance front ∧
    branch.guard = askedGuard (branch.span.start.advance ['-']) text

/-- A directive has the heading, the layout and the guards that the characters behind its brace and
its dashes ask for, and it is of the kind that its heading says. -/
structure Directive.AsAsked (source : List Char) (directive : Directive) : Prop where
  heading : ∃ front text, source = front ++ '{' :: text ∧
    directive.span.start = Position.start.advance front ∧
    let asked := askedHeading (directive.span.start.advance ['{']) text
    directive.heading = asked.1 ∧ directive.layout = askedLayout (text.drop asked.2.length)
  kind : directive.kind = directive.heading.kind
  branches : ∀ branch ∈ directive.branches, branch.AsAsked source directive.layout

/-! ### Labels and line breaks -/

section

variable {text run after : List Char}

theorem leadingLabel?_append (nonempty : run ≠ []) (labels : ∀ c ∈ run, isLabel c = true) :
    leadingLabel? (run ++ ':' :: after) = some run := by
  have colon : Stops isLabel (':' :: after) := (stops_cons isLabel ':' after).2 rfl
  have longest : (run ++ ':' :: after).takeWhile isLabel = run := takeWhile_run labels colon
  rw [leadingLabel?, longest, List.drop_left, if_pos ⟨nonempty, rfl⟩]

theorem leadingLabel?_eq_none (unlabelled : ¬ Labelled text) : leadingLabel? text = none := by
  rw [leadingLabel?]
  apply if_neg
  intro found
  obtain ⟨nonempty, colon⟩ := found
  obtain ⟨rest, split⟩ := List.head?_eq_some_iff.1 colon
  apply unlabelled
  refine ⟨_, rest, nonempty, accept_of_mem_takeWhile, ?_⟩
  have whole := List.takeWhile_prefix isLabel (l := text)
  rw [← split]
  exact (List.prefix_iff_eq_append.1 whole).symm

theorem signHeading_of_stops (stops : Stops Written.isSign text) :
    signHeading text = (.none, []) := by
  unfold signHeading
  split
  · exact absurd (stops '~' rfl) (by decide)
  · exact absurd (stops '&' rfl) (by decide)
  · exact absurd (stops '!' rfl) (by decide)
  · rfl

theorem beginsWithBreak_lineBreak (carriage : Bool) :
    beginsWithBreak (lineBreak carriage ++ after) = true := by
  cases carriage <;> rfl

theorem beginsWithBreak_of_stops (stops : Stops isLineEnd text) : beginsWithBreak text = false := by
  unfold beginsWithBreak
  split
  · exact absurd (stops '\n' rfl) (by decide)
  · exact absurd (stops '\r' rfl) (by decide)
  · rfl

end

namespace Written

variable {source back after : List Char} {place : Position} (identify : Span → String)

/-- An opening that fits what follows it has the heading that its characters ask for, and behind
them only a gap. -/
theorem Opening.Fits.exists_asked {value : Opening} (fits : value.Fits after) (place : Position) :
    ∃ head gap, value.spell = head ++ gap ∧ (∀ c ∈ gap, isGap c = true) ∧
      askedHeading place (value.spell ++ after) = (value.heading place, head) := by
  cases value with
  | bare =>
    refine ⟨[], [], rfl, List.forall_mem_nil _, ?_⟩
    rw [spell, List.nil_append, askedHeading, leadingLabel?_eq_none fits.1]
    exact signHeading_of_stops fits.2
  | sign sign gap =>
    refine ⟨[sign.char], gap, rfl, fits.1, ?_⟩
    rw [spell, List.cons_append, askedHeading, leadingLabel?_eq_none fits.2.2]
    cases sign <;> rfl
  | label text gap =>
    obtain ⟨nonempty, labels, gaps, -⟩ := fits
    have labelled : leadingLabel? (text ++ ':' :: (gap ++ after)) = some text :=
      leadingLabel?_append nonempty labels
    refine ⟨text ++ [':'], gap, List.append_cons text ':' gap, gaps, ?_⟩
    rw [spell, List.append_assoc, List.cons_append, askedHeading, labelled]
    rfl

/-- An opening that fits has the heading that is asked for, and the layout is decided behind it. -/
theorem Opening.Fits.asked {value : Opening} (fits : value.Fits after) (place : Position) :
    let asked := askedHeading place (value.spell ++ after)
    value.heading place = asked.1 ∧
      askedLayout ((value.spell ++ after).drop asked.2.length) = askedLayout after := by
  obtain ⟨head, gap, spelled, gaps, asked⟩ := fits.exists_asked place
  rw [asked]
  refine ⟨rfl, ?_⟩
  rw [spelled, List.append_assoc, List.drop_left, askedLayout, askedLayout,
    List.dropWhile_append_of_pos gaps]

/-- A margin that fits what follows it has the guard that its characters ask for. -/
theorem Margin.Fits.asked {margin : Margin} (fits : margin.Fits after) (place : Position) :
    margin.guard? place = askedGuard place (margin.spell ++ after) := by
  obtain ⟨space, _ | ⟨text, gap⟩⟩ := margin
  · obtain ⟨spaces, stops, unlabelled⟩ := fits
    rw [spell, List.append_nil, askedGuard, dropWhile_run spaces stops,
      leadingLabel?_eq_none unlabelled]
    rfl
  · obtain ⟨spaces, nonempty, outside, labels, -⟩ := fits
    have stops : Stops isSpace (text ++ ':' :: (gap ++ after)) := by
      obtain ⟨first, chars, rfl⟩ := List.exists_cons_of_ne_nil nonempty
      exact (stops_cons isSpace first _).2 (outside first rfl)
    rw [spell, List.append_assoc, List.append_assoc, List.cons_append, askedGuard,
      dropWhile_run spaces stops, takeWhile_run spaces stops, leadingLabel?_append nonempty labels]
    rfl

/-- A branch of a source has the guard that is asked for behind its dash, or none. -/
theorem BranchOf.asAsked {layout : Layout} {branch : Branch}
    (here : BranchOf identify source layout branch) : branch.AsAsked source layout := by
  cases here with
  | argument split => rfl
  | entry split fits => exact ⟨_, _, split, rfl, fits.asked _⟩

/-- A legible embed is placed as its characters ask for. -/
theorem Embed.asAsked_place (value : Embed) (legible : value.Legible) {front : List Char}
    (split : source = front ++ (value.spell ++ back)) :
    (value.place identify (Position.start.advance front)).AsAsked source := by
  have branches := value.branchOf_place identify legible split
  cases value with
  | inline opening arguments =>
    obtain ⟨nonempty, fits, legible⟩ := legible
    have behind := (Opening.fits_append_close back).2 fits
    obtain ⟨heading, layout⟩ := behind.asked ((Position.start.advance front).advance ['{'])
    have line : askedLayout (spellArguments arguments ++ '}' :: back) = .inline := by
      rw [askedLayout, beginsWithBreak_of_stops (stops_line legible nonempty back)]
      rfl
    refine ⟨⟨front, opening.spell ++ (spellArguments arguments ++ '}' :: back), ?_, rfl, heading,
      (layout.trans line).symm⟩, rfl, fun branch member => (branches branch member).asAsked⟩
    simpa [Embed.spell] using split
  | block opening margin entries =>
    obtain ⟨-, fits, ⟨gaps, -⟩, -⟩ := legible
    have behind := (Opening.fits_append_close back).2 fits
    obtain ⟨heading, layout⟩ := behind.asked ((Position.start.advance front).advance ['{'])
    have below : Stops isGap (lineBreak margin.carriage ++
        (margin.space ++ (spellEntries entries ++ '}' :: back))) :=
      stops_lineBreak margin.carriage _ ⟨rfl, rfl⟩
    have broken : askedLayout (margin.spell ++ spellEntries entries ++ '}' :: back) =
        .multiLine := by
      rw [askedLayout, Break.spell]
      simp only [List.append_assoc]
      rw [dropWhile_run gaps below, beginsWithBreak_lineBreak]
      rfl
    refine ⟨⟨front, opening.spell ++ (margin.spell ++ spellEntries entries ++ '}' :: back), ?_, rfl,
      heading, (layout.trans broken).symm⟩, rfl,
      fun branch member => (branches branch member).asAsked⟩
    simpa [Embed.spell] using split

end Written

/-- What a directive is follows from the characters behind its brace and its dashes. A label with
its colon makes a condition, or a list of the discipline that it is the word for. Without a label a
sign makes a list, and else it is stopping. A line break behind the heading and its gap makes a
block, and a label behind a dash and its space makes the guard of a branch. -/
theorem asAsked_of_parse {options : ParseOptions} {source : String} {document : Document}
    (parsed : Document.parse options source = .ok document) :
    ∀ directive ∈ document.directives, directive.AsAsked source.toList := by
  intro directive member
  obtain ⟨front, value, back, split, legible, rfl⟩ := Document.placed_of_mem parsed member
  exact value.asAsked_place _ legible split

/-- A negated condition around a list whose sign has a gap, and a block of a spelled out discipline
with a gap before its carriage return. Of its guards the first stands on the line after its dash and
the second is the word for a discipline. -/
def mixedSource : String :=
  "é\x7b!seen: a:b|\x7b& c|d:e\x7d\x7d\x7bonce: \t\r\n -\n x>0:f\n- once: g\n- |h: \x7b~\n-i\x7d\x7d"

/-- The kind and the layout of a directive, with the texts of its guards. -/
def Directive.outward (directive : Directive) : (Kind × Layout) × List (Option String) :=
  ((directive.kind, directive.layout), directive.guard?.map Guard.text ::
    directive.branches.map (fun branch => branch.guard.map Guard.text))

theorem asAsked_of_parse_mixedSource :
    ∃ document, Document.parse { document := "d" } mixedSource = .ok document ∧
      document.directives.map Directive.outward =
        [((.conditional, .inline), [some "!seen", none, none]),
          ((.list .cycle, .inline), [none, none, none]),
          ((.list .once, .multiLine), [none, some "x>0", some "once", none]),
          ((.list .shuffle, .multiLine), [none, none])] ∧
      ∀ directive ∈ document.directives, directive.AsAsked mixedSource.toList := by
  have reads : (Document.parse { document := "d" } mixedSource).toOption.map
      (fun document => document.directives.map Directive.outward) =
        some [((.conditional, .inline), [some "!seen", none, none]),
          ((.list .cycle, .inline), [none, none, none]),
          ((.list .once, .multiLine), [none, some "x>0", some "once", none]),
          ((.list .shuffle, .multiLine), [none, none])] := by
    decide +kernel
  cases parsed : Document.parse { document := "d" } mixedSource with
  | error error =>
    rw [parsed] at reads
    cases reads
  | ok document =>
    rw [parsed] at reads
    exact ⟨document, rfl, Option.some.inj reads, asAsked_of_parse parsed⟩

end Narrative
