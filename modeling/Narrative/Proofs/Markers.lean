import Narrative.Proofs.Priority

/-!
The words for disciplines where a guard may stand. Behind the brace of a directive such a word is
its discipline and no guard, but behind the dash of a branch it is a guard as any other label is.
Main statement: no directive of a parsed document has a guard that is such a word, and a branch has
one exactly if the word and a colon are written behind its dash.
-/

set_option autoImplicit false

namespace Narrative

open Written (isSpace)

/-- A branch is written with the marker of a discipline behind its dash and the space there. -/
def Branch.MarkedAs (source : List Char) (kind : Discipline) (branch : Branch) : Prop :=
  ∃ space rest, (∀ c ∈ space, isSpace c = true) ∧
    slice? source branch.span = some ('-' :: (space ++ (kind.marker.toList ++ rest)))

/-! ### Markers as labels -/

namespace Discipline

theorem marker_toList (kind : Discipline) : kind.marker.toList = kind.word.toList ++ [':'] :=
  String.toList_append

theorem stops_word (kind : Discipline) (rest : List Char) :
    Stops isSpace (kind.word.toList ++ rest) := by
  cases kind <;> exact (stops_cons isSpace _ _).2 rfl

end Discipline

/-- A marker behind a dash asks for a guard. -/
theorem askedGuard_marker {space : List Char} (spaces : ∀ c ∈ space, isSpace c = true)
    (place : Position) (kind : Discipline) (rest : List Char) :
    askedGuard place (space ++ (kind.marker.toList ++ rest)) =
      some ⟨kind.word, Span.ofText (place.advance space) kind.word.toList⟩ := by
  obtain ⟨nonempty, labels⟩ := kind.isLabel_word
  have stops := kind.stops_word (':' :: rest)
  rw [kind.marker_toList, List.append_assoc, List.singleton_append, askedGuard,
    dropWhile_run spaces stops, takeWhile_run spaces stops, leadingLabel?_append nonempty labels,
    Option.map_some, String.ofList_toList]

namespace Written

variable {source : List Char}

/-- The guard of a heading is not the word for a discipline. -/
theorem Opening.ne_word_of_guard? (opening : Opening) (place : Position) {guard : Guard}
    (found : (opening.heading place).guard? = some guard) (kind : Discipline) :
    guard.text ≠ kind.word := by
  cases opening with
  | bare => cases found
  | sign sign gap => cases found
  | label text gap =>
    rw [heading] at found
    split at found
    · cases found
    · next unread =>
      cases found
      intro same
      rw [show String.ofList text = kind.word from same, Discipline.ofWord?_word] at unread
      cases unread

/-- A branch has the word for a discipline as its guard if its marker stands behind the dash. -/
theorem BranchOf.markedAs_iff {identify : Span → String} {layout : Layout} {branch : Branch}
    (here : BranchOf identify source layout branch) (kind : Discipline) :
    (∃ guard, branch.guard = some guard ∧ guard.text = kind.word) ↔
      layout = .multiLine ∧ branch.MarkedAs source kind := by
  cases here with
  | argument split =>
    constructor
    · rintro ⟨guard, found, -⟩
      cases found
    · rintro ⟨block, -⟩
      cases block
  | @entry front back margin pieces split fits =>
    have stands : Stands source (Position.start.advance front) (Entry.mk margin pieces).spell :=
      ⟨front, back, by simp [split, Entry.spell], rfl⟩
    have slice := stands.slice?
    rw [← Entry.place_span identify] at slice
    constructor
    · rintro ⟨guard, found, word⟩
      obtain ⟨space, _ | ⟨text, gap⟩⟩ := margin
      · cases found
      · cases found
        refine ⟨rfl, space, gap ++ spellPieces pieces, fits.1, slice.trans ?_⟩
        have label : text = kind.word.toList := by
          rw [← word]
          exact String.toList_ofList.symm
        simp [Entry.spell, Margin.spell, label, kind.marker_toList]
    · rintro ⟨-, space, rest, spaces, marked⟩
      obtain ⟨-, behind⟩ := List.cons.inj (Option.some.inj (slice.symm.trans marked))
      have asked := fits.asked ((Position.start.advance front).advance ['-'])
      rw [← List.append_assoc, behind, List.append_assoc, List.append_assoc,
        askedGuard_marker spaces] at asked
      exact ⟨_, asked, rfl⟩

end Written

/-- The words for disciplines are never the guards of directives, at whatever depth. They are the
guards of those branches of blocks that have them, with a colon, behind the dash. -/
theorem markers_of_parse {options : ParseOptions} {source : String} {document : Document}
    (parsed : Document.parse options source = .ok document) :
    ∀ directive ∈ document.directives, ∀ kind : Discipline,
      (∀ guard, directive.guard? = some guard → guard.text ≠ kind.word) ∧
      ∀ branch ∈ directive.branches,
        (∃ guard, branch.guard = some guard ∧ guard.text = kind.word) ↔
          directive.layout = .multiLine ∧ branch.MarkedAs source.toList kind := by
  intro directive member kind
  obtain ⟨front, value, back, split, legible, rfl⟩ := Document.placed_of_mem parsed member
  constructor
  · intro guard found
    cases value with
    | inline opening arguments => exact opening.ne_word_of_guard? _ found kind
    | block opening margin entries => exact opening.ne_word_of_guard? _ found kind
  · intro branch member
    exact (value.branchOf_place _ legible split branch member).markedAs_iff kind

/-- A block whose brace and whose first dash are followed by markers, the second one on a line of
its own, and a block in that branch with a marker and the same word without its colon. -/
def markedSource : String :=
  "\x7bonce:\n-\n stopping: \x7b~\r\n-\tonce:é\n- once\x7d\n- b\x7d"

theorem markers_of_parse_markedSource :
    ∃ document outer inner, Document.parse { document := "d" } markedSource = .ok document ∧
      document.directives = [outer, inner] ∧
      outer.heading = .discipline .once ∧
      outer.branches.map (fun branch => branch.guard.map Guard.text) = [some "stopping", none] ∧
      inner.branches.map (fun branch => branch.guard.map Guard.text) = [some "once", none] ∧
      (∃ branch ∈ outer.branches, branch.MarkedAs markedSource.toList .stopping) ∧
      ∃ branch ∈ inner.branches, branch.MarkedAs markedSource.toList .once := by
  have reads : (Document.parse { document := "d" } markedSource).toOption.map
      (fun document => document.directives.map (fun directive => (directive.heading,
        directive.branches.map (fun branch => branch.guard.map Guard.text)))) =
        some [(.discipline .once, [some "stopping", none]),
          (.discipline .shuffle, [some "once", none])] := by
    decide +kernel
  obtain ⟨document, parsed, seen⟩ := exists_of_toOption_map reads
  obtain ⟨outer, rest, split, here, more⟩ := List.map_eq_cons_iff.1 seen
  obtain ⟨inner, none, rfl, there, last⟩ := List.map_eq_cons_iff.1 more
  obtain rfl := List.map_eq_nil_iff.1 last
  obtain ⟨heading, guards⟩ := Prod.mk.inj here
  obtain ⟨-, innerGuards⟩ := Prod.mk.inj there
  have marked {directive : Directive} {kind : Discipline} (member : directive ∈ [outer, inner])
      (guarded : directive.branches.map (fun branch => branch.guard.map Guard.text) =
        [some kind.word, none]) :
      ∃ branch ∈ directive.branches, branch.MarkedAs markedSource.toList kind := by
    obtain ⟨branch, branches, begun, word, -⟩ := List.map_eq_cons_iff.1 guarded
    have inside : branch ∈ directive.branches := begun ▸ List.mem_cons_self
    obtain ⟨-, branchwise⟩ := markers_of_parse parsed directive (split ▸ member) kind
    exact ⟨branch, inside, ((branchwise branch inside).1 (Option.map_eq_some_iff.1 word)).2⟩
  exact ⟨document, outer, inner, parsed, split, heading, guards, innerGuards,
    marked (by simp) guards, marked (by simp) innerGuards⟩

/-- A guard of a branch may be the word for a discipline. -/
theorem not_markers_of_parse :
    ¬ ∀ (options : ParseOptions) (source : String) (document : Document),
      Document.parse options source = .ok document →
      ∀ directive ∈ document.directives, ∀ kind : Discipline,
        (∀ guard, directive.guard? = some guard → guard.text ≠ kind.word) ∧
        ∀ branch ∈ directive.branches, ∀ guard, branch.guard = some guard →
          guard.text ≠ kind.word := by
  intro never
  have reads : (Document.parse { document := "d" } "\x7b\n- once: a\x7d").toOption.map
      (fun document => document.directives.flatMap (fun directive =>
        directive.branches.map (fun branch => branch.guard.map Guard.text))) =
        some [some "once"] := by
    decide +kernel
  obtain ⟨document, parsed, seen⟩ := exists_of_toOption_map reads
  have found : some "once" ∈ document.directives.flatMap (fun directive =>
      directive.branches.map (fun branch => branch.guard.map Guard.text)) := by
    rw [seen]
    exact List.mem_singleton_self _
  obtain ⟨directive, member, inside⟩ := List.mem_flatMap.1 found
  obtain ⟨branch, memberToo, word⟩ := List.mem_map.1 inside
  obtain ⟨guard, guarded, text⟩ := Option.map_eq_some_iff.1 word
  exact (never _ _ document parsed directive member .once).2 branch memberToo guard guarded text

end Narrative
