import Narrative.Proofs.Language

/-!
Dashes at the start of a line. In a block such a dash begins an entry, with one exception: the space
after a dash may run over line ends, and a label is looked for behind it, whose characters may be
dashes. So a dash that is alone on its line is followed by no entry of its own where the next line
holds a label. Main statement: a dash at the start of a line begins an entry, or it begins the label
of an entry whose dash stands on an earlier line.
-/

set_option autoImplicit false

namespace Narrative

open Written (isGap isSpace isLabel isEntryText)

/-- A text after which only a gap has been written on the line. -/
def LeadsLine (front : List Char) : Prop :=
  ∃ before gap, front = before ++ gap ∧ (∀ c ∈ gap, isGap c = true) ∧
    (before = [] ∨ ∃ earlier, before = earlier ++ ['\n'])

/-- A cut behind a character lies in the first or in the second part of a text. -/
theorem append_eq_append_cons {α : Type} {first second front back : List α} {item : α}
    (same : first ++ second = front ++ item :: back) :
    (∃ rest, first = front ++ item :: rest ∧ back = rest ++ second) ∨
      ∃ rest, front = first ++ rest ∧ second = rest ++ item :: back := by
  rcases List.append_eq_append_iff.1 same with ⟨rest, rfl, split⟩ | ⟨rest, rfl, split⟩
  · exact Or.inr ⟨rest, rfl, split⟩
  · cases rest with
    | nil => exact Or.inr ⟨[], by simp, by simpa using split.symm⟩
    | cons next rest =>
      obtain ⟨rfl, rfl⟩ := List.cons.inj split
      exact Or.inl ⟨rest, rfl, rfl⟩

/-- Between a character that is in no gap and the start of a later line a line ends. -/
theorem LeadsLine.newline {before after : List Char} {c : Char}
    (leads : LeadsLine (before ++ c :: after)) (plain : isGap c = false) : '\n' ∈ c :: after := by
  obtain ⟨lines, gap, split, gaps, ended⟩ := leads
  rcases append_eq_append_cons split.symm with ⟨rest, rfl, rfl⟩ | ⟨rest, -, rfl⟩
  · have last : (c :: rest).getLast? = some '\n' := by
      rcases ended with empty | ⟨earlier, ended⟩
      · simp at empty
      · simpa using congrArg List.getLast? ended
    rw [← List.cons_append]
    exact List.mem_append_left gap (List.mem_of_getLast? last)
  · rw [gaps c (by simp)] at plain
    cases plain

namespace Position

theorem line_le_advance (place : Position) (text : List Char) :
    place.line ≤ (place.advance text).line := by
  induction text generalizing place with
  | nil => exact Nat.le_refl _
  | cons c rest ih =>
    have step : place.line ≤ (place.step c).line := by
      unfold Position.step
      split
      · exact Nat.le_succ _
      · exact Nat.le_refl _
    exact Nat.le_trans step (ih (place.step c))

/-- A text with a line end leads to a later line. -/
theorem line_lt_advance (place : Position) {text : List Char} (ends : '\n' ∈ text) :
    place.line < (place.advance text).line := by
  obtain ⟨front, back, rfl⟩ := List.append_of_mem ends
  have before := place.line_le_advance front
  have after := ((place.advance front).step '\n').line_le_advance back
  have step : ((place.advance front).step '\n').line = (place.advance front).line + 1 := rfl
  rw [advance_append, advance_cons]
  omega

end Position

namespace Written

variable (identify : Span → String) {before front back : List Char}

/-- A dash in the pieces of an entry stands in one of its directives. -/
theorem exists_directive_of_dash (pieces : List Piece)
    (legible : legiblePieces isEntryText pieces) (start : Position)
    (split : spellPieces pieces = front ++ '-' :: back) :
    ∃ inner ∈ (placePieces identify start pieces).1.filterMap Node.directive?,
      inner.span.start.offset ≤ (start.advance front).offset ∧
        (start.advance front).offset < inner.span.stop.offset := by
  induction pieces generalizing start front with
  | nil => simp [spellPieces] at split
  | cons piece rest ih =>
    cases piece with
    | text chars =>
      rw [spellPieces, Piece.spell] at split
      rcases append_eq_append_cons split with ⟨left, rfl, -⟩ | ⟨later, rfl, behind⟩
      · have accepted := legible.1.2 '-' (by simp)
        cases accepted
      · rw [Position.advance_append]
        exact ih legible.2.2 (start.advance chars) behind
    | embed value =>
      rw [spellPieces, Piece.spell] at split
      rcases append_eq_append_cons split with ⟨left, inside, -⟩ | ⟨later, rfl, behind⟩
      · refine ⟨value.place identify start, List.mem_cons_self, ?_⟩
        have positive := Char.utf8Size_pos '-'
        simp only [Embed.place_span, Span.ofText, inside, Position.advance_offset,
          byteLength_append, byteLength_cons]
        omega
      · obtain ⟨inner, member, offsets⟩ := ih legible.2 (start.advance value.spell) behind
        rw [Position.advance_append]
        refine ⟨inner, ?_, offsets⟩
        rw [placePieces, Piece.place_snd]
        exact List.mem_cons_of_mem _ member

/-- A dash at the start of a line that is in a margin is the first character of its label. -/
theorem Margin.Fits.eq_space_of_dash {margin : Margin} {after : List Char} (fits : margin.Fits after)
    (leads : LeadsLine (before ++ front)) (split : margin.spell = front ++ '-' :: back) :
    front = margin.space ∧ ∃ text gap, margin.label = some (text, gap) := by
  obtain ⟨space, _ | ⟨text, gap⟩⟩ := margin
  · rw [Margin.spell, List.append_nil] at split
    subst split
    have dash := fits.1 '-' (List.mem_append_right front List.mem_cons_self)
    cases dash
  · obtain ⟨spaces, -, outside, labels, gaps, -⟩ := fits
    rw [Margin.spell] at split
    rcases append_eq_append_cons split with ⟨left, rfl, -⟩ | ⟨chars, rfl, rest⟩
    · have dash := spaces '-' (List.mem_append_right front List.mem_cons_self)
      cases dash
    · refine ⟨?_, text, gap, rfl⟩
      rcases append_eq_append_cons rest with ⟨left, rfl, -⟩ | ⟨later, -, rest⟩
      · cases chars with
        | nil => exact List.append_nil space
        | cons c chars =>
          -- A label does not begin with space, and no line ends in it.
          have plain : isGap c = false := by
            have first : isSpace c = false := outside c rfl
            simp only [isSpace, Bool.or_eq_false_iff] at first
            exact first.1.1
          rw [← List.append_assoc] at leads
          have label := labels '\n' (List.mem_append_left _ (leads.newline plain))
          cases label
      · cases later with
        | nil => cases rest
        | cons c later =>
          have dash := gaps '-' (by simp [(List.cons.inj rest).2])
          cases dash

/-- A branch begins at an offset, or its guard does on a later line, or one of its directives lies
around it. -/
def BranchAt (branch : Branch) (offset : Nat) : Prop :=
  branch.span.start.offset = offset ∨
    (∃ guard, branch.guard = some guard ∧ guard.span.start.offset = offset ∧
      branch.span.start.line < guard.span.start.line) ∨
    ∃ inner ∈ branch.content.filterMap Node.directive?,
      inner.span.start.offset ≤ offset ∧ offset < inner.span.stop.offset

theorem Entry.branchAt_of_dash {margin : Margin} {pieces : List Piece} {after : List Char}
    (fits : margin.Fits after) (legible : legiblePieces isEntryText pieces)
    (start : Position) (leads : LeadsLine (before ++ front))
    (split : Entry.spell ⟨margin, pieces⟩ = front ++ '-' :: back) :
    BranchAt (Entry.place identify start ⟨margin, pieces⟩) (start.advance front).offset := by
  rw [Entry.spell] at split
  cases front with
  | nil => exact Or.inl rfl
  | cons c front =>
    rw [List.cons_append] at split
    obtain ⟨rfl, rest⟩ := List.cons.inj split
    rcases append_eq_append_cons rest with ⟨left, inside, -⟩ | ⟨later, rfl, behind⟩
    · have line := leads.newline rfl
      rw [List.append_cons] at leads
      obtain ⟨rfl, text, gap, labelled⟩ := fits.eq_space_of_dash leads inside
      refine Or.inr (Or.inl ⟨guardAt ((start.advance ['-']).advance margin.space) text, ?_, rfl,
        start.line_lt_advance line⟩)
      rw [Entry.place, Margin.guard?, labelled]
      rfl
    · have inner := exists_directive_of_dash identify pieces legible
        ((start.advance ['-']).advance margin.spell) behind
      rw [← Position.advance_append, ← Position.advance_append] at inner
      exact Or.inr (Or.inr inner)

theorem exists_branchAt_of_dash (entries : List Entry) (legible : legibleEntries entries)
    (start : Position) (leads : LeadsLine (before ++ front))
    (split : spellEntries entries = front ++ '-' :: back) :
    ∃ branch ∈ (placeEntries identify start entries).1,
      BranchAt branch (start.advance front).offset := by
  induction entries generalizing start before front with
  | nil => simp [spellEntries] at split
  | cons entry rest ih =>
    obtain ⟨margin, pieces⟩ := entry
    obtain ⟨fits, legible, legibles⟩ := legible
    rcases append_eq_append_cons split with ⟨left, inside, -⟩ | ⟨later, rfl, behind⟩
    · exact ⟨_, List.mem_cons_self,
        Entry.branchAt_of_dash identify fits legible start leads inside⟩
    · rw [← List.append_assoc] at leads
      obtain ⟨branch, member, here⟩ := ih legibles (start.advance (Entry.spell ⟨margin, pieces⟩))
        leads behind
      rw [← Position.advance_append] at here
      refine ⟨branch, ?_, here⟩
      rw [placeEntries, Entry.place_span]
      exact List.mem_cons_of_mem _ member

/-- A dash at the start of a line in a block is found among its branches. -/
theorem Embed.exists_branchAt_of_dash {opening : Opening} {margin : Break} {entries : List Entry}
    (legible : Embed.Legible (.block opening margin entries)) (start : Position)
    (leads : LeadsLine (before ++ '{' :: front))
    (split : opening.spell ++ margin.spell ++ spellEntries entries ++ ['}'] = front ++ '-' :: back) :
    ∃ branch ∈ (Embed.place identify start (.block opening margin entries)).branches,
      BranchAt branch (start.advance ('{' :: front)).offset := by
  obtain ⟨-, fits, ⟨gaps, spaces⟩, legible⟩ := legible
  rw [List.append_assoc, List.append_assoc] at split
  rcases append_eq_append_cons split with ⟨left, inside, -⟩ | ⟨after, rfl, broken⟩
  · -- The opening stands on the line of its brace.
    have line : '\n' ∈ front := by simpa using leads.newline rfl
    cases fits.isLineText '\n' (inside ▸ List.mem_append_left _ line)
  · rcases append_eq_append_cons broken with ⟨left, inside, -⟩ | ⟨later, rfl, entered⟩
    · have dash : '-' ∈ margin.spell := by simp [inside]
      simp only [Break.spell, List.mem_append] at dash
      rcases dash with (dash | dash) | dash
      · cases gaps '-' dash
      · cases carriage : margin.carriage <;> simp [lineBreak, carriage] at dash
      · cases spaces '-' dash
    · rcases append_eq_append_cons entered with ⟨left, inside, -⟩ | ⟨last, -, closed⟩
      · have found := exists_branchAt_of_dash identify entries legible
          (((start.advance ['{']).advance opening.spell).advance margin.spell)
          (show LeadsLine ((before ++ '{' :: (opening.spell ++ margin.spell)) ++ later) by
            simpa using leads) inside
        have place : start.advance ('{' :: (opening.spell ++ (margin.spell ++ later))) =
            (((start.advance ['{']).advance opening.spell).advance margin.spell).advance later := by
          simp [Position.advance_append]
        rw [place]
        exact found
      · cases last with
        | nil => cases closed
        | cons c last => simp at closed

end Written

/-- A dash that is the first character on its line but for a gap, that lies in a directive and in
none of the directives inside. -/
structure Directive.LeadingDash (directive : Directive) (source front : List Char) : Prop where
  dash : ∃ back, source = front ++ '-' :: back
  leads : LeadsLine front
  inside : directive.span.start.offset < byteLength front ∧
    byteLength front < directive.span.stop.offset
  direct : ∀ inner ∈ directive.children, ¬ (inner.span.start.offset ≤ byteLength front ∧
    byteLength front < inner.span.stop.offset)

/-- A dash at the start of a line of a block begins a branch, or the guard of a branch that begins
on an earlier line. -/
theorem exists_branch_of_leadingDash {options : ParseOptions} {source : String}
    {document : Document} (parsed : Document.parse options source = .ok document)
    {directive : Directive} (member : directive ∈ document.directives)
    (block : directive.layout = .multiLine) {front : List Char}
    (dash : directive.LeadingDash source.toList front) :
    ∃ branch ∈ directive.branches, branch.span.start.offset = byteLength front ∨
      ∃ guard, branch.guard = some guard ∧ guard.span.start.offset = byteLength front ∧
        branch.span.start.line < guard.span.start.line := by
  obtain ⟨before, value, after, whole, legible, rfl⟩ := Document.placed_of_mem parsed member
  obtain ⟨⟨back, here⟩, leads, ⟨begins, ends⟩, direct⟩ := dash
  have opened : Position.start.offset = 0 := rfl
  simp only [Written.Embed.place_span, Span.ofText, Position.advance_offset] at begins ends
  -- Lengths tell that the dash stands behind the brace of the directive and before its end.
  rcases append_eq_append_cons (whole.symm.trans here) with ⟨left, rfl, -⟩ | ⟨rest, rfl, split⟩
  · rw [byteLength_append] at begins
    omega
  rcases append_eq_append_cons split with ⟨left, inside, -⟩ | ⟨later, rfl, -⟩
  · cases value with
    | inline opening arguments => cases block
    | block opening margin entries =>
      cases rest with
      | nil => simp [opened] at begins
      | cons c inner =>
        rw [Written.Embed.spell, List.cons_append] at inside
        obtain ⟨rfl, spelled⟩ := List.cons.inj inside
        obtain ⟨branch, member, found⟩ := Written.Embed.exists_branchAt_of_dash _ legible
          (Position.start.advance before) leads spelled
        rw [← Position.advance_append, Position.advance_offset, opened, Nat.zero_add] at found
        refine ⟨branch, member, ?_⟩
        rcases found with begun | guarded | ⟨nested, within, around⟩
        · exact Or.inl begun
        · exact Or.inr guarded
        · exact absurd around (direct nested (List.mem_flatMap.2 ⟨branch, member, within⟩))
  · simp only [byteLength_append] at ends
    omega

/-- A block in a block. The inner one has a dash alone on its line, before an entry with a label. -/
def overrunSource : String := "\x7b\n- \x7b\n-\n- b: c\n\x7d\n - d\x7d"

/-- The layout of a directive with the offsets of its ends, of its branches and their guards, and of
the ends of the directives directly inside. -/
def Directive.offsets (directive : Directive) : Layout × List (List Nat) :=
  (directive.layout, [[directive.span.start.offset, directive.span.stop.offset],
    directive.branches.map (fun branch => branch.span.start.offset),
    (directive.branches.filterMap Branch.guard).map (fun guard => guard.span.start.offset),
    directive.children.map (fun inner => inner.span.start.offset),
    directive.children.map (fun inner => inner.span.stop.offset)])

theorem overrunSource_offsets :
    (Document.parse { document := "d" } overrunSource).toOption.map
      (fun document => document.directives.map Directive.offsets) =
      some [(.multiLine, [[0, 22], [2, 18], [], [4], [16]]),
        (.multiLine, [[4, 16], [6], [8], [], []])] := by
  decide +kernel

theorem overrunSource_leadingDash :
    ∃ document outer inner, Document.parse { document := "d" } overrunSource = .ok document ∧
      document.directives = [outer, inner] ∧
      outer.layout = .multiLine ∧ inner.layout = .multiLine ∧
      outer.branches.filterMap Branch.guard = [] ∧
      inner.branches.map (fun branch => branch.span.start.offset) = [6] ∧
      outer.LeadingDash overrunSource.toList "\x7b\n- \x7b\n-\n- b: c\n\x7d\n ".toList ∧
      inner.LeadingDash overrunSource.toList "\x7b\n- \x7b\n-\n".toList := by
  have offsets := overrunSource_offsets
  cases parsed : Document.parse { document := "d" } overrunSource with
  | error error =>
    rw [parsed] at offsets
    cases offsets
  | ok document =>
    rw [parsed] at offsets
    obtain ⟨outer, rest, split, outerOffsets, more⟩ :=
      List.map_eq_cons_iff.1 (Option.some.inj offsets)
    obtain ⟨inner, none, rfl, innerOffsets, last⟩ := List.map_eq_cons_iff.1 more
    obtain rfl := List.map_eq_nil_iff.1 last
    simp only [Directive.offsets, Prod.mk.injEq, List.cons.injEq, and_true] at outerOffsets
    simp only [Directive.offsets, Prod.mk.injEq, List.cons.injEq, and_true] at innerOffsets
    obtain ⟨layout, ⟨start, stop⟩, -, guards, -, stops⟩ := outerOffsets
    obtain ⟨innerLayout, ⟨innerStart, innerStop⟩, innerBranches, -, innerStarts, -⟩ := innerOffsets
    have length : byteLength "\x7b\n- \x7b\n-\n- b: c\n\x7d\n ".toList = 18 := by decide
    have innerLength : byteLength "\x7b\n- \x7b\n-\n".toList = 8 := by decide
    refine ⟨document, outer, inner, rfl, split, layout, innerLayout, List.map_eq_nil_iff.1 guards,
      innerBranches,
      ⟨⟨"- d\x7d".toList.tail, by decide⟩, ?_, ?_, ?_⟩,
      ⟨⟨" b: c\n\x7d\n - d\x7d".toList, by decide⟩, ?_, ?_, ?_⟩⟩
    · exact ⟨"\x7b\n- \x7b\n-\n- b: c\n\x7d\n".toList, [' '], by decide,
        List.all_eq_true.1 (by decide), Or.inr ⟨"\x7b\n- \x7b\n-\n- b: c\n\x7d".toList, by decide⟩⟩
    · rw [length, start, stop]
      decide
    · intro child member inside
      have ends : child.span.stop.offset ∈ [16] := stops ▸ List.mem_map_of_mem member
      rw [length, List.mem_singleton.1 ends] at inside
      omega
    · exact ⟨"\x7b\n- \x7b\n-\n".toList, [], by decide,
        List.all_eq_true.1 (by decide), Or.inr ⟨"\x7b\n- \x7b\n-".toList, by decide⟩⟩
    · rw [innerLength, innerStart, innerStop]
      decide
    · intro child member
      rw [List.map_eq_nil_iff.1 innerStarts] at member
      cases member

/-- Both dashes of `overrunSource` that begin a line are found: one begins a branch, and the other
begins the guard of a branch at an earlier line. -/
theorem exists_branch_of_leadingDash_overrun :
    ∃ document outer inner, Document.parse { document := "d" } overrunSource = .ok document ∧
      document.directives = [outer, inner] ∧
      (∃ branch ∈ outer.branches, branch.span.start.offset = 18) ∧
      ∃ branch ∈ inner.branches, ∃ guard, branch.guard = some guard ∧
        guard.span.start.offset = 8 ∧ branch.span.start.line < guard.span.start.line := by
  obtain ⟨document, outer, inner, parsed, split, layout, innerLayout, unguarded, innerBranches, dash,
    innerDash⟩ := overrunSource_leadingDash
  have length : byteLength "\x7b\n- \x7b\n-\n- b: c\n\x7d\n ".toList = 18 := by decide
  obtain ⟨other, memberToo, outside⟩ :=
    exists_branch_of_leadingDash parsed (by simp [split]) layout dash
  obtain ⟨branch, member, found⟩ :=
    exists_branch_of_leadingDash parsed (by simp [split]) innerLayout innerDash
  refine ⟨document, outer, inner, parsed, split, ⟨other, memberToo, ?_⟩, branch, member, ?_⟩
  · rcases outside with begun | ⟨guard, guarded, -⟩
    · exact begun.trans length
    · have there : guard ∈ outer.branches.filterMap Branch.guard :=
        List.mem_filterMap.2 ⟨other, memberToo, guarded⟩
      rw [unguarded] at there
      cases there
  · have place : branch.span.start.offset ∈ [6] := innerBranches ▸ List.mem_map_of_mem member
    rcases found with begun | guarded
    · rw [List.mem_singleton.1 place] at begun
      cases begun
    · exact guarded

/-- A dash at the start of a line of a block need not begin a branch. -/
theorem not_exists_branch_of_leadingDash :
    ¬ ∀ (options : ParseOptions) (source : String) (document : Document) (directive : Directive)
      (front : List Char), Document.parse options source = .ok document →
      directive ∈ document.directives → directive.layout = .multiLine →
      directive.LeadingDash source.toList front →
      ∃ branch ∈ directive.branches, branch.span.start.offset = byteLength front := by
  intro claim
  obtain ⟨document, outer, inner, parsed, split, -, innerLayout, -, innerBranches, -, innerDash⟩ :=
    overrunSource_leadingDash
  obtain ⟨branch, member, begun⟩ := claim _ _ _ _ _ parsed (by simp [split]) innerLayout innerDash
  have place : branch.span.start.offset ∈ [6] := innerBranches ▸ List.mem_map_of_mem member
  rw [List.mem_singleton.1 place] at begun
  cases begun

end Narrative
