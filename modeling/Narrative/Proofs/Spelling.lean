import Narrative.Proofs.Canonical

/-!
The canonical spelling of nodes is that of a written tree, and the tree is legible if the nodes are
canonical. What has to be ruled out is that text is read as a part of the heading or guard before
it, and that a label runs on into what stands after a text.
-/

set_option autoImplicit false

namespace Narrative

open Written

/-! ### The written tree of a canonical spelling -/

/-- The opening that spells a heading with its long marker. -/
def Heading.opening : Heading → Opening
  | none => .bare
  | discipline kind => .label kind.word.toList []
  | condition guard => .label guard.text.toList []

section

variable (indent : List Char)

/-- What stands between the dash and the content of an entry. -/
def marginOfGuard (guard : Option Guard) : Margin :=
  ⟨indent, guard.map (fun guard => (guard.text.toList, []))⟩

mutual

def piecesOfNodes : List Node → List Piece
  | [] => []
  | .text content :: rest => .text content.toList :: piecesOfNodes rest
  | .directive value :: rest => .embed value.embed :: piecesOfNodes rest

def Directive.embed : Directive → Embed
  | ⟨_, _, heading, .inline, branches, _⟩ => .inline heading.opening (argumentsOfBranches branches)
  | ⟨_, _, heading, .multiLine, branches, _⟩ =>
    .block heading.opening ⟨[], false, []⟩ (entriesOfBranches branches)

def argumentsOfBranches : List Branch → List (List Piece)
  | [] => []
  | ⟨_, content, _⟩ :: rest => piecesOfNodes content :: argumentsOfBranches rest

def entriesOfBranches : List Branch → List Entry
  | [] => []
  | ⟨guard, content, _⟩ :: rest =>
    ⟨marginOfGuard indent guard, piecesOfNodes content⟩ :: entriesOfBranches rest

end

theorem Heading.spell_opening (heading : Heading) : heading.opening.spell = heading.spell := by
  cases heading with
  | none => rfl
  | discipline kind => rw [Heading.spell, Discipline.marker, String.toList_append]; rfl
  | condition guard => rfl

theorem spell_marginOfGuard (guard : Option Guard) :
    (marginOfGuard indent guard).spell = indent ++ spellGuard guard := by
  cases guard <;> rfl

theorem argumentsOfBranches_ne_nil {branches : List Branch} (nonempty : branches ≠ []) :
    argumentsOfBranches indent branches ≠ [] := by
  cases branches with
  | nil => exact absurd rfl nonempty
  | cons branch rest => cases branch; simp [argumentsOfBranches]

theorem entriesOfBranches_ne_nil {branches : List Branch} (nonempty : branches ≠ []) :
    entriesOfBranches indent branches ≠ [] := by
  cases branches with
  | nil => exact absurd rfl nonempty
  | cons branch rest => cases branch; simp [entriesOfBranches]

mutual

theorem spellPieces_piecesOfNodes (nodes : List Node) :
    spellPieces (piecesOfNodes indent nodes) = spellNodes indent nodes := by
  match nodes with
  | [] => rfl
  | .text content :: rest =>
    rw [piecesOfNodes, spellPieces, Piece.spell, spellPieces_piecesOfNodes rest, spellNodes]
  | .directive value :: rest =>
    rw [piecesOfNodes, spellPieces, Piece.spell, Directive.spell_embed value,
      spellPieces_piecesOfNodes rest, spellNodes]

theorem Directive.spell_embed (directive : Directive) :
    (directive.embed indent).spell = directive.spell indent := by
  match directive with
  | ⟨_, _, heading, .inline, branches, _⟩ =>
    rw [Directive.embed, Embed.spell, Directive.spell, heading.spell_opening,
      spellArguments_argumentsOfBranches branches]
  | ⟨_, _, heading, .multiLine, branches, _⟩ =>
    rw [Directive.embed, Embed.spell, Directive.spell, heading.spell_opening,
      spellEntries_entriesOfBranches branches]
    simp [Break.spell, lineBreak]

theorem spellArguments_argumentsOfBranches (branches : List Branch) :
    spellArguments (argumentsOfBranches indent branches) = spellInline indent branches := by
  match branches with
  | [] => rfl
  | [⟨_, content, _⟩] =>
    rw [argumentsOfBranches, argumentsOfBranches, spellArguments, spellInline,
      spellPieces_piecesOfNodes content]
  | ⟨_, content, _⟩ :: next :: rest =>
    rw [argumentsOfBranches, spellArguments_cons _ (argumentsOfBranches_ne_nil indent (by simp)),
      spellPieces_piecesOfNodes content, spellArguments_argumentsOfBranches (next :: rest),
      spellInline.eq_3 indent _ content _ (next :: rest) (by simp)]

theorem spellEntries_entriesOfBranches (branches : List Branch) :
    spellEntries (entriesOfBranches indent branches) = spellMultiLine indent branches := by
  match branches with
  | [] => rfl
  | ⟨guard, content, _⟩ :: rest =>
    rw [entriesOfBranches, spellEntries, Entry.spell, spell_marginOfGuard,
      spellPieces_piecesOfNodes content, spellEntries_entriesOfBranches rest, spellMultiLine]
    rfl

end

mutual

theorem depthOfPieces_piecesOfNodes (nodes : List Node) :
    depthOfPieces (piecesOfNodes indent nodes) = depthOfNodes nodes := by
  match nodes with
  | [] => rfl
  | .text content :: rest =>
    rw [piecesOfNodes, depthOfPieces, Piece.depth, depthOfPieces_piecesOfNodes rest, depthOfNodes,
      Nat.zero_max]
  | .directive value :: rest =>
    rw [piecesOfNodes, depthOfPieces, Piece.depth, Directive.depth_embed value,
      depthOfPieces_piecesOfNodes rest, depthOfNodes]

theorem Directive.depth_embed (directive : Directive) :
    (directive.embed indent).depth = directive.depth := by
  match directive with
  | ⟨_, _, heading, .inline, branches, _⟩ =>
    rw [Directive.embed, Embed.depth, Directive.depth,
      depthOfArguments_argumentsOfBranches branches]
  | ⟨_, _, heading, .multiLine, branches, _⟩ =>
    rw [Directive.embed, Embed.depth, Directive.depth, depthOfEntries_entriesOfBranches branches]

theorem depthOfArguments_argumentsOfBranches (branches : List Branch) :
    depthOfArguments (argumentsOfBranches indent branches) = depthOfBranches branches := by
  match branches with
  | [] => rfl
  | ⟨_, content, _⟩ :: rest =>
    rw [argumentsOfBranches, depthOfArguments, depthOfPieces_piecesOfNodes content,
      depthOfArguments_argumentsOfBranches rest, depthOfBranches]

theorem depthOfEntries_entriesOfBranches (branches : List Branch) :
    depthOfEntries (entriesOfBranches indent branches) = depthOfBranches branches := by
  match branches with
  | [] => rfl
  | ⟨guard, content, _⟩ :: rest =>
    rw [entriesOfBranches, depthOfEntries, depthOfPieces_piecesOfNodes content,
      depthOfEntries_entriesOfBranches rest, depthOfBranches]

end

end

/-! ### Where texts end -/

namespace Written

theorem isLabel_iff {c : Char} :
    isLabel c = true ↔ isTopText c = true ∧ isGuardEnd c = false := by
  simp only [isLabel, isTopText, isGuardEnd, isLineEnd, Bool.and_eq_true, Bool.or_eq_false_iff,
    bne_iff_ne, beq_eq_false_iff_ne]
  constructor
  · rintro ⟨⟨⟨⟨ends, bar⟩, opens⟩, closes⟩, colon⟩
    exact ⟨⟨opens, closes⟩, ⟨ends, bar⟩, colon⟩
  · rintro ⟨⟨opens, closes⟩, ⟨ends, bar⟩, colon⟩
    exact ⟨⟨⟨⟨ends, bar⟩, opens⟩, closes⟩, colon⟩

/-- Text of an argument begins with a label unless its first colon comes first. -/
theorem not_labelled_argument_iff {text : List Char} (all : ∀ c ∈ text, isArgumentText c = true) :
    ¬ Labelled text ↔ (':' ∈ text → text.head? = some ':') := by
  constructor
  · intro unlabelled colon
    obtain ⟨run, rest, rfl, free, stops⟩ := exists_run (fun c => c != ':') text
    rcases List.mem_append.1 colon with member | member
    · exact absurd rfl (bne_iff_ne.1 (free ':' member))
    · cases rest with
      | nil => cases member
      | cons c rest =>
        obtain rfl : c = ':' := by simpa using stops
        cases run with
        | nil => rfl
        | cons first run =>
          refine absurd ⟨first :: run, rest, by simp, ?_, rfl⟩ unlabelled
          intro c member
          have text := all c (List.mem_append_left _ member)
          have other := free c member
          simp only [isArgumentText, Bool.and_eq_true] at text
          simp [isLabel, text, other]
  · rintro first ⟨label, rest, nonempty, labels, rfl⟩
    obtain ⟨c, label, rfl⟩ := List.exists_cons_of_ne_nil nonempty
    have head := first (by simp)
    obtain rfl : c = ':' := by simpa using head
    cases labels ':' (by simp)

/-- Text of an entry begins with a label unless the first character that ends one comes first or
is no colon. -/
theorem not_labelled_entry_iff {text : List Char} (all : ∀ c ∈ text, isEntryText c = true) :
    ¬ Labelled text ↔
      ∀ run rest, text = run ++ ':' :: rest → (∀ c ∈ run, isGuardEnd c = false) → run = [] := by
  constructor
  · rintro unlabelled run rest rfl free
    by_cases empty : run = []
    · exact empty
    · refine absurd ⟨run, rest, empty, ?_, rfl⟩ unlabelled
      intro c member
      exact isLabel_iff.2 ⟨isTopText_of_isEntryText (all c (List.mem_append_left _ member)),
        free c member⟩
  · rintro unguarded ⟨label, rest, nonempty, labels, rfl⟩
    exact nonempty (unguarded label rest rfl (fun c member => (isLabel_iff.1 (labels c member)).2))

end Written

/-! ### Canonical nodes are spelled legibly -/

theorem leadingChars_piecesOfNodes (indent : List Char) (nodes : List Node) :
    leadingChars (piecesOfNodes indent nodes) = leadingText nodes := by
  match nodes with
  | [] => rfl
  | .text content :: rest => rfl
  | .directive value :: rest => rfl

theorem textFirst_piecesOfNodes (indent : List Char) {nodes : List Node}
    (apart : ∀ next more, nodes ≠ .text next :: more) :
    textFirst (piecesOfNodes indent nodes) = false := by
  match nodes with
  | [] => rfl
  | .text next :: more => exact absurd rfl (apart next more)
  | .directive value :: rest => rfl

theorem Heading.opening_fits {heading : Heading} (canonical : heading.Canonical)
    {after : List Char} (gap : Stops isGap after)
    (bare : heading = .none → ¬ Labelled after ∧ Stops isSign after) :
    heading.opening.Fits after := by
  cases heading with
  | none => exact bare rfl
  | discipline kind =>
    obtain ⟨nonempty, labels⟩ := kind.isLabel_word
    exact ⟨nonempty, labels, by simp, gap⟩
  | condition guard =>
    obtain ⟨nonempty, labels, -⟩ := canonical
    exact ⟨by simpa using nonempty, labels, by simp, gap⟩

/-- An indent keeps labels of earlier entries from going on into the entries after its dash. -/
theorem Indent.unlabelling (indent : Indent) (back : List Char) :
    Unlabelling ('-' :: (indent.chars ++ back)) := by
  obtain ⟨c, member, ends⟩ := indent.breaks
  obtain ⟨before, behind, split⟩ := List.append_of_mem member
  have free : ∀ d ∈ '-' :: before, d ≠ ':' := by
    rintro d inside rfl
    rcases List.mem_cons.1 inside with dash | inside
    · cases dash
    · have space := indent.spaces ':' (by simp [split, inside])
      cases space
  have stop : isLabel c = false := by
    rcases Bool.or_eq_true_iff.1 ends with feed | feed <;> rw [beq_iff_eq.1 feed] <;> rfl
  have colon : c ≠ ':' := by
    rintro rfl
    cases ends
  rw [split, List.append_assoc, List.cons_append, ← List.cons_append]
  exact (unlabelling_cons (behind ++ back) stop colon).append free

theorem Indent.unlabelling_entries (indent : Indent) (branches : List Branch) :
    Unlabelling (spellEntries (entriesOfBranches indent.chars branches)) := by
  match branches with
  | [] => exact unlabelling_nil
  | ⟨guard, content, _⟩ :: rest =>
    rw [entriesOfBranches, spellEntries, Entry.spell, spell_marginOfGuard, List.append_assoc,
      List.cons_append, List.append_assoc]
    exact indent.unlabelling _

theorem stops_spellEntries {run : Char → Bool} (dash : run '-' = false) (entries : List Entry) :
    Stops run (spellEntries entries) := by
  match entries with
  | [] => exact stops_nil run
  | ⟨margin, pieces⟩ :: rest => simpa [spellEntries, Entry.spell] using dash

theorem Indent.margin_fits (indent : Indent) {content : List Node}
    (legible : legiblePieces isEntryText (piecesOfNodes indent.chars content))
    (unguarded : Unguarded (leadingText content)) (rest : List Branch) :
    (marginOfGuard indent.chars none).Fits (spellPieces (piecesOfNodes indent.chars content) ++
      spellEntries (entriesOfBranches indent.chars rest)) := by
  rw [← leadingChars_piecesOfNodes indent.chars] at unguarded
  obtain ⟨space, label⟩ := unguarded
  refine ⟨indent.spaces, ?_, ?_⟩
  · exact stops_spellPieces_append legible rfl space (stops_spellEntries rfl _)
  · intro labelled
    exact (not_labelled_entry_iff (accept_leadingChars legible)).2 label
      (labelled_spellPieces_append legible (indent.unlabelling_entries rest) labelled)

theorem Indent.margin_fits_guard (indent : Indent) {content : List Node} {guard : Guard}
    (legible : legiblePieces isEntryText (piecesOfNodes indent.chars content))
    (precedes : guard.Precedes (leadingText content)) (rest : List Branch) :
    (marginOfGuard indent.chars (some guard)).Fits
      (spellPieces (piecesOfNodes indent.chars content) ++
        spellEntries (entriesOfBranches indent.chars rest)) := by
  rw [← leadingChars_piecesOfNodes indent.chars] at precedes
  obtain ⟨⟨nonempty, labels, begins⟩, gap⟩ := precedes
  refine ⟨indent.spaces, by simpa using nonempty, ?_, labels, by simp, ?_⟩
  · intro c head
    have label := labels c (List.mem_of_mem_head? head)
    simp only [isLabel, Bool.and_eq_true, bne_iff_ne] at label
    simp [isSpace, begins c head, label]
  · exact stops_spellPieces_append legible rfl gap (stops_spellEntries rfl _)

theorem spellArguments_split (first : List Piece) (rest : List (List Piece)) :
    ∃ after, spellArguments (first :: rest) = spellPieces first ++ after ∧
      (after = [] ∨ ∃ inner, after = '|' :: inner) := by
  by_cases last : rest = []
  · exact ⟨[], by rw [last, spellArguments, List.append_nil], Or.inl rfl⟩
  · exact ⟨_, spellArguments_cons first last, Or.inr ⟨_, rfl⟩⟩

theorem Heading.opening_fits_arguments {heading : Heading} (canonical : heading.Canonical)
    {first : List Piece} (legible : legiblePieces isArgumentText first)
    (precedes : heading.Precedes (leadingChars first)) (rest : List (List Piece)) :
    heading.opening.Fits (spellArguments (first :: rest)) := by
  obtain ⟨after, split, ends⟩ := spellArguments_split first rest
  have bar : ∀ run : Char → Bool, run '|' = false → Stops run after := by
    intro run outside
    rcases ends with rfl | ⟨inner, rfl⟩
    · exact stops_nil run
    · simpa using outside
  have unlabelling : Unlabelling after := by
    rcases ends with rfl | ⟨inner, rfl⟩
    · exact unlabelling_nil
    · exact unlabelling_cons inner rfl (by decide)
  rw [split]
  cases heading with
  | none =>
    obtain ⟨sign, colon⟩ := precedes
    refine ⟨?_, stops_spellPieces_append legible rfl sign (bar isSign rfl)⟩
    intro labelled
    exact (not_labelled_argument_iff (accept_leadingChars legible)).2 colon
      (labelled_spellPieces_append legible unlabelling labelled)
  | discipline kind =>
    have gap := stops_spellPieces_append legible rfl precedes (bar isGap rfl)
    exact opening_fits canonical gap (by simp)
  | condition guard =>
    have gap := stops_spellPieces_append legible rfl precedes (bar isGap rfl)
    exact opening_fits canonical gap (by simp)

section

variable (indent : Indent)

mutual

theorem legiblePieces_piecesOfNodes {accept : Char → Bool} (nodes : List Node)
    (canonical : canonicalNodes accept nodes) :
    legiblePieces accept (piecesOfNodes indent.chars nodes) := by
  match nodes with
  | [] => trivial
  | .text content :: rest =>
    obtain ⟨⟨nonempty, all⟩, apart, canonical⟩ := canonical
    exact ⟨⟨by simpa using nonempty, all⟩, textFirst_piecesOfNodes indent.chars apart,
      legiblePieces_piecesOfNodes rest canonical⟩
  | .directive value :: rest =>
    obtain ⟨inside, canonical⟩ := canonical
    exact ⟨Directive.legible_embed value inside, legiblePieces_piecesOfNodes rest canonical⟩

theorem Directive.legible_embed (directive : Directive) (canonical : directive.Canonical) :
    (directive.embed indent.chars).Legible := by
  match directive with
  | ⟨_, _, heading, .inline, [], _⟩ => exact absurd rfl canonical.1.1
  | ⟨_, _, heading, .inline, ⟨guard, content, _⟩ :: rest, _⟩ =>
    obtain ⟨⟨-, -, written⟩, precedes, unguarded, inside, canonical⟩ := canonical
    have first := legiblePieces_piecesOfNodes content inside
    have more := legibleArguments_argumentsOfBranches rest canonical
    rw [leadingTextOfBranches, ← leadingChars_piecesOfNodes indent.chars] at precedes
    exact ⟨List.cons_ne_nil _ _, heading.opening_fits_arguments written first precedes _, first,
      more⟩
  | ⟨_, _, heading, .multiLine, branches, _⟩ =>
    obtain ⟨⟨nonempty, -, written⟩, canonical⟩ := canonical
    exact ⟨entriesOfBranches_ne_nil indent.chars nonempty,
      heading.opening_fits written ((stops_cons isGap '\n' _).2 rfl)
        (fun _ => ⟨@not_labelled_line [] (by simp) false _, (stops_cons isSign '\n' _).2 rfl⟩),
      ⟨by simp, by simp⟩, legibleEntries_entriesOfBranches branches canonical⟩

theorem legibleArguments_argumentsOfBranches (branches : List Branch)
    (canonical : canonicalArguments branches) :
    legibleArguments (argumentsOfBranches indent.chars branches) := by
  match branches with
  | [] => trivial
  | ⟨guard, content, _⟩ :: rest =>
    obtain ⟨-, inside, canonical⟩ := canonical
    exact ⟨legiblePieces_piecesOfNodes content inside,
      legibleArguments_argumentsOfBranches rest canonical⟩

theorem legibleEntries_entriesOfBranches (branches : List Branch)
    (canonical : canonicalEntries branches) :
    legibleEntries (entriesOfBranches indent.chars branches) := by
  match branches with
  | [] => trivial
  | ⟨none, content, _⟩ :: rest =>
    obtain ⟨unguarded, inside, canonical⟩ := canonical
    have legible := legiblePieces_piecesOfNodes content inside
    exact ⟨indent.margin_fits legible unguarded rest, legible,
      legibleEntries_entriesOfBranches rest canonical⟩
  | ⟨some guard, content, _⟩ :: rest =>
    obtain ⟨precedes, inside, canonical⟩ := canonical
    have legible := legiblePieces_piecesOfNodes content inside
    exact ⟨indent.margin_fits_guard legible precedes rest, legible,
      legibleEntries_entriesOfBranches rest canonical⟩

end

end

end Narrative
