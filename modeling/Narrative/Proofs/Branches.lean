import Narrative.Proofs.Backtracking

/-!
The branches of a block: the margin after each dash, the entries, and what stands below the line of
the opening. The rules look for the colon of a label in every margin, and the colon of one that the
text ends in is still awaited when later entries have been tried.
-/

set_option autoImplicit false

namespace Narrative.Grammar

open Written

variable {bound opened depth : Nat} {room : Room bound} {reader : EmbedReader}
  {source rest place : List Char} {items more : List Expected}

/-! ### Margins -/

theorem Does.margin {label : Option (List Char × List Char)} {more : List Expected}
    (spaces : Does space source (some (source.takeWhile isSpace, source.dropWhile isSpace)) place
      items)
    (guard : Does (Grammar.optional condition) (source.dropWhile isSpace) (some (label, rest)) place
      more) :
    Does margin source (some (⟨source.takeWhile isSpace, label⟩, rest)) place (items ++ more) :=
  spaces.bind (f := fun before => do
    let guard ← Grammar.optional condition
    Pure.pure (Margin.mk before guard)) (guard.map (Margin.mk (source.takeWhile isSpace)))

theorem does_margin_label {text gap : List Char}
    (found : label? (source.dropWhile isSpace) = some (text, gap, rest)) :
    Does margin source (some ((Written.margin source).value, (Written.margin source).rest)) rest
      [.char ' ', .char '\t'] := by
  obtain ⟨nonempty, labels, gaps, stops, split⟩ := label?_eq_some_iff.1 found
  obtain ⟨value, left⟩ := margin_label found
  have condition := gives_condition nonempty labels gaps stops
  rw [← split] at condition
  have later : rest.length < (source.dropWhile isSpace).length := by
    rw [split]
    exact length_lt_label text gap rest
  rw [value, left]
  exact ((does_space source).earlier later).margin
    (Does.optional ⟨_, condition, .there (fun _ => Iff.rfl)⟩)

/-- A margin without a label looks for its colon up to the end of the run. -/
theorem does_margin_bare (missing : label? (source.dropWhile isSpace) = none) :
    Does margin source (some ((Written.margin source).value, (Written.margin source).rest))
      ((source.dropWhile isSpace).dropWhile isLabel)
      (if ((source.dropWhile isSpace).takeWhile isLabel).isEmpty then spaces ++ [.condition]
        else [.char ':']) := by
  obtain ⟨value, left⟩ := margin_bare missing
  have split := @List.takeWhile_append_dropWhile _ isLabel (source.dropWhile isSpace)
  have condition := does_condition_none accept_of_mem_takeWhile
    (stops_dropWhile isLabel (source.dropWhile isSpace))
    (by rw [split]; exact label?_eq_none_iff.1 missing)
  rw [split] at condition
  rw [value, left]
  have guard := condition.optional_none
  cases run : (source.dropWhile isSpace).takeWhile isLabel with
  | nil =>
    rw [run, List.nil_append] at split
    rw [run] at guard
    rw [split] at guard ⊢
    exact (does_space source).margin guard
  | cons c more =>
    have later := length_dropWhile_lt (run ▸ List.cons_ne_nil c more)
    rw [run] at guard
    exact ((does_space source).earlier later).margin guard

theorem does_margin_earlier (later : place.length < (Written.margin source).rest.length)
    (beyond : place.length < ((source.dropWhile isSpace).dropWhile isLabel).length) :
    Does margin source (some ((Written.margin source).value, (Written.margin source).rest)) place
      [] := by
  cases found : label? (source.dropWhile isSpace) with
  | none => exact (does_margin_bare found).earlier beyond
  | some label =>
    obtain ⟨text, gap, rest⟩ := label
    rw [(margin_label found).2] at later
    exact (does_margin_label found).earlier later

theorem does_margin_blank (blank : source.dropWhile isSpace = []) :
    Does margin source (some ((Written.margin source).value, [])) [] (spaces ++ [.condition]) := by
  have missing : label? (source.dropWhile isSpace) = none := by rw [blank]; rfl
  have margin := does_margin_bare missing
  rw [(margin_bare missing).2, blank] at margin
  exact margin

theorem labelOpen_of_nil {text : List Char} (begun : text ≠ [])
    (ended : text.dropWhile isLabel = []) : labelOpen text = true := by
  have whole := @List.takeWhile_append_dropWhile _ isLabel text
  rw [ended, List.append_nil] at whole
  rw [labelOpen, ended, whole]
  simpa using begun

theorem dropWhile_of_labelOpen {text : List Char} (isOpen : labelOpen text = true) :
    text.dropWhile isLabel = [] := by
  simp only [labelOpen, Bool.and_eq_true] at isOpen
  exact List.isEmpty_iff.1 isOpen.2

/-- A label that is open at the end of a text awaits its colon there. -/
theorem does_margin_open (begun : source.dropWhile isSpace ≠ [])
    (ended : (source.dropWhile isSpace).dropWhile isLabel = []) :
    Does margin source (some ((Written.margin source).value, (Written.margin source).rest)) []
      [.char ':'] := by
  have whole := @List.takeWhile_append_dropWhile _ isLabel (source.dropWhile isSpace)
  rw [ended, List.append_nil] at whole
  have missing : label? (source.dropWhile isSpace) = none := by
    rw [label?, ended]
    split
    · next same => cases same
    · rfl
  have margin := does_margin_bare missing
  rw [ended, whole, if_neg (by simpa using begun)] at margin
  exact margin

/-- At the end of a text a margin knows of a gap and of a colon that could have come. -/
theorem exists_does_margin (begun : source.dropWhile isSpace ≠ []) :
    ∃ gaps, (∀ item ∈ gaps, item ∈ [.char ' ', .char '\t']) ∧
      Does margin source (some ((Written.margin source).value, (Written.margin source).rest)) []
        (gaps ++ colonIf (labelOpen (source.dropWhile isSpace))) := by
  have later {text : List Char} (nonempty : text ≠ []) : ([] : List Char).length < text.length :=
    List.length_pos_iff.2 nonempty
  by_cases ended : (source.dropWhile isSpace).dropWhile isLabel = []
  · rw [labelOpen_of_nil begun ended]
    exact ⟨[], by simp, does_margin_open begun ended⟩
  · have shut : labelOpen (source.dropWhile isSpace) = false :=
      Bool.eq_false_iff.2 (fun isOpen => ended (dropWhile_of_labelOpen isOpen))
    rw [shut, colonIf, if_neg Bool.false_ne_true]
    by_cases nothing : (Written.margin source).rest = []
    · cases found : label? (source.dropWhile isSpace) with
      | none => exact ⟨[], by simp, (does_margin_bare found).earlier (later ended)⟩
      | some label =>
        obtain ⟨text, gap, rest⟩ := label
        have margin := does_margin_label found
        rw [← (margin_label found).2, nothing] at margin
        refine ⟨_, fun _ member => member, ?_⟩
        rw [List.append_nil, nothing]
        exact margin
    · exact ⟨[], by simp, does_margin_earlier (later nothing) (later ended)⟩

/-! ### Entries -/

/-- A branch is its margin and its content. The space after it is empty. -/
theorem Does.branch {margin : Margin} {content : List Piece} {middle : List Char}
    {more others : List Expected}
    (front : Does Grammar.margin source (some (margin, middle)) place items)
    (pieces : Does (Grammar.pieces isEntryText embed) middle (some (content, rest)) place more)
    (behind : Does space rest (some ([], rest)) place others)
    (later : place.length < ('-' :: source).length) :
    Does (branch embed) ('-' :: source) (some (⟨margin, content⟩, rest)) place
      (items ++ (more ++ others)) := by
  have last := behind.map (fun _ => Entry.mk margin content)
  have tail := pieces.bind (f := fun content => do
    let _ ← space
    Pure.pure (Entry.mk margin content)) last
  have whole := front.bind (f := fun margin => do
    let content ← Grammar.pieces isEntryText embed
    let _ ← space
    Pure.pure (Entry.mk margin content)) tail
  have all : Does (entry embed) ('-' :: source) _ place _ := (Does.char '-' source place).bind whole
  exact all.labelled later .branch

theorem does_branch_none {text : List Char} (dashes : Stops (· == '-') text) :
    Does (branch embed) text none text [.branch] :=
  ⟨_, (Gives.char_none dashes).bind_none.labelled_at .branch, .there (fun _ => Iff.rfl)⟩

/-- Space is not left over where the content of an entry ends. -/
theorem does_space_none {text : List Char} (stops : Stops isSpace text) :
    Does space text (some ([], text)) text spaces := by
  have space := does_space text
  rwa [takeWhile_of_stops stops, dropWhile_of_stops stops] at space

theorem does_branches_none {text : List Char} (dashes : Stops (· == '-') text)
    (closes : Stops (· == '}') text) :
    Does (closed (many (branch embed))) text none text [.branch, .char '}'] :=
  (does_branch_none dashes).many_none.closed_none closes

theorem does_branches_earlier {text : List Char} (dashes : Stops (· == '-') text)
    (closes : Stops (· == '}') text) (later : place.length < text.length) :
    Does (closed (many (branch embed))) text none place [] :=
  ((does_branch_none dashes).earlier later).many_none.closed_earlier closes later

theorem does_branches_close (after : List Char) :
    Does (closed (many (branch embed))) ('}' :: after) (some ([], after)) after [] :=
  (does_branch_none (stops_of_ne (by decide) after)).many_none.closed (Nat.lt_succ_self _)

/-- What the rule for entries does where the reader of entries has a result. The reader also knows
whether an earlier label may still be open. -/
def EntriesMirrored (wasOpen : Bool) (source : List Char)
    (result : Except Stuck (Taken (List Entry) source)) : Prop :=
  match result with
  | .ok found =>
    found.rest.length < (source.dropWhile isLabel).length ∧
      Does (closed (many (branch embed))) ('-' :: source) (some (found.value, found.rest))
        found.rest []
  | .error stuck =>
    stuck.rest.length ≤ source.length ∧
      (stuck.rest.length < (source.dropWhile isLabel).length ∨ stuck.rest = []) ∧
      ∃ items, (∀ item, item ∈ items ++ colonIf wasOpen ↔ item ∈ stuck.awaiting.expected) ∧
        Does (closed (many (branch embed))) ('-' :: source) none stuck.rest items

theorem isSpace_isEntryText {c : Char} (space : isSpace c = true) : isEntryText c = true := by
  simp only [isSpace, isGap, Bool.or_eq_true, beq_iff_eq] at space
  rcases space with ((rfl | rfl) | rfl) | rfl <;> rfl

theorem mem_colonIf_or {wasOpen isOpen : Bool} {item : Expected} :
    item ∈ colonIf (wasOpen || isOpen) ↔ item ∈ colonIf wasOpen ∨ item ∈ colonIf isOpen := by
  cases wasOpen <;> cases isOpen <;> simp [colonIf]

theorem mem_expected_entry {wasOpen : Bool} {item : Expected} :
    item ∈ spaces ++ [.condition] ++ ([.text, .directive] ++ spaces) ++ [.branch, .char '}'] ++
        colonIf wasOpen ↔
      item ∈ (Awaiting.entry wasOpen).expected := by
  simp only [Awaiting.expected, afterEntry, List.mem_append, List.mem_cons, List.not_mem_nil]
  grind

theorem mem_expected_entryContent {gaps : List Expected}
    (gap : ∀ item ∈ gaps, item ∈ [.char ' ', .char '\t']) {wasOpen isOpen : Bool}
    {item : Expected} :
    item ∈ gaps ++ colonIf isOpen ++ ([.text, .directive] ++ spaces) ++ [.branch, .char '}'] ++
        colonIf wasOpen ↔
      item ∈ (Awaiting.entryContent (wasOpen || isOpen)).expected := by
  have within : item ∈ gaps → item ∈ spaces := by
    intro member
    have found := gap item member
    simp only [List.mem_cons, List.not_mem_nil, or_false] at found
    rcases found with rfl | rfl <;> decide
  simp only [Awaiting.expected, afterEntry, List.mem_append, List.mem_cons, List.not_mem_nil,
    mem_colonIf_or]
  grind

section

variable {wasOpen : Bool} {inner next after : List Char}

theorem margin_rest_suffix (source : List Char) : (Written.margin source).rest <:+ source :=
  ⟨_, (margin_spec source).1.symm⟩

/-- Whatever begins with no space and no label lies behind the label that a margin looks for. -/
theorem length_le_of_stops {text : List Char} (suffix : text <:+ source)
    (spaces : Stops isSpace text) (labels : Stops isLabel text) :
    text.length ≤ ((source.dropWhile isSpace).dropWhile isLabel).length :=
  (labels.suffix_dropWhile (spaces.suffix_dropWhile suffix)).length_le

/-- A margin and what follows it up to a text behind both do not reach beyond that text. -/
theorem does_branch_earlier {content : List Piece} {items : List Expected}
    (suffix : rest <:+ (Written.margin source).rest) (spaces : Stops isSpace rest)
    (labels : Stops isLabel rest) (later : place.length < rest.length)
    (does : Does (pieces isEntryText embed) (Written.margin source).rest (some (content, rest))
      place items) :
    Does (branch embed) ('-' :: source) (some (⟨(Written.margin source).value, content⟩, rest))
      place items := by
  have inside := suffix.trans (margin_rest_suffix source)
  have margin := does_margin_earlier (Nat.lt_of_lt_of_le later suffix.length_le)
    (Nat.lt_of_lt_of_le later (length_le_of_stops inside spaces labels))
  have bound := inside.length_le
  have branch := margin.branch does ((does_space_none spaces).earlier later)
    (by rw [List.length_cons]; omega)
  rwa [List.append_nil] at branch

/-- The entry in which an embed cannot be read is the last one, and the block is not closed. -/
theorem Mirrors.entries_stuck (mirrors : Mirrors room opened depth reader)
    (admitted : room.admits opened (Written.margin source).rest)
    (still : wasOpen = true → ∀ c ∈ source, isLabel c = true) {stuck : Stuck}
    (failed : Written.pieces isEntryText reader (Written.margin source).rest = .error stuck) :
    EntriesMirrored wasOpen source (.error stuck) := by
  have pieces := mirrors.pieces isEntryText (fun _ => isTopText_of_isEntryText) admitted
  rw [failed] at pieces
  obtain ⟨values, inner, suffix, within, does⟩ := pieces
  have suffix := suffix.trans (List.dropWhile_suffix _)
  have inside := suffix.trans (margin_rest_suffix source)
  have labels : Stops isLabel ('{' :: inner) := (stops_cons _ _ _).2 rfl
  have label := (labels.suffix_dropWhile inside).length_le
  have length := inside.length_le
  have shut : wasOpen = false := by
    cases wasOpen with
    | false => rfl
    | true => exact absurd (still rfl '{' (inside.subset List.mem_cons_self)) (by decide)
  have later : stuck.rest.length < ('{' :: inner).length := Nat.lt_succ_of_le within
  have branch := does_branch_earlier suffix ((stops_cons _ _ _).2 rfl) labels later does
  have all := branch.closed_many (Nat.lt_succ_of_le length)
    (does_branches_earlier (stops_of_ne (by decide) inner) (stops_of_ne (by decide) inner) later)
  refine ⟨by omega, Or.inl (by omega), _, fun item => ?_, all⟩
  rw [shut]
  simp [colonIf]

/-- What is known of an entry whose content is read. -/
structure ContentMirrored (room : Room bound) (opened : Nat) (source : List Char)
    (content : List Piece) (rest : List Char) : Prop where
  admits : room.admits opened rest
  does : Does (pieces isEntryText embed) (Written.margin source).rest (some (content, rest)) rest
    [.text, .directive]
  suffix : rest <:+ (Written.margin source).rest
  stops : Stops isEntryText rest
  unopened : ∀ inner, rest ≠ '{' :: inner

theorem Mirrors.content (mirrors : Mirrors room opened depth reader)
    (admitted : room.admits opened (Written.margin source).rest)
    {content : Taken (List Piece) (Written.margin source).rest}
    (taken : Written.pieces isEntryText reader (Written.margin source).rest = .ok content) :
    ContentMirrored room opened source content.value content.rest := by
  have pieces := mirrors.pieces isEntryText (fun _ => isTopText_of_isEntryText) admitted
  rw [taken] at pieces
  obtain ⟨spelled, -, -, stops, unopened⟩ := mirrors.sound.pieces ⟨content, taken, rfl, rfl⟩
  exact ⟨pieces.1, pieces.2, ⟨_, spelled.symm⟩, stops, unopened⟩

namespace ContentMirrored

variable {content : List Piece}

theorem spaces (mirrored : ContentMirrored room opened source content rest) :
    Stops isSpace rest :=
  mirrored.stops.mono (fun _ => isSpace_isEntryText)

theorem inside (mirrored : ContentMirrored room opened source content rest) : rest <:+ source :=
  mirrored.suffix.trans (margin_rest_suffix source)

/-- The last entry of a block. -/
theorem closes (mirrored : ContentMirrored room opened source content ('}' :: after)) :
    after.length < (source.dropWhile isLabel).length ∧
      Does (closed (many (branch embed))) ('-' :: source)
        (some ([⟨(Written.margin source).value, content⟩], after)) after [] := by
  have labels : Stops isLabel ('}' :: after) := (stops_cons _ _ _).2 rfl
  have later : after.length < ('}' :: after).length := Nat.lt_succ_self _
  have branch := does_branch_earlier mirrored.suffix mirrored.spaces labels later
    (mirrored.does.earlier later)
  exact ⟨(labels.suffix_dropWhile mirrored.inside).length_le,
    branch.closed_many (Nat.lt_succ_of_le mirrored.inside.length_le) (does_branches_close after)⟩

/-- The entry in which the text ends. -/
theorem ended (mirrored : ContentMirrored room opened source content [])
    (begun : source.dropWhile isSpace ≠ []) :
    EntriesMirrored wasOpen source
      (.error ⟨[], .entryContent (wasOpen || labelOpen (source.dropWhile isSpace))⟩) := by
  obtain ⟨gaps, gap, front⟩ := exists_does_margin begun
  have branch := front.branch mirrored.does (does_space_none (stops_nil _)) (Nat.succ_pos _)
  have all := branch.closed_many (Nat.succ_pos _) (does_branches_none (stops_nil _) (stops_nil _))
  exact ⟨Nat.zero_le _, Or.inr rfl, _, fun _ => mem_expected_entryContent gap, all⟩

/-- An entry before others is passed over but for what its margin knows. -/
theorem passed (mirrored : ContentMirrored room opened source content ('-' :: next))
    (within : place.length ≤ next.length) {items : List Expected}
    (front : Does margin source
      (some ((Written.margin source).value, (Written.margin source).rest)) place items)
    {result : Option (List Entry × List Char)} {more : List Expected}
    (again : Does (closed (many (branch embed))) ('-' :: next) result place more) :
    Does (closed (many (branch embed))) ('-' :: source)
      (mapValue (⟨(Written.margin source).value, content⟩ :: ·) result) place (items ++ more) := by
  have later : place.length < ('-' :: next).length := Nat.lt_succ_of_le within
  have length := mirrored.inside.length_le
  have branch := front.branch (mirrored.does.earlier later)
    ((does_space_none mirrored.spaces).earlier later)
    (Nat.lt_of_lt_of_le later (Nat.le_succ_of_le length))
  rw [List.append_nil, List.append_nil] at branch
  exact branch.closed_many (Nat.lt_succ_of_le length) again

theorem next_suffix (mirrored : ContentMirrored room opened source content ('-' :: next)) :
    next <:+ source.dropWhile isSpace :=
  (List.suffix_cons '-' next).trans (mirrored.spaces.suffix_dropWhile mirrored.inside)

/-- A label that an earlier entry looks for ends no later than that of a later one. -/
theorem label_le (mirrored : ContentMirrored room opened source content ('-' :: next)) :
    (next.dropWhile isLabel).length ≤ ((source.dropWhile isSpace).dropWhile isLabel).length ∧
      (next.dropWhile isLabel).length ≤ (source.dropWhile isLabel).length := by
  have stops := stops_dropWhile isLabel next
  have suffix := (List.dropWhile_suffix isLabel).trans mirrored.next_suffix
  exact ⟨(stops.suffix_dropWhile suffix).length_le,
    (stops.suffix_dropWhile (suffix.trans (List.dropWhile_suffix isSpace))).length_le⟩

/-- Where a label may still be open there is nothing but labels left. -/
theorem still_open (mirrored : ContentMirrored room opened source content ('-' :: next))
    (still : wasOpen = true → ∀ c ∈ source, isLabel c = true)
    (isOpen : (wasOpen || labelOpen (source.dropWhile isSpace)) = true) :
    ∀ c ∈ next, isLabel c = true := by
  intro c member
  have inside := mirrored.next_suffix.subset member
  rcases Bool.or_eq_true_iff.1 isOpen with was | now
  · exact still was c ((List.dropWhile_suffix isSpace).subset inside)
  · have none := dropWhile_of_labelOpen now
    cases outside : isLabel c with
    | true => rfl
    | false => exact absurd none (dropWhile_ne_nil inside outside)

/-- If later entries cannot be read, an earlier one adds the colon of its label if that is open. -/
theorem more_stuck (mirrored : ContentMirrored room opened source content ('-' :: next))
    (begun : source.dropWhile isSpace ≠ []) {stuck : Stuck}
    (again : EntriesMirrored (wasOpen || labelOpen (source.dropWhile isSpace)) next
      (.error stuck)) :
    EntriesMirrored wasOpen source (.error stuck) := by
  obtain ⟨within, reached, items, same, again⟩ := again
  obtain ⟨beyond, label⟩ := mirrored.label_le
  have length := mirrored.inside.length_le
  have middle := mirrored.suffix.length_le
  rw [List.length_cons] at length middle
  refine ⟨by omega, reached.imp_left (fun later => by omega), ?_⟩
  rcases Nat.lt_or_ge stuck.rest.length ((source.dropWhile isSpace).dropWhile isLabel).length with
    later | stands
  · have shut : labelOpen (source.dropWhile isSpace) = false := by
      refine Bool.eq_false_iff.2 (fun isOpen => ?_)
      rw [dropWhile_of_labelOpen isOpen] at later
      exact Nat.not_lt_zero _ later
    rw [shut, Bool.or_false] at same
    exact ⟨items, same, mirrored.passed within (does_margin_earlier (by omega) later) again⟩
  · have ended : stuck.rest = [] := reached.resolve_left (by omega)
    have none : (source.dropWhile isSpace).dropWhile isLabel = [] := by
      rw [ended] at stands
      exact List.length_eq_zero_iff.1 (Nat.le_zero.1 stands)
    rw [labelOpen_of_nil begun none] at same
    rw [ended] at again ⊢
    refine ⟨_, fun item => ?_,
      mirrored.passed (Nat.zero_le _) (does_margin_open begun none) again⟩
    have both := same item
    rw [List.mem_append, mem_colonIf_or] at both
    rw [← both, List.mem_append, List.mem_append]
    simp only [colonIf, if_pos]
    grind

end ContentMirrored

theorem Mirrors.entries (mirrors : Mirrors room opened depth reader) (wasOpen : Bool)
    (admitted : room.admits opened source)
    (still : wasOpen = true → ∀ c ∈ source, isLabel c = true) :
    EntriesMirrored wasOpen source (Written.entries reader wasOpen source) := by
  induction size : source.length using Nat.strongRecOn generalizing source wasOpen with
  | ind length ih =>
    obtain ⟨whole, fits⟩ := margin_spec source
    have admits : room.admits opened (Written.margin source).rest := by
      rw [whole] at admitted
      exact room.admits_append fits.isTopText admitted
    rw [Written.entries]
    split
    · next empty =>
      have blank := List.isEmpty_iff.1 empty
      have branch := (does_margin_blank blank).branch
        (does_pieces_nil (stops_nil _) (stops_nil _)) (does_space_none (stops_nil _))
        (Nat.succ_pos _)
      have all := branch.closed_many (Nat.succ_pos _)
        (does_branches_none (stops_nil _) (stops_nil _))
      exact ⟨Nat.zero_le _, Or.inr rfl, _, fun _ => mem_expected_entry, all⟩
    · next filled =>
      have begun : source.dropWhile isSpace ≠ [] := by simpa using filled
      split
      · next stuck failed => exact mirrors.entries_stuck admits still failed
      · next content taken =>
        have mirrored := mirrors.content admits taken
        have middle := content.shorter
        split
        · next next split =>
          rw [split] at mirrored
          have bound := mirrored.inside.length_le
          have again := ih next.length (size ▸ bound) _ (room.plain rfl mirrored.admits)
            (mirrored.still_open still) rfl
          split
          · next stuck failed =>
            rw [failed] at again
            exact mirrored.more_stuck begun again
          · next more read =>
            rw [read] at again
            obtain ⟨later, again⟩ := again
            obtain ⟨beyond, label⟩ := mirrored.label_le
            have suffix := mirrored.suffix.length_le
            have within := more.shorter
            rw [List.length_cons] at suffix
            exact ⟨Nat.lt_of_lt_of_le later label, mirrored.passed within
              (does_margin_earlier (by omega) (by omega)) again⟩
        · next after split =>
          rw [split] at mirrored
          exact mirrored.closes
        · next dashes closes =>
          have ended := eq_nil_of_stops_isEntryText mirrored.stops dashes closes mirrored.unopened
          show EntriesMirrored wasOpen source (.error ⟨content.rest, _⟩)
          rw [ended] at mirrored ⊢
          exact mirrored.ended begun

end

/-! ### Below the opening of a block -/

theorem exists_gives_margin (source : List Char) :
    ∃ own, Gives margin source
      (some ((Written.margin source).value, (Written.margin source).rest)) own := by
  cases found : label? (source.dropWhile isSpace) with
  | none =>
    obtain ⟨own, gives, -⟩ := does_margin_bare found
    exact ⟨own, gives⟩
  | some label =>
    obtain ⟨text, gap, rest⟩ := label
    obtain ⟨own, gives, -⟩ := does_margin_label found
    exact ⟨own, gives⟩

/-- A dash is enough for a branch. -/
theorem exists_branch (next : List Char) (known : Furthest) :
    ∃ entry rest later, branch embed ('-' :: next) known = (some (entry, rest), later) ∧
      rest.length < ('-' :: next).length := by
  obtain ⟨own, given⟩ := exists_gives_margin next
  have dash : char '-' ('-' :: next) none = (some ('-', next), none) := rfl
  have front := given.runs none Furthest.plain_none
  obtain ⟨content, middle, second, read, within⟩ := exists_many
    (orElse (text isEntryText) do let value ← embed; pure (Piece.embed value))
    (Written.margin next).rest (Furthest.merge none own)
  have parts : pieces isEntryText embed _ _ = (some (content, middle), second) := read
  obtain ⟨blanks, rest, third, skipped, left⟩ := exists_many (one isSpace spaces) middle second
  have spacing : space middle second = (some (blanks, rest), third) := skipped
  have whole : entry embed ('-' :: next) none = _ := bind_of_some dash
  rw [bind_of_some front, bind_of_some parts, bind_of_some spacing] at whole
  have bound := (Written.margin next).shorter
  exact ⟨⟨(Written.margin next).value, content⟩, rest,
    known.merge (third.relabel ('-' :: next) .branch), by rw [branch, labelled, whole]; rfl,
    by rw [List.length_cons]; omega⟩

/-- What stands below the opening of a block is read as the reader of blocks does. -/
theorem Mirrors.below (mirrors : Mirrors room opened depth reader) (carriage : Bool)
    (gap : List Char) (value : Opening) (admitted : room.admits opened source) :
    Mirrored (below embed value gap carriage) source
      (Written.block reader carriage gap source value) := by
  have spacing := does_space source
  have dropped := room.admits_dropWhile (fun _ => isTopText_of_isSpace) admitted
  have length := length_dropWhile_le isSpace source
  rw [Written.block]
  split
  · next next split =>
    rw [split] at spacing dropped length
    rw [List.length_cons] at length
    have entries := mirrors.entries false (room.plain rfl dropped) (fun isOpen => by cases isOpen)
    have passed {place : List Char} (within : place.length ≤ next.length) :=
      spacing.earlier (Nat.lt_succ_of_le within : place.length < ('-' :: next).length)
    have repeated {place : List Char} {result : Option (List Entry × List Char)}
        {items : List Expected}
        (does : Does (closed (many (branch embed))) ('-' :: next) result place items) :=
      does.oneOrMore_of_many (fun known _ => exists_branch next known)
    split
    · next stuck failed =>
      rw [failed] at entries
      obtain ⟨within, -, items, same, does⟩ := entries
      have stopped := (repeated does).bind_none (f := fun entries =>
        pure (Embed.block value ⟨gap, carriage, source.takeWhile isSpace⟩ entries))
      have whole := (passed within).bind (f := fun space => do
        let entries ← closed (oneOrMore (branch embed))
        pure (Embed.block value ⟨gap, carriage, space⟩ entries)) stopped
      refine ⟨by omega, whole.congr (fun item => ?_)⟩
      rw [← same item]
      simp [colonIf]
    · next found taken =>
      rw [taken] at entries
      obtain ⟨-, does⟩ := entries
      have read := (repeated does).map
        (fun entries => Embed.block value ⟨gap, carriage, source.takeWhile isSpace⟩ entries)
      exact (passed found.shorter).bind (f := fun space => do
        let entries ← closed (oneOrMore (branch embed))
        pure (Embed.block value ⟨gap, carriage, space⟩ entries)) read
  · next dashes =>
    have refused := (does_branch_none (stops_of_forall_ne dashes)).bind_none (f := fun first => do
      let more ← many (branch embed)
      pure (first :: more))
    have stopped : Does (closed (oneOrMore (branch embed))) _ none _ _ := refused.bind_none
    have whole := spacing.bind (f := fun space => do
      let entries ← closed (oneOrMore (branch embed))
      pure (Embed.block value ⟨gap, carriage, space⟩ entries)) stopped.bind_none
    exact ⟨length, whole⟩

end Narrative.Grammar
