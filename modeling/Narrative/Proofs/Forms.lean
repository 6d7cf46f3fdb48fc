import Narrative.Proofs.Branches

/-!
Blocks and inline embeds. The grammar tries a block first, and an inline embed where that fails, so
every header is read twice. What the abandoned form expected is expected still if the other one gets
no further, which it can do only within the opening.
-/

set_option autoImplicit false

namespace Narrative.Grammar

open Written

variable {bound opened depth : Nat} {room : Room bound} {reader : EmbedReader}
  {rest place : List Char} {value : Opening} {items more others last : List Expected}

/-! ### Headers -/

/-- A shorter run leaves the longer one to be dropped. -/
theorem dropWhile_dropWhile {small big : Char → Bool} (le : ∀ c, small c = true → big c = true)
    (text : List Char) : (text.dropWhile small).dropWhile big = text.dropWhile big := by
  have inside : ∀ c ∈ text.takeWhile small, big c = true :=
    fun c member => le c (accept_of_mem_takeWhile c member)
  have dropped := @List.dropWhile_append_of_pos _ big _ (text.dropWhile small) inside
  rw [List.takeWhile_append_dropWhile] at dropped
  exact dropped.symm

theorem isArgumentText_of_isGap {c : Char} (inside : isGap c = true) : isArgumentText c = true :=
  isArgumentText_of_isLabel (isLabel_of_isGap inside)

theorem stops_lineEnd {c : Char} (ends : isLineEnd c = true) (text : List Char) :
    Stops isArgumentText (c :: text) := by
  rw [stops_cons]
  simp only [isLineEnd, Bool.or_eq_true, beq_iff_eq] at ends
  rcases ends with rfl | rfl <;> rfl

/-- The run that a label would have goes over an opening without one. -/
theorem isLabel_spell (fits : value.Fits rest) (bare : ∀ text gap, value ≠ .label text gap) :
    ∀ c ∈ value.spell, isLabel c = true := by
  cases value with
  | bare => exact List.forall_mem_nil _
  | sign value gap => exact isLabel_sign_gap value fits.1
  | label text gap => exact absurd rfl (bare text gap)

theorem takeWhile_unlabelled (fits : value.Fits rest)
    (bare : ∀ text gap, value ≠ .label text gap) :
    (value.spell ++ rest).takeWhile isLabel = value.spell ++ rest.takeWhile isLabel :=
  List.takeWhile_append_of_pos (isLabel_spell fits bare)

theorem dropWhile_unlabelled (fits : value.Fits rest)
    (bare : ∀ text gap, value ≠ .label text gap) :
    (value.spell ++ rest).dropWhile isLabel = rest.dropWhile isLabel :=
  List.dropWhile_append_of_pos (isLabel_spell fits bare)

theorem spell_label (text gap rest : List Char) :
    (Opening.label text gap).spell ++ rest = text ++ ':' :: (gap ++ rest) := by
  rw [Opening.spell, List.append_assoc, List.cons_append]

theorem dropWhile_label {text gap : List Char} (fits : (Opening.label text gap).Fits rest) :
    ((Opening.label text gap).spell ++ rest).dropWhile isLabel = ':' :: (gap ++ rest) := by
  rw [spell_label]
  exact dropWhile_run fits.2.1 ((stops_cons isLabel ':' _).2 rfl)

theorem exists_does_header_unlabelled (fits : value.Fits rest)
    (bare : ∀ text gap, value ≠ .label text gap) :
    ∃ gaps, (∀ item ∈ gaps, item ∈ [.char ' ', .char '\t'] ∧
        mayBreak (value.spell ++ rest.takeWhile isLabel) = true) ∧
      Does header (value.spell ++ rest) (some (value, rest)) (rest.dropWhile isLabel)
        (openings (value.spell ++ rest.takeWhile isLabel) ++ gaps) := by
  have split := @List.takeWhile_append_dropWhile _ isLabel rest
  rw [← split] at fits
  have whole := exists_does_header fits bare accept_of_mem_takeWhile (stops_dropWhile isLabel rest)
  rwa [split] at whole

theorem label_or_bare (value : Opening) :
    (∃ text gap, value = .label text gap) ∨ ∀ text gap, value ≠ .label text gap := by
  cases value with
  | label text gap => exact Or.inl ⟨text, gap, rfl⟩
  | bare => exact Or.inr (fun _ _ same => by cases same)
  | sign value gap => exact Or.inr (fun _ _ same => by cases same)

/-- A header looks no further than the gap behind it and the run that a label would have. -/
theorem does_header_earlier (fits : value.Fits rest)
    (later : place.length < (rest.dropWhile isGap).length)
    (beyond : place.length < ((value.spell ++ rest).dropWhile isLabel).length) :
    Does header (value.spell ++ rest) (some (value, rest)) place [] := by
  rcases label_or_bare value with ⟨text, gap, rfl⟩ | bare
  · obtain ⟨nonempty, labels, gaps, stops⟩ := fits
    have header := does_header_label nonempty labels gaps stops
    rw [dropWhile_of_stops stops] at later
    rw [spell_label]
    exact header.earlier later
  · obtain ⟨gaps, -, header⟩ := exists_does_header_unlabelled fits bare
    rw [dropWhile_unlabelled fits bare] at beyond
    exact header.earlier beyond

/-! ### Blocks and inline embeds -/

theorem Does.block {result : Option (Embed × List Char)} {text below : List Char} {carriage : Bool}
    (header : Does Grammar.header text (some (value, rest)) place items)
    (gap : Does Grammar.gap rest (some (rest.takeWhile isGap, rest.dropWhile isGap)) place more)
    (newline : Does Grammar.newline (rest.dropWhile isGap) (some (carriage, below)) place others)
    (under : Does (Grammar.below embed value (rest.takeWhile isGap) carriage) below result place
      last) :
    Does (Grammar.block embed) ('{' :: text) result place
      (items ++ (more ++ (others ++ last))) := by
  have line := newline.bind
    (f := fun carriage => Grammar.below embed value (rest.takeWhile isGap) carriage) under
  have behind := gap.bind (f := fun gap => do
    let carriage ← Grammar.newline
    Grammar.below embed value gap carriage) line
  have whole := header.bind (f := fun opening => do
    let gap ← Grammar.gap
    let carriage ← Grammar.newline
    Grammar.below embed opening gap carriage) behind
  exact (Does.char '{' text place).bind whole

theorem Does.block_none {text : List Char}
    (header : Does Grammar.header text (some (value, rest)) place items)
    (gap : Does Grammar.gap rest (some (rest.takeWhile isGap, rest.dropWhile isGap)) place more)
    (newline : Does Grammar.newline (rest.dropWhile isGap) none place others) :
    Does (Grammar.block embed) ('{' :: text) none place (items ++ (more ++ others)) := by
  have behind := gap.bind (f := fun gap => do
    let carriage ← Grammar.newline
    Grammar.below embed value gap carriage) newline.bind_none
  have whole := header.bind (f := fun opening => do
    let gap ← Grammar.gap
    let carriage ← Grammar.newline
    Grammar.below embed opening gap carriage) behind
  exact (Does.char '{' text place).bind whole

theorem Does.inline {result : Option (List (List Piece) × List Char)} {text : List Char}
    (header : Does Grammar.header text (some (value, rest)) place items)
    (arguments : Does (Grammar.closed (Grammar.arguments embed)) rest result place more) :
    Does (Grammar.inline embed) ('{' :: text) (mapValue (Embed.inline value) result) place
      (items ++ more) := by
  have made : Does (do
      let arguments ← Grammar.closed (Grammar.arguments embed)
      Pure.pure (Embed.inline value arguments)) rest (mapValue (Embed.inline value) result) place
      more := by
    cases result with
    | none => exact arguments.bind_none
    | some found => exact arguments.map (Embed.inline value)
  have whole := header.bind (f := fun opening => do
    let arguments ← Grammar.closed (Grammar.arguments embed)
    Pure.pure (Embed.inline opening arguments)) made
  exact (Does.char '{' text place).bind whole

/-- A block is an embed. -/
theorem Does.embed_block {text : List Char} {found : Embed × List Char}
    (block : Does (Grammar.block embed) ('{' :: text) (some found) place items)
    (within : place.length ≤ text.length) : Does embed ('{' :: text) (some found) place items := by
  have labelled := (block.orElse (Grammar.inline embed)).labelled (Nat.lt_succ_of_le within)
    .directive
  rw [embed_eq]
  exact labelled

/-- Where there is no block, there may be an inline embed. -/
theorem Does.embed_inline {text : List Char} {result : Option (Embed × List Char)}
    (block : Does (Grammar.block embed) ('{' :: text) none place items)
    (inline : Does (Grammar.inline embed) ('{' :: text) result place more)
    (within : place.length ≤ text.length) :
    Does embed ('{' :: text) result place (items ++ more) := by
  have labelled := (block.orElse_none inline).labelled (Nat.lt_succ_of_le within) .directive
  rw [embed_eq]
  exact labelled

/-! ### Where a line break follows -/

section

variable {c : Char} {text : List Char}

/-- A header, its gap and a line end behind it are passed by the form that a line break makes. -/
theorem does_line (fits : value.Fits rest) (split : rest.dropWhile isGap = c :: text)
    (ends : isLineEnd c = true) (within : place.length ≤ text.length) :
    Does header (value.spell ++ rest) (some (value, rest)) place [] ∧
      Does gap rest (some (rest.takeWhile isGap, rest.dropWhile isGap)) place [] := by
  have labels : Stops isLabel (rest.dropWhile isGap) := by
    rw [split]
    exact (stops_lineEnd ends text).mono (fun _ => isArgumentText_of_isLabel)
  have later : place.length < (rest.dropWhile isGap).length := by
    rw [split]
    exact Nat.lt_succ_of_le within
  have suffix := (List.dropWhile_suffix isGap).trans (List.suffix_append value.spell rest)
  have beyond := (labels.suffix_dropWhile suffix).length_le
  exact ⟨does_header_earlier fits later (Nat.lt_of_lt_of_le later beyond),
    (does_gap rest).earlier later⟩

/-- An argument does not go beyond the line. -/
theorem does_inline_line (fits : value.Fits rest) (split : rest.dropWhile isGap = c :: text)
    (ends : isLineEnd c = true) (within : place.length ≤ text.length) :
    Does (inline embed) ('{' :: (value.spell ++ rest)) none place [] := by
  have outside {d : Char} (other : isLineEnd d = false) : c ≠ d := by
    rintro rfl
    cases other.symm.trans ends
  have stops := stops_lineEnd ends text
  have left : rest.dropWhile isArgumentText = c :: text := by
    rw [← dropWhile_dropWhile (fun _ => isArgumentText_of_isGap), split, dropWhile_of_stops stops]
  have later : place.length < (c :: text).length := Nat.lt_succ_of_le within
  have nothing := (does_pieces_nil stops (stops_of_ne (outside rfl) text)).earlier later
  have argument := Does.pieces_text left nothing (Or.inr later)
  exact (does_line fits split ends within).1.inline (argument.closed_arguments_earlier
    (stops_of_ne (outside rfl) text) (stops_of_ne (outside rfl) text) later)

/-- Below a line break an embed is a block, or there is none. -/
theorem Does.embed_line {carriage : Bool} {below : List Char} (fits : value.Fits rest)
    (split : rest.dropWhile isGap = lineBreak carriage ++ below)
    (within : place.length ≤ below.length) {result : Option (Embed × List Char)}
    (under : Does (Grammar.below embed value (rest.takeWhile isGap) carriage) below result place
      items) :
    Does embed ('{' :: (value.spell ++ rest)) result place items := by
  obtain ⟨c, text, first, ends, shorter⟩ : ∃ c text, lineBreak carriage ++ below = c :: text ∧
      isLineEnd c = true ∧ below.length ≤ text.length := by
    cases carriage with
    | true => exact ⟨'\r', '\n' :: below, rfl, rfl, Nat.le_succ _⟩
    | false => exact ⟨'\n', below, rfl, rfl, Nat.le_refl _⟩
  have newline : Does newline (rest.dropWhile isGap) (some (carriage, below)) place [] := by
    rw [split]
    cases carriage with
    | true => exact does_newline_pair below place
    | false => exact (does_newline_feed below).earlier (Nat.lt_succ_of_le within)
  have within := Nat.le_trans within shorter
  obtain ⟨header, gap⟩ := does_line fits (split.trans first) ends within
  have block := header.block gap newline under
  have length : place.length ≤ (value.spell ++ rest).length := by
    have dropped := length_dropWhile_le isGap rest
    rw [split.trans first, List.length_cons] at dropped
    rw [List.length_append]
    omega
  cases result with
  | some found => exact block.embed_block length
  | none =>
    have inline := does_inline_line fits (split.trans first) ends within
    have whole := block.embed_inline inline length
    rwa [List.append_nil] at whole

/-- A carriage return awaits its line feed. -/
theorem does_embed_carriage (fits : value.Fits rest) (split : rest.dropWhile isGap = '\r' :: text)
    (unfed : ∀ more, text ≠ '\n' :: more) :
    Does embed ('{' :: (value.spell ++ rest)) none text [.char '\n'] := by
  obtain ⟨header, gap⟩ := does_line fits split rfl (Nat.le_refl _)
  have newline := does_newline_carriage (stops_of_forall_ne unfed)
  rw [← split] at newline
  have dropped := length_dropWhile_le isGap rest
  rw [split, List.length_cons] at dropped
  have block := header.block_none gap newline
  refine block.embed_inline (does_inline_line fits split rfl (Nat.le_refl _)) ?_
  rw [List.length_append]
  omega

end

/-! ### Where no line break follows -/

/-- An argument that is further than the header and the gap is all that counts. -/
theorem Does.embed_argument {result : Option (List (List Piece) × List Char)}
    (fits : value.Fits rest) (line : Stops isLineEnd (rest.dropWhile isGap))
    (later : place.length < (rest.dropWhile isGap).length)
    (beyond : place.length < ((value.spell ++ rest).dropWhile isLabel).length)
    (arguments : Does (Grammar.closed (Grammar.arguments embed)) rest result place items) :
    Does embed ('{' :: (value.spell ++ rest)) (mapValue (Embed.inline value) result) place
      items := by
  have header := does_header_earlier fits later beyond
  have block := header.block_none ((does_gap rest).earlier later)
    ((does_newline_none line).earlier later)
  refine block.embed_inline (header.inline arguments) ?_
  have dropped := length_dropWhile_le isGap rest
  rw [List.length_append]
  omega

/-- Behind the text of the first argument the header and the gap do not count. -/
theorem beyond_argument (value : Opening)
    (later : place.length < (rest.dropWhile isArgumentText).length) :
    place.length < (rest.dropWhile isGap).length ∧
      place.length < ((value.spell ++ rest).dropWhile isLabel).length := by
  have stops := stops_dropWhile isArgumentText rest
  have suffix : rest.dropWhile isArgumentText <:+ rest := List.dropWhile_suffix _
  have gaps := (stops.mono (fun _ => isArgumentText_of_isGap)).suffix_dropWhile suffix
  have labels := (stops.mono (fun _ => isArgumentText_of_isLabel)).suffix_dropWhile
    (suffix.trans (List.suffix_append value.spell rest))
  exact ⟨Nat.lt_of_lt_of_le later gaps.length_le, Nat.lt_of_lt_of_le later labels.length_le⟩

/-- After a label the first argument awaits more of itself, or of the gap before it. -/
theorem does_embed_label {text gap : List Char} (fits : (Opening.label text gap).Fits rest)
    (line : Stops isLineEnd (rest.dropWhile isGap))
    (ends : ∀ c more, rest.dropWhile isArgumentText = c :: more → isLineEnd c = true)
    (arguments : Does (closed (Grammar.arguments embed)) rest none
      (rest.dropWhile isArgumentText) afterArgument) :
    Does embed ('{' :: ((Opening.label text gap).spell ++ rest)) none
      (rest.dropWhile isArgumentText)
      (firstAwaiting ((Opening.label text gap).spell ++ rest) rest).expected := by
  have colon := dropWhile_label fits
  have ⟨nonempty, labels, gaps, begun⟩ := fits
  cases rest with
  | nil =>
    have awaiting : firstAwaiting ((Opening.label text gap).spell ++ []) [] = .content := by
      rw [firstAwaiting, colon]
      rfl
    have header := does_header_label nonempty labels gaps begun
    rw [← spell_label] at header
    have block := header.block_none (does_gap []) (does_newline_none (stops_nil isLineEnd))
    have all := block.embed_inline (header.inline arguments) (Nat.zero_le _)
    rw [awaiting]
    refine all.congr (fun item => ?_)
    simp only [Awaiting.expected, List.mem_append, List.mem_cons, List.not_mem_nil]
    grind
  | cons c more =>
    rw [dropWhile_of_stops begun, stops_cons] at line
    have later : ((c :: more).dropWhile isArgumentText).length < (c :: more).length := by
      cases inside : isArgumentText c with
      | true =>
        rw [List.dropWhile_cons_of_pos inside]
        exact Nat.lt_succ_of_le (length_dropWhile_le isArgumentText more)
      | false =>
        have ended := ends c more (List.dropWhile_cons_of_neg (by simp [inside]))
        cases line.symm.trans ended
    rw [firstAwaiting_argument colon rfl (List.cons_ne_nil c more)]
    refine Does.embed_argument fits ?_ ?_ ?_ arguments
    · rwa [dropWhile_of_stops begun, stops_cons]
    · rwa [dropWhile_of_stops begun]
    · rw [colon, List.length_cons, List.length_append]
      omega

/-- A line break may follow a gap behind an opening without a label. -/
theorem mayBreak_spell (fits : value.Fits rest) (bare : ∀ text gap, value ≠ .label text gap)
    {run : List Char} (gaps : ∀ c ∈ run, isGap c = true) :
    mayBreak (value.spell ++ run) = true := by
  have all : run.all isGap = true := List.all_eq_true.2 gaps
  cases value with
  | bare =>
    cases run with
    | nil => rfl
    | cons c run =>
      rw [List.all_cons, Bool.and_eq_true] at all
      simp [Opening.spell, mayBreak, all]
  | sign value gap =>
    have before : gap.all isGap = true := List.all_eq_true.2 fits.1
    simp [Opening.spell, mayBreak, Sign.ofChar?_char, before, all]
  | label text gap => exact absurd rfl (bare text gap)

/-- A line break may follow the run that a label would have if that is a gap. -/
theorem mayBreak_iff (fits : value.Fits rest) (bare : ∀ text gap, value ≠ .label text gap) :
    mayBreak (value.spell ++ rest.takeWhile isLabel) = true ↔
      rest.dropWhile isGap = rest.dropWhile isLabel := by
  have split := @List.takeWhile_append_dropWhile _ isLabel rest
  constructor
  · intro breaks
    have stops : Stops isGap (rest.dropWhile isLabel) :=
      (stops_dropWhile isLabel rest).mono (fun _ => isLabel_of_isGap)
    rw [← split] at fits
    rw [← dropWhile_run (fits.gaps_of_mayBreak bare breaks) stops, split]
  · intro same
    have other := @List.takeWhile_append_dropWhile _ isGap rest
    rw [same] at other
    have run := List.append_cancel_right (split.trans other.symm)
    rw [run]
    exact mayBreak_spell fits bare accept_of_mem_takeWhile

/-- Without a label the first argument awaits all that the header and the gap await, too. -/
theorem does_embed_run (fits : value.Fits rest) (bare : ∀ text gap, value ≠ .label text gap)
    (line : Stops isLineEnd (rest.dropWhile isGap))
    (arguments : Does (closed (Grammar.arguments embed)) rest none (rest.dropWhile isLabel)
      afterArgument) :
    Does embed ('{' :: (value.spell ++ rest)) none (rest.dropWhile isLabel)
      (Awaiting.opening (value.spell ++ rest.takeWhile isLabel)).expected := by
  obtain ⟨gaps, only, header⟩ := exists_does_header_unlabelled fits bare
  have length : (rest.dropWhile isLabel).length ≤ (value.spell ++ rest).length := by
    have dropped := length_dropWhile_le isLabel rest
    rw [List.length_append]
    omega
  have breaks := mayBreak_iff fits bare
  by_cases level : rest.dropWhile isGap = rest.dropWhile isLabel
  · have behind : Does gap rest (some (rest.takeWhile isGap, rest.dropWhile isGap))
        (rest.dropWhile isLabel) [.char ' ', .char '\t'] := by
      rw [← level]
      exact does_gap rest
    have newline : Does newline (rest.dropWhile isGap) none (rest.dropWhile isLabel)
        [.newline] := by
      rw [← level]
      exact does_newline_none line
    have block := header.block_none behind newline
    refine (block.embed_inline (header.inline arguments) length).congr (fun item => ?_)
    have gapped : item ∈ gaps → item ∈ [.char ' ', .char '\t'] := fun member => (only item member).1
    simp only [Awaiting.expected, openings, breaks.2 level, if_pos, List.mem_append, List.mem_cons,
      List.not_mem_nil] at gapped ⊢
    grind
  · have unbroken : mayBreak (value.spell ++ rest.takeWhile isLabel) = false :=
      Bool.eq_false_iff.2 (fun yes => level (breaks.1 yes))
    have empty : gaps = [] := by
      refine List.eq_nil_iff_forall_not_mem.2 (fun item member => ?_)
      cases unbroken.symm.trans (only item member).2
    have suffix : rest.dropWhile isLabel <:+ rest.dropWhile isGap := by
      rw [← dropWhile_dropWhile (fun _ => isLabel_of_isGap)]
      exact List.dropWhile_suffix isLabel
    have later : (rest.dropWhile isLabel).length < (rest.dropWhile isGap).length :=
      Nat.lt_of_le_of_ne suffix.length_le (fun same => level (suffix.eq_of_length same).symm)
    have block := header.block_none ((does_gap rest).earlier later)
      ((does_newline_none line).earlier later)
    refine (block.embed_inline (header.inline arguments) length).congr (fun item => ?_)
    simp only [Awaiting.expected, openings, unbroken, empty, List.mem_append, List.not_mem_nil]
    grind

theorem dropWhile_isLabel_suffix (text : List Char) :
    text.dropWhile isLabel <:+ text.dropWhile isGap := by
  rw [← @dropWhile_dropWhile isGap isLabel (fun _ => isLabel_of_isGap)]
  exact List.dropWhile_suffix isLabel

theorem does_embed_unlabelled (fits : value.Fits rest)
    (bare : ∀ text gap, value ≠ .label text gap) (line : Stops isLineEnd (rest.dropWhile isGap))
    (ends : ∀ c more, rest.dropWhile isArgumentText = c :: more → isLineEnd c = true)
    (arguments : Does (closed (Grammar.arguments embed)) rest none
      (rest.dropWhile isArgumentText) afterArgument) :
    Does embed ('{' :: (value.spell ++ rest)) none (rest.dropWhile isArgumentText)
      (firstAwaiting (value.spell ++ rest) rest).expected := by
  have dropped := dropWhile_unlabelled fits bare
  have behind := @dropWhile_dropWhile isLabel isArgumentText
    (fun _ => isArgumentText_of_isLabel) rest
  by_cases level : rest.dropWhile isArgumentText = rest.dropWhile isLabel
  · rw [level] at ends arguments ⊢
    rw [firstAwaiting_opening (dropped.symm ▸ ends), takeWhile_unlabelled fits bare]
    exact does_embed_run fits bare line arguments
  · -- Only a colon that ends no label is text of an argument where no label goes on.
    have suffix : rest.dropWhile isArgumentText <:+ rest.dropWhile isLabel := by
      rw [← behind]
      exact List.dropWhile_suffix isArgumentText
    have later := Nat.lt_of_le_of_ne suffix.length_le (fun same => level (suffix.eq_of_length same))
    cases split : rest.dropWhile isLabel with
    | nil =>
      rw [split] at later
      exact absurd later (Nat.not_lt_zero _)
    | cons c more =>
      have inside : isLineEnd c = false := by
        cases ended : isLineEnd c with
        | false => rfl
        | true =>
          rw [split, dropWhile_of_stops (stops_lineEnd ended more), ← split] at behind
          exact absurd behind.symm level
      have nonempty : rest ≠ [] := by
        rintro rfl
        cases split
      rw [firstAwaiting_argument (dropped.trans split) inside nonempty]
      exact Does.embed_argument fits line
        (Nat.lt_of_lt_of_le later (dropWhile_isLabel_suffix rest).length_le)
        (dropped.symm ▸ later) arguments

/-- Where the first argument ends too early, all forms together await what the reader does. -/
theorem does_embed_awaiting (fits : value.Fits rest) (line : Stops isLineEnd (rest.dropWhile isGap))
    (ends : ∀ c more, rest.dropWhile isArgumentText = c :: more → isLineEnd c = true)
    (arguments : Does (closed (Grammar.arguments embed)) rest none
      (rest.dropWhile isArgumentText) afterArgument) :
    Does embed ('{' :: (value.spell ++ rest)) none (rest.dropWhile isArgumentText)
      (firstAwaiting (value.spell ++ rest) rest).expected := by
  rcases label_or_bare value with ⟨text, gap, rfl⟩ | bare
  · exact does_embed_label fits line ends arguments
  · exact does_embed_unlabelled fits bare line ends arguments

/-- Behind an embed in the first argument nothing else than more of an argument is awaited. -/
theorem firstAwaiting_of_brace (fits : value.Fits rest) {deeper : List Char}
    (split : rest.dropWhile isArgumentText = '{' :: deeper) :
    firstAwaiting (value.spell ++ rest) rest = .argument := by
  have nonempty : rest ≠ [] := by
    rintro rfl
    cases split
  rcases label_or_bare value with ⟨text, gap, rfl⟩ | bare
  · exact firstAwaiting_argument (dropWhile_label fits) rfl nonempty
  · have dropped := dropWhile_unlabelled fits bare
    have behind := @dropWhile_dropWhile isLabel isArgumentText
      (fun _ => isArgumentText_of_isLabel) rest
    rw [split] at behind
    cases after : rest.dropWhile isLabel with
    | nil =>
      rw [after] at behind
      cases behind
    | cons c more =>
      rw [after] at behind
      refine firstAwaiting_argument (dropped.trans after) ?_ nonempty
      cases ended : isLineEnd c with
      | false => rfl
      | true =>
        rw [dropWhile_of_stops (stops_lineEnd ended more)] at behind
        cases behind
        cases ended

/-! ### Embeds -/

theorem Mirrors.block (mirrors : Mirrors room opened depth reader) {carriage : Bool}
    {below : List Char} (fits : value.Fits rest) (admitted : room.admits opened rest)
    (split : rest.dropWhile isGap = lineBreak carriage ++ below) :
    Mirrored embed ('{' :: (value.spell ++ rest))
      (Written.block reader carriage (rest.takeWhile isGap) below value) := by
  have dropped := room.admits_dropWhile (fun _ => isTopText_of_isGap) admitted
  rw [split] at dropped
  have mirrored := mirrors.below carriage (rest.takeWhile isGap) value
    (room.admits_append isTopText_lineBreak dropped)
  cases result : Written.block reader carriage (rest.takeWhile isGap) below value with
  | error stuck =>
    rw [result] at mirrored
    exact ⟨mirrored.1, Does.embed_line fits split mirrored.1 mirrored.2⟩
  | ok found =>
    rw [result] at mirrored
    exact Does.embed_line fits split found.shorter mirrored

theorem Mirrors.inline (mirrors : Mirrors room opened depth reader) (fits : value.Fits rest)
    (admitted : room.admits opened rest) (line : Stops isLineEnd (rest.dropWhile isGap)) :
    match Written.arguments reader (firstAwaiting (value.spell ++ rest) rest) rest with
    | .error stuck =>
      stuck.rest.length ≤ rest.length ∧
        Does embed ('{' :: (value.spell ++ rest)) none stuck.rest stuck.awaiting.expected
    | .ok found =>
      Does embed ('{' :: (value.spell ++ rest)) (some (.inline value found.value, found.rest))
        found.rest [] := by
  have mirrored := mirrors.arguments (firstAwaiting (value.spell ++ rest) rest) admitted
  have left := length_dropWhile_le isArgumentText rest
  have passed {place : List Char} {result : Option (List (List Piece) × List Char)}
      {items : List Expected} (later : place.length < (rest.dropWhile isArgumentText).length)
      (arguments : Does (closed (Grammar.arguments embed)) rest result place items) :=
    have beyond := beyond_argument value later
    Does.embed_argument fits line beyond.1 beyond.2 arguments
  split
  · next stuck failed =>
    rw [failed] at mirrored
    -- The first argument ends too early, with its first text or behind an embed in it, or what is
    -- stuck lies further in.
    rcases mirrored with ⟨waits, ends, same | ⟨later, deeper, split⟩, does⟩ | ⟨later, does⟩
    · rw [same] at ends does
      rw [same, waits]
      exact ⟨left, does_embed_awaiting fits line ends does⟩
    · rw [waits, firstAwaiting_of_brace fits split]
      exact ⟨by omega, passed later does⟩
    · exact ⟨by omega, passed later does⟩
  · next found taken =>
    rw [taken] at mirrored
    exact passed mirrored.2 mirrored.1

theorem Mirrors.embedWith (mirrors : Mirrors room (opened + 1) depth reader) :
    Mirrors room opened (depth + 1) (Written.embedWith reader) where
  sound := mirrors.sound.embedWith
  mirrored := by
    intro inner admitted
    obtain ⟨whole, fits⟩ := opening_spec inner
    have admits : room.admits (opened + 1) (Written.opening inner).rest := by
      refine room.admits_append fits.isTopText ?_
      rw [← whole]
      exact (room.opens admitted).2
    have shorter := (Written.opening inner).shorter
    have dropped := length_dropWhile_le isGap (Written.opening inner).rest
    have block {carriage : Bool} {below : List Char}
        (split : (Written.opening inner).rest.dropWhile isGap = lineBreak carriage ++ below) :=
      mirrors.block fits admits split
    rw [← whole] at block
    rw [Written.embedWith]
    split
    · next below split =>
      have mirrored := @block false below split
      rw [split, List.length_cons] at dropped
      split
      · next stuck failed =>
        rw [failed] at mirrored
        have within := mirrored.1
        exact ⟨by omega, mirrored.2⟩
      · next found taken =>
        rw [taken] at mirrored
        exact mirrored
    · next below split =>
      have mirrored := @block true below split
      rw [split, List.length_cons, List.length_cons] at dropped
      split
      · next stuck failed =>
        rw [failed] at mirrored
        have within := mirrored.1
        exact ⟨by omega, mirrored.2⟩
      · next found taken =>
        rw [taken] at mirrored
        exact mirrored
    · next text unfed split =>
      have stuck := does_embed_carriage fits split unfed
      rw [← whole] at stuck
      rw [split, List.length_cons] at dropped
      exact ⟨by dsimp only; omega, stuck⟩
    · next feed pair carriage =>
      have mirrored := mirrors.inline fits admits (stops_isLineEnd carriage feed)
      rw [← whole] at mirrored
      split
      · next stuck failed =>
        rw [failed] at mirrored
        exact ⟨Nat.le_trans mirrored.1 shorter, mirrored.2⟩
      · next found taken =>
        rw [taken] at mirrored
        exact mirrored

/-- The rule for embeds does what the reader of embeds does as deep as there is room. -/
theorem mirrors_embed {bound : Nat} (room : Room bound) (opened : Nat) {depth : Nat}
    (enough : bound ≤ opened + depth) : Mirrors room opened depth (Written.embed depth) := by
  induction depth generalizing opened with
  | zero =>
    refine ⟨sound_embed 0, fun inner admitted => ?_⟩
    exact absurd (room.opens admitted).1 (Nat.not_lt.2 enough)
  | succ depth ih => exact (ih (opened + 1) (by omega)).embedWith

end Narrative.Grammar
