import Narrative.Proofs.Reading

/-!
Reading and spelling are inverse on legible trees: what is read is spelled as the source, and a
legible tree is read from its spelling. So the trees that `read` gives are exactly the legible ones
that are not too deep.
-/

set_option autoImplicit false

namespace Narrative.Written

/-! ### What is read is legible -/

/-- A reader of embeds gives legible embeds, spelled as they were read and at most `depth` deep. -/
def Sound (depth : Nat) (embed : EmbedReader) : Prop :=
  ∀ source value rest, Reads (embed source) value rest →
    '{' :: source = value.spell ++ rest ∧ value.Legible ∧ value.depth ≤ depth

variable {depth : Nat} {embed : EmbedReader} {source rest : List Char}

theorem Sound.pieces (sound : Sound depth embed) {accept : Char → Bool} {found : List Piece}
    (reading : Reads (Written.pieces accept embed source) found rest) :
    source = spellPieces found ++ rest ∧ legiblePieces accept found ∧
      depthOfPieces found ≤ depth ∧ Stops accept rest ∧ ∀ inner, rest ≠ '{' :: inner := by
  induction size : source.length using Nat.strongRecOn generalizing source found with
  | ind bound ih =>
    have whole : source.takeWhile accept ++ source.dropWhile accept = source :=
      List.takeWhile_append_dropWhile
    rcases reads_pieces_iff.1 reading with
      ⟨inner, value, middle, more, split, here, there, rfl⟩ | ⟨unopened, rfl, rfl⟩
    · obtain ⟨spelled, legible, shallow⟩ := sound inner value middle here
      have shorter : middle.length < bound := by
        obtain ⟨after, begun⟩ := value.spell_eq_cons
        have lengths := congrArg List.length (split.trans spelled)
        have dropped := length_dropWhile_le accept source
        simp only [begun, List.length_append, List.length_cons] at lengths
        omega
      obtain ⟨rfl, legibles, shallows, ends⟩ := ih middle.length shorter there rfl
      refine ⟨?_, ?_, ?_, ends⟩
      · rw [split, spelled] at whole
        rw [spellPieces_append, spellPieces_textPieces, List.append_assoc, spellPieces, Piece.spell,
          List.append_assoc, whole]
      · exact legiblePieces_textPieces_append accept_of_mem_takeWhile rfl ⟨legible, legibles⟩
      · rw [depthOfPieces_textPieces_append, depthOfPieces, Piece.depth]
        omega
    · refine ⟨?_, ?_, ?_, stops_dropWhile accept source, unopened⟩
      · rw [spellPieces_textPieces, whole]
      · have legible := @legiblePieces_textPieces_append accept (source.takeWhile accept) []
          accept_of_mem_takeWhile rfl trivial
        rwa [List.append_nil] at legible
      · have flat := depthOfPieces_textPieces_append (source.takeWhile accept) []
        rw [List.append_nil, depthOfPieces] at flat
        omega

theorem Sound.arguments (sound : Sound depth embed) {awaiting : Awaiting}
    {found : List (List Piece)}
    (reading : Reads (Written.arguments embed awaiting source) found rest) :
    source = spellArguments found ++ '}' :: rest ∧ found ≠ [] ∧ legibleArguments found ∧
      depthOfArguments found ≤ depth := by
  induction size : source.length using Nat.strongRecOn generalizing source awaiting found with
  | ind bound ih =>
    obtain ⟨first, middle, here, found⟩ := reads_arguments_iff.1 reading
    obtain ⟨rfl, legible, shallow, -⟩ := sound.pieces here
    rcases found with ⟨next, more, rfl, there, rfl⟩ | ⟨rfl, rfl⟩
    · have shorter : next.length < bound := by
        simp only [List.length_append, List.length_cons] at size
        omega
      obtain ⟨rfl, nonempty, legibles, shallows⟩ := ih next.length shorter there rfl
      refine ⟨?_, by simp, ⟨legible, legibles⟩, ?_⟩
      · rw [spellArguments_cons first nonempty]
        simp
      · rw [depthOfArguments]
        omega
    · refine ⟨rfl, by simp, ⟨legible, trivial⟩, ?_⟩
      rw [depthOfArguments, depthOfArguments]
      omega

theorem Sound.entries (sound : Sound depth embed) {wasOpen : Bool} {found : List Entry}
    (reading : Reads (Written.entries embed wasOpen source) found rest) :
    '-' :: source = spellEntries found ++ '}' :: rest ∧ found ≠ [] ∧ legibleEntries found ∧
      depthOfEntries found ≤ depth := by
  induction size : source.length using Nat.strongRecOn generalizing source wasOpen found with
  | ind bound ih =>
    obtain ⟨-, first, middle, here, found⟩ := reads_entries_iff.1 reading
    obtain ⟨split, fits⟩ := margin_spec source
    obtain ⟨spelled, legible, shallow, -⟩ := sound.pieces here
    rw [spelled] at split fits
    rcases found with ⟨next, more, rfl, there, rfl⟩ | ⟨rfl, rfl⟩
    · have shorter : next.length < bound := by
        have lengths := congrArg List.length split
        simp only [List.length_append, List.length_cons] at lengths
        omega
      obtain ⟨spelled', nonempty, legibles, shallows⟩ := ih next.length shorter there rfl
      rw [spelled'] at split fits
      refine ⟨?_, by simp, ⟨?_, legible, legibles⟩, ?_⟩
      · simpa [spellEntries, Entry.spell] using split
      · rw [← List.append_assoc] at fits
        exact (Margin.fits_append_close rest).1 fits
      · rw [depthOfEntries]
        omega
    · refine ⟨?_, by simp, ⟨?_, legible, trivial⟩, ?_⟩
      · simpa [spellEntries, Entry.spell] using split
      · rw [spellEntries, List.append_nil]
        exact (Margin.fits_append_close rest).1 fits
      · rw [depthOfEntries, depthOfEntries]
        omega

theorem Sound.embedWith (sound : Sound depth embed) :
    Sound (depth + 1) (Written.embedWith embed) := by
  intro source value rest reading
  obtain ⟨split, fits⟩ := opening_spec source
  rcases reads_embedWith_iff.1 reading with
    ⟨carriage, below, feed, blocked⟩ | ⟨-, args, listed, rfl⟩
  · obtain ⟨next, entered, dash, entering, rfl⟩ := reads_block_iff.1 blocked
    obtain ⟨spelled, nonempty, legible, shallow⟩ := sound.entries entering
    have spelling : (opening source).rest =
        (Break.spell ⟨(opening source).rest.takeWhile isGap, carriage, below.takeWhile isSpace⟩ ++
          spellEntries entered) ++ '}' :: rest := by
      calc
        (opening source).rest =
            (opening source).rest.takeWhile isGap ++ (lineBreak carriage ++ below) := by
          rw [← feed, List.takeWhile_append_dropWhile]
        _ = (opening source).rest.takeWhile isGap ++
            (lineBreak carriage ++ (below.takeWhile isSpace ++ '-' :: next)) := by
          rw [← dash, List.takeWhile_append_dropWhile]
        _ = _ := by
          rw [spelled]
          simp [Break.spell]
    rw [spelling] at split fits
    refine ⟨?_, ⟨nonempty, (Opening.fits_append_close rest).1 fits,
      ⟨accept_of_mem_takeWhile, accept_of_mem_takeWhile⟩, legible⟩, ?_⟩
    · simpa [Embed.spell] using split
    · rw [Embed.depth]
      omega
  · obtain ⟨spelled, nonempty, legible, shallow⟩ := sound.arguments listed
    rw [spelled] at split fits
    refine ⟨?_, ⟨nonempty, (Opening.fits_append_close rest).1 fits, legible⟩, ?_⟩
    · simpa [Embed.spell] using split
    · rw [Embed.depth]
      omega

theorem sound_embed (depth : Nat) : Sound depth (Written.embed depth) := by
  induction depth with
  | zero =>
    rintro source value rest ⟨taken, reading, -⟩
    cases reading
  | succ depth ih => exact ih.embedWith

/-! ### What is legible is read -/

variable {accept : Char → Bool}

theorem reads_pieces_nil (stops : Stops accept rest) (unopened : ∀ inner, rest ≠ '{' :: inner) :
    Reads (pieces accept embed rest) [] rest := by
  refine reads_pieces_iff.2 (Or.inr ⟨?_, ?_, (dropWhile_of_stops stops).symm⟩)
  · rwa [dropWhile_of_stops stops]
  · rw [takeWhile_of_stops stops]
    rfl

theorem reads_pieces_embed {middle inner : List Char} {value : Embed} {more : List Piece}
    (brace : accept '{' = false) (first : Reads (embed inner) value middle)
    (second : Reads (pieces accept embed middle) more rest) :
    Reads (pieces accept embed ('{' :: inner)) (.embed value :: more) rest := by
  have stops : Stops accept ('{' :: inner) := by simpa using brace
  refine reads_pieces_iff.2 (Or.inl ⟨inner, value, middle, more, dropWhile_of_stops stops, first,
    second, ?_⟩)
  rw [takeWhile_of_stops stops]
  rfl

/-- A run before a text that stops it comes out as one more piece. -/
theorem reads_pieces_run {chars : List Char} {found : List Piece}
    (all : ∀ c ∈ chars, accept c = true) (stops : Stops accept source)
    (reading : Reads (pieces accept embed source) found rest) :
    Reads (pieces accept embed (chars ++ source)) (textPieces chars ++ found) rest := by
  rw [reads_pieces_iff, takeWhile_run all stops, dropWhile_run all stops]
  rcases reads_pieces_iff.1 reading with
    ⟨inner, value, middle, more, split, here, there, rfl⟩ | ⟨unopened, rfl, rfl⟩
  · rw [dropWhile_of_stops stops] at split
    rw [takeWhile_of_stops stops]
    exact Or.inl ⟨inner, value, middle, more, split, here, there, rfl⟩
  · rw [dropWhile_of_stops stops] at unopened ⊢
    rw [takeWhile_of_stops stops]
    exact Or.inr ⟨unopened, List.append_nil _, rfl⟩

theorem stops_spellPieces {found : List Piece} (brace : accept '{' = false)
    (apart : textFirst found = false) (stops : Stops accept rest) :
    Stops accept (spellPieces found ++ rest) := by
  match found with
  | [] => exact stops
  | .text chars :: more => cases apart
  | .embed value :: more =>
    obtain ⟨inner, begun⟩ := value.spell_eq_cons
    simpa [spellPieces, Piece.spell, begun] using brace

theorem stops_line_pieces {found : List Piece} (legible : legiblePieces isArgumentText found)
    (gap : Stops isGap rest) (line : Stops isLineEnd rest) :
    Stops isLineEnd ((spellPieces found ++ rest).dropWhile isGap) := by
  match found with
  | [] => rwa [spellPieces, List.nil_append, dropWhile_of_stops gap]
  | .text chars :: more =>
    obtain ⟨⟨nonempty, all⟩, apart, legible⟩ := legible
    rw [spellPieces, Piece.spell, List.append_assoc, List.dropWhile_append]
    split
    · have stops : Stops isGap (spellPieces more ++ rest) := stops_spellPieces rfl apart gap
      rw [dropWhile_of_stops stops]
      exact stops_spellPieces rfl apart line
    · next begun =>
      refine Stops.append ?_ (stops_spellPieces rfl apart line)
      intro c head
      have member := (List.dropWhile_sublist isGap).subset (List.mem_of_mem_head? head)
      have text := all c member
      simp only [isArgumentText, Bool.and_eq_true, bne_iff_ne, ne_eq] at text
      simp [isLineEnd, text]
  | .embed value :: more =>
    obtain ⟨inner, begun⟩ := value.spell_eq_cons
    rw [spellPieces, Piece.spell, begun]
    simp [isLineEnd, isGap]

/-- No line break follows the gap before arguments. -/
theorem stops_line {found : List (List Piece)} (legible : legibleArguments found)
    (nonempty : found ≠ []) (rest : List Char) :
    Stops isLineEnd ((spellArguments found ++ '}' :: rest).dropWhile isGap) := by
  match found with
  | first :: more =>
    by_cases last : more = []
    · subst last
      exact stops_line_pieces legible.1 (by simp [isGap]) (by simp [isLineEnd])
    · rw [spellArguments_cons first last, List.append_assoc]
      exact stops_line_pieces legible.1 (by simp [isGap]) (by simp [isLineEnd])

mutual

/-- A legible embed is read from its spelling. -/
theorem Embed.reads (value : Embed) (legible : value.Legible) {depth : Nat}
    (shallow : value.depth ≤ depth) (rest : List Char) :
    ∃ inner, value.spell = '{' :: inner ∧
      Reads (Written.embed depth (inner ++ rest)) value rest := by
  match depth, value with
  | 0, .inline opening arguments => simp [Embed.depth] at shallow
  | 0, .block opening margin entries => simp [Embed.depth] at shallow
  | depth + 1, .inline opening arguments =>
    obtain ⟨nonempty, fits, legible⟩ := legible
    rw [Embed.depth] at shallow
    refine ⟨opening.spell ++ (spellArguments arguments ++ ['}']), by simp [Embed.spell], ?_⟩
    obtain ⟨found, after⟩ := opening_of_fits ((Opening.fits_append_close rest).2 fits)
    rw [List.append_assoc, List.append_assoc, List.singleton_append, Written.embed,
      reads_embedWith_iff, found, after]
    exact Or.inr ⟨stops_line legible nonempty rest, arguments,
      reads_arguments arguments nonempty legible (by omega) _ rest, rfl⟩
  | depth + 1, .block opening margin entries =>
    obtain ⟨nonempty, fits, blank, legible⟩ := legible
    rw [Embed.depth] at shallow
    refine ⟨opening.spell ++ (margin.spell ++ spellEntries entries ++ ['}']),
      by simp [Embed.spell], ?_⟩
    obtain ⟨found, after⟩ := opening_of_fits ((Opening.fits_append_close rest).2 fits)
    obtain ⟨inner, begun, reading⟩ := reads_entries entries nonempty legible
      (show depthOfEntries entries ≤ depth by omega) false rest
    rw [List.append_assoc, List.append_assoc, List.singleton_append, Written.embed,
      reads_embedWith_iff, found, after]
    obtain ⟨gap, carriage, space⟩ := margin
    obtain ⟨gaps, spaces⟩ := blank
    have spelling : Break.spell ⟨gap, carriage, space⟩ ++ spellEntries entries ++ '}' :: rest =
        gap ++ (lineBreak carriage ++ (space ++ '-' :: (inner ++ '}' :: rest))) := by
      simp [Break.spell, begun]
    have feed : Stops isGap (lineBreak carriage ++ (space ++ '-' :: (inner ++ '}' :: rest))) := by
      cases carriage <;> simp [lineBreak, isGap]
    have dash : Stops isSpace ('-' :: (inner ++ '}' :: rest)) := by simp [isSpace, isGap]
    rw [spelling, takeWhile_run gaps feed, dropWhile_run gaps feed]
    refine Or.inl ⟨carriage, _, rfl, reads_block_iff.2 ⟨_, entries, dropWhile_run spaces dash,
      reading, ?_⟩⟩
    rw [takeWhile_run spaces dash]

theorem reads_pieces (accept : Char → Bool) (brace : accept '{' = false) (found : List Piece)
    (legible : legiblePieces accept found) {depth : Nat} (shallow : depthOfPieces found ≤ depth)
    (rest : List Char) (stops : Stops accept rest) (unopened : ∀ inner, rest ≠ '{' :: inner) :
    Reads (pieces accept (Written.embed depth) (spellPieces found ++ rest)) found rest := by
  match found with
  | [] => exact reads_pieces_nil stops unopened
  | .text chars :: more =>
    obtain ⟨⟨nonempty, all⟩, apart, legible⟩ := legible
    rw [depthOfPieces] at shallow
    rw [spellPieces, Piece.spell, List.append_assoc]
    have reading := reads_pieces_run all (stops_spellPieces brace apart stops)
      (reads_pieces accept brace more legible (show depthOfPieces more ≤ depth by omega) rest stops
        unopened)
    rwa [textPieces_of_ne_nil nonempty] at reading
  | .embed value :: more =>
    obtain ⟨legible, legibles⟩ := legible
    rw [depthOfPieces, Piece.depth] at shallow
    obtain ⟨inner, begun, reading⟩ :=
      Embed.reads value legible (show value.depth ≤ depth by omega) (spellPieces more ++ rest)
    rw [spellPieces, Piece.spell, begun, List.append_assoc]
    exact reads_pieces_embed brace reading
      (reads_pieces accept brace more legibles (by omega) rest stops unopened)

theorem reads_arguments (found : List (List Piece)) (nonempty : found ≠ [])
    (legible : legibleArguments found) {depth : Nat} (shallow : depthOfArguments found ≤ depth)
    (awaiting : Awaiting) (rest : List Char) :
    Reads (arguments (Written.embed depth) awaiting (spellArguments found ++ '}' :: rest)) found
      rest := by
  match found with
  | first :: more =>
    obtain ⟨legible, legibles⟩ := legible
    rw [depthOfArguments] at shallow
    rw [reads_arguments_iff]
    by_cases last : more = []
    · subst last
      refine ⟨first, '}' :: rest, ?_, Or.inr ⟨rfl, rfl⟩⟩
      exact reads_pieces isArgumentText rfl first legible (by omega) _ (by simp [isArgumentText])
        (by simp)
    · refine ⟨first, _, ?_, Or.inl ⟨_, more, rfl,
        reads_arguments more last legibles (by omega) .argument rest, rfl⟩⟩
      rw [spellArguments_cons first last, List.append_assoc]
      exact reads_pieces isArgumentText rfl first legible (by omega) _ (by simp [isArgumentText])
        (by simp)

theorem reads_entries (found : List Entry) (nonempty : found ≠ []) (legible : legibleEntries found)
    {depth : Nat} (shallow : depthOfEntries found ≤ depth) (wasOpen : Bool) (rest : List Char) :
    ∃ inner, spellEntries found = '-' :: inner ∧
      Reads (entries (Written.embed depth) wasOpen (inner ++ '}' :: rest)) found rest := by
  match found with
  | ⟨margin, first⟩ :: more =>
    obtain ⟨fits, legible, legibles⟩ := legible
    rw [depthOfEntries] at shallow
    refine ⟨margin.spell ++ (spellPieces first ++ spellEntries more),
      by simp [spellEntries, Entry.spell], ?_⟩
    obtain ⟨found, after⟩ := margin_of_fits ((Margin.fits_append_close rest).2 fits)
    rw [List.append_assoc, reads_entries_iff, found, after]
    refine ⟨dropWhile_ne_nil (show '}' ∈ _ by simp) rfl, first, ?_⟩
    by_cases last : more = []
    · subst last
      refine ⟨'}' :: rest, ?_, Or.inr ⟨rfl, rfl⟩⟩
      rw [spellEntries, List.append_nil]
      exact reads_pieces isEntryText rfl first legible (by omega) _ (by simp [isEntryText])
        (by simp)
    · obtain ⟨inner, begun, reading⟩ := reads_entries more last legibles
        (show depthOfEntries more ≤ depth by omega) _ rest
      refine ⟨'-' :: (inner ++ '}' :: rest), ?_, Or.inl ⟨_, more, rfl, reading, rfl⟩⟩
      rw [begun, List.append_assoc, List.cons_append]
      exact reads_pieces isEntryText rfl first legible (by omega) _ (by simp [isEntryText])
        (by simp)

end

/-- Reading gives exactly the legible pieces that are spelled as the source and not too deep. -/
theorem read_eq_ok_iff {found : List Piece} :
    read depth source = .ok found ↔
      spellPieces found = source ∧ legiblePieces isTopText found ∧ depthOfPieces found ≤ depth := by
  have whole : read depth source = .ok found ↔
      Reads (pieces isTopText (Written.embed depth) source) found [] := by
    unfold read
    constructor
    · intro reading
      split at reading
      · cases reading
      · next taken here =>
        split at reading
        · next ended =>
          cases reading
          exact ⟨taken, here, rfl, List.isEmpty_iff.1 ended⟩
        · cases reading
    · rintro ⟨taken, here, rfl, ended⟩
      rw [here]
      simp [ended]
  rw [whole]
  constructor
  · intro reading
    obtain ⟨spelled, legible, shallow, -⟩ := (sound_embed depth).pieces reading
    rw [List.append_nil] at spelled
    exact ⟨spelled.symm, legible, shallow⟩
  · rintro ⟨rfl, legible, shallow⟩
    have reading := reads_pieces isTopText rfl found legible shallow [] (stops_nil _) (by simp)
    rwa [List.append_nil] at reading

end Narrative.Written
