import Narrative.Proofs.Legible

/-!
What the readers of a source text give. Each reader has one lemma that says exactly when it gives a
value and what it leaves, and later proofs use these instead of the definitions.
-/

set_option autoImplicit false

namespace Narrative.Written

/-- A reader gives a value and leaves a rest. -/
def Reads {α : Type} {source : List Char} (result : Except Stuck (Taken α source)) (value : α)
    (rest : List Char) : Prop :=
  ∃ taken, result = .ok taken ∧ taken.value = value ∧ taken.rest = rest

/-- Whether a character ends a line. -/
def isLineEnd (c : Char) : Bool := c == '\r' || c == '\n'

variable {accept : Char → Bool} {embed : EmbedReader} {source rest : List Char}

theorem reads_pieces_iff {found : List Piece} :
    Reads (pieces accept embed source) found rest ↔
      (∃ inner value middle more, source.dropWhile accept = '{' :: inner ∧
        Reads (embed inner) value middle ∧ Reads (pieces accept embed middle) more rest ∧
        found = textPieces (source.takeWhile accept) ++ .embed value :: more) ∨
      (∀ inner, source.dropWhile accept ≠ '{' :: inner) ∧
        found = textPieces (source.takeWhile accept) ∧ rest = source.dropWhile accept := by
  constructor
  · rintro ⟨taken, read, rfl, rfl⟩
    rw [pieces] at read
    split at read
    · next inner split =>
      split at read
      · cases read
      · next value first =>
        split at read
        · cases read
        · next more second =>
          cases read
          exact Or.inl ⟨inner, value.value, value.rest, more.value, split, ⟨value, first, rfl, rfl⟩,
            ⟨more, second, rfl, rfl⟩, rfl⟩
    · next other =>
      cases read
      exact Or.inr ⟨other, rfl, rfl⟩
  · rintro (⟨inner, _, _, _, here, ⟨value, first, rfl, rfl⟩, ⟨more, second, rfl, rfl⟩, rfl⟩ |
      ⟨other, rfl, rfl⟩)
    · rw [Reads, pieces]
      split
      · next inner' split =>
        cases here.symm.trans split
        rw [first]
        dsimp only
        rw [second]
        exact ⟨_, rfl, rfl, rfl⟩
      · next other => exact absurd here (other inner)
    · rw [Reads, pieces]
      split
      · next inner split => exact absurd split (other inner)
      · exact ⟨_, rfl, rfl, rfl⟩

theorem reads_arguments_iff {awaiting : Awaiting} {found : List (List Piece)} :
    Reads (arguments embed awaiting source) found rest ↔
      ∃ first middle, Reads (pieces isArgumentText embed source) first middle ∧
        ((∃ next more, middle = '|' :: next ∧ Reads (arguments embed .argument next) more rest ∧
          found = first :: more) ∨
        middle = '}' :: rest ∧ found = [first]) := by
  constructor
  · rintro ⟨taken, read, rfl, rfl⟩
    rw [arguments] at read
    split at read
    · cases read
    · next first here =>
      refine ⟨first.value, first.rest, ⟨first, here, rfl, rfl⟩, ?_⟩
      split at read
      · next next split =>
        split at read
        · cases read
        · next more there =>
          cases read
          exact Or.inl ⟨next, more.value, split, ⟨more, there, rfl, rfl⟩, rfl⟩
      · next after split =>
        cases read
        exact Or.inr ⟨split, rfl⟩
      · cases read
  · rintro ⟨_, _, ⟨first, here, rfl, rfl⟩, ⟨next, _, bar, ⟨more, there, rfl, rfl⟩, rfl⟩ |
      ⟨close, rfl⟩⟩
    · rw [Reads, arguments, here]
      dsimp only
      split
      · next next' split =>
        cases bar.symm.trans split
        rw [there]
        exact ⟨_, rfl, rfl, rfl⟩
      · next after split => cases bar.symm.trans split
      · next other _ => exact absurd bar (other next)
    · rw [Reads, arguments, here]
      dsimp only
      split
      · next next split => cases close.symm.trans split
      · next after split =>
        cases close.symm.trans split
        exact ⟨_, rfl, rfl, rfl⟩
      · next _ other => exact absurd close (other rest)

theorem reads_entries_iff {wasOpen : Bool} {found : List Entry} :
    Reads (entries embed wasOpen source) found rest ↔
      source.dropWhile isSpace ≠ [] ∧
      ∃ first middle, Reads (pieces isEntryText embed (margin source).rest) first middle ∧
        ((∃ next more, middle = '-' :: next ∧
          Reads (entries embed (wasOpen || labelOpen (source.dropWhile isSpace)) next) more rest ∧
          found = ⟨(margin source).value, first⟩ :: more) ∨
        middle = '}' :: rest ∧ found = [⟨(margin source).value, first⟩]) := by
  constructor
  · rintro ⟨taken, read, rfl, rfl⟩
    rw [entries] at read
    split at read
    · cases read
    · next begun =>
      refine ⟨by simpa using begun, ?_⟩
      split at read
      · cases read
      · next first here =>
        refine ⟨first.value, first.rest, ⟨first, here, rfl, rfl⟩, ?_⟩
        split at read
        · next next split =>
          split at read
          · cases read
          · next more there =>
            cases read
            exact Or.inl ⟨next, more.value, split, ⟨more, there, rfl, rfl⟩, rfl⟩
        · next after split =>
          cases read
          exact Or.inr ⟨split, rfl⟩
        · cases read
  · rintro ⟨begun, _, _, ⟨first, here, rfl, rfl⟩, ⟨next, _, dash, ⟨more, there, rfl, rfl⟩, rfl⟩ |
      ⟨close, rfl⟩⟩
    · rw [Reads, entries, if_neg (by simpa using begun), here]
      dsimp only
      split
      · next next' split =>
        cases dash.symm.trans split
        rw [there]
        exact ⟨_, rfl, rfl, rfl⟩
      · next after split => cases dash.symm.trans split
      · next other _ => exact absurd dash (other next)
    · rw [Reads, entries, if_neg (by simpa using begun), here]
      dsimp only
      split
      · next next split => cases close.symm.trans split
      · next after split =>
        cases close.symm.trans split
        exact ⟨_, rfl, rfl, rfl⟩
      · next _ other => exact absurd close (other rest)

theorem reads_block_iff {carriage : Bool} {gap : List Char} {value : Opening} {found : Embed} :
    Reads (block embed carriage gap source value) found rest ↔
      ∃ next entered, source.dropWhile isSpace = '-' :: next ∧
        Reads (entries embed false next) entered rest ∧
        found = .block value ⟨gap, carriage, source.takeWhile isSpace⟩ entered := by
  constructor
  · rintro ⟨taken, read, rfl, rfl⟩
    rw [block] at read
    split at read
    · next next split =>
      split at read
      · cases read
      · next entered here =>
        cases read
        exact ⟨next, entered.value, split, ⟨entered, here, rfl, rfl⟩, rfl⟩
    · cases read
  · rintro ⟨next, _, dash, ⟨entered, here, rfl, rfl⟩, rfl⟩
    rw [Reads, block]
    split
    · next next' split =>
      cases dash.symm.trans split
      rw [here]
      exact ⟨_, rfl, rfl, rfl⟩
    · next other => exact absurd dash (other next)

theorem reads_embedWith_iff {found : Embed} :
    Reads (embedWith embed source) found rest ↔
      (∃ carriage below,
        (opening source).rest.dropWhile isGap = lineBreak carriage ++ below ∧
        Reads (block embed carriage ((opening source).rest.takeWhile isGap) below
          (opening source).value) found rest) ∨
      Stops isLineEnd ((opening source).rest.dropWhile isGap) ∧
        ∃ args, Reads (arguments embed (firstAwaiting source (opening source).rest)
          (opening source).rest) args rest ∧
          found = .inline (opening source).value args := by
  constructor
  · rintro ⟨taken, read, rfl, rfl⟩
    rw [embedWith] at read
    split at read
    · next below split =>
      split at read
      · cases read
      · next value here =>
        cases read
        exact Or.inl ⟨false, below, split, value, here, rfl, rfl⟩
    · next below split =>
      split at read
      · cases read
      · next value here =>
        cases read
        exact Or.inl ⟨true, below, split, value, here, rfl, rfl⟩
    · cases read
    · next feed pair carriage =>
      split at read
      · cases read
      · next args here =>
        cases read
        refine Or.inr ⟨?_, args.value, ⟨args, here, rfl, rfl⟩, rfl⟩
        intro c head
        obtain ⟨after, split⟩ := List.head?_eq_some_iff.1 head
        simp only [isLineEnd, Bool.or_eq_false_iff, beq_eq_false_iff_ne]
        exact ⟨fun same => carriage after (same ▸ split), fun same => feed after (same ▸ split)⟩
  · rintro (⟨carriage, below, feed, value, here, rfl, rfl⟩ |
      ⟨stops, _, ⟨args, here, rfl, rfl⟩, rfl⟩)
    · rw [Reads, embedWith]
      cases carriage with
      | false =>
        have feed : (opening source).rest.dropWhile isGap = '\n' :: below := feed
        split
        · next below' split =>
          cases feed.symm.trans split
          rw [here]
          exact ⟨_, rfl, rfl, rfl⟩
        · next below' split => cases feed.symm.trans split
        · next after split => cases feed.symm.trans split
        · next other _ _ => exact absurd feed (other below)
      | true =>
        have feed : (opening source).rest.dropWhile isGap = '\r' :: '\n' :: below := feed
        split
        · next below' split => cases feed.symm.trans split
        · next below' split =>
          cases feed.symm.trans split
          rw [here]
          exact ⟨_, rfl, rfl, rfl⟩
        · next after other split =>
          cases feed.symm.trans split
          exact absurd rfl (other below)
        · next _ other _ => exact absurd feed (other below)
    · rw [Reads, embedWith]
      split
      · next below split => rw [split, stops_cons] at stops; cases stops
      · next below split => rw [split, stops_cons] at stops; cases stops
      · next after _ split => rw [split, stops_cons] at stops; cases stops
      · rw [here]
        exact ⟨_, rfl, rfl, rfl⟩

/-! ### Openings and margins -/

theorem Sign.ofChar?_eq_some_iff {c : Char} {sign : Sign} :
    Sign.ofChar? c = some sign ↔ c = sign.char := by
  constructor
  · intro found
    unfold ofChar? at found
    split at found <;> cases found <;> rfl
  · rintro rfl
    exact ofChar?_char sign

theorem opening_label {text gap rest : List Char} (found : label? source = some (text, gap, rest)) :
    (opening source).value = .label text gap ∧ (opening source).rest = rest := by
  unfold opening
  split
  · next found' =>
    cases found.symm.trans found'
    exact ⟨rfl, rfl⟩
  · next missing => cases found.symm.trans missing

theorem opening_sign {sign : Sign} {after : List Char}
    (missing : label? (sign.char :: after) = none) :
    (opening (sign.char :: after)).value = .sign sign (after.takeWhile isGap) ∧
      (opening (sign.char :: after)).rest = after.dropWhile isGap := by
  unfold opening
  split
  · next found => cases missing.symm.trans found
  · dsimp only
    split
    · next found =>
      cases (Sign.ofChar?_char sign).symm.trans found
      exact ⟨rfl, rfl⟩
    · next unsigned => cases (Sign.ofChar?_char sign).symm.trans unsigned

theorem opening_bare (missing : label? source = none) (unsigned : Stops isSign source) :
    (opening source).value = .bare ∧ (opening source).rest = source := by
  cases source with
  | nil => exact ⟨rfl, rfl⟩
  | cons c after =>
    unfold opening
    split
    · next found => cases missing.symm.trans found
    · dsimp only
      split
      · next found => simp [isSign, found] at unsigned
      · exact ⟨rfl, rfl⟩

/-- The opening that is read stands first, and it fits what follows. -/
theorem opening_spec (source : List Char) :
    source = (opening source).value.spell ++ (opening source).rest ∧
      (opening source).value.Fits (opening source).rest := by
  cases found : label? source with
  | some label =>
    obtain ⟨text, gap, rest⟩ := label
    obtain ⟨nonempty, labels, gaps, stops, split⟩ := label?_eq_some_iff.1 found
    obtain ⟨value, after⟩ := opening_label found
    rw [value, after]
    exact ⟨by simpa [Opening.spell] using split, nonempty, labels, gaps, stops⟩
  | none =>
    have unlabelled := label?_eq_none_iff.1 found
    by_cases unsigned : Stops isSign source
    · obtain ⟨value, after⟩ := opening_bare found unsigned
      rw [value, after]
      exact ⟨rfl, unlabelled, unsigned⟩
    · cases source with
      | nil => exact absurd (stops_nil isSign) unsigned
      | cons c rest =>
        obtain ⟨sign, signed⟩ : ∃ sign, Sign.ofChar? c = some sign :=
          Option.ne_none_iff_exists'.1 (by simpa [isSign] using unsigned)
        obtain rfl := Sign.ofChar?_eq_some_iff.1 signed
        have whole : rest.takeWhile isGap ++ rest.dropWhile isGap = rest :=
          List.takeWhile_append_dropWhile
        obtain ⟨value, after⟩ := opening_sign found
        rw [value, after]
        refine ⟨?_, accept_of_mem_takeWhile, stops_dropWhile isGap rest, ?_⟩
        · rw [Opening.spell, List.cons_append, whole]
        · rwa [whole]

/-- An opening that fits what follows is read. -/
theorem opening_of_fits {value : Opening} {after : List Char} (fits : value.Fits after) :
    (opening (value.spell ++ after)).value = value ∧
      (opening (value.spell ++ after)).rest = after := by
  cases value with
  | bare => exact opening_bare (label?_eq_none_iff.2 fits.1) fits.2
  | sign sign gap =>
    obtain ⟨gaps, stops, unlabelled⟩ := fits
    obtain ⟨value, rest⟩ := opening_sign (label?_eq_none_iff.2 unlabelled)
    rw [takeWhile_run gaps stops] at value
    rw [dropWhile_run gaps stops] at rest
    exact ⟨value, rest⟩
  | label text gap =>
    obtain ⟨nonempty, labels, gaps, stops⟩ := fits
    refine opening_label (label?_eq_some_iff.2 ⟨nonempty, labels, gaps, stops, ?_⟩)
    simp [Opening.spell]

theorem margin_label {text gap rest : List Char}
    (found : label? (source.dropWhile isSpace) = some (text, gap, rest)) :
    (margin source).value = ⟨source.takeWhile isSpace, some (text, gap)⟩ ∧
      (margin source).rest = rest := by
  unfold margin
  split
  · next found' =>
    cases found.symm.trans found'
    exact ⟨rfl, rfl⟩
  · next missing => cases found.symm.trans missing

theorem margin_bare (missing : label? (source.dropWhile isSpace) = none) :
    (margin source).value = ⟨source.takeWhile isSpace, none⟩ ∧
      (margin source).rest = source.dropWhile isSpace := by
  unfold margin
  split
  · next found => cases missing.symm.trans found
  · exact ⟨rfl, rfl⟩

/-- The margin that is read stands first, and it fits what follows. -/
theorem margin_spec (source : List Char) :
    source = (margin source).value.spell ++ (margin source).rest ∧
      (margin source).value.Fits (margin source).rest := by
  have whole : source.takeWhile isSpace ++ source.dropWhile isSpace = source :=
    List.takeWhile_append_dropWhile
  cases found : label? (source.dropWhile isSpace) with
  | some label =>
    obtain ⟨text, gap, rest⟩ := label
    obtain ⟨nonempty, labels, gaps, stops, split⟩ := label?_eq_some_iff.1 found
    have outside : Stops isSpace text := (split ▸ stops_dropWhile isSpace source).of_append
    obtain ⟨value, after⟩ := margin_label found
    rw [value, after]
    refine ⟨?_, accept_of_mem_takeWhile, nonempty, outside, labels, gaps, stops⟩
    calc
      source = source.takeWhile isSpace ++ (text ++ ':' :: (gap ++ rest)) := by rw [← split, whole]
      _ = _ := by simp [Margin.spell]
  | none =>
    obtain ⟨value, after⟩ := margin_bare found
    rw [value, after]
    refine ⟨?_, accept_of_mem_takeWhile, stops_dropWhile isSpace source,
      label?_eq_none_iff.1 found⟩
    rw [Margin.spell, List.append_nil, whole]

/-- A margin that fits what follows is read. -/
theorem margin_of_fits {value : Margin} {after : List Char} (fits : value.Fits after) :
    (margin (value.spell ++ after)).value = value ∧
      (margin (value.spell ++ after)).rest = after := by
  obtain ⟨space, _ | ⟨text, gap⟩⟩ := value
  · obtain ⟨spaces, stops, unlabelled⟩ := fits
    rw [Margin.spell, List.append_nil]
    have missing := label?_eq_none_iff.2 unlabelled
    rw [← dropWhile_run spaces stops] at missing
    obtain ⟨value, rest⟩ := margin_bare missing
    rw [takeWhile_run spaces stops] at value
    rw [dropWhile_run spaces stops] at rest
    exact ⟨value, rest⟩
  · obtain ⟨spaces, nonempty, outside, labels, gaps, stops⟩ := fits
    rw [Margin.spell, List.append_assoc]
    have begun : Stops isSpace (text ++ ':' :: gap ++ after) := by
      obtain ⟨first, chars, rfl⟩ := List.exists_cons_of_ne_nil nonempty
      simpa using outside
    have found : label? ((space ++ (text ++ ':' :: gap ++ after)).dropWhile isSpace) =
        some (text, gap, after) := by
      rw [dropWhile_run spaces begun]
      exact label?_eq_some_iff.2 ⟨nonempty, labels, gaps, stops, by simp⟩
    obtain ⟨value, rest⟩ := margin_label found
    rw [takeWhile_run spaces begun] at value
    exact ⟨value, rest⟩

end Narrative.Written
