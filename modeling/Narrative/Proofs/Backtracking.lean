import Narrative.Proofs.Headers
import Narrative.Proofs.Inverse
import Narrative.Proofs.Recursion

/-!
The reader of a source text, which tries nothing twice, does what the grammar does. Where the reader
gives a value, the rules give it after all the forms that they abandon, and none of those got as
far. Where the reader is stuck, no rule gets further, and those that get there expect what the
reader is waiting for.
-/

set_option autoImplicit false

namespace Narrative

/-- A part of a text where a run has stopped lies behind the first run. -/
theorem Stops.suffix_dropWhile {accept : Char → Bool} {part text : List Char}
    (stops : Stops accept part) (suffix : part <:+ text) : part <:+ text.dropWhile accept := by
  obtain ⟨front, rfl⟩ := suffix
  induction front with
  | nil => exact ⟨[], (dropWhile_of_stops stops).symm⟩
  | cons c front ih =>
    rw [List.cons_append]
    cases accepted : accept c with
    | true => rwa [List.dropWhile_cons_of_pos accepted]
    | false =>
      rw [List.dropWhile_cons_of_neg (by simp [accepted])]
      exact List.suffix_append (c :: front) part

namespace Grammar

open Written

variable {bound opened depth : Nat} {room : Room bound} {α β : Type}

theorem Room.admits_append {front rest : List Char} (plain : ∀ c ∈ front, isTopText c = true)
    (admitted : room.admits opened (front ++ rest)) : room.admits opened rest := by
  induction front with
  | nil => exact admitted
  | cons c front ih =>
    exact ih (fun d member => plain d (List.mem_cons_of_mem c member))
      (room.plain (plain c List.mem_cons_self) admitted)

theorem Room.admits_dropWhile {accept : Char → Bool}
    (plain : ∀ c, accept c = true → isTopText c = true) {source : List Char}
    (admitted : room.admits opened source) : room.admits opened (source.dropWhile accept) := by
  rw [← @List.takeWhile_append_dropWhile _ accept source] at admitted
  exact room.admits_append (fun c member => plain c (accept_of_mem_takeWhile c member)) admitted

theorem does_embed_none {source : List Char} (stops : Stops (· == '{') source) :
    Does embed source none source [.directive] := by
  refine ⟨some (.at source [.directive]), ⟨Furthest.plain_at _ _, fun known _ => ?_⟩,
    .there (fun _ => Iff.rfl)⟩
  rw [embed_eq, embedWith_of_stops stops]

/-- An embed leaves room for what there was room for before it. -/
theorem admits_of_does_embed {source rest place : List Char} {value : Embed}
    {items : List Expected} (admitted : room.admits opened source)
    (does : Does embed source (some (value, rest)) place items) : room.admits opened rest := by
  obtain ⟨own, gives, -⟩ := does
  have agree := @agree_embed _ room fail opened bound (by omega)
  exact (agree source none admitted).2 value rest _ (gives.runs none Furthest.plain_none)

/-- A rule does at a text what a reader does. -/
def Mirrored (rule : Rule α) (text : List Char) {source : List Char}
    (result : Except Stuck (Taken α source)) : Prop :=
  match result with
  | .ok found => Does rule text (some (found.value, found.rest)) found.rest []
  | .error stuck =>
    stuck.rest.length ≤ source.length ∧
      Does rule text none stuck.rest stuck.awaiting.expected

/-- The rule for embeds does what a reader of embeds does, as long as there is room. -/
structure Mirrors (room : Room bound) (opened depth : Nat) (reader : EmbedReader) : Prop where
  sound : Sound depth reader
  mirrored : ∀ inner, room.admits opened ('{' :: inner) →
    Mirrored embed ('{' :: inner) (reader inner)

variable {reader : EmbedReader} {accept : Char → Bool} {source : List Char}

/-! ### Pieces -/

/-- Text before other pieces is read with them. -/
theorem Does.pieces_text {text rest place : List Char} {values : List Piece}
    {items : List Expected} (split : source.dropWhile accept = text)
    (does : Does (pieces accept embed) text (some (values, rest)) place items)
    (reached : place = text ∨ place.length < text.length) :
    Does (pieces accept embed) source (some (textPieces (source.takeWhile accept) ++ values, rest))
      place items := by
  by_cases empty : source.takeWhile accept = []
  · have whole := @List.takeWhile_append_dropWhile _ accept source
    rw [empty, List.nil_append, split] at whole
    rwa [empty, ← whole]
  · have first := (does_text empty).orElse (do let value ← embed; Pure.pure (Piece.embed value))
    have shorter := length_dropWhile_lt empty
    rw [split] at first shorter
    rw [textPieces_of_ne_nil empty]
    rcases reached with rfl | later
    · exact first.many shorter does
    · exact (first.earlier later).many shorter does

/-- An embed before other pieces is read with them. -/
theorem Does.pieces_embed {text middle rest place : List Char} {value : Embed}
    {values : List Piece} {items : List Expected} (textless : Stops accept text)
    (does : Does embed text (some (value, middle)) place [])
    (shorter : middle.length < text.length) (later : place.length < text.length)
    (more : Does (pieces accept embed) middle (some (values, rest)) place items) :
    Does (pieces accept embed) text (some (.embed value :: values, rest)) place items :=
  (((does_text_none textless).earlier later).orElse_none (does.map Piece.embed)).many shorter more

/-- The rules for pieces stop before a text that begins with none. -/
theorem Does.pieces_none {text place : List Char} {items : List Expected}
    (textless : Stops accept text) (later : place.length < text.length)
    (does : Does embed text none place items) :
    Does (pieces accept embed) text (some ([], text)) place items :=
  (((does_text_none textless).earlier later).orElse_none does.bind_none).many_none

theorem does_pieces_nil {text : List Char} (textless : Stops accept text)
    (unopened : Stops (· == '{') text) :
    Does (pieces accept embed) text (some ([], text)) text [.text, .directive] :=
  ((does_text_none textless).orElse_none (does_embed_none unopened).bind_none).many_none

/-- What the rule for pieces does where the reader of pieces has a result. -/
def PiecesMirrored (room : Room bound) (opened : Nat) (accept : Char → Bool) (source : List Char)
    (result : Except Stuck (Taken (List Piece) source)) : Prop :=
  match result with
  | .ok found =>
    room.admits opened found.rest ∧
      Does (pieces accept embed) source (some (found.value, found.rest)) found.rest
        [.text, .directive]
  | .error stuck =>
    -- The rules stop before the embed that cannot be read, and have looked into it.
    ∃ values inner, '{' :: inner <:+ source.dropWhile accept ∧ stuck.rest.length ≤ inner.length ∧
      Does (pieces accept embed) source (some (values, '{' :: inner)) stuck.rest
        stuck.awaiting.expected

theorem Mirrors.pieces (mirrors : Mirrors room opened depth reader) (accept : Char → Bool)
    (plain : ∀ c, accept c = true → isTopText c = true)
    (admitted : room.admits opened source) :
    PiecesMirrored room opened accept source (Written.pieces accept reader source) := by
  have brace : accept '{' = false := by
    cases text : accept '{' with
    | false => rfl
    | true => exact absurd (plain '{' text) (by decide)
  induction size : source.length using Nat.strongRecOn generalizing source with
  | ind length ih =>
    have dropped := room.admits_dropWhile plain admitted
    have bound := length_dropWhile_le accept source
    rw [Written.pieces]
    split
    · next inner split =>
      rw [split] at dropped bound
      have embedded := mirrors.mirrored inner dropped
      have textless : Stops accept ('{' :: inner) := (stops_cons accept '{' inner).2 brace
      split
      · next stuck failed =>
        rw [failed] at embedded
        obtain ⟨within, does⟩ := embedded
        have later : stuck.rest.length < ('{' :: inner).length := Nat.lt_succ_of_le within
        have stopped := Does.pieces_none textless later does
        exact ⟨_, inner, split ▸ List.suffix_refl _, within,
          Does.pieces_text split stopped (Or.inr later)⟩
      · next found taken =>
        rw [taken] at embedded
        have shorter : found.rest.length < ('{' :: inner).length := Nat.lt_succ_of_le found.shorter
        have again := ih found.rest.length (by omega) (admits_of_does_embed dropped embedded) rfl
        split
        · next stuck failed =>
          rw [failed] at again
          obtain ⟨values, deeper, suffix, within, does⟩ := again
          have inside := suffix.length_le
          have left := length_dropWhile_le accept found.rest
          rw [List.length_cons] at inside
          have later : stuck.rest.length < found.rest.length := by omega
          have latest := Nat.lt_trans later shorter
          have whole := Does.pieces_embed textless (embedded.earlier later) shorter latest does
          refine ⟨_, deeper, ?_, within, Does.pieces_text split whole (Or.inr latest)⟩
          have behind : found.rest <:+ '{' :: inner := by
            obtain ⟨spelled, -⟩ :=
              mirrors.sound inner found.value found.rest ⟨found, taken, rfl, rfl⟩
            exact ⟨_, spelled.symm⟩
          rw [split]
          exact (suffix.trans (List.dropWhile_suffix accept)).trans behind
        · next more read =>
          rw [read] at again
          obtain ⟨admits, does⟩ := again
          have within := more.shorter
          have latest := Nat.lt_of_le_of_lt within shorter
          obtain ⟨spelled, -⟩ := mirrors.sound.pieces ⟨more, read, rfl, rfl⟩
          have here := embedded.behind ⟨_, spelled.symm⟩
          have whole := Does.pieces_embed textless here shorter latest does
          exact ⟨admits, Does.pieces_text split whole (Or.inr latest)⟩
    · next other =>
      have textless := stops_dropWhile accept source
      have unopened : Stops (· == '{') (source.dropWhile accept) := by
        intro c head
        obtain ⟨more, same⟩ := List.head?_eq_some_iff.1 head
        refine beq_eq_false_iff_ne.2 ?_
        rintro rfl
        exact other more same
      have stopped := Does.pieces_text rfl (does_pieces_nil textless unopened) (Or.inl rfl)
      rw [List.append_nil] at stopped
      exact ⟨dropped, stopped⟩

/-! ### Arguments -/

theorem many_barred (rule : Rule Embed) (next : List Char) (known : Furthest) :
    many (barred rule) ('|' :: next) known = arguments rule next known := by
  obtain ⟨first, rest, later, read, within⟩ := exists_many
    (orElse (text isArgumentText) do let value ← rule; pure (Piece.embed value)) next known
  have bar : char '|' ('|' :: next) known = (some ('|', next), known) := rfl
  have once : barred rule ('|' :: next) known = (some (first, rest), later) :=
    (bind_of_some bar).trans read
  have whole : arguments rule next known = _ := bind_of_some read
  obtain ⟨more, left, last, again, -⟩ := exists_many (barred rule) rest later
  have shorter : rest.length < ('|' :: next).length := Nat.lt_succ_of_le within
  rw [whole, bind_of_some again, many, once]
  dsimp only
  rw [if_pos shorter, again]
  rfl

variable {first : List Piece} {items : List Expected} {rest place : List Char}

theorem Does.closed_arguments_more {next : List Char} {more : List Expected}
    {result : Option (List (List Piece) × List Char)}
    (does : Does (Grammar.pieces isArgumentText embed) source (some (first, '|' :: next)) place
      items)
    (step : Does (Grammar.closed (arguments embed)) next result place more) :
    Does (Grammar.closed (arguments embed)) source (mapValue (first :: ·) result) place
      (items ++ more) := by
  obtain ⟨own, gives, upTo⟩ := does
  obtain ⟨second, follows, also⟩ := step
  refine ⟨_, ⟨gives.plain.merge follows.plain, fun known plain => ?_⟩, upTo.merge also⟩
  have again := follows.runs _ (plain.merge gives.plain)
  have same : arguments embed source known =
      (mapValue (first :: ·) (arguments embed next (known.merge own)).1,
        (arguments embed next (known.merge own)).2) := by
    have once : arguments embed source known = _ := bind_of_some (gives.runs known plain)
    obtain ⟨values, rest, later, read, -⟩ :=
      exists_many (barred embed) ('|' :: next) (known.merge own)
    rw [once, bind_of_some read, ← many_barred, read]
    rfl
  rw [closed_of_map same, again, plain.merge_assoc gives.plain follows.plain]

/-- Where no bar follows, an argument is the last one. -/
theorem Does.arguments_last
    (does : Does (Grammar.pieces isArgumentText embed) source (some (first, rest)) rest items)
    (stops : Stops (· == '|') rest) :
    Does (arguments embed) source (some ([first], rest)) rest (items ++ [.char '|']) :=
  have bars := (Does.char_none stops).bind_none (f := fun _ => Grammar.pieces isArgumentText embed)
  does.bind (f := fun first => do let more ← Grammar.many (barred embed); Pure.pure (first :: more))
    (bars.many_none.map (first :: ·))

theorem Does.closed_arguments_earlier
    (does : Does (Grammar.pieces isArgumentText embed) source (some (first, rest)) place items)
    (bars : Stops (· == '|') rest) (closes : Stops (· == '}') rest)
    (later : place.length < rest.length) :
    Does (Grammar.closed (arguments embed)) source none place items := by
  have bar := ((Does.char_none bars).earlier later).bind_none
    (f := fun _ => Grammar.pieces isArgumentText embed)
  have whole := does.bind
    (f := fun first => do let more ← Grammar.many (barred embed); Pure.pure (first :: more))
    (bar.many_none.map (first :: ·))
  rw [List.append_nil] at whole
  exact whole.closed_earlier closes later

/-- What the rule for arguments does where the reader of arguments has a result. -/
def ArgumentsMirrored (awaiting : Awaiting) (source : List Char)
    (result : Except Stuck (Taken (List (List Piece)) source)) : Prop :=
  match result with
  | .ok found =>
    Does (closed (arguments embed)) source (some (found.value, found.rest)) found.rest [] ∧
      found.rest.length < (source.dropWhile isArgumentText).length
  | .error stuck =>
    stuck.awaiting = awaiting ∧ (∀ c more, stuck.rest = c :: more → isLineEnd c = true) ∧
      (stuck.rest = source.dropWhile isArgumentText ∨
        stuck.rest.length < (source.dropWhile isArgumentText).length ∧
        ∃ inner, source.dropWhile isArgumentText = '{' :: inner) ∧
      Does (closed (arguments embed)) source none stuck.rest afterArgument ∨
    stuck.rest.length < (source.dropWhile isArgumentText).length ∧
      Does (closed (arguments embed)) source none stuck.rest stuck.awaiting.expected

theorem stops_of_forall_ne {c : Char} {text : List Char} (none : ∀ more, text ≠ c :: more) :
    Stops (· == c) text := by
  intro d head
  obtain ⟨more, same⟩ := List.head?_eq_some_iff.1 head
  refine beq_eq_false_iff_ne.2 ?_
  rintro rfl
  exact none more same

theorem Mirrors.arguments (mirrors : Mirrors room opened depth reader) (awaiting : Awaiting)
    (admitted : room.admits opened source) :
    ArgumentsMirrored awaiting source (Written.arguments reader awaiting source) := by
  induction size : source.length using Nat.strongRecOn generalizing source awaiting with
  | ind length ih =>
    have pieces := mirrors.pieces isArgumentText (fun _ => isTopText_of_isArgumentText) admitted
    rw [Written.arguments]
    split
    · next stuck failed =>
      rw [failed] at pieces
      obtain ⟨values, inner, suffix, within, does⟩ := pieces
      have inside := suffix.length_le
      rw [List.length_cons] at inside
      refine Or.inr ⟨by omega, does.closed_arguments_earlier (stops_of_ne (by decide) inner)
        (stops_of_ne (by decide) inner) ?_⟩
      rw [List.length_cons]
      omega
    · next first taken =>
      rw [taken] at pieces
      obtain ⟨admits, does⟩ := pieces
      obtain ⟨spelled, -, -, stops, unopened⟩ := mirrors.sound.pieces ⟨first, taken, rfl, rfl⟩
      have suffix : first.rest <:+ source.dropWhile isArgumentText :=
        stops.suffix_dropWhile ⟨_, spelled.symm⟩
      have inside := suffix.length_le
      have whole := length_dropWhile_le isArgumentText source
      split
      · next next split =>
        rw [split] at admits does inside
        rw [List.length_cons] at inside
        have again := ih next.length (by omega) Awaiting.argument (room.plain rfl admits) rfl
        have left := length_dropWhile_le isArgumentText next
        have passed {place : List Char} (within : place.length ≤ next.length) :=
          does.earlier (Nat.lt_succ_of_le within : place.length < ('|' :: next).length)
        split
        · next stuck failed =>
          rw [failed] at again
          rcases again with ⟨waits, -, place, again⟩ | ⟨later, again⟩
          · have within : stuck.rest.length ≤ (next.dropWhile isArgumentText).length := by
              rcases place with same | later
              · exact Nat.le_of_eq (congrArg List.length same)
              · exact Nat.le_of_lt later.1
            refine Or.inr ⟨by omega, ?_⟩
            rw [waits]
            exact (passed (by omega)).closed_arguments_more again
          · exact Or.inr ⟨by omega, (passed (by omega)).closed_arguments_more again⟩
        · next more read =>
          rw [read] at again
          obtain ⟨again, later⟩ := again
          exact ⟨(passed (by omega)).closed_arguments_more again, by dsimp only; omega⟩
      · next after split =>
        rw [split] at does inside
        rw [List.length_cons] at inside
        refine ⟨?_, by dsimp only; omega⟩
        exact (does.arguments_last (stops_of_ne (by decide) after)).closed (Nat.lt_succ_self _)
      · next bars closes =>
        have barless := stops_of_forall_ne bars
        have unclosed := stops_of_forall_ne closes
        have stuck := (does.arguments_last barless).closed_none unclosed
        refine Or.inl ⟨rfl, fun c more here => ?_, ?_, stuck.congr (fun item => ?_)⟩
        · dsimp only at here
          rcases cases_not_isArgumentText ((stops_cons _ c more).1 (here ▸ stops)) with
            rfl | rfl | rfl | ends
          · exact absurd here (unopened more)
          · exact absurd here (closes more)
          · exact absurd here (bars more)
          · exact ends
        · rcases reads_pieces_iff.1 ⟨first, taken, rfl, rfl⟩ with
            ⟨deeper, -, -, -, split, -⟩ | ⟨-, -, same⟩
          · rcases Nat.lt_or_ge first.rest.length (source.dropWhile isArgumentText).length with
              later | level
            · exact Or.inr ⟨later, deeper, split⟩
            · exact Or.inl (suffix.eq_of_length_le level)
          · exact Or.inl same
        · simp only [afterArgument, List.mem_append, List.mem_cons, List.not_mem_nil]
          grind

end Grammar

end Narrative
