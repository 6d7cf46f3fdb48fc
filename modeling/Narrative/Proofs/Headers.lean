import Narrative.Proofs.Furthest
import Narrative.Proofs.Openings

/-!
What the rules below embeds do: runs of characters, line breaks, conditions, spelled out disciplines
and signs, and the header made of them. A header that finds no label may have looked further than
what it reads, to the end of the run that a label would have.
-/

set_option autoImplicit false

namespace Narrative.Grammar

open Written

variable {accept : Char → Bool} {source rest : List Char} {expected : List Expected}

/-! ### Runs -/

theorem gives_oneOrMore (nonempty : source.takeWhile accept ≠ []) :
    Gives (oneOrMore (one accept expected)) source
      (some (source.takeWhile accept, source.dropWhile accept))
      (some (.at (source.dropWhile accept) expected)) := by
  cases source with
  | nil => exact absurd rfl nonempty
  | cons c rest =>
    cases accepted : accept c with
    | false => exact absurd (List.takeWhile_cons_of_neg (by simp [accepted])) nonempty
    | true =>
      rw [List.takeWhile_cons_of_pos accepted, List.dropWhile_cons_of_pos accepted]
      have more := (Gives.many_one accept expected rest).bind
        (f := fun more => pure (c :: more)) (Gives.pure (c :: rest.takeWhile accept) _)
      have whole := (Gives.one accepted expected rest).bind
        (f := fun first => do let more ← many (one accept expected); pure (first :: more)) more
      rwa [Furthest.none_merge, Furthest.merge_none] at whole

theorem gives_oneOrMore_none (stops : Stops accept source) :
    Gives (oneOrMore (one accept expected)) source none (some (.at source expected)) :=
  (Gives.one_none stops expected).bind_none

theorem length_dropWhile_lt (nonempty : source.takeWhile accept ≠ []) :
    (source.dropWhile accept).length < source.length := by
  have whole := congrArg List.length (@List.takeWhile_append_dropWhile _ accept source)
  have some := List.length_pos_iff.2 nonempty
  rw [List.length_append] at whole
  omega

theorem length_lt_cons_append (c : Char) (run after : List Char) :
    after.length < (c :: (run ++ after)).length := by
  rw [List.length_cons, List.length_append]
  omega

theorem length_lt_label (text gap rest : List Char) :
    rest.length < (text ++ ':' :: (gap ++ rest)).length := by
  have behind := length_lt_cons_append ':' gap rest
  rw [List.length_append]
  omega

theorem does_text (nonempty : source.takeWhile accept ≠ []) :
    Does (text accept) source (some (.text (source.takeWhile accept), source.dropWhile accept))
      (source.dropWhile accept) [] := by
  have run : Does (oneOrMore (one accept [])) source _ (source.dropWhile accept) [] :=
    ⟨_, gives_oneOrMore nonempty, .there (fun _ => Iff.rfl)⟩
  exact (run.map Piece.text).labelled (length_dropWhile_lt nonempty) .text

theorem does_text_none (stops : Stops accept source) :
    Does (text accept) source none source [.text] :=
  ⟨_, (gives_oneOrMore_none stops).bind_none.labelled_at .text, .there (fun _ => Iff.rfl)⟩

theorem does_gap (source : List Char) :
    Does gap source (some (source.takeWhile isGap, source.dropWhile isGap))
      (source.dropWhile isGap) [.char ' ', .char '\t'] :=
  Does.many_one isGap _ source

theorem does_space (source : List Char) :
    Does space source (some (source.takeWhile isSpace, source.dropWhile isSpace))
      (source.dropWhile isSpace) spaces :=
  Does.many_one isSpace _ source

/-! ### Line breaks -/

theorem stops_of_ne {c d : Char} (other : d ≠ c) (rest : List Char) : Stops (· == c) (d :: rest) :=
  (stops_cons _ d rest).2 (beq_eq_false_iff_ne.2 other)

theorem does_newline_feed (rest : List Char) :
    Does newline ('\n' :: rest) (some (false, rest)) ('\n' :: rest) [.newline] := by
  have carriage := (Gives.char_none (stops_of_ne (show '\n' ≠ '\r' by decide) rest)).optional_none
  have feed := (Gives.char '\n' rest).bind (f := fun _ => pure (none : Option Char).isSome)
    (Gives.pure false rest)
  have whole := carriage.bind (f := fun carriage => do
    let _ ← char '\n'; pure carriage.isSome) feed
  rw [Furthest.merge_none, Furthest.merge_none] at whole
  exact ⟨_, whole.labelled_at .newline, .there (fun _ => Iff.rfl)⟩

theorem does_newline_pair (rest place : List Char) :
    Does newline ('\r' :: '\n' :: rest) (some (true, rest)) place [] := by
  have carriage := (Gives.char '\r' ('\n' :: rest)).optional
  have feed := (Gives.char '\n' rest).bind (f := fun _ => pure (some '\r').isSome)
    (Gives.pure true rest)
  have whole := carriage.bind (f := fun carriage => do
    let _ ← char '\n'; pure carriage.isSome) feed
  exact ⟨_, whole.labelled .newline, .nothing⟩

theorem does_newline_carriage (stops : Stops (· == '\n') rest) :
    Does newline ('\r' :: rest) none rest [.char '\n'] := by
  have carriage := (Gives.char '\r' rest).optional
  have feed := (Gives.char_none stops).bind_none (f := fun _ => pure (some '\r').isSome)
  have whole := carriage.bind (f := fun carriage => do
    let _ ← char '\n'; pure carriage.isSome) feed
  refine Does.labelled ⟨_, whole, ?_⟩ (Nat.lt_succ_self _) .newline
  exact .there (fun _ => Iff.rfl)

theorem does_newline_none (stops : Stops isLineEnd source) :
    Does newline source none source [.newline] := by
  have none (c : Char) (ends : isLineEnd c = true) : Stops (· == c) source := by
    refine stops.mono (fun d same => ?_)
    rwa [beq_iff_eq.1 same]
  have carriage := (Gives.char_none (none '\r' rfl)).optional_none
  have feed := (Gives.char_none (none '\n' rfl)).bind_none
    (f := fun _ => pure (Option.none : Option Char).isSome)
  have whole := carriage.bind (f := fun carriage => do
    let _ ← char '\n'; pure carriage.isSome) feed
  rw [Furthest.merge_at, if_neg (Nat.lt_irrefl _), if_pos rfl] at whole
  exact ⟨_, whole.labelled_at .newline, .there (fun _ => Iff.rfl)⟩

/-! ### Conditions -/

/-- A label is a condition, and more gap could have come behind it. -/
theorem gives_condition {text gap : List Char} (nonempty : text ≠ [])
    (labels : ∀ c ∈ text, isLabel c = true) (gaps : ∀ c ∈ gap, isGap c = true)
    (stops : Stops isGap rest) :
    Gives condition (text ++ ':' :: (gap ++ rest)) (some ((text, gap), rest))
      (some (.at rest [.char ' ', .char '\t'])) := by
  have colon : Stops isLabel (':' :: (gap ++ rest)) := (stops_cons _ _ _).2 rfl
  have run := @gives_oneOrMore isLabel (text ++ ':' :: (gap ++ rest)) []
    (by rwa [takeWhile_run labels colon])
  rw [takeWhile_run labels colon, dropWhile_run labels colon] at run
  have behind := Gives.many_one isGap [.char ' ', .char '\t'] (gap ++ rest)
  rw [takeWhile_run gaps stops, dropWhile_run gaps stops] at behind
  have afterColon := (Gives.char ':' (gap ++ rest)).bind
    (f := fun _ => do let gap ← Grammar.gap; pure (text, gap))
    (behind.bind (f := fun gap => pure (text, gap)) (Gives.pure (text, gap) rest))
  have whole := run.bind
    (f := fun text => do let _ ← char ':'; let gap ← Grammar.gap; pure (text, gap)) afterColon
  have later := length_lt_cons_append ':' gap rest
  have latest := length_lt_label text gap rest
  rw [Furthest.merge_none, Furthest.none_merge, Furthest.merge_at, if_pos later] at whole
  have labelled := whole.labelled .condition
  rwa [Furthest.relabel_later latest] at labelled

/-- Where no label is, the rule looks for its colon up to the end of the run. -/
theorem does_condition_none {run after : List Char} (labels : ∀ c ∈ run, isLabel c = true)
    (stops : Stops isLabel after) (unlabelled : ¬ Labelled (run ++ after)) :
    Does condition (run ++ after) none after
      (if run.isEmpty then [.condition] else [.char ':']) := by
  cases run with
  | nil =>
    have refused := (@gives_oneOrMore_none isLabel after [] stops).bind_none
      (f := fun text => do let _ ← char ':'; let gap ← gap; pure (text, gap))
    exact ⟨_, refused.labelled_at .condition, .there (fun _ => Iff.rfl)⟩
  | cons c run =>
    have runs := @gives_oneOrMore isLabel (c :: run ++ after) []
      (by rw [takeWhile_run labels stops]; simp)
    rw [takeWhile_run labels stops, dropWhile_run labels stops] at runs
    have colon : Stops (· == ':') after := by
      intro d head
      obtain ⟨more, rfl⟩ := List.head?_eq_some_iff.1 head
      refine beq_eq_false_iff_ne.2 ?_
      rintro rfl
      exact unlabelled ⟨c :: run, more, by simp, labels, rfl⟩
    have whole := runs.bind
      (f := fun text => do let _ ← char ':'; let gap ← gap; pure (text, gap))
      (Gives.char_none colon).bind_none
    rw [Furthest.merge_at, if_neg (Nat.lt_irrefl _), if_pos rfl] at whole
    refine Does.labelled ⟨_, whole, .there (fun _ => Iff.rfl)⟩ ?_ .condition
    rw [List.cons_append]
    exact length_lt_cons_append c run after

/-! ### Sequence types -/

/-- What continues a word that is spelled out up to the end of a run. -/
def continuation (run word : List Char) : List Expected :=
  if run.isPrefixOf word then ((word.drop run.length).head?.map .char).toList else []

theorem gives_word (word rest : List Char) :
    Gives (Grammar.word word) (word ++ rest) (some ((), rest)) none := by
  induction word with
  | nil => exact Gives.pure () rest
  | cons c word ih => exact (Gives.char c (word ++ rest)).bind (f := fun _ => Grammar.word word) ih

/-- A word with a colon that does not begin a text differs from it before the end of the run that a
label would have, or there. -/
theorem does_word_none {name run after : List Char} (names : ∀ c ∈ name, isLabel c = true)
    (stops : Stops isLabel after) (other : ¬ name ++ [':'] <+: run ++ after) :
    Does (word (name ++ [':'])) (run ++ after) none after (continuation run (name ++ [':'])) := by
  have here {c : Char} {word : List Char} (stops : Stops (· == c) after) :
      Does (Grammar.word (c :: word)) after none after (continuation [] (c :: word)) :=
    (Does.char_none stops).bind_none (f := fun _ => Grammar.word word)
  have sooner {c d : Char} {word run : List Char} (differs : d ≠ c) :
      Does (Grammar.word (c :: word)) (d :: run ++ after) none after
        (continuation (d :: run) (c :: word)) := by
    have refused := (Does.char_none (stops_of_ne differs (run ++ after))).bind_none
      (f := fun _ => Grammar.word word)
    have same : (d == c) = false := beq_eq_false_iff_ne.2 differs
    rw [continuation, List.isPrefixOf, same, Bool.false_and, if_neg Bool.false_ne_true]
    exact refused.earlier (length_lt_cons_append d run after)
  induction name generalizing run with
  | nil =>
    cases run with
    | nil =>
      refine here (fun c head => beq_eq_false_iff_ne.2 ?_)
      rintro rfl
      obtain ⟨more, rfl⟩ := List.head?_eq_some_iff.1 head
      exact other ⟨more, rfl⟩
    | cons d run =>
      refine sooner ?_
      rintro rfl
      exact other ⟨run ++ after, rfl⟩
  | cons c name ih =>
    cases run with
    | nil =>
      refine here (stops.mono (fun d same => ?_))
      rw [beq_iff_eq.1 same]
      exact names c List.mem_cons_self
    | cons d run =>
      by_cases same : d = c
      · subst same
        have rest := @ih run (fun e member => names e (List.mem_cons_of_mem d member)) (by
          intro begins
          exact other (List.cons_prefix_cons.2 ⟨rfl, begins⟩))
        have whole := (Does.char d (run ++ after) after).bind
          (f := fun _ => word (name ++ [':'])) rest
        have kept : continuation (d :: run) (d :: name ++ [':']) =
            continuation run (name ++ [':']) := by
          simp [continuation]
        rw [kept]
        exact whole
      · exact sooner same

theorem toList_marker (kind : Discipline) : kind.marker.toList = kind.word.toList ++ [':'] := by
  rw [Discipline.marker, String.toList_append]
  rfl

theorem mem_markerContinuations {run : List Char} {item : Expected} :
    item ∈ markerContinuations run ↔ ∃ kind : Discipline,
      item ∈ continuation run (kind.word.toList ++ [':']) := by
  have every (kind : Discipline) : kind ∈ Discipline.all := by cases kind <;> decide
  simp only [markerContinuations, List.mem_filterMap, continuation, toList_marker]
  constructor
  · rintro ⟨kind, -, found⟩
    refine ⟨kind, ?_⟩
    split at found
    · next begins => rw [if_pos begins, found]; simp
    · cases found
  · rintro ⟨kind, found⟩
    refine ⟨kind, every kind, ?_⟩
    split at found
    · next begins => rw [if_pos begins]; simpa using found
    · cases found

/-- A discipline that is not spelled out is looked for up to the end of the run. -/
theorem does_sequenceType_none {run after : List Char} (labels : ∀ c ∈ run, isLabel c = true)
    (stops : Stops isLabel after) (unlabelled : ¬ Labelled (run ++ after))
    (unsigned : Stops isSign (run ++ after)) :
    Does sequenceType (run ++ after) none after
      (if run.isEmpty then [.sequenceType] else markerContinuations run) := by
  have signs (value : Sign) : Stops (· == value.char) (run ++ after) := by
    refine unsigned.mono (fun c same => ?_)
    rw [beq_iff_eq.1 same, isSign, Sign.ofChar?_char]
    rfl
  cases run with
  | nil =>
    have each : ∀ rule ∈ sequenceTypes,
        ∃ expected, Gives rule after none (some (.at after expected)) := by
      have markers (kind : Discipline) :
          ∃ expected, Gives (marker kind) after none (some (.at after expected)) := by
        obtain ⟨nonempty, names⟩ := kind.isLabel_word
        obtain ⟨c, name, word⟩ := List.exists_cons_of_ne_nil nonempty
        have first : Stops (· == c) after := by
          refine stops.mono (fun d same => ?_)
          rw [beq_iff_eq.1 same]
          exact names c (by simp [word])
        have refused := (Gives.char_none first).bind_none (f := fun _ => Grammar.word (name ++ [':']))
        refine ⟨[.char c], Gives.bind_none ?_⟩
        rw [toList_marker, word]
        exact refused
      intro rule member
      simp only [sequenceTypes, List.mem_cons, List.not_mem_nil, or_false] at member
      rcases member with rfl | rfl | rfl | rfl | rfl | rfl | rfl
      all_goals first | exact markers _ | exact ⟨_, (Gives.char_none (signs _)).bind_none⟩
    obtain ⟨expected, gives⟩ := Gives.firstOf_none each (List.cons_ne_nil _ _)
    exact ⟨_, gives.bind_none.labelled_at .sequenceType, .there (fun _ => Iff.rfl)⟩
  | cons c run =>
    have later := length_lt_cons_append c run after
    have markers (kind : Discipline) : Does (marker kind) (c :: run ++ after) none after
        (continuation (c :: run) (kind.word.toList ++ [':'])) := by
      obtain ⟨nonempty, names⟩ := kind.isLabel_word
      have other : ¬ kind.word.toList ++ [':'] <+: c :: run ++ after := by
        rintro ⟨more, same⟩
        exact unlabelled ⟨kind.word.toList, more, nonempty, names, by rw [← same]; simp⟩
      have word := does_word_none names stops other
      rw [← toList_marker] at word ⊢
      exact word.bind_none
    have sign (value : Sign) : Does (sign value) (c :: run ++ after) none after [] :=
      ((Does.char_none (signs value)).earlier later).bind_none
    have whole := (markers .stopping).orElse_none ((markers .shuffle).orElse_none
      ((markers .cycle).orElse_none ((markers .once).orElse_none ((sign .tilde).orElse_none
        ((sign .ampersand).orElse_none ((sign .bang).orElse_none (Does.fail _ after)))))))
    have types := (whole.bind_none (f := fun opening => do
      let gap ← gap
      pure (opening gap))).labelled later .sequenceType
    refine Does.congr types (fun item => ?_)
    rw [if_neg (by simp), mem_markerContinuations]
    simp only [List.append_nil, List.mem_append]
    constructor
    · rintro (found | found | found | found) <;> exact ⟨_, found⟩
    · rintro ⟨kind, found⟩
      cases kind <;> simp [found]

/-- The gap after a marker or sign is read with it. -/
theorem does_sequenceType_some {gap : List Char} {opening : List Char → Opening}
    (does : Does (firstOf sequenceTypes) source (some (opening, gap ++ rest)) rest [])
    (later : rest.length < source.length) (gaps : ∀ c ∈ gap, isGap c = true)
    (stops : Stops isGap rest) :
    Does sequenceType source (some (opening gap, rest)) rest [.char ' ', .char '\t'] := by
  have behind := does_gap (gap ++ rest)
  rw [takeWhile_run gaps stops, dropWhile_run gaps stops] at behind
  have whole := does.bind (f := fun opening => do let gap ← Grammar.gap; pure (opening gap))
    (behind.map opening)
  exact whole.labelled later .sequenceType

theorem does_sequenceType_sign {gap : List Char} (value : Sign) (gaps : ∀ c ∈ gap, isGap c = true)
    (stops : Stops isGap rest) :
    Does sequenceType (value.char :: (gap ++ rest)) (some (.sign value gap, rest)) rest
      [.char ' ', .char '\t'] := by
  have later := length_lt_cons_append value.char gap rest
  have refused {c : Char} (other : value.char ≠ c) :
      Does (char c) (value.char :: (gap ++ rest)) none rest [] :=
    (Does.char_none (stops_of_ne other _)).earlier later
  have markers (kind : Discipline) :
      Does (marker kind) (value.char :: (gap ++ rest)) none rest [] := by
    cases kind <;> exact (refused (by cases value <;> decide)).bind_none.bind_none
  have signs {other : Sign} (differs : value.char ≠ other.char) :
      Does (sign other) (value.char :: (gap ++ rest)) none rest [] := (refused differs).bind_none
  have found : Does (sign value) (value.char :: (gap ++ rest))
      (some (Opening.sign value, gap ++ rest)) rest [] :=
    (Does.char value.char (gap ++ rest) rest).map (fun _ => Opening.sign value)
  refine does_sequenceType_some ?_ later gaps stops
  cases value with
  | tilde =>
    refine Does.firstOf [marker .stopping, marker .shuffle, marker .cycle, marker .once]
      [sign .ampersand, sign .bang] ?_ found
    simp [markers]
  | ampersand =>
    refine Does.firstOf [marker .stopping, marker .shuffle, marker .cycle, marker .once,
      sign .tilde] [sign .bang] ?_ found
    simp [markers, @signs .tilde (by decide)]
  | bang =>
    refine Does.firstOf [marker .stopping, marker .shuffle, marker .cycle, marker .once,
      sign .tilde, sign .ampersand] [] ?_ found
    simp [markers, @signs .tilde (by decide), @signs .ampersand (by decide)]

theorem word_eq_of_begins {kind other : Discipline} {more : List Char}
    (begins : other.word.toList ++ [':'] <+: kind.word.toList ++ ':' :: more) : other = kind := by
  obtain ⟨rest, same⟩ := begins
  have colon (rest : List Char) : Stops isLabel (':' :: rest) := (stops_cons _ _ _).2 rfl
  rw [List.append_assoc, List.singleton_append] at same
  have runs := congrArg (List.takeWhile isLabel) same
  rw [takeWhile_run other.isLabel_word.2 (colon rest),
    takeWhile_run kind.isLabel_word.2 (colon more)] at runs
  have words := congrArg Discipline.ofWord? (String.toList_injective runs)
  rw [Discipline.ofWord?_word, Discipline.ofWord?_word] at words
  exact Option.some.inj words

theorem does_sequenceType_marker {gap : List Char} (kind : Discipline)
    (gaps : ∀ c ∈ gap, isGap c = true) (stops : Stops isGap rest) :
    Does sequenceType (kind.word.toList ++ ':' :: (gap ++ rest))
      (some (.label kind.word.toList gap, rest)) rest [.char ' ', .char '\t'] := by
  have later := length_lt_label kind.word.toList gap rest
  have colon : Stops isLabel (':' :: (gap ++ rest)) := (stops_cons _ _ _).2 rfl
  have markers {other : Discipline} (differs : other ≠ kind) :
      Does (marker other) (kind.word.toList ++ ':' :: (gap ++ rest)) none rest [] := by
    have word := does_word_none other.isLabel_word.2 colon
      (fun begins => differs (word_eq_of_begins begins))
    rw [← toList_marker] at word
    exact (word.earlier (length_lt_cons_append ':' gap rest)).bind_none
  have found : Does (marker kind) (kind.word.toList ++ ':' :: (gap ++ rest))
      (some (Opening.label kind.word.toList, gap ++ rest)) rest [] := by
    have word := gives_word kind.marker.toList (gap ++ rest)
    rw [toList_marker, List.append_assoc, List.singleton_append, ← toList_marker] at word
    exact Does.map ⟨_, word, .nothing⟩ (fun _ => Opening.label kind.word.toList)
  refine does_sequenceType_some ?_ later gaps stops
  cases kind with
  | stopping => exact Does.firstOf [] _ (by simp) found
  | shuffle =>
    refine Does.firstOf [marker .stopping] _ ?_ found
    simp [@markers .stopping (by decide)]
  | cycle =>
    refine Does.firstOf [marker .stopping, marker .shuffle] _ ?_ found
    simp [@markers .stopping (by decide), @markers .shuffle (by decide)]
  | once =>
    refine Does.firstOf [marker .stopping, marker .shuffle, marker .cycle] _ ?_ found
    simp [@markers .stopping (by decide), @markers .shuffle (by decide),
      @markers .cycle (by decide)]

/-! ### Headers -/

theorem does_header_label {text gap : List Char} (nonempty : text ≠ [])
    (labels : ∀ c ∈ text, isLabel c = true) (gaps : ∀ c ∈ gap, isGap c = true)
    (stops : Stops isGap rest) :
    Does header (text ++ ':' :: (gap ++ rest)) (some (.label text gap, rest)) rest
      [.char ' ', .char '\t'] := by
  have found := gives_condition nonempty labels gaps stops
  cases word : Discipline.ofWord? (String.ofList text) with
  | none =>
    have accepted : (Discipline.ofWord? (String.ofList (text, gap).1)).isNone = true := by
      rw [word]
      rfl
    have condition : Does headerCondition _ _ rest [.char ' ', .char '\t'] :=
      Does.map ⟨_, found.filter accepted, .there (fun _ => Iff.rfl)⟩
        (fun found => Opening.label found.1 found.2)
    exact (condition.orElse sequenceType).optional.map (Option.getD · .bare)
  | some kind =>
    -- A marker is first read as a condition, and refused as one.
    have refused : (Discipline.ofWord? (String.ofList (text, gap).1)).isNone = false := by
      rw [word]
      rfl
    have condition : Does headerCondition _ none rest [.char ' ', .char '\t'] :=
      Does.bind_none ⟨_, found.filter_refused refused, .there (fun _ => Iff.rfl)⟩
    have spelled : kind.word.toList = text := by
      have same : (kind.word == String.ofList text) = true := by
        simpa using List.find?_some word
      rw [beq_iff_eq.1 same, String.toList_ofList]
    have discipline := does_sequenceType_marker kind gaps stops
    rw [spelled] at discipline
    have header := (condition.orElse_none discipline).optional.map (Option.getD · Opening.bare)
    exact header.congr (fun item => by rw [List.mem_append, or_self])

/-- What could have come at the end of a run after a brace, as far as the header knows. -/
def openings (run : List Char) : List Expected :=
  if run.isEmpty then [.condition, .sequenceType] else .char ':' :: markerContinuations run

theorem does_headerCondition_none {run after : List Char} (labels : ∀ c ∈ run, isLabel c = true)
    (stops : Stops isLabel after) (unlabelled : ¬ Labelled (run ++ after)) :
    Does headerCondition (run ++ after) none after
      (if run.isEmpty then [.condition] else [.char ':']) :=
  ((does_condition_none labels stops unlabelled).filter_none _).bind_none

theorem does_header_bare {run after : List Char} (labels : ∀ c ∈ run, isLabel c = true)
    (stops : Stops isLabel after) (unlabelled : ¬ Labelled (run ++ after))
    (unsigned : Stops isSign (run ++ after)) :
    Does header (run ++ after) (some (.bare, run ++ after)) after (openings run) := by
  have condition := does_headerCondition_none labels stops unlabelled
  have discipline := does_sequenceType_none labels stops unlabelled unsigned
  have header := (condition.orElse_none discipline).optional_none.map (Option.getD · Opening.bare)
  refine header.congr (fun item => ?_)
  rw [openings]
  split <;> rfl

theorem markerContinuations_sign (value : Sign) (run : List Char) :
    markerContinuations (value.char :: run) = [] := by
  cases value <;> rfl

theorem does_header_sign {gap label after : List Char} (value : Sign)
    (gaps : ∀ c ∈ gap, isGap c = true) (behind : Stops isGap (label ++ after))
    (labels : ∀ c ∈ label, isLabel c = true) (stops : Stops isLabel after)
    (unlabelled : ¬ Labelled (value.char :: (gap ++ (label ++ after)))) :
    Does header (value.char :: (gap ++ (label ++ after))) (some (.sign value gap, label ++ after))
      after (openings (value.char :: gap ++ label) ++
        if label.isEmpty then [.char ' ', .char '\t'] else []) := by
  have run : ∀ c ∈ value.char :: gap ++ label, isLabel c = true := by
    intro c member
    exact (List.mem_append.1 member).elim (isLabel_sign_gap value gaps c) (labels c)
  have whole : value.char :: (gap ++ (label ++ after)) = value.char :: gap ++ label ++ after := by
    simp
  have condition := does_headerCondition_none run stops (whole ▸ unlabelled)
  have discipline := does_sequenceType_sign value gaps behind
  have reached : Does sequenceType (value.char :: (gap ++ (label ++ after)))
      (some (.sign value gap, label ++ after)) after
      (if label.isEmpty then [.char ' ', .char '\t'] else []) := by
    cases label with
    | nil => exact discipline
    | cons c label => exact discipline.earlier (length_lt_cons_append c label after)
  rw [← whole] at condition
  have header := (condition.orElse_none reached).optional.map (Option.getD · Opening.bare)
  refine header.congr (fun item => ?_)
  rw [openings, List.cons_append, markerContinuations_sign]
  rfl

/-- A header without a label looks for the colon of one up to the end of the run, and there it knows
what could have come, but for the gap after a sign. -/
theorem exists_does_header {value : Opening} {label after : List Char}
    (fits : value.Fits (label ++ after)) (bare : ∀ text gap, value ≠ .label text gap)
    (labels : ∀ c ∈ label, isLabel c = true) (stops : Stops isLabel after) :
    ∃ gaps, (∀ item ∈ gaps, item ∈ [.char ' ', .char '\t'] ∧
        mayBreak (value.spell ++ label) = true) ∧
      Does header (value.spell ++ (label ++ after)) (some (value, label ++ after)) after
        (openings (value.spell ++ label) ++ gaps) := by
  cases value with
  | bare =>
    refine ⟨[], by simp, ?_⟩
    rw [List.append_nil]
    exact does_header_bare labels stops fits.1 fits.2
  | sign value gap =>
    refine ⟨_, ?_, does_header_sign value fits.1 fits.2.1 labels stops fits.2.2⟩
    intro item member
    cases label with
    | nil =>
      have all : gap.all isGap = true := List.all_eq_true.2 fits.1
      exact ⟨member, by simp [Opening.spell, mayBreak, Sign.ofChar?_char, all]⟩
    | cons c label => cases member
  | label text gap => exact absurd rfl (bare text gap)

end Narrative.Grammar
