import Mathlib.Tactic.SplitIfs
import Narrative.Proofs.Run
import Narrative.Source.Grammar

/-!
What rules do, told apart from the failures before them. A rule has a result and a furthest failure
of its own, and merges the latter into what is known. `Does` says so, with the place beyond which no
failure of the rule lies and what the rule expected at that place.
-/

set_option autoImplicit false

namespace Narrative.Grammar

open Written

/-! ### Failures -/

namespace Furthest

/-- The failure is one of a rule that looks at the next character. -/
def Plain (furthest : Furthest) : Prop :=
  ∀ failure, furthest = some failure → failure = .at failure.rest failure.expected

theorem plain_none : Plain none := by
  intro failure found
  cases found

theorem plain_at (rest : List Char) (expected : List Expected) :
    Plain (some (.at rest expected)) := by
  intro failure found
  cases found
  rfl

@[simp] theorem none_merge (inner : Furthest) : merge none inner = inner := by
  cases inner <;> rfl

@[simp] theorem merge_none (known : Furthest) : merge known none = known := by
  cases known <;> rfl

theorem merge_at (first second : List Char) (expected items : List Expected) :
    merge (some (.at first expected)) (some (.at second items)) =
      if second.length < first.length then some (.at second items)
      else if second.length = first.length then some (.at first (expected ++ items))
      else some (.at first expected) := rfl

theorem Plain.cases {known : Furthest} (plain : Plain known) :
    known = none ∨ ∃ rest expected, known = some (.at rest expected) := by
  cases known with
  | none => exact Or.inl rfl
  | some failure => exact Or.inr ⟨_, _, congrArg some (plain failure rfl)⟩

theorem Plain.merge {known inner : Furthest} (plain : Plain known) (within : Plain inner) :
    Plain (known.merge inner) := by
  rcases plain.cases with rfl | ⟨first, expected, rfl⟩
  · rwa [none_merge]
  · rcases within.cases with rfl | ⟨second, items, rfl⟩
    · exact plain
    · rw [merge_at]
      split
      · exact plain_at second items
      · split
        · exact plain_at first (expected ++ items)
        · exact plain

theorem Plain.merge_assoc {first second third : Furthest} (plain : Plain first)
    (next : Plain second) (last : Plain third) :
    (first.merge second).merge third = first.merge (second.merge third) := by
  rcases plain.cases with rfl | ⟨rest, expected, rfl⟩
  · rw [none_merge, none_merge]
  · rcases next.cases with rfl | ⟨rest', expected', rfl⟩
    · rw [merge_none, none_merge]
    · rcases last.cases with rfl | ⟨rest'', expected'', rfl⟩
      · rw [merge_none, merge_none]
      · rw [merge_at, merge_at]
        -- One of the three is the furthest, or some of them are at one place.
        split_ifs <;> simp only [merge_at] <;> split_ifs <;>
          first | rfl | omega | rw [List.append_assoc]

/-- Where failures are plain, what was found at a place is settled by the place. -/
theorem Plain.add_at {known : Furthest} (plain : Plain known) (rest : List Char)
    (expected : List Expected) :
    known.add (.at rest expected) = known.merge (some (.at rest expected)) := by
  rcases plain.cases with rfl | ⟨first, items, rfl⟩
  · rfl
  · have found (level : rest.length = first.length) :
        first.head?.or rest.head? = first.head? := by
      cases first with
      | nil => rw [List.length_eq_zero_iff.1 level]; rfl
      | cons c first => rfl
    show (if rest.length < first.length then some (Failure.at rest expected)
      else if rest.length = first.length then
        some (Failure.mk first first (first.head?.or rest.head?) (items ++ expected))
      else some (Failure.at first items)) = _
    rw [merge_at]
    split_ifs with further level
    · rfl
    · rw [found level]
      rfl
    · rfl

theorem Plain.relabel {inner : Furthest} (plain : Plain inner) (source : List Char)
    (label : Expected) : Plain (inner.relabel source label) := by
  rcases plain.cases with rfl | ⟨rest, expected, rfl⟩
  · exact plain
  · show Plain (some (if _ then _ else _))
    split
    · exact plain_at rest [label]
    · exact plain

theorem relabel_at (source : List Char) (expected : List Expected) (label : Expected) :
    relabel source label (some (.at source expected)) = some (.at source [label]) := by
  simp [relabel, Failure.at]

theorem relabel_later {source rest : List Char} (later : rest.length < source.length)
    (expected : List Expected) (label : Expected) :
    relabel source label (some (.at rest expected)) = some (.at rest expected) := by
  simp [relabel, Failure.at, Nat.ne_of_lt later]

/-- No failure lies beyond a place, and the given items were expected there. -/
inductive UpTo (place : List Char) : List Expected → Furthest → Prop
  | nothing : UpTo place [] none
  | before {rest : List Char} {expected : List Expected} (earlier : place.length < rest.length) :
    UpTo place [] (some (.at rest expected))
  | there {expected items : List Expected} (same : ∀ item, item ∈ expected ↔ item ∈ items) :
    UpTo place items (some (.at place expected))

variable {place : List Char} {items more : List Expected} {known inner : Furthest}

theorem UpTo.congr (upTo : UpTo place items known)
    (same : ∀ item, item ∈ items ↔ item ∈ more) : UpTo place more known := by
  have empty (none : items = []) : more = [] := by
    rw [none] at same
    exact List.eq_nil_iff_forall_not_mem.2 (fun item member => by simpa using (same item).2 member)
  cases upTo with
  | nothing => rw [empty rfl]; exact .nothing
  | before earlier => rw [empty rfl]; exact .before earlier
  | there here => exact .there (fun item => (here item).trans (same item))

theorem UpTo.earlier (upTo : UpTo place items known) {further : List Char}
    (earlier : further.length < place.length) : UpTo further [] known := by
  cases upTo with
  | nothing => exact .nothing
  | before before => exact .before (Nat.lt_trans earlier before)
  | there => exact .before earlier

theorem UpTo.merge (upTo : UpTo place items known) (next : UpTo place more inner) :
    UpTo place (items ++ more) (known.merge inner) := by
  cases upTo with
  | nothing => rwa [none_merge]
  | @before first expected earlier =>
    cases next with
    | nothing => exact .before earlier
    | @before second others sooner =>
      rw [merge_at]
      split_ifs
      · exact .before sooner
      · exact .before earlier
      · exact .before earlier
    | there same =>
      rw [merge_at, if_pos earlier]
      exact .there same
  | there same =>
    cases next with
    | nothing =>
      rw [List.append_nil]
      exact .there same
    | before sooner =>
      rw [merge_at, if_neg (by omega), if_neg (by omega), List.append_nil]
      exact .there same
    | there also =>
      rw [merge_at, if_neg (Nat.lt_irrefl _), if_pos rfl]
      exact .there (fun item => by rw [List.mem_append, List.mem_append, same, also])

end Furthest

/-! ### Rules -/

theorem one_of_stops {accept : Char → Bool} {source : List Char} (stops : Stops accept source)
    (expected : List Expected) (furthest : Furthest) :
    one accept expected source furthest = (none, furthest.add (.at source expected)) := by
  cases source with
  | nil => rfl
  | cons c rest => rw [one, (stops_cons accept c rest).1 stops, if_neg Bool.false_ne_true]

variable {α β : Type}

/-- A rule has a result on a text and, whatever was known before it, a furthest failure of its
own. -/
structure Gives (rule : Rule α) (source : List Char) (result : Option (α × List Char))
    (own : Furthest) : Prop where
  plain : own.Plain
  runs : ∀ known : Furthest, known.Plain → rule source known = (result, known.merge own)

namespace Gives

variable {rule other : Rule α} {f : α → Rule β} {source middle rest : List Char} {value : α}
  {result : Option (α × List Char)} {first second : Furthest}

theorem pure (value : α) (source : List Char) :
    Gives (pure value) source (some (value, source)) none :=
  ⟨Furthest.plain_none, fun known _ => by rw [Furthest.merge_none]; rfl⟩

theorem bind {result : Option (β × List Char)}
    (gives : Gives rule source (some (value, middle)) first)
    (step : Gives (f value) middle result second) :
    Gives (rule >>= f) source result (first.merge second) := by
  refine ⟨gives.plain.merge step.plain, fun known plain => ?_⟩
  rw [bind_of_some (gives.runs known plain), step.runs _ (plain.merge gives.plain),
    plain.merge_assoc gives.plain step.plain]

theorem bind_none (gives : Gives rule source none first) :
    Gives (rule >>= f) source none first :=
  ⟨gives.plain, fun known plain => bind_of_none (gives.runs known plain)⟩

theorem orElse (gives : Gives rule source (some (value, rest)) first) (other : Rule α) :
    Gives (orElse rule other) source (some (value, rest)) first :=
  ⟨gives.plain, fun known plain => by rw [Grammar.orElse, gives.runs known plain]⟩

theorem orElse_none (gives : Gives rule source none first)
    (instead : Gives other source result second) :
    Gives (Grammar.orElse rule other) source result (first.merge second) := by
  refine ⟨gives.plain.merge instead.plain, fun known plain => ?_⟩
  rw [Grammar.orElse, gives.runs known plain]
  show other source _ = _
  rw [instead.runs _ (plain.merge gives.plain), plain.merge_assoc gives.plain instead.plain]

theorem fail (source : List Char) : Gives (fail : Rule α) source none none :=
  ⟨Furthest.plain_none, fun known _ => by rw [Furthest.merge_none]; rfl⟩

/-- Where every rule fails at once, all that they expect is expected there. -/
theorem firstOf_none {rules : List (Rule α)}
    (each : ∀ rule ∈ rules, ∃ expected, Gives rule source none (some (.at source expected)))
    (nonempty : rules ≠ []) :
    ∃ expected, Gives (firstOf rules) source none (some (.at source expected)) := by
  induction rules with
  | nil => exact absurd rfl nonempty
  | cons rule rest ih =>
    obtain ⟨expected, gives⟩ := each rule List.mem_cons_self
    by_cases last : rest = []
    · subst last
      have whole := gives.orElse_none (fail source)
      rw [Furthest.merge_none] at whole
      exact ⟨expected, whole⟩
    · obtain ⟨items, others⟩ :=
        ih (fun other member => each other (List.mem_cons_of_mem rule member)) last
      have whole := gives.orElse_none others
      rw [Furthest.merge_at, if_neg (Nat.lt_irrefl _), if_pos rfl] at whole
      exact ⟨expected ++ items, whole⟩

theorem optional (gives : Gives rule source (some (value, rest)) first) :
    Gives (optional rule) source (some (some value, rest)) first := by
  have wrapped := gives.bind (f := fun value => Pure.pure (some value)) (pure (some value) rest)
  rw [Furthest.merge_none] at wrapped
  exact wrapped.orElse _

theorem optional_none (gives : Gives rule source none first) :
    Gives (Grammar.optional rule) source (some (none, source)) first := by
  have nothing := gives.bind_none (f := fun value => Pure.pure (some value))
  have absent := nothing.orElse_none (pure none source)
  rwa [Furthest.merge_none] at absent

theorem many {values : List α} (gives : Gives rule source (some (value, middle)) first)
    (shorter : middle.length < source.length)
    (step : Gives (many rule) middle (some (values, rest)) second) :
    Gives (Grammar.many rule) source (some (value :: values, rest)) (first.merge second) := by
  refine ⟨gives.plain.merge step.plain, fun known plain => ?_⟩
  rw [Grammar.many, gives.runs known plain]
  dsimp only
  rw [if_pos shorter, step.runs _ (plain.merge gives.plain),
    plain.merge_assoc gives.plain step.plain]

theorem many_none (gives : Gives rule source none first) :
    Gives (Grammar.many rule) source (some ([], source)) first :=
  ⟨gives.plain, fun known plain => by rw [Grammar.many, gives.runs known plain]⟩

theorem labelled (gives : Gives rule source result first) (label : Expected) :
    Gives (labelled label rule) source result (first.relabel source label) := by
  refine ⟨gives.plain.relabel source label, fun known _ => ?_⟩
  rw [Grammar.labelled, gives.runs none Furthest.plain_none, Furthest.none_merge]

/-- What fails at its beginning, expected what its label says. -/
theorem labelled_at {expected : List Expected}
    (gives : Gives rule source result (some (.at source expected))) (label : Expected) :
    Gives (Grammar.labelled label rule) source result (some (.at source [label])) := by
  have relabelled := gives.labelled label
  rwa [Furthest.relabel_at] at relabelled

theorem filter {accept : α → Bool} (gives : Gives rule source (some (value, rest)) first)
    (accepted : accept value = true) :
    Gives (filter accept rule) source (some (value, rest)) first :=
  ⟨gives.plain, fun known plain => by
    rw [Grammar.filter, gives.runs known plain]
    exact if_pos accepted⟩

/-- Refusing a value adds nothing to a failure behind it. -/
theorem filter_refused {accept : α → Bool} {expected : List Expected}
    (gives : Gives rule source (some (value, rest)) (some (.at rest expected)))
    (refused : accept value = false) :
    Gives (Grammar.filter accept rule) source none (some (.at rest expected)) := by
  refine ⟨gives.plain, fun known plain => ?_⟩
  have behind : ∃ place items, known.merge (some (.at rest expected)) = some (.at place items) ∧
      place.length ≤ rest.length := by
    rcases plain.cases with rfl | ⟨place, items, rfl⟩
    · exact ⟨rest, expected, rfl, Nat.le_refl _⟩
    · rw [Furthest.merge_at]
      split_ifs
      · exact ⟨rest, expected, rfl, Nat.le_refl _⟩
      · exact ⟨place, _, rfl, by omega⟩
      · exact ⟨place, items, rfl, by omega⟩
  obtain ⟨place, items, same, within⟩ := behind
  have kept : Furthest.add (some (.at place items)) ⟨rest, source, none, []⟩ =
      some (.at place items) := by
    simp [Furthest.add, Failure.at, Nat.not_lt.2 within]
  rw [Grammar.filter, gives.runs known plain, same]
  show (if accept value = true then _ else _) = _
  rw [if_neg (by simp [refused]), kept]

theorem one {accept : Char → Bool} {c : Char} (accepted : accept c = true)
    (expected : List Expected) (rest : List Char) :
    Gives (one accept expected) (c :: rest) (some (c, rest)) none :=
  ⟨Furthest.plain_none, fun known _ => by
    rw [Grammar.one, if_pos accepted, Furthest.merge_none]⟩

theorem one_none {accept : Char → Bool} (stops : Stops accept source) (expected : List Expected) :
    Gives (Grammar.one accept expected) source none (some (.at source expected)) := by
  refine ⟨Furthest.plain_at source expected, fun known plain => ?_⟩
  rw [one_of_stops stops, plain.add_at]

theorem char (c : Char) (rest : List Char) : Gives (char c) (c :: rest) (some (c, rest)) none :=
  @one (· == c) c (beq_self_eq_true c) [.char c] rest

theorem char_none {c : Char} (stops : Stops (· == c) source) :
    Gives (Grammar.char c) source none (some (.at source [.char c])) :=
  one_none stops _

/-- Repeating a rule for one character reads the longest run. -/
theorem many_one (accept : Char → Bool) (expected : List Expected) (source : List Char) :
    Gives (Grammar.many (Grammar.one accept expected)) source
      (some (source.takeWhile accept, source.dropWhile accept))
      (some (.at (source.dropWhile accept) expected)) := by
  induction source with
  | nil => exact (one_none (stops_nil accept) expected).many_none
  | cons c rest ih =>
    cases accepted : accept c with
    | true =>
      rw [List.takeWhile_cons_of_pos accepted, List.dropWhile_cons_of_pos accepted]
      have first := (one accepted expected rest).many (Nat.lt_succ_self _) ih
      rwa [Furthest.none_merge] at first
    | false =>
      rw [List.takeWhile_cons_of_neg (by simp [accepted]),
        List.dropWhile_cons_of_neg (by simp [accepted])]
      exact (one_none ((stops_cons accept c rest).2 accepted) expected).many_none

end Gives

/-- A rule has a result on a text. None of its failures lies beyond a place, and it expected the
given items there. -/
def Does (rule : Rule α) (source : List Char) (result : Option (α × List Char))
    (place : List Char) (items : List Expected) : Prop :=
  ∃ own, Gives rule source result own ∧ own.UpTo place items

namespace Does

variable {rule other : Rule α} {f : α → Rule β} {source middle rest place : List Char}
  {value : α} {result : Option (α × List Char)} {items more : List Expected}

theorem congr (does : Does rule source result place items)
    (same : ∀ item, item ∈ items ↔ item ∈ more) : Does rule source result place more := by
  obtain ⟨own, gives, upTo⟩ := does
  exact ⟨own, gives, upTo.congr same⟩

theorem earlier (does : Does rule source result place items) {further : List Char}
    (earlier : further.length < place.length) : Does rule source result further [] := by
  obtain ⟨own, gives, upTo⟩ := does
  exact ⟨own, gives, upTo.earlier earlier⟩

theorem behind (does : Does rule source result place []) {further : List Char}
    (suffix : further <:+ place) : Does rule source result further [] := by
  rcases Nat.lt_or_ge further.length place.length with later | level
  · exact does.earlier later
  · rwa [suffix.eq_of_length_le level]

theorem pure (value : α) (source place : List Char) :
    Does (pure value) source (some (value, source)) place [] :=
  ⟨none, Gives.pure value source, .nothing⟩

theorem bind {result : Option (β × List Char)}
    (does : Does rule source (some (value, middle)) place items)
    (step : Does (f value) middle result place more) :
    Does (rule >>= f) source result place (items ++ more) := by
  obtain ⟨first, gives, upTo⟩ := does
  obtain ⟨second, follows, also⟩ := step
  exact ⟨_, gives.bind follows, upTo.merge also⟩

theorem bind_none (does : Does rule source none place items) :
    Does (rule >>= f) source none place items := by
  obtain ⟨own, gives, upTo⟩ := does
  exact ⟨own, gives.bind_none, upTo⟩

theorem map (does : Does rule source (some (value, rest)) place items) (image : α → β) :
    Does (rule >>= fun value => Pure.pure (image value)) source (some (image value, rest)) place
      items := by
  have mapped := does.bind (f := fun value => Pure.pure (image value))
    (pure (image value) rest place)
  rwa [List.append_nil] at mapped

theorem orElse (does : Does rule source (some (value, rest)) place items) (other : Rule α) :
    Does (orElse rule other) source (some (value, rest)) place items := by
  obtain ⟨own, gives, upTo⟩ := does
  exact ⟨own, gives.orElse other, upTo⟩

theorem orElse_none (does : Does rule source none place items)
    (instead : Does other source result place more) :
    Does (Grammar.orElse rule other) source result place (items ++ more) := by
  obtain ⟨first, gives, upTo⟩ := does
  obtain ⟨second, follows, also⟩ := instead
  exact ⟨_, gives.orElse_none follows, upTo.merge also⟩

theorem optional (does : Does rule source (some (value, rest)) place items) :
    Does (optional rule) source (some (some value, rest)) place items :=
  (does.map some).orElse _

theorem optional_none (does : Does rule source none place items) :
    Does (Grammar.optional rule) source (some (none, source)) place items := by
  have absent := (does.bind_none (f := fun value => Pure.pure (some value))).orElse_none
    (pure none source place)
  rwa [List.append_nil] at absent

theorem fail (source place : List Char) : Does (fail : Rule α) source none place [] :=
  ⟨none, Gives.fail source, .nothing⟩

/-- The first rule that succeeds is taken. -/
theorem firstOf (before after : List (Rule α))
    (each : ∀ rule ∈ before, Does rule source none place [])
    (does : Does rule source (some (value, rest)) place items) :
    Does (firstOf (before ++ rule :: after)) source (some (value, rest)) place items := by
  induction before with
  | nil => exact does.orElse _
  | cons first before ih =>
    exact (each first List.mem_cons_self).orElse_none
      (ih (fun other member => each other (List.mem_cons_of_mem first member)))

theorem many {values : List α} (does : Does rule source (some (value, middle)) place items)
    (shorter : middle.length < source.length)
    (step : Does (many rule) middle (some (values, rest)) place more) :
    Does (Grammar.many rule) source (some (value :: values, rest)) place (items ++ more) := by
  obtain ⟨first, gives, upTo⟩ := does
  obtain ⟨second, follows, also⟩ := step
  exact ⟨_, gives.many shorter follows, upTo.merge also⟩

theorem many_none (does : Does rule source none place items) :
    Does (Grammar.many rule) source (some ([], source)) place items := by
  obtain ⟨own, gives, upTo⟩ := does
  exact ⟨own, gives.many_none, upTo⟩

theorem filter_none (does : Does rule source none place items) (accept : α → Bool) :
    Does (filter accept rule) source none place items := by
  obtain ⟨own, gives, upTo⟩ := does
  exact ⟨own, ⟨gives.plain, fun known plain => by rw [filter, gives.runs known plain]⟩, upTo⟩

/-- A label says nothing of what is expected later. -/
theorem labelled (does : Does rule source result place items)
    (later : place.length < source.length) (label : Expected) :
    Does (labelled label rule) source result place items := by
  obtain ⟨own, gives, upTo⟩ := does
  refine ⟨_, gives.labelled label, ?_⟩
  cases upTo with
  | nothing => exact .nothing
  | before earlier =>
    show Furthest.UpTo place [] (some (if _ then _ else _))
    split
    · exact .before earlier
    · exact .before earlier
  | there same =>
    rw [Furthest.relabel_later later]
    exact .there same

theorem char (c : Char) (rest place : List Char) :
    Does (char c) (c :: rest) (some (c, rest)) place [] :=
  ⟨none, Gives.char c rest, .nothing⟩

theorem char_none {c : Char} (stops : Stops (· == c) source) :
    Does (Grammar.char c) source none source [.char c] :=
  ⟨_, Gives.char_none stops, .there (fun _ => Iff.rfl)⟩

theorem many_one (accept : Char → Bool) (expected : List Expected) (source : List Char) :
    Does (Grammar.many (one accept expected)) source
      (some (source.takeWhile accept, source.dropWhile accept)) (source.dropWhile accept)
      expected :=
  ⟨_, Gives.many_one accept expected source, .there (fun _ => Iff.rfl)⟩

/-- A closing brace is all that is missing. -/
theorem closed {after : List Char}
    (does : Does rule source (some (value, '}' :: after)) place items)
    (later : after.length < place.length) :
    Does (closed rule) source (some (value, after)) after [] :=
  (does.earlier later).bind (f := fun value => do let _ ← Grammar.char '}'; Pure.pure value)
    ((char '}' after after).map (fun _ => value))

theorem closed_none (does : Does rule source (some (value, rest)) rest items)
    (stops : Stops (· == '}') rest) :
    Does (Grammar.closed rule) source none rest (items ++ [.char '}']) :=
  does.bind (f := fun value => do let _ ← Grammar.char '}'; Pure.pure value)
    (char_none stops).bind_none

theorem closed_earlier (does : Does rule source (some (value, rest)) place items)
    (stops : Stops (· == '}') rest) (later : place.length < rest.length) :
    Does (Grammar.closed rule) source none place items := by
  have refused := ((char_none stops).earlier later).bind_none (f := fun _ => Pure.pure value)
  have whole := does.bind (f := fun value => do let _ ← Grammar.char '}'; Pure.pure value) refused
  rwa [List.append_nil] at whole

end Does

/-! ### Repetition -/

/-- The result of a rule with its value replaced. -/
def mapValue (image : α → β) (result : Option (α × List Char)) : Option (β × List Char) :=
  result.map (Prod.map image id)

/-- Repeating a rule never fails, and never gives back more than was there. -/
theorem exists_many (rule : Rule α) (source : List Char) (known : Furthest) :
    ∃ values rest later, many rule source known = (some (values, rest), later) ∧
      rest.length ≤ source.length := by
  induction length : source.length using Nat.strongRecOn generalizing source known with
  | ind size ih =>
    subst length
    rw [many]
    split
    · exact ⟨[], source, _, rfl, Nat.le_refl _⟩
    · next value rest later read =>
      split
      · next shorter =>
        obtain ⟨values, left, last, again, within⟩ := ih rest.length shorter rest later rfl
        rw [again]
        exact ⟨value :: values, left, last, rfl, by omega⟩
      · exact ⟨[], source, _, rfl, Nat.le_refl _⟩

/-- Rules with the same failures whose values are images of each other keep so when closed. -/
theorem closed_of_map {rule : Rule β} {other : Rule α} {image : α → β}
    {source middle : List Char} {known later : Furthest}
    (same : rule source known =
      (mapValue image (other middle later).1, (other middle later).2)) :
    closed rule source known =
      (mapValue image (closed other middle later).1, (closed other middle later).2) := by
  rcases result : other middle later with ⟨_ | ⟨value, rest⟩, last⟩
  · rw [result] at same
    have refused : closed other middle later = (none, last) := bind_of_none result
    rw [refused]
    exact bind_of_none same
  · rw [result] at same
    have mapped : rule source known = (some (image value, rest), last) := same
    have left : closed other middle later = _ := bind_of_some result
    have right : closed rule source known = _ := bind_of_some mapped
    rw [left, right]
    rcases brace : char '}' rest last with ⟨_ | ⟨c, after⟩, final⟩
    · rw [bind_of_none brace, bind_of_none brace]
      rfl
    · rw [bind_of_some brace, bind_of_some brace]
      rfl

/-- What is repeated is read before what is repeated after it. -/
theorem Does.closed_many {rule : Rule α} {source middle place : List Char} {value : α}
    {result : Option (List α × List Char)} {items more : List Expected}
    (does : Does rule source (some (value, middle)) place items)
    (shorter : middle.length < source.length)
    (step : Does (Grammar.closed (Grammar.many rule)) middle result place more) :
    Does (Grammar.closed (Grammar.many rule)) source (mapValue (value :: ·) result) place
      (items ++ more) := by
  obtain ⟨first, gives, upTo⟩ := does
  obtain ⟨second, follows, also⟩ := step
  refine ⟨_, ⟨gives.plain.merge follows.plain, fun known plain => ?_⟩, upTo.merge also⟩
  have again := follows.runs _ (plain.merge gives.plain)
  obtain ⟨values, rest, later, read, -⟩ := exists_many rule middle (known.merge first)
  have same : Grammar.many rule source known =
      (mapValue (value :: ·) (Grammar.many rule middle (known.merge first)).1,
        (Grammar.many rule middle (known.merge first)).2) := by
    rw [Grammar.many, gives.runs known plain]
    dsimp only
    rw [if_pos shorter, read]
    rfl
  rw [closed_of_map same, again, plain.merge_assoc gives.plain follows.plain]

/-- A rule that reads something may be repeated instead of being repeated at least once. -/
theorem Does.oneOrMore_of_many {rule : Rule α} {source place : List Char}
    {result : Option (List α × List Char)} {items : List Expected}
    (once : ∀ known : Furthest, known.Plain → ∃ value middle later,
      rule source known = (some (value, middle), later) ∧ middle.length < source.length)
    (many : Does (Grammar.closed (Grammar.many rule)) source result place items) :
    Does (Grammar.closed (oneOrMore rule)) source result place items := by
  obtain ⟨own, gives, upTo⟩ := many
  refine ⟨own, ⟨gives.plain, fun known plain => ?_⟩, upTo⟩
  obtain ⟨value, middle, later, first, shorter⟩ := once known plain
  obtain ⟨values, rest, last, more, -⟩ := exists_many rule middle later
  have repeated : Grammar.many rule source known = (some (value :: values, rest), last) := by
    rw [Grammar.many, first]
    dsimp only
    rw [if_pos shorter, more]
  have once : oneOrMore rule source known = (some (value :: values, rest), last) := by
    have begun : oneOrMore rule source known = _ := bind_of_some first
    rw [begun, bind_of_some more]
    rfl
  have left : Grammar.closed (oneOrMore rule) source known = _ := bind_of_some once
  have right : Grammar.closed (Grammar.many rule) source known = _ := bind_of_some repeated
  rw [left, ← right, gives.runs known plain]

end Narrative.Grammar
