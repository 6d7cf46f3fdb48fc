import Narrative.Source.Reader

/-!
Longest runs of characters. `Stops` says that a run ends where a text begins, and a run that ends
so is what `takeWhile` and `dropWhile` cut off. The same is said of labels, whose run must end in a
colon.
-/

set_option autoImplicit false

namespace Narrative

/-- No run of accepted characters goes on into the text. -/
def Stops (accept : Char → Bool) (text : List Char) : Prop :=
  ∀ c, text.head? = some c → accept c = false

@[simp] theorem stops_nil (accept : Char → Bool) : Stops accept [] := by simp [Stops]

@[simp] theorem stops_cons (accept : Char → Bool) (c : Char) (text : List Char) :
    Stops accept (c :: text) ↔ accept c = false := by
  simp [Stops]

theorem stops_dropWhile (accept : Char → Bool) (text : List Char) :
    Stops accept (text.dropWhile accept) := by
  intro c head
  have found := List.head?_dropWhile_not accept text
  simpa [head] using found

theorem Stops.append {accept : Char → Bool} {front back : List Char} (atFront : Stops accept front)
    (atBack : Stops accept back) : Stops accept (front ++ back) := by
  cases front with
  | nil => exact atBack
  | cons c rest => simpa using atFront

theorem Stops.of_append {accept : Char → Bool} {front back : List Char}
    (stops : Stops accept (front ++ back)) : Stops accept front := by
  cases front with
  | nil => exact stops_nil accept
  | cons c rest => simpa using stops

/-- Where a text begins is settled before a character that no run goes over. -/
theorem stops_append_cons {accept : Char → Bool} {front rest : List Char} {c : Char}
    (outside : accept c = false) : Stops accept (front ++ c :: rest) ↔ Stops accept front :=
  ⟨Stops.of_append, fun stops => stops.append (by simpa using outside)⟩

theorem Stops.mono {small big : Char → Bool} {text : List Char} (stops : Stops big text)
    (le : ∀ c, small c = true → big c = true) : Stops small text := by
  intro c head
  have outside := stops c head
  cases inside : small c with
  | false => rfl
  | true => rw [le c inside] at outside; cases outside

theorem accept_of_mem_takeWhile {accept : Char → Bool} {text : List Char} :
    ∀ c ∈ text.takeWhile accept, accept c = true :=
  List.all_eq_true.1 List.all_takeWhile

/-- Every text begins with a run that stops. -/
theorem exists_run (accept : Char → Bool) (text : List Char) :
    ∃ run rest, run ++ rest = text ∧ (∀ c ∈ run, accept c = true) ∧ Stops accept rest :=
  ⟨_, _, List.takeWhile_append_dropWhile, accept_of_mem_takeWhile, stops_dropWhile accept text⟩

/-- A run that stops is cut off whole. -/
theorem takeWhile_run {accept : Char → Bool} {run rest : List Char}
    (all : ∀ c ∈ run, accept c = true) (stops : Stops accept rest) :
    (run ++ rest).takeWhile accept = run := by
  rw [List.takeWhile_append_of_pos all]
  cases rest with
  | nil => simp
  | cons c rest => simp [(stops_cons accept c rest).1 stops]

theorem dropWhile_run {accept : Char → Bool} {run rest : List Char}
    (all : ∀ c ∈ run, accept c = true) (stops : Stops accept rest) :
    (run ++ rest).dropWhile accept = rest := by
  rw [List.dropWhile_append_of_pos all]
  cases rest with
  | nil => rfl
  | cons c rest => simp [(stops_cons accept c rest).1 stops]

/-- Runs that stop where other runs stop are the same runs. -/
theorem run_inj {accept : Char → Bool} {run other rest back : List Char}
    (all : ∀ c ∈ run, accept c = true) (allToo : ∀ c ∈ other, accept c = true)
    (stops : Stops accept rest) (stopsToo : Stops accept back)
    (same : run ++ rest = other ++ back) : run = other ∧ rest = back := by
  have fronts := congrArg (List.takeWhile accept) same
  have backs := congrArg (List.dropWhile accept) same
  rw [takeWhile_run all stops, takeWhile_run allToo stopsToo] at fronts
  rw [dropWhile_run all stops, dropWhile_run allToo stopsToo] at backs
  exact ⟨fronts, backs⟩

theorem dropWhile_of_stops {accept : Char → Bool} {text : List Char} (stops : Stops accept text) :
    text.dropWhile accept = text := by
  simpa using dropWhile_run (show ∀ c ∈ [], accept c = true by simp) stops

theorem takeWhile_of_stops {accept : Char → Bool} {text : List Char} (stops : Stops accept text) :
    text.takeWhile accept = [] := by
  simpa using takeWhile_run (show ∀ c ∈ [], accept c = true by simp) stops

theorem dropWhile_ne_nil {accept : Char → Bool} {text : List Char} {c : Char} (member : c ∈ text)
    (outside : accept c = false) : text.dropWhile accept ≠ [] := by
  intro empty
  have whole := @List.takeWhile_append_dropWhile _ accept text
  rw [empty, List.append_nil] at whole
  have inside := accept_of_mem_takeWhile c (whole.symm ▸ member)
  rw [outside] at inside
  cases inside

namespace Written

/-! ### Classes of characters -/

theorem isSpace_of_isGap {c : Char} (gap : isGap c = true) : isSpace c = true := by
  simp [isSpace, gap]

theorem isTopText_of_isSpace {c : Char} (space : isSpace c = true) : isTopText c = true := by
  simp only [isSpace, isGap, Bool.or_eq_true, beq_iff_eq] at space
  rcases space with ((rfl | rfl) | rfl) | rfl <;> rfl

theorem isTopText_of_isGap {c : Char} (gap : isGap c = true) : isTopText c = true :=
  isTopText_of_isSpace (isSpace_of_isGap gap)

theorem isTopText_of_isLabel {c : Char} (label : isLabel c = true) : isTopText c = true := by
  simp only [isLabel, Bool.and_eq_true] at label
  simp [isTopText, label]

theorem isTopText_of_isArgumentText {c : Char} (text : isArgumentText c = true) :
    isTopText c = true := by
  simp only [isArgumentText, Bool.and_eq_true] at text
  simp [isTopText, text]

theorem isTopText_of_isEntryText {c : Char} (text : isEntryText c = true) :
    isTopText c = true := by
  simp only [isEntryText, Bool.and_eq_true] at text
  simp [isTopText, text]

theorem isTopText_sign (sign : Sign) : isTopText sign.char = true := by cases sign <;> rfl

theorem isTopText_lineBreak {carriage : Bool} : ∀ c ∈ lineBreak carriage, isTopText c = true := by
  cases carriage <;> exact List.all_eq_true.1 rfl

/-! ### Labels -/

/-- A label with its colon begins the text. -/
def Labelled (source : List Char) : Prop :=
  ∃ text rest, text ≠ [] ∧ (∀ c ∈ text, isLabel c = true) ∧ source = text ++ ':' :: rest

theorem label?_eq_some_iff {source text gap rest : List Char} :
    label? source = some (text, gap, rest) ↔
      text ≠ [] ∧ (∀ c ∈ text, isLabel c = true) ∧ (∀ c ∈ gap, isGap c = true) ∧
        Stops isGap rest ∧ source = text ++ ':' :: (gap ++ rest) := by
  constructor
  · intro found
    unfold label? at found
    split at found
    · next first chars after run colon =>
      simp only [Option.some.injEq, Prod.mk.injEq] at found
      obtain ⟨rfl, rfl, rfl⟩ := found
      refine ⟨by simp, ?_, accept_of_mem_takeWhile, stops_dropWhile isGap after, ?_⟩
      · rw [← run]
        exact accept_of_mem_takeWhile
      · rw [List.takeWhile_append_dropWhile, ← colon, ← run, List.takeWhile_append_dropWhile]
    · cases found
  · rintro ⟨nonempty, labels, gaps, stops, rfl⟩
    obtain ⟨first, chars, rfl⟩ := List.exists_cons_of_ne_nil nonempty
    have colon : Stops isLabel (':' :: (gap ++ rest)) := by simp [isLabel]
    rw [label?, takeWhile_run labels colon, dropWhile_run labels colon]
    simp only [takeWhile_run gaps stops, dropWhile_run gaps stops]

theorem label?_eq_none_iff {source : List Char} : label? source = none ↔ ¬ Labelled source := by
  constructor
  · rintro missing ⟨text, rest, nonempty, labels, rfl⟩
    have found : label? (text ++ ':' :: rest) =
        some (text, rest.takeWhile isGap, rest.dropWhile isGap) :=
      label?_eq_some_iff.2 ⟨nonempty, labels, accept_of_mem_takeWhile,
        stops_dropWhile isGap rest, by rw [List.takeWhile_append_dropWhile]⟩
    rw [missing] at found
    cases found
  · intro unlabelled
    cases found : label? source with
    | none => rfl
    | some label =>
      obtain ⟨text, gap, rest⟩ := label
      obtain ⟨nonempty, labels, -, -, split⟩ := label?_eq_some_iff.1 found
      exact absurd ⟨text, gap ++ rest, nonempty, labels, split⟩ unlabelled

/-- Whether a label begins a text is settled before the first character that neither continues nor
ends one. -/
theorem labelled_append_cons {front rest : List Char} {c : Char} (outside : isLabel c = false)
    (colon : c ≠ ':') : Labelled (front ++ c :: rest) ↔ Labelled front := by
  constructor
  · rintro ⟨text, after, nonempty, labels, split⟩
    rcases List.append_eq_append_iff.1 split with ⟨more, rfl, back⟩ | ⟨more, rfl, back⟩
    · cases more with
      | nil => exact absurd (List.cons.inj back).1 colon
      | cons first more =>
        obtain ⟨rfl, -⟩ := List.cons.inj back
        rw [labels c (by simp)] at outside
        cases outside
    · cases more with
      | nil => exact absurd (List.cons.inj back).1.symm colon
      | cons first more =>
        obtain ⟨rfl, -⟩ := List.cons.inj back
        exact ⟨text, more, nonempty, labels, rfl⟩
  · rintro ⟨text, after, nonempty, labels, rfl⟩
    exact ⟨text, after ++ c :: rest, nonempty, labels, by simp⟩

theorem labelled_append_close {front rest : List Char} :
    Labelled (front ++ '}' :: rest) ↔ Labelled front :=
  labelled_append_cons rfl (by decide)

/-- No label that begins before a text has its colon in it. -/
def Unlabelling (back : List Char) : Prop := ∀ front, Labelled (front ++ back) → Labelled front

theorem Labelled.append {front : List Char} (labelled : Labelled front) (back : List Char) :
    Labelled (front ++ back) := by
  obtain ⟨text, rest, nonempty, labels, rfl⟩ := labelled
  exact ⟨text, rest ++ back, nonempty, labels, by simp⟩

theorem unlabelling_nil : Unlabelling [] := by
  intro front labelled
  rwa [List.append_nil] at labelled

theorem unlabelling_cons {c : Char} (rest : List Char) (outside : isLabel c = false)
    (colon : c ≠ ':') : Unlabelling (c :: rest) :=
  fun _ => (labelled_append_cons outside colon).1

theorem unlabelling_run {run : List Char} (free : ∀ c ∈ run, c ≠ ':') : Unlabelling run := by
  rintro front ⟨text, rest, nonempty, labels, split⟩
  rcases List.append_eq_append_iff.1 split with ⟨more, -, back⟩ | ⟨more, rfl, back⟩
  · exact absurd rfl (free ':' (by simp [back]))
  · cases more with
    | nil =>
      obtain rfl : ':' :: rest = run := back
      exact absurd rfl (free ':' List.mem_cons_self)
    | cons first more =>
      obtain ⟨rfl, -⟩ := List.cons.inj back
      exact ⟨text, more, nonempty, labels, rfl⟩

theorem Unlabelling.append {run back : List Char} (free : ∀ c ∈ run, c ≠ ':')
    (unlabelling : Unlabelling back) : Unlabelling (run ++ back) := by
  intro front labelled
  rw [← List.append_assoc] at labelled
  exact unlabelling_run free front (unlabelling _ labelled)

theorem stops_lineBreak {accept : Char → Bool} (carriage : Bool) (below : List Char)
    (outside : accept '\r' = false ∧ accept '\n' = false) :
    Stops accept (lineBreak carriage ++ below) := by
  cases carriage <;> simp [lineBreak, outside]

/-- A text without colons on its first line begins with no label. -/
theorem not_labelled_line {front : List Char} (colon : ':' ∉ front) (carriage : Bool)
    (below : List Char) : ¬ Labelled (front ++ (lineBreak carriage ++ below)) := by
  have first : ¬ Labelled front := by
    rintro ⟨text, rest, -, -, rfl⟩
    exact colon (by simp)
  cases carriage with
  | false => rwa [lineBreak, if_neg (by simp), List.singleton_append,
      labelled_append_cons rfl (by decide)]
  | true => rwa [lineBreak, if_pos rfl, List.cons_append, labelled_append_cons rfl (by decide)]

end Written

/-- The words for disciplines are labels. -/
theorem Discipline.isLabel_word (kind : Discipline) :
    kind.word.toList ≠ [] ∧ ∀ c ∈ kind.word.toList, Written.isLabel c = true := by
  cases kind <;> exact ⟨by decide, List.all_eq_true.1 (by decide)⟩

end Narrative
