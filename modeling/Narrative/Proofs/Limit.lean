import Narrative.Proofs.Display
import Narrative.Proofs.Forms

/-!
The limit on depth. A source that is not nested too deep is read, or refused, as the grammar does
without any bound on its recursion: the reader mirrors the rules, and no path that they try opens
more braces than the source nests.
-/

set_option autoImplicit false

namespace Narrative

namespace Grammar

open Written

variable {α : Type} {rule : Rule α} {source place : List Char} {items : List Expected} {depth : Nat}

/-! ### Whole texts -/

theorem does_ended (place : List Char) : Does ended [] (some ((), [])) place [] :=
  ⟨none, ⟨Furthest.plain_none, fun known _ => by rw [Furthest.merge_none]; rfl⟩, .nothing⟩

theorem does_ended_none (c : Char) (rest : List Char) :
    Does ended (c :: rest) none (c :: rest) [.endOfInput] :=
  ⟨some (.at (c :: rest) [.endOfInput]), ⟨Furthest.plain_at _ _, fun known plain => by
    rw [ended, plain.add_at]⟩, .there (fun _ => Iff.rfl)⟩

/-- The rule for source texts does what the reader of source texts does. -/
theorem mirrored_read (shallow : peak 0 source ≤ depth) :
    match Written.read depth source with
    | .ok found => Does (Grammar.source embed) source (some (found, [])) [] [.text, .directive]
    | .error stuck =>
      Does (Grammar.source embed) source none stuck.rest stuck.awaiting.expected := by
  have mirrors := mirrors_embed (Room.ofPeak depth) 0 (Nat.le_of_eq (Nat.zero_add depth).symm)
  have pieces := mirrors.pieces isTopText (fun _ text => text) shallow
  have ends {found : List Piece} {rest place : List Char} {items more : List Expected}
      {result : Option (List Piece × List Char)}
      (pieces : Does (Grammar.pieces isTopText embed) source (some (found, rest)) place items)
      (ended : Does (do let _ ← ended; pure found) rest result place more) :
      Does (Grammar.source embed) source result place (items ++ more) :=
    pieces.bind (f := fun found => do let _ ← Grammar.ended; pure found) ended
  rw [Written.read]
  cases taken : Written.pieces isTopText (Written.embed depth) source with
  | error stuck =>
    rw [taken] at pieces
    obtain ⟨values, inner, -, within, does⟩ := pieces
    have later : stuck.rest.length < ('{' :: inner).length := Nat.lt_succ_of_le within
    have whole := ends does ((does_ended_none '{' inner).earlier later).bind_none
    rwa [List.append_nil] at whole
  | ok found =>
    rw [taken] at pieces
    obtain ⟨-, does⟩ := pieces
    cases left : found.rest with
    | nil =>
      rw [left] at does
      have whole := ends does ((does_ended []).map (fun _ => found.value))
      simpa [left] using whole
    | cons c rest =>
      rw [left] at does
      have whole := ends does (does_ended_none c rest).bind_none
      have stuck : Does (Grammar.source embed) source none (c :: rest) Awaiting.piece.expected := by
        refine whole.congr (fun item => ?_)
        simp only [Awaiting.expected, List.mem_append, List.mem_cons, List.not_mem_nil]
        grind
      simpa [left] using stuck

/-! ### Errors -/

/-- A rule that fails and expected something fails there. -/
theorem Does.furthest (does : Does rule source none place items) (nonempty : items ≠ []) :
    ∃ expected, (∀ item, item ∈ expected ↔ item ∈ items) ∧
      rule source none = (none, some (.at place expected)) := by
  obtain ⟨own, gives, upTo⟩ := does
  have runs := gives.runs none Furthest.plain_none
  rw [Furthest.none_merge] at runs
  cases upTo with
  | nothing => exact absurd rfl nonempty
  | before => exact absurd rfl nonempty
  | there same => exact ⟨_, same, runs⟩

theorem expected_ne_nil (awaiting : Awaiting) : awaiting.expected ≠ [] := by
  cases awaiting <;> simp [Awaiting.expected, afterArgument, afterEntry, spaces]

/-- The error of a failure where a reader is stuck is that of the reader, in whichever order things
were expected. -/
theorem toError_at {stuck : Stuck} {expected : List Expected}
    (same : ∀ item, item ∈ expected ↔ item ∈ stuck.awaiting.expected) :
    (Failure.at stuck.rest expected).toError source = SyntaxError.ofStuck source stuck := by
  have listed := @eraseReps_mergeSort_congr (expected.map Expected.display)
    (stuck.awaiting.expected.map Expected.display) (fun item => by
      simp only [List.mem_map, same])
  rw [Failure.toError, SyntaxError.ofStuck, Failure.at, listed]
  cases stuck.rest <;> rfl

end Grammar

/-! ### Documents -/

open Grammar

/-- Without a bound on the recursion the grammar comes to what the bounded reader does. -/
theorem Document.parse_of_shallow {options : ParseOptions} {source : String}
    (shallow : (Nesting.ofSource source.toList).depth ≤ options.maxDepth) :
    Document.parse options source = outcome options embed source := by
  have deep := shallow
  rw [depth_ofSource] at deep
  have mirrored := mirrored_read deep
  rw [Document.parse]
  dsimp only
  rw [if_neg (Nat.not_lt.2 shallow), outcome]
  cases result : Written.read options.maxDepth source.toList with
  | ok found =>
    rw [result] at mirrored
    obtain ⟨own, gives, -⟩ := mirrored
    rw [gives.runs none Furthest.plain_none]
  | error stuck =>
    rw [result] at mirrored
    obtain ⟨expected, same, runs⟩ := mirrored.furthest (expected_ne_nil stuck.awaiting)
    rw [runs]
    exact congrArg Except.error (toError_at same).symm

/-- The limit on depth bounds the recursion, of whatever texts. `embed` is the one rule that calls
itself for the embeds inside, with no bound. A bound which a text does not nest beyond changes
nothing of its values and failures, whatever is done `beyond` it, so no path that is tried gets
there. Once the check of the nesting is passed, the limit itself is such a bound. -/
theorem Document.parse_bounded (options : ParseOptions) (source : String) :
    (embed = embedWith embed ∧ ∀ rule, rule = embedWith rule → rule = embed) ∧
    (∀ beyond depth, (Nesting.ofSource source.toList).depth ≤ depth →
      Grammar.source (bounded beyond depth) source.toList none =
        Grammar.source embed source.toList none) ∧
    (Document.parse options source =
      if options.maxDepth < (Nesting.ofSource source.toList).depth then
        .error (.ofNesting source.toList (Nesting.ofSource source.toList) options.maxDepth)
      else outcome options embed source) ∧
    (¬ options.maxDepth < (Nesting.ofSource source.toList).depth →
      ∀ beyond, Document.parse options source =
        outcome options (bounded beyond options.maxDepth) source) := by
  have bounds {depth : Nat} (beyond : Rule Written.Embed)
      (enough : (Nesting.ofSource source.toList).depth ≤ depth) :=
    source_bounded beyond enough none
  refine ⟨⟨embed_eq, fun _ => eq_embed⟩, fun beyond _ => bounds beyond, ?_, ?_⟩
  · split
    · next deep =>
      rw [Document.parse]
      exact if_pos deep
    · next shallow => exact parse_of_shallow (Nat.not_lt.1 shallow)
  · intro shallow beyond
    have enough := Nat.not_lt.1 shallow
    rw [parse_of_shallow enough, outcome, outcome, bounds beyond enough]

/-- A block in whose entry an inline embed is not closed before its line ends. -/
def brokenSource : String := "\x7bx:\n- a \x7b~b|c\n"

/-- The limit of two is enough for it, and a bound of one is not. -/
theorem Document.parse_bounded_broken :
    (Nesting.ofSource brokenSource.toList).depth = 2 ∧
    (match Document.parse { document := "d", maxDepth := 2 } brokenSource with
      | .error error => error.position.offset
      | .ok _ => 0) = 13 ∧
    (∀ beyond, Document.parse { document := "d", maxDepth := 2 } brokenSource =
      outcome { document := "d", maxDepth := 2 } (bounded beyond 2) brokenSource) ∧
    (∀ beyond, Grammar.source (bounded beyond 2) brokenSource.toList none =
      Grammar.source embed brokenSource.toList none) ∧
    Grammar.source (bounded fail 1) brokenSource.toList none ≠
      Grammar.source embed brokenSource.toList none := by
  have nests : (Nesting.ofSource brokenSource.toList).depth = 2 := by decide +kernel
  obtain ⟨-, bounds, -, limit⟩ := parse_bounded { document := "d", maxDepth := 2 } brokenSource
  have enough (beyond : Rule Written.Embed) := bounds beyond 2 (Nat.le_of_eq nests)
  have differs : (Grammar.source (bounded fail 1) brokenSource.toList none).2.map
        (fun failure => failure.rest.length) ≠
      (Grammar.source (bounded fail 2) brokenSource.toList none).2.map
        (fun failure => failure.rest.length) := by decide +kernel
  refine ⟨nests, by decide +kernel, limit ?_, enough, fun same => differs ?_⟩
  · rw [nests]
    exact Nat.lt_irrefl 2
  · rw [same, enough fail]

end Narrative
