import Narrative.Proofs.Parsing
import Narrative.Session

/-!
Guards in headings. A heading takes the characters before its colon as they stand, and the evaluator
of comparisons answers exactly these. But a bar, a brace or a colon ends the label of a heading,
also inside quotes, so the language of guards is larger than what a heading can hold: no guard with
`||` stands in one. Main statement: a guard without those characters is answered in a heading as it
is by itself, and no other guard is in the heading of any directive.
-/

set_option autoImplicit false

namespace Narrative

open Written (isGap isLabel isArgumentText)

/-- The source of a conditional with the answers `yes` and `no`. -/
def questionSource (guard : String) : String := "\x7b" ++ guard ++ ": yes|no\x7d"

namespace Written

/-- The written form of `questionSource`. -/
def question (guard : String) : Embed :=
  .inline (.label guard.toList [' ']) [[.text "yes".toList], [.text "no".toList]]

theorem spell_question (guard : String) :
    spellPieces [.embed (question guard)] = (questionSource guard).toList := by
  simp [spellPieces, Piece.spell, question, Embed.spell, Opening.spell, spellArguments,
    questionSource]

theorem legible_question {guard : String} (nonempty : guard.toList ≠ [])
    (labels : ∀ c ∈ guard.toList, isLabel c = true) : (question guard).Legible := by
  have gaps : ∀ c ∈ [' '], isGap c = true := List.all_eq_true.1 (by decide)
  have yes : ∀ c ∈ "yes".toList, isArgumentText c = true := List.all_eq_true.1 (by decide)
  have no : ∀ c ∈ "no".toList, isArgumentText c = true := List.all_eq_true.1 (by decide)
  exact ⟨by simp, ⟨nonempty, labels, gaps, (stops_cons isGap 'y' _).2 rfl⟩,
    ⟨⟨⟨by decide, yes⟩, rfl, trivial⟩, ⟨⟨by decide, no⟩, rfl, trivial⟩, trivial⟩⟩

/-- A label that spells no discipline is a condition. -/
theorem Opening.heading_condition (start : Position) {guard : String} (gap : List Char)
    (unmarked : Discipline.ofWord? guard = none) :
    (Opening.label guard.toList gap).heading start =
      .condition ⟨guard, Span.ofText start guard.toList⟩ := by
  rw [heading, String.ofList_toList, unmarked, guardAt, String.ofList_toList]

theorem exists_place_question (identify : Span → String) (start : Position) {guard : String}
    (unmarked : Discipline.ofWord? guard = none) :
    ∃ identity asked first second span,
      (question guard).place identify start = ⟨identity, .conditional, .condition ⟨guard, asked⟩,
        .inline, [⟨none, [.text "yes"], first⟩, ⟨none, [.text "no"], second⟩], span⟩ := by
  simp only [question, Embed.place, Opening.heading_condition _ _ unmarked, Heading.kind]
  exact ⟨_, _, _, _, _, rfl⟩

theorem Opening.Fits.isLabel_of_mem {opening : Opening} {after : List Char}
    (fits : opening.Fits after) {start : Position} {guard : Guard}
    (guarded : (opening.heading start).guard? = some guard) :
    ∀ c ∈ guard.text.toList, isLabel c = true := by
  cases opening with
  | bare => cases guarded
  | sign sign gap => cases guarded
  | label text gap =>
    unfold heading at guarded
    dsimp only at guarded
    split at guarded
    · cases guarded
    · cases guarded
      rw [guardAt, String.toList_ofList]
      exact fits.2.1

/-- The guard of a heading holds only characters of labels. -/
theorem Placed.isLabel_of_mem {identify : Span → String} {start : Position} {text : List Char}
    {directive : Directive} (placed : Placed identify start text directive) {guard : Guard}
    (guarded : directive.guard? = some guard) : ∀ c ∈ guard.text.toList, isLabel c = true := by
  obtain ⟨front, value, back, -, legible, rfl⟩ := placed
  cases value with
  | inline opening arguments => exact legible.2.1.isLabel_of_mem guarded
  | block opening margin entries => exact legible.2.1.isLabel_of_mem guarded

end Written

/-- A conditional with two texts shows the one that its guard asks for. -/
theorem Directive.resolve_texts (answer : String → Except String Bool) (trail : Trail)
    (identity : String) {guard : Guard} {passes : Bool} (answered : answer guard.text = .ok passes)
    (yes no : String) (first second span : Span) :
    Directive.resolve answer ⟨identity, .conditional, .condition guard, .inline,
        [⟨none, [.text yes], first⟩, ⟨none, [.text no], second⟩], span⟩ trail =
      (.ok (if passes then yes else no), trail) := by
  have kept (index : Option Nat) :
      (Except.ok index : Except EvaluationError (Option Nat)).mapError ResolutionError.evaluation =
        .ok index := rfl
  cases passes <;>
    simp [Directive.resolve, Directive.choose, Directive.problem?, Directive.violation?,
      Directive.chooseConditional, Directive.guard?, Heading.guard?, checkGuard, Guard.check,
      answered, kept, resolveAt, Branch.resolve, resolveNodes, Node.resolve, Directive.finish]

theorem Document.parse_questionSource {options : ParseOptions} (deep : 1 ≤ options.maxDepth)
    {guard : String} (nonempty : guard ≠ "") (labels : ∀ c ∈ guard.toList, isLabel c = true) :
    Document.parse options (questionSource guard) = .ok ⟨options.document,
      [.directive ((Written.question guard).place (options.naming options.document) .start)]⟩ := by
  refine Document.parse_eq_ok_iff.2 ⟨[.embed (Written.question guard)],
    Written.spell_question guard, ⟨Written.legible_question ?_ labels, trivial⟩, deep, rfl⟩
  simpa using nonempty

/-- A guard that a heading can hold is answered there as it is by itself, in every fresh session
and whatever the name of the document. A heading can hold a guard without line ends, bars, braces
and colons, and no directive of any source has another guard in its heading. -/
theorem Session.render_questionSource {guard : String}
    (unmarked : Discipline.ofWord? guard = none) :
    ((∀ c ∈ guard.toList, isLabel c = true) → ∀ (bindings : Bindings) (answer : Bool),
      GuardText.evaluate bindings guard = .ok answer →
      ∀ (settings : Settings) (random : RandomSource) (name : String),
        ((Session.withSource settings comparisonEvaluator random).render name
          (questionSource guard) bindings).1 = .ok (if answer then "yes" else "no")) ∧
    ((∃ c ∈ guard.toList, isLabel c = false) →
      ∀ (options : ParseOptions) (source : String) (document : Document),
        Document.parse options source = .ok document →
        ∀ directive ∈ document.directives, ∀ asked, directive.guard? = some asked →
          asked.text ≠ guard) := by
  constructor
  · intro labels bindings answer evaluates settings random name
    have nonempty : guard ≠ "" := by
      rintro rfl
      cases evaluates
    have parsed : (Session.withSource settings comparisonEvaluator random).parse name
        (questionSource guard) = _ :=
      Document.parse_questionSource (Nat.le_max_right settings.maxDepth 1) nonempty labels
    have answered : comparisonEvaluator bindings guard = .ok answer := by
      rw [comparisonEvaluator, evaluates]
      rfl
    obtain ⟨identity, asked, first, second, span, placed⟩ := Written.exists_place_question
      (settings.naming name) .start unmarked
    have shown := Directive.resolve_texts (comparisonEvaluator bindings) ⟨.empty, random⟩ identity
      (show comparisonEvaluator bindings (Guard.mk guard asked).text = .ok answer from answered)
      "yes" "no" first second span
    have visit : resolveNodes (comparisonEvaluator bindings)
        [.directive ((Written.question guard).place (settings.naming name) .start)]
        ⟨.empty, random⟩ = (.ok (if answer then "yes" else "no"), ⟨.empty, random⟩) := by
      simp only [placed, resolveNodes, Node.resolve, shown, String.append_empty]
    rw [Session.render, parsed]
    dsimp only
    rw [Session.resolve]
    erw [visit]
    rfl
  · rintro ⟨c, inside, outside⟩ options source document parsed directive member asked guarded rfl
    rw [(Document.placed_of_mem parsed member).isLabel_of_mem guarded c inside] at outside
    cases outside

/-- A guard with two terms, a quoted text with signs inside, and a dash. -/
def quotedGuard : String := "!seen && name != 'a-b <=> !c'"

def quotedBindings : Bindings :=
  (KeyMap.empty.insert "seen" (.bool false)).insert "name" (.text "a")

theorem Session.render_questionSource_quoted :
    Discipline.ofWord? quotedGuard = none ∧ (∀ c ∈ quotedGuard.toList, isLabel c = true) ∧
      GuardText.evaluate quotedBindings quotedGuard = .ok true ∧
      ((Session.new {} comparisonEvaluator).render "d" (questionSource quotedGuard)
        quotedBindings).1 = .ok "yes" := by
  have unmarked : Discipline.ofWord? quotedGuard = none := by decide
  have labels : ∀ c ∈ quotedGuard.toList, isLabel c = true := List.all_eq_true.1 (by decide)
  have evaluates : GuardText.evaluate quotedBindings quotedGuard = .ok true :=
    eq_ok_of_toOption (by decide +kernel)
  exact ⟨unmarked, labels, evaluates, (Session.render_questionSource unmarked).1 labels
    quotedBindings true evaluates {} (Keystream.source 42) "d"⟩

def alternativeBindings : Bindings :=
  (KeyMap.empty.insert "a" (.bool true)).insert "b" (.bool false)

/-- A guard with alternatives has an answer but is no guard in a heading: what shows there is the
first entry of a list, up to the first bar. -/
theorem Session.not_render_questionSource :
    ¬ ∀ (guard : String), Discipline.ofWord? guard = none →
      (∀ c ∈ guard.toList, c ≠ '\r' ∧ c ≠ '\n') → ∀ (bindings : Bindings) (answer : Bool),
      GuardText.evaluate bindings guard = .ok answer →
      ((Session.new {} comparisonEvaluator).render "d" (questionSource guard) bindings).1 =
        .ok (if answer then "yes" else "no") := by
  intro claim
  have oneLine : ∀ c ∈ "a || b".toList, c ≠ '\r' ∧ c ≠ '\n' := by simp
  have shown := claim "a || b" (by decide) oneLine alternativeBindings true
    (eq_ok_of_toOption (by decide +kernel))
  have first : ((Session.new {} comparisonEvaluator).render "d" (questionSource "a || b")
      alternativeBindings).1 = .ok "a " := eq_ok_of_toOption (by decide +kernel)
  rw [first] at shown
  exact absurd (Except.ok.inj shown) (by decide)

end Narrative
