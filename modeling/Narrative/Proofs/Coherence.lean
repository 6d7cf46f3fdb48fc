import Narrative.Proofs.Operands

/-!
The comparisons of one pair of values. Values are of four sorts, numbers may be no number, and each
comparison is answered or refused by itself, so it is not plain that the six answers fit together.
Main statement: equality is always answered and inequality is its opposite, the orders are answered
together, for two texts or two numbers, and then the values are in one order that all six tell.
-/

set_option autoImplicit false

namespace Narrative

/-! ### Values with an order -/

/-- Whether a value is a number, and not the one that stands for no number. -/
def Value.IsNumber : Value → Prop
  | int _ => True
  | float number => number ≠ .nan
  | _ => False

/-- Two values that have an order: two texts or two numbers. -/
def Value.Ordered (left right : Value) : Prop :=
  (∃ front back, left = .text front ∧ right = .text back) ∨ left.IsNumber ∧ right.IsNumber

namespace Binary64

theorem ofMagnitude_ne_nan (negative : Bool) (magnitude : Option Magnitude) :
    ofMagnitude negative magnitude ≠ .nan := by
  cases magnitude <;> nofun

theorem ofInt_ne_nan (number : Int) : ofInt number ≠ .nan := ofMagnitude_ne_nan _ _

theorem place?_eq_none_iff {number : Binary64} : number.place? = none ↔ number = .nan := by
  cases number with
  | nan => exact ⟨fun _ => rfl, fun _ => rfl⟩
  | infinite negative => exact ⟨nofun, nofun⟩
  | finite negative magnitude => exact ⟨nofun, nofun⟩

theorem exists_compare?_iff {first second : Binary64} :
    (∃ order, first.compare? second = some order) ↔ first ≠ .nan ∧ second ≠ .nan := by
  rw [Ne, Ne, ← place?_eq_none_iff, ← place?_eq_none_iff]
  unfold compare?
  cases first.place? <;> cases second.place? <;> simp

end Binary64

namespace Value

variable {left right : Value} {order : Ordering}

/-- Booleans have an order too, but no comparison asks for it. -/
theorem exists_order?_iff : (∃ order, left.order? right = some order) ↔
    left.Ordered right ∨ ∃ front back, left = .bool front ∧ right = .bool back := by
  cases left <;> cases right <;>
    simp [order?, number?, Ordered, IsNumber, Binary64.exists_compare?_iff, Binary64.ofInt_ne_nan]

theorem Ordered.ne_bool (ordered : left.Ordered right) (flag : Bool) : left ≠ .bool flag := by
  rintro rfl
  rcases ordered with ⟨front, back, same, -⟩ | ⟨number, -⟩
  · cases same
  · exact number

theorem compare?_of_ordered (ordered : left.Ordered right) (found : left.order? right = some order)
    (comparison : Comparison) :
    left.compare? comparison right = .ok (comparison.holds order) := by
  unfold compare?
  rw [found]
  cases left with
  | bool flag => exact absurd rfl (ordered.ne_bool flag)
  | int number => rfl
  | float number => rfl
  | text content => rfl

end Value

/-! ### Answers that fit together -/

/-- Answers to the six comparisons of two things, which are in an order or in none. -/
structure Coherent (answer : Comparison → Except GuardError Bool) (ordered : Prop) : Prop where
  equality : ∃ same, answer .equal = .ok same ∧ answer .unequal = .ok (!same)
  /-- All orders are answered, or none of them is. -/
  orders : ∀ comparison ∈ [Comparison.less, .atMost, .greater, .atLeast],
    (∃ holds, answer comparison = .ok holds) ↔ ordered
  trichotomy : ordered → ∃ less same greater, answer .less = .ok less ∧
    answer .equal = .ok same ∧ answer .greater = .ok greater ∧
    [less, same, greater].count true = 1 ∧
    answer .atMost = .ok (less || same) ∧ answer .atLeast = .ok (greater || same)

section

variable {answer : Comparison → Except GuardError Bool} {ordered : Prop}

/-- Answers that are read off one order fit together. -/
theorem Coherent.of_order (holds : ordered) (order : Ordering)
    (answers : ∀ comparison, answer comparison = .ok (comparison.holds order)) :
    Coherent answer ordered where
  equality := ⟨_, answers .equal, answers .unequal⟩
  orders comparison _ := ⟨fun _ => holds, fun _ => ⟨_, answers comparison⟩⟩
  trichotomy _ := by
    refine ⟨_, _, _, answers .less, answers .equal, answers .greater, ?_, ?_, ?_⟩
    · cases order <;> rfl
    · rw [answers]
      cases order <;> rfl
    · rw [answers]
      cases order <;> rfl

/-- Answers fit together if only equality is answered. -/
theorem Coherent.of_unordered (unordered : ¬ ordered) (same : Bool)
    (equal : answer .equal = .ok same) (unequal : answer .unequal = .ok (!same))
    (refused : ∀ comparison ∈ [Comparison.less, .atMost, .greater, .atLeast],
      ∃ error, answer comparison = .error error) : Coherent answer ordered where
  equality := ⟨same, equal, unequal⟩
  orders comparison member := by
    refine ⟨?_, fun holds => absurd holds unordered⟩
    rintro ⟨holds, answered⟩
    obtain ⟨error, failed⟩ := refused comparison member
    rw [failed] at answered
    cases answered
  trichotomy holds := absurd holds unordered

end

theorem Value.coherent_compare? (left right : Value) :
    Coherent (fun comparison => left.compare? comparison right) (left.Ordered right) := by
  cases found : left.order? right with
  | none =>
    have unordered : ¬ left.Ordered right := by
      intro ordered
      obtain ⟨order, some⟩ := exists_order?_iff.2 (Or.inl ordered)
      rw [found] at some
      cases some
    refine .of_unordered unordered false ?_ ?_ ?_
    · simp [compare?, found]
    · simp [compare?, found]
    · simp [compare?, found]
  | some order =>
    rcases exists_order?_iff.1 ⟨order, found⟩ with ordered | ⟨front, back, rfl, rfl⟩
    · exact .of_order ordered order (compare?_of_ordered ordered found)
    · have unordered : ¬ (bool front).Ordered (bool back) :=
        fun ordered => ordered.ne_bool front rfl
      refine .of_unordered unordered (Comparison.equal.holds order) ?_ ?_ ?_
      · simp [compare?, found, Comparison.isOrdering]
      · simp [compare?, found, Comparison.isOrdering, Comparison.holds, bne]
      · simp [compare?, found, Comparison.isOrdering]

namespace GuardText

/-- The comparisons of two values fit together, and so do those of two names in a guard. Equality is
always answered and inequality is its opposite. The orders are answered for two texts or two numbers
and for no others; then one of less, equal and greater holds, and at most and at least are told by
these. -/
theorem coherent_comparisons (first second : Value) :
    Coherent (fun comparison => first.compare? comparison second) (first.Ordered second) ∧
    ∀ (bindings : Bindings) (left right : String), Identifier left → Identifier right →
      bindings.get? left = some first → bindings.get? right = some second →
      Coherent
        (fun comparison => evaluate bindings (left ++ " " ++ comparison.sign ++ " " ++ right))
        (first.Ordered second) := by
  refine ⟨first.coherent_compare? second, ?_⟩
  intro bindings left right identifier identifierToo bound boundToo
  simp only [evaluate_identifiers identifier identifierToo _ bound boundToo]
  exact first.coherent_compare? second

/-- A whole number, a text, and what is no number. -/
def assortedBindings : Bindings :=
  ((KeyMap.empty.insert "gold" (.int (-7))).insert "größe" (.text "-7")).insert "_x1" (.float .nan)

theorem coherent_comparisons_assorted :
    Identifier "gold" ∧ Identifier "größe" ∧ Identifier "_x1" ∧
    assortedBindings.get? "gold" = some (.int (-7)) ∧
    assortedBindings.get? "größe" = some (.text "-7") ∧
    assortedBindings.get? "_x1" = some (.float .nan) ∧
    Coherent (fun comparison => evaluate assortedBindings
      ("gold" ++ " " ++ comparison.sign ++ " " ++ "gold")) True ∧
    Coherent (fun comparison => evaluate assortedBindings
      ("gold" ++ " " ++ comparison.sign ++ " " ++ "größe")) False ∧
    Coherent (fun comparison => evaluate assortedBindings
      ("gold" ++ " " ++ comparison.sign ++ " " ++ "_x1")) False := by
  have gold : Identifier "gold" := by decide
  have size : Identifier "größe" := by decide
  have mark : Identifier "_x1" := by decide
  have numbers : (Value.int (-7)).Ordered (.int (-7)) ↔ True := by
    simp [Value.Ordered, Value.IsNumber]
  have sorts : (Value.int (-7)).Ordered (.text "-7") ↔ False := by
    simp [Value.Ordered, Value.IsNumber]
  have nan : (Value.int (-7)).Ordered (.float .nan) ↔ False := by
    simp [Value.Ordered, Value.IsNumber]
  refine ⟨gold, size, mark, rfl, rfl, rfl, ?_, ?_, ?_⟩
  · rw [← numbers]
    exact (coherent_comparisons (.int (-7)) (.int (-7))).2 _ _ _ gold gold rfl rfl
  · rw [← sorts]
    exact (coherent_comparisons (.int (-7)) (.text "-7")).2 _ _ _ gold size rfl rfl
  · rw [← nan]
    exact (coherent_comparisons (.int (-7)) (.float .nan)).2 _ _ _ gold mark rfl rfl

end GuardText

end Narrative
