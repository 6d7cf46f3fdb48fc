import Narrative.Proofs.Bytes
import Narrative.Proofs.Coherence
import Narrative.Proofs.Rounding

/-!
Comparisons of whole numbers. Two whole numbers are compared as the floating-point numbers that are
nearest to them, and this is the order of the numbers themselves unless both are rounded to the
same. Main statement: what each comparison answers for any two numbers of 64 bits, bound to names or
written in decimal, and that the answer is exact except for different numbers from 2 ^ 53 on that
are rounded to one.
-/

set_option autoImplicit false

namespace Narrative

/-! ### The order of two numbers and of their rounded forms -/

/-- Two different numbers that are rounded to the same. -/
def Merged (first second : Int) : Prop :=
  first ≠ second ∧ ∃ rounded, RoundsTo first rounded ∧ RoundsTo second rounded

theorem Merged.le_natAbs {first second : Int} (merged : Merged first second) :
    2 ^ 53 ≤ first.natAbs ∧ 2 ^ 53 ≤ second.natAbs := by
  obtain ⟨different, rounded, rounds, roundsToo⟩ := merged
  constructor
  · by_contra small
    exact different (rounds.eq_of_small_of_eq roundsToo (by omega))
  · by_contra small
    exact different (roundsToo.eq_of_small_of_eq rounds (by omega)).symm

namespace RoundsTo

variable {exact rounded second result : Int}

/-- Rounding that keeps two numbers apart keeps all that comparisons say of them. -/
theorem relates_iff (rounds : RoundsTo exact rounded) (roundsToo : RoundsTo second result)
    (apart : rounded = result → exact = second) (comparison : Comparison) :
    comparison.Relates rounded result ↔ comparison.Relates exact second := by
  have forward : exact ≤ second → rounded ≤ result := rounds.le roundsToo
  have backward : second ≤ exact → result ≤ rounded := roundsToo.le rounds
  exact comparison.relates_congr (by omega) (by omega) (by omega)

end RoundsTo

namespace Binary64

theorem compare?_of_places {first second : Binary64} {left right unit : Int} (positive : 0 < unit)
    (place : first.place? = some (left * unit)) (placeToo : second.place? = some (right * unit))
    (comparison : Comparison) :
    ∃ order, first.compare? second = some order ∧
      comparison.holds order = decide (comparison.Relates left right) := by
  refine ⟨compare (left * unit) (right * unit), ?_, ?_⟩
  · rw [compare?, place, placeToo]
  · rw [Bool.eq_iff_iff, comparison.holds_compare_iff, decide_eq_true_iff]
    have less (a b : Int) : a * unit < b * unit ↔ a < b := Int.mul_lt_mul_right positive
    exact comparison.relates_congr (less left right)
      (Int.mul_eq_mul_right_iff (Int.ne_of_gt positive)) (less right left)

end Binary64

/-- Two whole numbers are compared as their rounded forms are. -/
theorem Value.exists_compare?_int (first second : Int64) :
    ∃ rounded result, RoundsTo first.toInt rounded ∧ RoundsTo second.toInt result ∧
      ∀ comparison : Comparison, (int first).compare? comparison (int second) =
        .ok (decide (comparison.Relates rounded result)) := by
  have range (number : Int64) : number.toInt.natAbs ≤ 2 ^ 63 := by
    have low := number.le_toInt
    have high := number.toInt_lt
    omega
  obtain ⟨rounded, rounds, place⟩ := Binary64.exists_place?_ofInt (range first)
  obtain ⟨result, roundsToo, placeToo⟩ := Binary64.exists_place?_ofInt (range second)
  refine ⟨rounded, result, rounds, roundsToo, fun comparison => ?_⟩
  have positive : 0 < (Magnitude.unitsPerOne : Int) := by
    obtain ⟨place, -, -, unit⟩ := Magnitude.exists_unitsPerOne
    rw [unit]
    exact Int.natCast_pos.2 (Nat.two_pow_pos place)
  obtain ⟨order, found, holds⟩ := Binary64.compare?_of_places positive place placeToo comparison
  have numbers : (int first).Ordered (int second) := Or.inr ⟨trivial, trivial⟩
  rw [compare?_of_ordered numbers found, holds]

namespace GuardText

section

variable {bindings : Bindings} {first second : Int64} {left right : String}

theorem exists_evaluate_denoted (denotes : Denotes bindings first left)
    (denotesToo : Denotes bindings second right) :
    ∃ rounded result, RoundsTo first.toInt rounded ∧ RoundsTo second.toInt result ∧
      ∀ comparison : Comparison,
        evaluate bindings (left ++ " " ++ comparison.sign ++ " " ++ right) =
          .ok (decide (comparison.Relates rounded result)) := by
  obtain ⟨rounded, result, rounds, roundsToo, answer⟩ := Value.exists_compare?_int first second
  refine ⟨rounded, result, rounds, roundsToo, fun comparison => ?_⟩
  rw [denotes.word.evaluate_comparing denotesToo.word comparison denotes.operand
    denotesToo.operand, answer]

/-- Two whole numbers, each bound to a name or written in decimal, are compared exactly, unless they
are different and have one nearest floating-point number. Then both are from 2 ^ 53 on, and every
comparison takes them for equal. -/
theorem evaluate_integers (denotes : Denotes bindings first left)
    (denotesToo : Denotes bindings second right) (comparison : Comparison) :
    (¬ Merged first.toInt second.toInt →
      evaluate bindings (left ++ " " ++ comparison.sign ++ " " ++ right) =
        .ok (decide (comparison.Relates first.toInt second.toInt))) ∧
    (Merged first.toInt second.toInt →
      evaluate bindings (left ++ " " ++ comparison.sign ++ " " ++ right) =
        .ok (comparison.holds .eq) ∧
      2 ^ 53 ≤ first.toInt.natAbs ∧ 2 ^ 53 ≤ second.toInt.natAbs) := by
  obtain ⟨rounded, result, rounds, roundsToo, answer⟩ := exists_evaluate_denoted denotes denotesToo
  constructor
  · intro separate
    have apart : rounded = result → first.toInt = second.toInt := by
      rintro rfl
      by_contra different
      exact separate ⟨different, rounded, rounds, roundsToo⟩
    rw [answer, decide_eq_decide.2 (rounds.relates_iff roundsToo apart comparison)]
  · intro merged
    refine ⟨?_, merged.le_natAbs⟩
    obtain ⟨-, both, roundsBoth, roundsBothToo⟩ := merged
    obtain rfl := rounds.unique roundsBoth
    obtain rfl := roundsToo.unique roundsBothToo
    rw [answer, Except.ok.injEq, Bool.eq_iff_iff, decide_eq_true_iff,
      ← comparison.holds_compare_iff, compare_eq_iff_eq.2 rfl]

end

/-- Two neighbours that are merged, the least ones. -/
def neighbours : Bindings :=
  (KeyMap.empty.insert "x" (.int 9007199254740992)).insert "y" (.int 9007199254740993)

theorem denotes_neighbours :
    Denotes neighbours 9007199254740992 "x" ∧ Denotes neighbours 9007199254740993 "y" :=
  ⟨.name (by decide) rfl, .name (by decide) rfl⟩

theorem merged_neighbours : Merged (2 ^ 53) (2 ^ 53 + 1) :=
  ⟨by decide, 2 ^ 53, RoundsTo.two_pow, 1, by decide, by decide, by decide, by decide, by decide⟩

/-- A name and a number in decimal: two that are merged, and two that are compared exactly. -/
theorem evaluate_integers_neighbours :
    evaluate neighbours ("y" ++ " " ++ "<=" ++ " " ++ "+9007199254740992") = .ok true ∧
    Denotes neighbours 9007199254740993 "y" ∧
    Denotes neighbours (-9223372036854775808) "-009223372036854775808" ∧
    ¬ Merged 9007199254740993 (-9223372036854775808) ∧
    evaluate neighbours ("y" ++ " " ++ ">" ++ " " ++ "-009223372036854775808") = .ok true := by
  have denotes := denotes_neighbours.2
  have close : Denotes neighbours 9007199254740992 "+9007199254740992" :=
    .decimal (.plus (by decide)) 0
  have least : Denotes neighbours (-9223372036854775808) "-009223372036854775808" :=
    .decimal (.minus (by decide)) 2
  have merged : Merged 9007199254740993 9007199254740992 := by
    obtain ⟨different, rounded, rounds, roundsToo⟩ := merged_neighbours
    exact ⟨different.symm, rounded, roundsToo, rounds⟩
  have separate : ¬ Merged 9007199254740993 (-9223372036854775808) := by
    rintro ⟨-, rounded, rounds, roundsToo⟩
    have above := RoundsTo.two_pow.le rounds (by decide)
    have below := roundsToo.le RoundsTo.neg_two_pow (by decide)
    omega
  refine ⟨((evaluate_integers denotes close .atMost).2 merged).1, denotes, least, separate, ?_⟩
  exact (evaluate_integers denotes least .greater).1 separate

/-- Not every comparison of whole numbers is answered exactly. -/
theorem not_evaluate_exactly :
    ¬ ∀ (bindings : Bindings) (first second : Int64) (left right : String),
      Denotes bindings first left → Denotes bindings second right →
      ∀ comparison : Comparison,
        evaluate bindings (left ++ " " ++ comparison.sign ++ " " ++ right) =
          .ok (decide (comparison.Relates first.toInt second.toInt)) := by
  intro exact
  obtain ⟨denotes, denotesToo⟩ := denotes_neighbours
  obtain ⟨rounded, result, rounds, roundsToo, answer⟩ :=
    exists_evaluate_denoted denotes denotesToo
  obtain ⟨different, both, roundsBoth, roundsBothToo⟩ := merged_neighbours
  have same : rounded = result := by
    rw [rounds.unique roundsBoth, roundsToo.unique roundsBothToo]
  have wrong := exact _ _ _ _ _ denotes denotesToo .equal
  rw [answer, Except.ok.injEq, decide_eq_decide] at wrong
  exact different (wrong.1 same)

end GuardText

end Narrative
