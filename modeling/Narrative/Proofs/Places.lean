import Mathlib.Data.Nat.Factorial.Basic
import Narrative.Proofs.Rounds

/-!
The places that a shuffle draws. One drawn number serves several places: it is below the product of
their bounds, and each place takes its own bound off by a division. So every place is below its
bound, whatever words the source gives.
-/

set_option autoImplicit false

namespace Narrative

theorem ascFactorial_succ_left (factor count : Nat) :
    factor.ascFactorial (count + 1) = factor * (factor + 1).ascFactorial count := by
  rw [Nat.ascFactorial_succ, Nat.succ_ascFactorial]

/-- The product of factors is that of all factors before the one left out. -/
theorem factorsBelowWord_eq (product factor : Nat) :
    factor ≤ (factorsBelowWord product factor).2 ∧
      (factorsBelowWord product factor).1 =
        product * factor.ascFactorial ((factorsBelowWord product factor).2 - factor) := by
  induction product, factor using factorsBelowWord.induct with
  | case1 product factor fits ih =>
    rw [factorsBelowWord, dif_pos fits]
    obtain ⟨above, total⟩ := ih
    have more : (factorsBelowWord (product * factor) (factor + 1)).2 - factor =
        (factorsBelowWord (product * factor) (factor + 1)).2 - (factor + 1) + 1 := by omega
    refine ⟨by omega, ?_⟩
    rw [more, ascFactorial_succ_left, ← Nat.mul_assoc]
    exact total
  | case2 product factor full =>
    rw [factorsBelowWord, dif_neg full]
    refine ⟨Nat.le_refl factor, ?_⟩
    rw [Nat.sub_self, Nat.ascFactorial_zero, Nat.mul_one]

namespace PlaceSource

variable {places : PlaceSource}

/-- What remains of the drawn number is below the product of the bounds of the places that it still
serves. -/
def Within (places : PlaceSource) : Prop :=
  0 < places.left → places.chunk < (places.size + 1).ascFactorial places.left

theorem within_start : start.Within := by
  intro _
  decide

/-- The bound of a drawn number, and how many places it serves. -/
theorem factors_of_size (size : Nat) :
    size + 1 < (factorsBelowWord (size + 1) (size + 2)).2 ∧
      (factorsBelowWord (size + 1) (size + 2)).1 = (size + 1).ascFactorial
        ((factorsBelowWord (size + 1) (size + 2)).2 - (size + 1)) := by
  obtain ⟨above, total⟩ := factorsBelowWord_eq (size + 1) (size + 2)
  have more : (factorsBelowWord (size + 1) (size + 2)).2 - (size + 1) =
      (factorsBelowWord (size + 1) (size + 2)).2 - (size + 2) + 1 := by omega
  refine ⟨by omega, ?_⟩
  rw [more, ascFactorial_succ_left]
  exact total

theorem factors_pos (size : Nat) : 0 < (factorsBelowWord (size + 1) (size + 2)).1 := by
  rw [(factors_of_size size).2]
  exact Nat.ascFactorial_pos size _

theorem refill_spec (within : places.Within) (source : RandomSource) :
    (places.refill source).1.size = places.size ∧ 0 < (places.refill source).1.left ∧
      (places.refill source).1.Within := by
  unfold refill
  split
  · next empty =>
    obtain ⟨above, total⟩ := factors_of_size places.size
    have drawn := source.below_lt (factors_pos places.size)
    refine ⟨rfl, Nat.sub_pos_of_lt above, ?_⟩
    intro _
    dsimp only
    rw [← total]
    exact drawn
  · next served =>
    exact ⟨rfl, Nat.pos_of_ne_zero served, within⟩

/-- A place is at most the number of places drawn before. -/
theorem next_spec (within : places.Within) (source : RandomSource) :
    (places.next source).1 ≤ places.size ∧
      (places.next source).2.1.size = places.size + 1 ∧ (places.next source).2.1.Within := by
  obtain ⟨size, left, bound⟩ := refill_spec within source
  unfold next
  generalize places.refill source = drawn at size left bound
  obtain ⟨filled, later⟩ := drawn
  have chunk := bound left
  dsimp only at size left chunk ⊢
  rw [size] at chunk ⊢
  split
  · next last =>
    have one : filled.left = 1 := by omega
    rw [one, ascFactorial_succ_left, Nat.ascFactorial_zero, Nat.mul_one] at chunk
    refine ⟨Nat.le_of_lt_succ chunk, rfl, ?_⟩
    intro served
    exact absurd last (Nat.ne_of_gt served)
  · next more =>
    -- The remainder by its bound is the place, and the quotient is left for the places to come.
    have split : filled.left = filled.left - 1 + 1 := by omega
    rw [split, ascFactorial_succ_left] at chunk
    refine ⟨Nat.le_of_lt_succ (Nat.mod_lt _ (Nat.succ_pos _)), rfl, ?_⟩
    intro _
    exact Nat.div_lt_of_lt_mul chunk

end PlaceSource

end Narrative
