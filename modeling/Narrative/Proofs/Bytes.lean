import Mathlib.Data.String.Basic
import Mathlib.Tactic.SplitIfs
import Narrative.Guard.Comparison

/-!
Texts and their bytes. Two texts are in the order of their characters, and UTF-8 is made so that
this is the order of their bytes, whatever number of bytes each character takes.
-/

set_option autoImplicit false

namespace Narrative

/-- The bytes of a text in UTF-8. -/
def utf8 (text : String) : List UInt8 := text.toUTF8.data.toList

theorem utf8_eq_flatMap (text : String) :
    utf8 text = text.toList.flatMap String.utf8EncodeChar := by
  have bytes : text.toUTF8 = (text.toList.flatMap String.utf8EncodeChar).toByteArray := by
    rw [String.toUTF8, ← text.ofList_toList, String.toByteArray_ofList, String.toList_ofList]
    rfl
  rw [utf8, bytes, List.data_toByteArray, List.toList_toArray]

theorem utf8_injective : Function.Injective utf8 := by
  intro left right same
  exact String.toByteArray_inj.1 (ByteArray.ext (Array.toList_inj.1 same))

/-- Bytes made of numbers that fit are in the order of the numbers. -/
theorem ofNat_cons_lt_iff {m n : Nat} (small : m < 256) (other : n < 256)
    {front back : List UInt8} :
    UInt8.ofNat m :: front < UInt8.ofNat n :: back ↔ m < n ∨ m = n ∧ front < back := by
  have same : UInt8.ofNat m = UInt8.ofNat n ↔ m = n := by
    rw [← UInt8.toNat_inj, UInt8.toNat_ofNat', UInt8.toNat_ofNat', Nat.mod_eq_of_lt small,
      Nat.mod_eq_of_lt other]
  rw [List.cons_lt_cons_iff, UInt8.ofNat_lt_iff_lt small other, same]

/-- The bytes of a smaller character come first, whatever follows. -/
theorem encode_append_lt {c d : Char} (less : c < d) (front back : List UInt8) :
    String.utf8EncodeChar c ++ front < String.utf8EncodeChar d ++ back := by
  have bound : d.val.toNat < 0x110000 := by
    rcases d.valid with low | ⟨-, high⟩
    · exact Nat.lt_trans low (by decide)
    · exact high
  rw [Char.lt_def, UInt32.lt_iff_toNat_lt] at less
  have digits (v : Nat) : v / 4096 = v / 64 / 64 ∧ v / 262144 = v / 64 / 64 / 64 := by
    rw [Nat.div_div_eq_div_mul, Nat.div_div_eq_div_mul]
    exact ⟨rfl, rfl⟩
  -- Of two characters with as many bytes the first byte that differs decides, and the first byte of
  -- more bytes is larger.
  simp only [String.utf8EncodeChar, digits]
  split_ifs
  all_goals simp (disch := omega) only [List.cons_append, List.nil_append, ofNat_cons_lt_iff]
  all_goals omega

theorem flatMap_encode_lt {left right : List Char} (less : left < right) :
    left.flatMap String.utf8EncodeChar < right.flatMap String.utf8EncodeChar := by
  induction left generalizing right with
  | nil =>
    cases right with
    | nil => exact absurd less (List.lt_irrefl [])
    | cons d more =>
      have some : String.utf8EncodeChar d ≠ [] := String.utf8EncodeChar_ne_nil
      obtain ⟨byte, bytes, encoded⟩ := List.exists_cons_of_ne_nil some
      rw [List.flatMap_nil, List.flatMap_cons, encoded]
      exact List.nil_lt_cons byte _
  | cons c rest ih =>
    cases right with
    | nil => exact absurd less (List.not_lt_nil _)
    | cons d more =>
      rw [List.flatMap_cons, List.flatMap_cons]
      rcases List.cons_lt_cons_iff.1 less with first | ⟨rfl, behind⟩
      · exact encode_append_lt first _ _
      · exact List.append_left_lt (ih behind)

/-- Texts are in the order of their bytes. -/
theorem utf8_lt_iff {left right : String} : utf8 left < utf8 right ↔ left < right := by
  have ordered {left right : String} (less : left < right) : utf8 left < utf8 right := by
    rw [utf8_eq_flatMap, utf8_eq_flatMap]
    exact flatMap_encode_lt (String.lt_iff_toList_lt.1 less)
  constructor
  · intro bytes
    rcases lt_trichotomy left right with less | rfl | greater
    · exact less
    · exact absurd bytes (List.lt_irrefl _)
    · exact absurd (List.lt_trans bytes (ordered greater)) (List.lt_irrefl _)
  · exact ordered

namespace Comparison

section

variable {α : Type}

/-- What a comparison says of two things. -/
def Relates [LT α] : Comparison → α → α → Prop
  | atLeast, left, right => ¬ left < right
  | atMost, left, right => ¬ right < left
  | equal, left, right => left = right
  | unequal, left, right => left ≠ right
  | greater, left, right => right < left
  | less, left, right => left < right

instance [LT α] [DecidableEq α] [DecidableLT α] (left right : α) :
    ∀ comparison : Comparison, Decidable (comparison.Relates left right)
  | atLeast => inferInstanceAs (Decidable (¬ left < right))
  | atMost => inferInstanceAs (Decidable (¬ right < left))
  | equal => inferInstanceAs (Decidable (left = right))
  | unequal => inferInstanceAs (Decidable (left ≠ right))
  | greater => inferInstanceAs (Decidable (right < left))
  | less => inferInstanceAs (Decidable (left < right))

/-- A comparison holds of an order if it is true of what is in that order. -/
theorem holds_compare_iff [LinearOrder α] (comparison : Comparison) (left right : α) :
    comparison.holds (compare left right) = true ↔ comparison.Relates left right := by
  have before : compare left right = .lt ↔ left < right := compare_lt_iff_lt
  have behind : compare left right = .gt ↔ right < left := compare_gt_iff_gt
  have same : compare left right = .eq ↔ left = right := compare_eq_iff_eq
  cases comparison with
  | atLeast => exact bne_iff_ne.trans (not_congr before)
  | atMost => exact bne_iff_ne.trans (not_congr behind)
  | equal => exact beq_iff_eq.trans same
  | unequal => exact bne_iff_ne.trans (not_congr same)
  | greater => exact beq_iff_eq.trans behind
  | less => exact beq_iff_eq.trans before

/-- Comparisons say the same of things that are in the same order. -/
theorem relates_congr {β : Type} [LT α] [LT β] {left right : α} {second result : β}
    (before : left < right ↔ second < result) (same : left = right ↔ second = result)
    (behind : right < left ↔ result < second) (comparison : Comparison) :
    comparison.Relates left right ↔ comparison.Relates second result := by
  cases comparison with
  | atLeast => exact not_congr before
  | atMost => exact not_congr behind
  | equal => exact same
  | unequal => exact not_congr same
  | greater => exact behind
  | less => exact before

end

/-- Texts are related as their bytes are. -/
theorem relates_utf8_iff (comparison : Comparison) (left right : String) :
    comparison.Relates (utf8 left) (utf8 right) ↔ comparison.Relates left right :=
  comparison.relates_congr utf8_lt_iff utf8_injective.eq_iff utf8_lt_iff

end Comparison

/-- Two texts are compared by their bytes. -/
theorem Value.compare?_text (left right : String) (comparison : Comparison) :
    (Value.text left).compare? comparison (.text right) =
      .ok (decide (comparison.Relates (utf8 left) (utf8 right))) := by
  have holds : comparison.holds (compare left right) =
      decide (comparison.Relates (utf8 left) (utf8 right)) := by
    rw [Bool.eq_iff_iff, decide_eq_true_iff, comparison.relates_utf8_iff]
    exact comparison.holds_compare_iff left right
  exact congrArg Except.ok holds

end Narrative
