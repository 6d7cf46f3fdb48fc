import Narrative.Proofs.Literals
import Narrative.Proofs.Writing

/-!
Operands that are one word: names, and whole numbers in decimal. A word holds nothing that the
search for separators and comparisons looks for, so a guard that compares two words is answered by
the values of the words, whatever the words are.
-/

set_option autoImplicit false

namespace Narrative.GuardText

/-! ### Words -/

/-- Whether a character has a place in a word: it is not blank, and in no sign of the language. -/
def isWordChar (c : Char) : Bool := !isBlank c && isUnsigned c && decide (c ∉ ['&', '|'])

theorem isBlank_of_isWordChar {c : Char} (char : isWordChar c = true) : isBlank c = false := by
  simp only [isWordChar, Bool.and_eq_true, Bool.not_eq_true'] at char
  exact char.1.1

theorem isUnsigned_of_isWordChar {c : Char} (char : isWordChar c = true) : isUnsigned c = true := by
  simp only [isWordChar, Bool.and_eq_true] at char
  exact char.1.2

theorem isWordChar_of_isNameChar {c : Char} (char : isNameChar c = true) : isWordChar c = true := by
  have other : ∀ sign ∈ ['&', '|'], isNameChar sign = false := by simp [isNameChar]
  have outside : c ∉ ['&', '|'] := fun sign => ne_of_isNameChar char (other c sign) rfl
  rw [isWordChar, isBlank_of_isNameChar char, isUnsigned_of_isNameChar char, decide_eq_true outside]
  rfl

theorem isWordChar_of_isDigit {c : Char} (digit : c.isDigit = true) : isWordChar c = true := by
  have filled : isBlank c = false := by
    have range : 48 ≤ c.toNat ∧ c.toNat ≤ 57 := by
      simpa [Char.isDigit, UInt32.le_iff_toNat_le] using digit
    simp only [isBlank]
    grind
  apply isWordChar_of_isNameChar
  rw [isNameChar, filled, Char.isAlphanum, digit, Bool.or_true, Bool.true_or]
  rfl

/-- A text of one word. -/
structure Word (text : String) : Prop where
  nonempty : text ≠ ""
  chars : ∀ c ∈ text.toList, isWordChar c = true

theorem Identifier.word {name : String} (identifier : Identifier name) : Word name :=
  ⟨identifier.nonempty, fun c member => isWordChar_of_isNameChar (identifier.chars c member)⟩

namespace Word

variable {left right : String}

theorem trim (word : Word left) : Narrative.trim left.toList = left.toList := by
  have filled : ∀ c ∈ left.toList, isBlank c = false :=
    fun c member => isBlank_of_isWordChar (word.chars c member)
  exact trim_eq_self (fun c first => filled c (List.mem_of_head? first))
    (fun c last => filled c (List.mem_of_getLast? last))

theorem unsigned (word : Word left) : ∀ c ∈ left.toList, isUnsigned c = true :=
  fun c member => isUnsigned_of_isWordChar (word.chars c member)

/-- A separator stands nowhere in a comparison of words. -/
theorem not_standsIn_comparing (word : Word left) (wordToo : Word right) (comparison : Comparison)
    {sign : Char} (separator : sign ∈ ['&', '|']) :
    ¬ StandsIn [sign, sign] (comparing left comparison right.toList) := by
  have absent {text : String} (word : Word text) : sign ∉ text.toList := by
    intro member
    have char := word.chars sign member
    simp only [isWordChar, Bool.and_eq_true, decide_eq_true_iff] at char
    exact char.2 separator
  have between : sign ∉ comparison.sign.toList := by
    rcases List.mem_pair.1 separator with rfl | rfl <;> cases comparison <;> decide
  have blank : sign ≠ ' ' := by
    rintro rfl
    simp at separator
  rintro ⟨front, back, whole, -⟩
  have member : sign ∈ comparing left comparison right.toList := by simp [whole]
  simp [comparing, absent word, absent wordToo, between, blank] at member

theorem trim_comparing (word : Word left) (wordToo : Word right) (comparison : Comparison) :
    Narrative.trim (comparing left comparison right.toList) =
      comparing left comparison right.toList := by
  apply trim_eq_self
  · intro c first
    have some : left.toList ≠ [] := fun empty => word.nonempty (String.toList_eq_nil_iff.1 empty)
    rw [comparing, List.head?_append_of_ne_nil _ some] at first
    exact isBlank_of_isWordChar (word.chars c (List.mem_of_head? first))
  · intro c last
    have some : right.toList ≠ [] :=
      fun empty => wordToo.nonempty (String.toList_eq_nil_iff.1 empty)
    have split : comparing left comparison right.toList =
        (left.toList ++ ' ' :: (comparison.sign.toList ++ [' '])) ++ right.toList := by
      simp [comparing]
    rw [split, List.getLast?_append_of_ne_nil _ some] at last
    exact isBlank_of_isWordChar (wordToo.chars c (List.mem_of_getLast? last))

/-- A guard that compares two words is answered by their values. -/
theorem evaluate_comparing {bindings : Bindings} {first second : Value} (word : Word left)
    (wordToo : Word right) (comparison : Comparison)
    (valued : operand bindings left.toList = .ok first)
    (valuedToo : operand bindings right.toList = .ok second) :
    evaluate bindings (left ++ " " ++ comparison.sign ++ " " ++ right) =
      first.compare? comparison second := by
  have spelled : (left ++ " " ++ comparison.sign ++ " " ++ right).toList =
      comparing left comparison right.toList := by
    simp [comparing]
  have filled : ¬ Blank (comparing left comparison right.toList) := by
    rw [← trim_eq_nil_iff, word.trim_comparing wordToo]
    simp [comparing]
  rw [evaluate_of_filled bindings (spelled ▸ filled), spelled,
    alternatives_of_whole bindings (word.not_standsIn_comparing wordToo comparison (by decide)),
    alternative_of_whole bindings (word.not_standsIn_comparing wordToo comparison (by decide)),
    word.trim_comparing wordToo,
    term_of_operands comparison word.unsigned word.trim wordToo.trim valued valuedToo]

end Word

/-- Two names are compared as the values that they are bound to. -/
theorem evaluate_identifiers {bindings : Bindings} {left right : String} {first second : Value}
    (identifier : Identifier left) (identifierToo : Identifier right) (comparison : Comparison)
    (bound : bindings.get? left = some first) (boundToo : bindings.get? right = some second) :
    evaluate bindings (left ++ " " ++ comparison.sign ++ " " ++ right) =
      first.compare? comparison second :=
  identifier.word.evaluate_comparing identifierToo.word comparison (identifier.operand bound)
    (identifierToo.operand boundToo)

/-! ### Whole numbers -/

section

variable {bindings : Bindings} {text : String} {number : Int64}

/-- What is read as a whole number has digits only, but for a sign in front. -/
theorem exists_digits_of_int64? {chars : List Char} (read : Decimal.int64? chars = some number) :
    ∃ sign digits, chars = sign ++ digits ∧ (∀ c ∈ sign, c = '-' ∨ c = '+') ∧
      digits ≠ [] ∧ ∀ c ∈ digits, c.isDigit = true := by
  have digits : Decimal.areDigits (Decimal.signed chars).2 = true := by
    by_contra none
    simp [Decimal.int64?, Decimal.int?, none] at read
  rw [Decimal.areDigits, Bool.and_eq_true, Bool.not_eq_true', List.isEmpty_eq_false_iff,
    List.all_eq_true] at digits
  unfold Decimal.signed at digits
  split at digits
  · next rest => exact ⟨['-'], rest, rfl, by simp, digits⟩
  · next rest => exact ⟨['+'], rest, rfl, by simp, digits⟩
  · exact ⟨[], chars, rfl, by simp, digits⟩

theorem word_of_int64? (read : Decimal.int64? text.toList = some number) : Word text := by
  obtain ⟨sign, digits, split, signs, nonempty, all⟩ := exists_digits_of_int64? read
  constructor
  · rintro rfl
    exact nonempty (List.append_eq_nil_iff.1 split.symm).2
  · intro c member
    rw [split, List.mem_append] at member
    rcases member with signed | digit
    · rcases signs c signed with rfl | rfl <;> rfl
    · exact isWordChar_of_isDigit (all c digit)

/-- What is read as a whole number is that number, also if a variable has such a name. -/
theorem operand_of_int64? (bindings : Bindings)
    (read : Decimal.int64? text.toList = some number) :
    operand bindings text.toList = .ok (.int number) := by
  have word := word_of_int64? read
  have nonempty : text.toList.isEmpty = false := by
    rw [List.isEmpty_eq_false_iff]
    exact fun empty => word.nonempty (String.toList_eq_nil_iff.1 empty)
  have unquoted : unquote? text.toList = none := by
    cases spelled : text.toList with
    | nil => rfl
    | cons c rest =>
      have bare := isQuote_of_isUnsigned (word.unsigned c (by simp [spelled]))
      rw [unquote?, bare]
      rfl
  have other {name : String} (unread : Decimal.int64? name.toList = none) : text ≠ name := by
    rintro rfl
    rw [read] at unread
    cases unread
  have notTrue : text ≠ "true" := other (by decide)
  have notFalse : text ≠ "false" := other (by decide)
  simp [operand, nonempty, unquoted, read, notTrue, notFalse]

/-- The digits of a number, behind zeros that say nothing. -/
def digitsOf (zeros number : Nat) : List Char :=
  List.replicate zeros '0' ++ Nat.toDigits 10 number

theorem value_digitsOf (zeros number : Nat) : Decimal.value (digitsOf zeros number) = number := by
  have split : Decimal.value (digitsOf zeros number) =
      Nat.ofDigitChars 10 (Nat.toDigits 10 number)
        (Nat.ofDigitChars 10 (List.replicate zeros '0') 0) :=
    Nat.ofDigitChars_append 0
  rw [split, Nat.ofDigitChars_replicate_zero, Nat.mul_zero]
  exact Json.value_toDigits number

theorem areDigits_digitsOf (zeros number : Nat) :
    Decimal.areDigits (digitsOf zeros number) = true := by
  have digits : ∀ c ∈ digitsOf zeros number, c.isDigit = true := by
    intro c member
    rcases List.mem_append.1 member with zero | digit
    · rw [List.eq_of_mem_replicate zero]
      rfl
    · exact Json.isDigit_of_mem_toDigits digit
  have nonempty : digitsOf zeros number ≠ [] :=
    List.append_ne_nil_of_right_ne_nil _ Nat.toDigits_ne_nil
  simpa [Decimal.areDigits, nonempty] using digits

/-- A sign that a whole number may have in front of its digits. -/
inductive SignOf (number : Int64) : List Char → Prop
  | minus (notPositive : number.toInt ≤ 0) : SignOf number ['-']
  | plus (notNegative : 0 ≤ number.toInt) : SignOf number ['+']
  | none (notNegative : 0 ≤ number.toInt) : SignOf number []

/-- Every decimal form of a whole number is read as that number. -/
theorem int64?_decimal {sign : List Char} (signed : SignOf number sign) (zeros : Nat) :
    Decimal.int64? (sign ++ digitsOf zeros number.toInt.natAbs) = some number := by
  have digits := areDigits_digitsOf zeros number.toInt.natAbs
  have unsigned : Decimal.signed (digitsOf zeros number.toInt.natAbs) =
      (false, digitsOf zeros number.toInt.natAbs) := by
    have other {c : Char} {rest : List Char} (sign : c.isDigit = false) :
        digitsOf zeros number.toInt.natAbs ≠ c :: rest := by
      intro split
      rw [split, Decimal.areDigits, List.all_cons, sign, Bool.false_and, Bool.and_false] at digits
      cases digits
    exact Decimal.signed.eq_3 _ (fun _ => other rfl) (fun _ => other rfl)
  have read : Decimal.int? (sign ++ digitsOf zeros number.toInt.natAbs) = some number.toInt := by
    have value := value_digitsOf zeros number.toInt.natAbs
    cases signed with
    | minus notPositive =>
      simp only [Decimal.int?, List.cons_append, List.nil_append, Decimal.signed, digits, value]
      simp only [if_true, Option.some.injEq]
      omega
    | plus notNegative =>
      simp only [Decimal.int?, List.cons_append, List.nil_append, Decimal.signed, digits, value]
      simpa using Int.natAbs_of_nonneg notNegative
    | none notNegative =>
      simp only [Decimal.int?, List.nil_append, unsigned, digits, value]
      simpa using Int.natAbs_of_nonneg notNegative
  rw [Decimal.int64?, read]
  dsimp only
  rw [if_pos ⟨number.minValue_le_toInt, number.toInt_le⟩, Int64.ofInt_toInt]

/-- A text stands for a whole number: it is a name bound to the number, or a decimal form of it. -/
inductive Denotes (bindings : Bindings) (number : Int64) : String → Prop
  | name {name : String} (identifier : Identifier name)
    (bound : bindings.get? name = some (.int number)) : Denotes bindings number name
  | decimal {sign : List Char} (signed : SignOf number sign) (zeros : Nat) :
    Denotes bindings number (String.ofList (sign ++ digitsOf zeros number.toInt.natAbs))

theorem Denotes.word (denotes : Denotes bindings number text) : Word text := by
  cases denotes with
  | name identifier bound => exact identifier.word
  | decimal signed zeros =>
    exact word_of_int64? (by rw [String.toList_ofList, int64?_decimal signed])

theorem Denotes.operand (denotes : Denotes bindings number text) :
    GuardText.operand bindings text.toList = .ok (.int number) := by
  cases denotes with
  | name identifier bound => exact identifier.operand bound
  | decimal signed zeros =>
    exact operand_of_int64? bindings (by rw [String.toList_ofList, int64?_decimal signed])

end

end Narrative.GuardText
