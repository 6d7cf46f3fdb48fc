import Narrative.Proofs.Bytes
import Narrative.Proofs.Connectives

/-!
Quoted texts in guards. All that looks for a sign in a guard, and all that trims one, goes over a
quoted text before it is read. Main statement: a variable of text compared with a quoted text is
answered by the two texts alone, whatever is written between the quotes.
-/

set_option autoImplicit false

namespace Narrative.GuardText

/-! ### Names -/

/-- A letter, a digit or an underscore. What lies outside ASCII and is not blank is taken for a
letter. -/
def isNameChar (c : Char) : Bool :=
  !isBlank c && (c.isAlphanum || c == '_' || 128 ≤ c.toNat)

/-- A name that is not read as a literal. -/
structure Identifier (name : String) : Prop where
  nonempty : name ≠ ""
  chars : ∀ c ∈ name.toList, isNameChar c = true
  initial : ∀ c ∈ name.toList.head?, c.isDigit = false
  not_true : name ≠ "true"
  not_false : name ≠ "false"

theorem identifier_iff {name : String} :
    Identifier name ↔ name ≠ "" ∧ name.toList.all isNameChar = true ∧
      name.toList.head?.all (fun c => !c.isDigit) = true ∧ name ≠ "true" ∧ name ≠ "false" := by
  have initial : (∀ c ∈ name.toList.head?, c.isDigit = false) ↔
      name.toList.head?.all (fun c => !c.isDigit) = true := by
    cases name.toList.head? <;> simp
  rw [List.all_eq_true, ← initial]
  constructor
  · rintro ⟨nonempty, chars, initial, notTrue, notFalse⟩
    exact ⟨nonempty, chars, initial, notTrue, notFalse⟩
  · rintro ⟨nonempty, chars, initial, notTrue, notFalse⟩
    exact ⟨nonempty, chars, initial, notTrue, notFalse⟩

instance (name : String) : Decidable (Identifier name) := decidable_of_iff _ identifier_iff.symm

section

variable {c : Char}

theorem ne_of_isNameChar {sign : Char} (char : isNameChar c = true)
    (other : isNameChar sign = false) : c ≠ sign := by
  rintro rfl
  rw [char] at other
  cases other

theorem isBlank_of_isNameChar (char : isNameChar c = true) : isBlank c = false := by
  rw [isNameChar, Bool.and_eq_true, Bool.not_eq_true'] at char
  exact char.1

theorem isQuote_of_isNameChar (char : isNameChar c = true) : isQuote c = false := by
  rw [isQuote, Bool.or_eq_false_iff, beq_eq_false_iff_ne, beq_eq_false_iff_ne]
  exact ⟨ne_of_isNameChar char rfl, ne_of_isNameChar char rfl⟩

/-- Whether a character is neither a quote nor a sign that a comparison begins with. -/
def isUnsigned (c : Char) : Bool := !isQuote c && decide (c ∉ ['>', '<', '=', '!'])

theorem isQuote_of_isUnsigned (unsigned : isUnsigned c = true) : isQuote c = false := by
  rw [isUnsigned, Bool.and_eq_true, Bool.not_eq_true'] at unsigned
  exact unsigned.1

theorem not_mem_of_isUnsigned (unsigned : isUnsigned c = true) : c ∉ ['>', '<', '=', '!'] := by
  rw [isUnsigned, Bool.and_eq_true, decide_eq_true_iff] at unsigned
  exact unsigned.2

theorem isUnsigned_of_isNameChar (char : isNameChar c = true) : isUnsigned c = true := by
  have other : ∀ sign ∈ ['>', '<', '=', '!'], isNameChar sign = false := by simp [isNameChar]
  rw [isUnsigned, isQuote_of_isNameChar char, Bool.not_false, Bool.true_and, decide_eq_true_iff]
  exact fun sign => ne_of_isNameChar char (other c sign) rfl

end

namespace Identifier

variable {name : String}

theorem not_digits (identifier : Identifier name) : Decimal.areDigits name.toList = false := by
  cases spelled : name.toList with
  | nil => rfl
  | cons c rest =>
    have initial : c.isDigit = false := identifier.initial c (by simp [spelled])
    rw [Decimal.areDigits, List.all_cons, initial, Bool.false_and, Bool.and_false]

theorem signed (identifier : Identifier name) :
    Decimal.signed name.toList = (false, name.toList) := by
  have unsigned {sign : Char} {rest : List Char} (other : isNameChar sign = false) :
      name.toList ≠ sign :: rest := by
    intro spelled
    have char := identifier.chars sign (by simp [spelled])
    exact ne_of_isNameChar char other rfl
  exact Decimal.signed.eq_3 name.toList (fun _ => unsigned rfl) (fun _ => unsigned rfl)

/-- A name is not a whole number. -/
theorem int64? (identifier : Identifier name) : Decimal.int64? name.toList = none := by
  rw [Decimal.int64?, Decimal.int?, identifier.signed]
  simp [identifier.not_digits]

theorem unquote? (identifier : Identifier name) : GuardText.unquote? name.toList = none := by
  cases spelled : name.toList with
  | nil => rfl
  | cons c rest =>
    have bare := isQuote_of_isNameChar (identifier.chars c (by simp [spelled]))
    rw [GuardText.unquote?, bare]
    rfl

theorem trim (identifier : Identifier name) : Narrative.trim name.toList = name.toList := by
  have filled : ∀ c ∈ name.toList, isBlank c = false :=
    fun c member => isBlank_of_isNameChar (identifier.chars c member)
  exact trim_eq_self (fun c first => filled c (List.mem_of_head? first))
    (fun c last => filled c (List.mem_of_getLast? last))

/-- The operand of a name is the value that it is bound to. -/
theorem operand (identifier : Identifier name) {bindings : Bindings} {value : Value}
    (bound : bindings.get? name = some value) :
    GuardText.operand bindings name.toList = .ok value := by
  have nonempty : name.toList.isEmpty = false := by
    rw [List.isEmpty_eq_false_iff]
    exact fun empty => identifier.nonempty (String.toList_eq_nil_iff.1 empty)
  simp [GuardText.operand, nonempty, identifier.unquote?, identifier.int64?, identifier.not_true,
    identifier.not_false, bound]

end Identifier

/-! ### Quoted texts -/

def quoted (quote : Char) (content : List Char) : List Char := quote :: (content ++ [quote])

section

variable {quote : Char} {content : List Char}

theorem getLast?_quoted : (quoted quote content).getLast? = some quote := by
  rw [quoted, ← List.cons_append, List.getLast?_append]
  rfl

theorem trim_quoted (mark : isQuote quote = true) :
    trim (quoted quote content) = quoted quote content := by
  have filled := isBlank_of_isQuote mark
  apply trim_eq_self
  · intro c first
    cases first
    exact filled
  · intro c last
    rw [getLast?_quoted] at last
    cases last
    exact filled

theorem operand_quoted (bindings : Bindings) (mark : isQuote quote = true) :
    operand bindings (quoted quote content) = .ok (.text (String.ofList content)) := by
  simp [operand, quoted, unquote?, mark]

/-- Nothing is found in a quoted text, which ends with the first quote of its kind. -/
theorem walk_quoted {α : Type} (find? : List Char → Option α) (mark : isQuote quote = true)
    (absent : quote ∉ content) : walk find? none (quoted quote content) = none := by
  -- Inside, only the quote itself is looked at, and it comes last.
  have inside : walk find? (some quote) (content ++ [quote]) = none := by
    induction content with
    | nil => rfl
    | cons c rest ih =>
      obtain ⟨different, later⟩ := not_or.1 (fun found => absent (List.mem_cons.2 found))
      rw [List.cons_append, walk_cons_eq_none_iff, quoteAfter, if_neg (Ne.symm different)]
      exact ⟨rfl, ih later⟩
  rw [quoted, walk_cons_eq_none_iff, look, quoteAfter, mark]
  exact ⟨rfl, inside⟩

end

/-! ### A name compared with a quoted text -/

section

variable {name : String} {quote : Char} {content : List Char}

/-- A name, a comparison and a quoted text, with blanks between them. -/
def comparing (name : String) (comparison : Comparison) (literal : List Char) : List Char :=
  name.toList ++ ' ' :: (comparison.sign.toList ++ ' ' :: literal)

/-- A separator that has no place in a name or between it and the quoted text stands nowhere. -/
theorem not_standsIn_comparing (identifier : Identifier name) (comparison : Comparison)
    (mark : isQuote quote = true) (absent : quote ∉ content) {sign : Char} (signs : List Char)
    (bare : isQuote sign = false) (other : isNameChar sign = false)
    (foreign : ∀ c ∈ ' ' :: (comparison.sign.toList ++ [' ']), c ≠ sign ∧ isQuote c = false) :
    ¬ StandsIn (sign :: signs) (comparing name comparison (quoted quote content)) := by
  have front : ∀ c ∈ name.toList ++ ' ' :: (comparison.sign.toList ++ [' ']),
      c ≠ sign ∧ isQuote c = false := by
    intro c member
    rcases List.mem_append.1 member with named | between
    · have char := identifier.chars c named
      exact ⟨ne_of_isNameChar char other, isQuote_of_isNameChar char⟩
    · exact foreign c between
  have nowhere : ∀ c ∈ name.toList ++ ' ' :: (comparison.sign.toList ++ [' ']), ∀ back,
      afterSeparator? (sign :: signs) (c :: back) = none := by
    intro c member back
    rw [afterSeparator?_eq_none_iff]
    intro rest whole
    exact (front c member).1 (List.cons.inj whole).1
  have split : comparing name comparison (quoted quote content) =
      (name.toList ++ ' ' :: (comparison.sign.toList ++ [' '])) ++ quoted quote content := by
    simp [comparing]
  rw [← cut?_eq_none_iff bare, cut?_eq_walk, split, walk_append_of_none nowhere,
    closed_of_bare (fun c member => (front c member).2), walk_quoted _ mark absent]
  rfl

/-- The comparison behind a text without signs and quotes is the first one that is found. -/
theorem comparison?_comparing (unsigned : ∀ c ∈ name.toList, isUnsigned c = true)
    (comparison : Comparison) (literal : List Char) :
    comparison? none (comparing name comparison literal) =
      some (name.toList ++ [' '], comparison, ' ' :: literal) := by
  have front : ∀ c ∈ name.toList ++ [' '], isUnsigned c = true := by
    intro c member
    rcases List.mem_append.1 member with named | blank
    · exact unsigned c named
    · rw [List.mem_singleton.1 blank]
      decide
  have nowhere : ∀ c ∈ name.toList ++ [' '], ∀ back, afterComparison? (c :: back) = none := by
    intro c member back
    rw [afterComparison?, Option.map_eq_none_iff, comparisonAt?_eq_none_iff]
    rintro other ⟨rest, whole⟩
    obtain ⟨sign, signs, spelled, first⟩ := other.exists_sign
    rw [spelled] at whole
    obtain ⟨rfl, -⟩ := List.cons.inj whole
    exact not_mem_of_isUnsigned (front sign member) first
  have here : walk afterComparison? none (comparison.sign.toList ++ ' ' :: literal) =
      some ([], comparison, ' ' :: literal) := by
    cases comparison <;> exact walk_cons_of_some rfl rfl
  have split : comparing name comparison literal =
      (name.toList ++ [' ']) ++ (comparison.sign.toList ++ ' ' :: literal) := by
    simp [comparing]
  rw [comparison?_eq_walk, split, walk_append_of_none nowhere,
    closed_of_bare (fun c member => isQuote_of_isUnsigned (front c member)), here,
    Option.map_some, Prod.map_apply, List.append_nil]
  rfl

theorem trim_comparing (identifier : Identifier name) (comparison : Comparison)
    (mark : isQuote quote = true) :
    trim (comparing name comparison (quoted quote content)) =
      comparing name comparison (quoted quote content) := by
  apply trim_eq_self
  · intro c first
    cases spelled : name.toList with
    | nil => exact absurd (String.toList_eq_nil_iff.1 spelled) identifier.nonempty
    | cons d rest =>
      rw [comparing, spelled] at first
      cases first
      exact isBlank_of_isNameChar (identifier.chars c (by simp [spelled]))
  · intro c last
    rw [comparing, List.getLast?_append, List.getLast?_cons, List.getLast?_append,
      List.getLast?_cons, getLast?_quoted] at last
    cases last
    exact isBlank_of_isQuote mark

/-- Two operands with a comparison between them are compared as values. -/
theorem term_of_operands (comparison : Comparison) {literal : List Char} {bindings : Bindings}
    {left right : Value} (unsigned : ∀ c ∈ name.toList, isUnsigned c = true)
    (trimmed : trim name.toList = name.toList) (trimmedToo : trim literal = literal)
    (first : operand bindings name.toList = .ok left)
    (second : operand bindings literal = .ok right) :
    term bindings (comparing name comparison literal) = left.compare? comparison right := by
  have nonempty : (comparing name comparison literal).isEmpty = false := by simp [comparing]
  have front : trim (name.toList ++ [' ']) = name.toList := by
    rw [trim_append_blank (by decide), trimmed]
  have back : trim (' ' :: literal) = literal := by
    rw [← List.singleton_append, trim_blank_append (by decide), trimmedToo]
  unfold term
  simp [nonempty, comparison?_comparing unsigned, front, back, first, second]

/-- A name and a quoted text are compared as values. -/
theorem term_comparing (identifier : Identifier name) (comparison : Comparison)
    (mark : isQuote quote = true) {bindings : Bindings} {value : Value}
    (bound : bindings.get? name = some value) :
    term bindings (comparing name comparison (quoted quote content)) =
      value.compare? comparison (.text (String.ofList content)) :=
  term_of_operands comparison (fun c member => isUnsigned_of_isNameChar (identifier.chars c member))
    identifier.trim (trim_quoted mark) (identifier.operand bound) (operand_quoted bindings mark)

end

/-- Quoted text is opaque. A name bound to a text, compared with a text in quotes that does not have
the quote in it, is answered by the order of the bytes of the two texts, whatever signs, separators,
other quotes and blanks are written there. -/
theorem evaluate_quoted (bindings : Bindings) {name value content : String} {quote : Char}
    (comparison : Comparison) (identifier : Identifier name)
    (bound : bindings.get? name = some (.text value)) (mark : quote = '"' ∨ quote = '\'')
    (absent : quote ∉ content.toList) :
    evaluate bindings (name ++ " " ++ comparison.sign ++ " " ++ quote.toString ++ content ++
        quote.toString) =
      .ok (decide (comparison.Relates (utf8 value) (utf8 content))) := by
  have quotes : isQuote quote = true := by
    rcases mark with rfl | rfl <;> rfl
  have spelled : (name ++ " " ++ comparison.sign ++ " " ++ quote.toString ++ content ++
      quote.toString).toList = comparing name comparison (quoted quote content.toList) := by
    simp [comparing, quoted, Char.toString]
  have filled : ¬ Blank (comparing name comparison (quoted quote content.toList)) := by
    intro blank
    have blankQuote := blank quote (by simp [comparing, quoted])
    rw [isBlank_of_isQuote quotes] at blankQuote
    cases blankQuote
  have bars : ¬ StandsIn ['|', '|'] (comparing name comparison (quoted quote content.toList)) :=
    not_standsIn_comparing identifier comparison quotes absent ['|'] rfl rfl
      (by cases comparison <;> simp [Comparison.sign, isQuote])
  have ands : ¬ StandsIn ['&', '&'] (comparing name comparison (quoted quote content.toList)) :=
    not_standsIn_comparing identifier comparison quotes absent ['&'] rfl rfl
      (by cases comparison <;> simp [Comparison.sign, isQuote])
  rw [evaluate_of_filled bindings (spelled ▸ filled), spelled, alternatives_of_whole bindings bars,
    alternative_of_whole bindings ands, trim_comparing identifier comparison quotes,
    term_comparing identifier comparison quotes bound, String.ofList_toList, Value.compare?_text]

/-- A text with signs, separators, the other quote, a line break and blanks in it. -/
def cluttered : String := " || 'x' != y\n && ! >= \u2028 <"

theorem evaluate_quoted_cluttered :
    Identifier "größe_2" ∧ '"' ∉ cluttered.toList ∧
    evaluate (KeyMap.empty.insert "größe_2" (.text cluttered))
      ("größe_2" ++ " " ++ "==" ++ " " ++ "\"" ++ cluttered ++ "\"") = .ok true ∧
    evaluate (KeyMap.empty.insert "größe_2" (.text "\uFFFD"))
      ("größe_2" ++ " " ++ "<" ++ " " ++ "'" ++ "😀 == \" || " ++ "'") = .ok true := by
  have identifier : Identifier "größe_2" :=
    ⟨by decide, List.all_eq_true.1 rfl, by simp, by decide, by decide⟩
  have absent : '"' ∉ cluttered.toList := by decide
  refine ⟨identifier, absent, ?_, ?_⟩
  · have same : Comparison.equal.Relates (utf8 cluttered) (utf8 cluttered) := rfl
    have answer := evaluate_quoted (KeyMap.empty.insert "größe_2" (.text cluttered)) .equal
      identifier rfl (Or.inl rfl) absent
    rwa [decide_eq_true same] at answer
  · have bytes : Comparison.less.Relates (utf8 "\uFFFD") (utf8 "😀 == \" || ") := by decide +kernel
    have answer := evaluate_quoted (KeyMap.empty.insert "größe_2" (.text "\uFFFD")) .less
      identifier rfl (Or.inr rfl) (by decide : '\'' ∉ "😀 == \" || ".toList)
    rwa [decide_eq_true bytes] at answer

end Narrative.GuardText
