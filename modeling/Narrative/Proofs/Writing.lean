import Narrative.Json.Printer
import Narrative.Json.Reader
import Narrative.Proofs.Run

/-!
Reading what is written as JSON. The written forms of a value, with white space anywhere between
their tokens, are one inductive relation. The reader gives the value of every form back, and what is
written in one line or on indented lines is a form.
-/

set_option autoImplicit false

namespace Narrative.Json

/-- A reader gives a value and leaves a rest. -/
def Reads {α : Type} {source : List Char} (result : Option (Taken α source)) (value : α)
    (rest : List Char) : Prop :=
  ∃ taken, result = some taken ∧ taken.value = value ∧ taken.rest = rest

variable {source rest middle : List Char}

/-! ### White space -/

theorem skipSpace_run {spaces : List Char} (blank : ∀ c ∈ spaces, isSpace c = true)
    (stops : Stops isSpace rest) : skipSpace (spaces ++ rest) = rest :=
  dropWhile_run blank stops

theorem skipSpace_cons {c : Char} (mark : isSpace c = false) : skipSpace (c :: rest) = c :: rest :=
  dropWhile_of_stops ((stops_cons isSpace c rest).2 mark)

/-! ### Whole numbers -/

theorem value_toDigits (number : Nat) : Decimal.value (Nat.toDigits 10 number) = number :=
  Nat.ofDigitChars_toDigits (by decide) (by decide)

theorem isDigit_of_mem_toDigits {number : Nat} {c : Char} (member : c ∈ Nat.toDigits 10 number) :
    c.isDigit = true :=
  Nat.isDigit_of_mem_toDigits (by decide) (by decide) member

/-- Only zero is written with a zero in front. -/
theorem exists_toDigits (number : Nat) :
    Nat.toDigits 10 number = ['0'] ∧ number = 0 ∨
      ∃ c digits, Nat.toDigits 10 number = c :: digits ∧ c ≠ '0' := by
  induction number using Nat.strongRecOn with
  | ind number ih =>
    by_cases small : number < 10
    · rw [Nat.toDigits_of_lt_base small]
      by_cases zero : number = 0
      · subst zero
        exact Or.inl ⟨rfl, rfl⟩
      · have nonzero : ∀ digit, digit < 10 → digit ≠ 0 → Nat.digitChar digit ≠ '0' := by decide
        exact Or.inr ⟨_, [], rfl, nonzero number small zero⟩
    · -- All digits but the last are those of the tenth, which is not zero.
      rw [Nat.toDigits_of_base_le (by decide) (by omega)]
      rcases ih (number / 10) (by omega) with ⟨-, zero⟩ | ⟨c, digits, split, nonzero⟩
      · omega
      · rw [split]
        exact Or.inr ⟨c, _, rfl, nonzero⟩

/-- The characters that a number may go on with. -/
def isNumberPart (c : Char) : Bool := c.isDigit || c == '.' || c == 'e' || c == 'E'

theorem isDigit_isNumberPart {c : Char} (digit : c.isDigit = true) : isNumberPart c = true := by
  simp [isNumberPart, digit]

theorem isNumberPart_isSpace {c : Char} (space : isSpace c = true) : isNumberPart c = false := by
  simp only [isSpace, Bool.or_eq_true, beq_iff_eq] at space
  rcases space with ((rfl | rfl) | rfl) | rfl <;> decide

theorem reads_integer (number : Nat) (written : source = Nat.toDigits 10 number ++ rest)
    (stops : Stops isNumberPart rest) : Reads (integer? source) number rest := by
  have digits : ∀ c ∈ Nat.toDigits 10 number, c.isDigit = true :=
    fun c member => isDigit_of_mem_toDigits member
  have ends : Stops Char.isDigit rest := stops.mono (fun c => isDigit_isNumberPart)
  have run : source.takeWhile Char.isDigit = Nat.toDigits 10 number := by
    rw [written, takeWhile_run digits ends]
  have left : source.dropWhile Char.isDigit = rest := by
    rw [written, dropWhile_run digits ends]
  unfold integer?
  split
  · next after =>
    rcases exists_toDigits number with ⟨zero, rfl⟩ | ⟨c, others, split, nonzero⟩
    · rw [zero] at written
      cases written
      exact ⟨_, rfl, rfl, rfl⟩
    · rw [split] at written
      cases written
      exact absurd rfl nonzero
  · dsimp only
    have some : ¬ (List.takeWhile Char.isDigit source).isEmpty = true := by
      rw [run, List.isEmpty_iff]
      exact Nat.toDigits_ne_nil
    rw [if_neg some]
    refine ⟨_, rfl, ?_, left⟩
    dsimp only
    rw [run, value_toDigits]

theorem reads_fraction (stops : Stops isNumberPart source) :
    Reads (fraction? source) [] source := by
  unfold fraction?
  split
  · next after =>
    have point := (stops_cons _ _ _).1 stops
    cases point
  · exact ⟨_, rfl, rfl, rfl⟩

theorem reads_exponent (stops : Stops isNumberPart source) :
    Reads (exponent? source) none source := by
  unfold exponent?
  split
  · next c after =>
    have plain := (stops_cons _ _ _).1 stops
    have other : ¬ (c = 'e' ∨ c = 'E') := by
      rintro (rfl | rfl)
      · cases plain
      · cases plain
    rw [if_neg other]
    exact ⟨_, rfl, rfl, rfl⟩
  · exact ⟨_, rfl, rfl, rfl⟩

theorem reads_unsigned (number : Nat) (written : source = Nat.toDigits 10 number ++ rest)
    (stops : Stops isNumberPart rest) : Reads (unsigned? false source) (.ofNat number) rest := by
  obtain ⟨integer, first, rfl, here⟩ := reads_integer number written stops
  rw [← here] at stops
  obtain ⟨fraction, second, none, there⟩ := reads_fraction stops
  rw [← there] at stops
  obtain ⟨exponent, third, absent, last⟩ := reads_exponent stops
  unfold unsigned?
  rw [first, Option.bind_eq_bind, Option.bind_some, second, Option.bind_eq_bind,
    Option.bind_some, third, Option.bind_eq_bind, Option.bind_some, none, absent]
  exact ⟨_, rfl, rfl, by rw [last, there, here]⟩

theorem reads_number (number : Nat) (written : source = Nat.toDigits 10 number ++ rest)
    (stops : Stops isNumberPart rest) : Reads (number? source) (.ofNat number) rest := by
  unfold number?
  split
  · next after =>
    cases digits : Nat.toDigits 10 number with
    | nil => exact absurd digits Nat.toDigits_ne_nil
    | cons c others =>
      rw [digits] at written
      cases written
      have digit : '-' ∈ Nat.toDigits 10 number := by
        rw [digits]
        exact List.mem_cons_self
      cases isDigit_of_mem_toDigits digit
  · exact reads_unsigned number written stops

/-! ### Texts -/

theorem reads_string_iff {found : Option (List Char)} :
    Reads (string? source) found rest ↔
      source.dropWhile isPlain = '"' :: rest ∧ found = some (source.takeWhile isPlain) ∨
      ∃ after c middle more, source.dropWhile isPlain = '\\' :: after ∧
        Reads (escape? after) c middle ∧ Reads (string? middle) more rest ∧
        found = match c, more with
          | some c, some chars => some (source.takeWhile isPlain ++ c :: chars)
          | _, _ => none := by
  constructor
  · rintro ⟨taken, read, rfl, rfl⟩
    rw [string?] at read
    split at read
    · next after split =>
      cases read
      exact Or.inl ⟨split, rfl⟩
    · next after split =>
      split at read
      · cases read
      · next escaped here =>
        dsimp only at read
        split at read
        · cases read
        · next more there =>
          cases read
          exact Or.inr ⟨after, escaped.value, escaped.rest, more.value, split,
            ⟨escaped, here, rfl, rfl⟩, ⟨more, there, rfl, rfl⟩, rfl⟩
    · cases read
  · rintro (⟨close, rfl⟩ | ⟨after, _, _, _, slash, ⟨escaped, here, rfl, rfl⟩,
      ⟨more, there, rfl, rfl⟩, rfl⟩)
    · rw [Reads, string?]
      split
      · next other split =>
        cases close.symm.trans split
        exact ⟨_, rfl, rfl, rfl⟩
      · next other split => cases close.symm.trans split
      · next other _ => exact absurd close (other rest)
    · rw [Reads, string?]
      split
      · next other split => cases slash.symm.trans split
      · next other split =>
        cases slash.symm.trans split
        rw [here]
        dsimp only
        rw [there]
        exact ⟨_, rfl, rfl, rfl⟩
      · next _ other => exact absurd slash (other after)

theorem reads_string_close : Reads (string? ('"' :: rest)) (some []) rest :=
  reads_string_iff.2 (Or.inl ⟨rfl, rfl⟩)

theorem reads_string_plain {c : Char} {chars : List Char} (plain : isPlain c = true)
    (behind : Reads (string? source) (some chars) rest) :
    Reads (string? (c :: source)) (some (c :: chars)) rest := by
  rw [reads_string_iff, List.dropWhile_cons_of_pos plain, List.takeWhile_cons_of_pos plain]
  rcases reads_string_iff.1 behind with ⟨close, found⟩ |
    ⟨after, escaped, middle, more, slash, first, second, found⟩
  · exact Or.inl ⟨close, congrArg (Option.map (c :: ·)) found⟩
  · refine Or.inr ⟨after, escaped, middle, more, slash, first, second, ?_⟩
    have longer := congrArg (Option.map (c :: ·)) found
    cases escaped with
    | none => cases found
    | some c =>
      cases more with
      | none => cases found
      | some others => exact longer

theorem reads_string_escape {c : Char} {chars : List Char}
    (escaped : Reads (escape? source) (some c) middle)
    (behind : Reads (string? middle) (some chars) rest) :
    Reads (string? ('\\' :: source)) (some (c :: chars)) rest :=
  reads_string_iff.2 (Or.inr ⟨source, some c, middle, some chars, rfl, escaped, behind, rfl⟩)

/-- Two hexadecimal digits after two zeros give a number below 256. -/
theorem reads_codeUnit {number : Nat} (small : number < 256) :
    Reads (codeUnit? ('0' :: '0' :: hexChar (number / 16) :: hexChar (number % 16) :: rest)) number
      rest := by
  have digits : ∀ digit, digit < 16 → hexDigit? (hexChar digit) = some digit := by decide
  have zero : hexDigit? '0' = some 0 := rfl
  rw [codeUnit?, zero, digits (number / 16) (by omega), digits (number % 16) (by omega)]
  refine ⟨_, rfl, ?_, rfl⟩
  dsimp only
  omega

/-- A control character is read back from its code. -/
theorem reads_escape_control {c : Char} (control : c.toNat < 0x20) :
    Reads (escape? ('u' :: '0' :: '0' :: hexChar (c.toNat / 16) :: hexChar (c.toNat % 16) :: rest))
      (some c) rest := by
  have small : c.toNat < 256 := by omega
  obtain ⟨unit, read, value, left⟩ := @reads_codeUnit rest c.toNat small
  have leading : ¬ isLeading unit.value = true := by
    rw [value, isLeading, Bool.and_eq_true, decide_eq_true_eq, decide_eq_true_eq]
    omega
  have trailing : ¬ isTrailing unit.value = true := by
    rw [value, isTrailing, Bool.and_eq_true, decide_eq_true_eq, decide_eq_true_eq]
    omega
  rw [escape?, unicodeEscape?, read]
  dsimp only
  rw [if_neg leading, if_neg trailing]
  have whole : Char.ofNat unit.value = c := by rw [value, Char.ofNat_toNat]
  exact ⟨_, rfl, congrArg some whole, left⟩

theorem escape_cases (c : Char) :
    escape c = [c] ∧ isPlain c = true ∨
      ∃ code, escape c = '\\' :: code ∧ ∀ rest, Reads (escape? (code ++ rest)) (some c) rest := by
  unfold escape
  split
  · next same => exact Or.inr ⟨['"'], rfl, fun rest => ⟨_, rfl, by rw [same], rfl⟩⟩
  split
  · next same => exact Or.inr ⟨['\\'], rfl, fun rest => ⟨_, rfl, by rw [same], rfl⟩⟩
  split
  · next same => exact Or.inr ⟨['b'], rfl, fun rest => ⟨_, rfl, by rw [same], rfl⟩⟩
  split
  · next same => exact Or.inr ⟨['t'], rfl, fun rest => ⟨_, rfl, by rw [same], rfl⟩⟩
  split
  · next same => exact Or.inr ⟨['n'], rfl, fun rest => ⟨_, rfl, by rw [same], rfl⟩⟩
  split
  · next same => exact Or.inr ⟨['f'], rfl, fun rest => ⟨_, rfl, by rw [same], rfl⟩⟩
  split
  · next same => exact Or.inr ⟨['r'], rfl, fun rest => ⟨_, rfl, by rw [same], rfl⟩⟩
  split
  · next control => exact Or.inr ⟨_, rfl, fun rest => reads_escape_control control⟩
  · next quote slash _ _ _ _ _ control =>
    refine Or.inl ⟨rfl, ?_⟩
    simp only [isPlain, Bool.and_eq_true, bne_iff_ne, decide_eq_true_eq]
    exact ⟨⟨quote, slash⟩, Nat.le_of_not_lt control⟩

/-- What a text is written as is read back. -/
theorem reads_string (chars : List Char) :
    Reads (string? (chars.flatMap escape ++ '"' :: rest)) (some chars) rest := by
  induction chars with
  | nil => exact reads_string_close
  | cons c others ih =>
    rw [List.flatMap_cons, List.append_assoc]
    rcases escape_cases c with ⟨here, plain⟩ | ⟨code, here, reads⟩
    · rw [here]
      exact reads_string_plain plain ih
    · rw [here]
      exact reads_string_escape (reads _) ih

/-! ### Items and fields -/

variable {value? : ValueReader} {json : Json} {after : List Char}

theorem reads_items_last (item : Reads (value? (skipSpace source)) json middle)
    (close : skipSpace middle = ']' :: rest) : Reads (items? value? source) [json] rest := by
  obtain ⟨taken, read, rfl, rfl⟩ := item
  rw [Reads, items?, read]
  dsimp only
  split
  · next other split => cases close.symm.trans split
  · next other split =>
    cases close.symm.trans split
    exact ⟨_, rfl, rfl, rfl⟩
  · next _ other => exact absurd close (other rest)

theorem reads_items_more {others : List Json} (item : Reads (value? (skipSpace source)) json middle)
    (comma : skipSpace middle = ',' :: after) (behind : Reads (items? value? after) others rest) :
    Reads (items? value? source) (json :: others) rest := by
  obtain ⟨taken, read, rfl, rfl⟩ := item
  obtain ⟨more, there, rfl, rfl⟩ := behind
  rw [Reads, items?, read]
  dsimp only
  split
  · next other split =>
    cases comma.symm.trans split
    rw [there]
    exact ⟨_, rfl, rfl, rfl⟩
  · next other split => cases comma.symm.trans split
  · next other _ => exact absurd comma (other after)

theorem reads_field {start : List Char} {name : Option (List Char)}
    (opened : skipSpace source = '"' :: start) (named : Reads (string? start) name middle)
    (colon : skipSpace middle = ':' :: after) (inner : Reads (value? (skipSpace after)) json rest) :
    Reads (field? value? source) (name.map String.ofList, json) rest := by
  obtain ⟨text, first, rfl, rfl⟩ := named
  obtain ⟨taken, second, rfl, rfl⟩ := inner
  unfold field?
  dsimp only
  split
  · next other split =>
    cases opened.symm.trans split
    rw [first]
    dsimp only
    split
    · next other split =>
      cases colon.symm.trans split
      rw [second]
      exact ⟨_, rfl, rfl, rfl⟩
    · next other => exact absurd colon (other after)
  · next other => exact absurd opened (other start)

variable {field : Option String × Json}

theorem reads_fields_last (first : Reads (field? value? source) field middle)
    (close : skipSpace middle = '}' :: rest) : Reads (fields? value? source) [field] rest := by
  obtain ⟨taken, read, rfl, rfl⟩ := first
  rw [Reads, fields?, read]
  dsimp only
  split
  · next other split => cases close.symm.trans split
  · next other split =>
    cases close.symm.trans split
    exact ⟨_, rfl, rfl, rfl⟩
  · next _ other => exact absurd close (other rest)

theorem reads_fields_more {others : List (Option String × Json)}
    (first : Reads (field? value? source) field middle) (comma : skipSpace middle = ',' :: after)
    (behind : Reads (fields? value? after) others rest) :
    Reads (fields? value? source) (field :: others) rest := by
  obtain ⟨taken, read, rfl, rfl⟩ := first
  obtain ⟨more, there, rfl, rfl⟩ := behind
  rw [Reads, fields?, read]
  dsimp only
  split
  · next other split =>
    cases comma.symm.trans split
    rw [there]
    exact ⟨_, rfl, rfl, rfl⟩
  · next other split => cases comma.symm.trans split
  · next other _ => exact absurd comma (other after)

/-! ### Values -/

theorem reads_array_empty (close : skipSpace source = ']' :: rest) :
    Reads (valueWith value? ('[' :: source)) (.array []) rest := by
  rw [Reads, valueWith]
  split
  · next other split =>
    cases close.symm.trans split
    exact ⟨_, rfl, rfl, rfl⟩
  · next other => exact absurd close (other rest)

theorem reads_array {items : List Json} (filled : ∀ after, skipSpace source ≠ ']' :: after)
    (inner : Reads (items? value? source) items rest) :
    Reads (valueWith value? ('[' :: source)) (.array items) rest := by
  obtain ⟨taken, read, rfl, rfl⟩ := inner
  rw [Reads, valueWith]
  split
  · next other split => exact absurd split (filled other)
  · rw [read]
    exact ⟨_, rfl, rfl, rfl⟩

theorem reads_object_empty (close : skipSpace source = '}' :: rest) :
    Reads (valueWith value? ('\x7b' :: source)) (.object []) rest := by
  rw [Reads, valueWith]
  split
  · next other split =>
    cases close.symm.trans split
    exact ⟨_, rfl, rfl, rfl⟩
  · next other => exact absurd close (other rest)

theorem reads_object {fields : List (Option String × Json)}
    (filled : ∀ after, skipSpace source ≠ '}' :: after)
    (inner : Reads (fields? value? source) fields rest) :
    Reads (valueWith value? ('\x7b' :: source)) (.object fields) rest := by
  obtain ⟨taken, read, rfl, rfl⟩ := inner
  rw [Reads, valueWith]
  split
  · next other split => exact absurd split (filled other)
  · rw [read]
    exact ⟨_, rfl, rfl, rfl⟩

theorem reads_value_number (number : Nat) (written : source = Nat.toDigits 10 number ++ rest)
    (stops : Stops isNumberPart rest) :
    Reads (valueWith value? source) (.number (.ofNat number)) rest := by
  have read := reads_number number written stops
  have digit : ∀ c after, source = c :: after → c.isDigit = true := by
    intro c after split
    cases digits : Nat.toDigits 10 number with
    | nil => exact absurd digits Nat.toDigits_ne_nil
    | cons first others =>
      rw [digits, split] at written
      cases written
      apply isDigit_of_mem_toDigits
      rw [digits]
      exact List.mem_cons_self
  unfold valueWith
  split
  · cases digit _ _ rfl
  · cases digit _ _ rfl
  · cases digit _ _ rfl
  · cases digit _ _ rfl
  · cases digit _ _ rfl
  · cases digit _ _ rfl
  · obtain ⟨taken, here, value, left⟩ := read
    rw [here]
    exact ⟨_, rfl, congrArg Json.number value, left⟩

/-! ### Written forms -/

/-- Nothing but white space. -/
def Blank (spaces : List Char) : Prop := ∀ c ∈ spaces, isSpace c = true

mutual

/-- The written forms of a value whose numbers are whole and whose names are texts. -/
inductive Form : Json → List Char → Prop
  | number (number : Nat) : Form (.number (.ofNat number)) (Nat.toDigits 10 number)
  | emptyArray : Form (.array []) ['[', ']']
  | array {items : List Json} {chars : List Char} (inner : ItemsForm items chars) :
    Form (.array items) ('[' :: chars)
  | emptyObject : Form (.object []) ['\x7b', '}']
  | object {fields : List (Option String × Json)} {chars : List Char}
    (inner : FieldsForm fields chars) : Form (.object fields) ('\x7b' :: chars)

/-- The written forms of the items of an array, up to its closing bracket. -/
inductive ItemsForm : List Json → List Char → Prop
  | last {item : Json} {before chars behind : List Char} (front : Blank before)
    (form : Form item chars) (back : Blank behind) :
    ItemsForm [item] (before ++ (chars ++ (behind ++ [']'])))
  | more {item : Json} {rest : List Json} {before chars others : List Char} (front : Blank before)
    (form : Form item chars) (behind : ItemsForm rest others) :
    ItemsForm (item :: rest) (before ++ (chars ++ ',' :: others))

/-- The written forms of the fields of an object, up to its closing brace. -/
inductive FieldsForm : List (Option String × Json) → List Char → Prop
  | last (name : String) {value : Json} {before between chars behind : List Char}
    (front : Blank before) (inside : Blank between) (form : Form value chars)
    (back : Blank behind) :
    FieldsForm [(some name, value)]
      (before ++ (textChars (some name) ++ ':' :: (between ++ (chars ++ (behind ++ ['}'])))))
  | more (name : String) {value : Json} {rest : List (Option String × Json)}
    {before between chars others : List Char} (front : Blank before) (inside : Blank between)
    (form : Form value chars) (behind : FieldsForm rest others) :
    FieldsForm ((some name, value) :: rest)
      (before ++ (textChars (some name) ++ ':' :: (between ++ (chars ++ ',' :: others))))

end

/-- A form begins with a character that is neither white space nor a closing bracket. -/
theorem Form.head {chars : List Char} (form : Form json chars) :
    ∃ c others, chars = c :: others ∧ isSpace c = false ∧ c ≠ ']' := by
  cases form with
  | number number =>
    cases digits : Nat.toDigits 10 number with
    | nil => exact absurd digits Nat.toDigits_ne_nil
    | cons c others =>
      have member : c ∈ Nat.toDigits 10 number := by
        rw [digits]
        exact List.mem_cons_self
      have digit := isDigit_of_mem_toDigits member
      refine ⟨c, others, rfl, ?_, ?_⟩
      · cases space : isSpace c with
        | false => rfl
        | true =>
          have other := isNumberPart_isSpace space
          rw [isDigit_isNumberPart digit] at other
          cases other
      · rintro rfl
        cases digit
  | emptyArray => exact ⟨_, _, rfl, rfl, by decide⟩
  | array inner => exact ⟨_, _, rfl, rfl, by decide⟩
  | emptyObject => exact ⟨_, _, rfl, rfl, by decide⟩
  | object inner => exact ⟨_, _, rfl, rfl, by decide⟩

theorem skipSpace_form {before chars : List Char} (front : Blank before)
    (form : Form json chars) : skipSpace (before ++ (chars ++ rest)) = chars ++ rest := by
  obtain ⟨c, others, rfl, mark, -⟩ := form.head
  exact skipSpace_run front ((stops_cons _ _ _).2 mark)

theorem skipSpace_mark {spaces : List Char} {c : Char} (blank : Blank spaces)
    (mark : isSpace c = false) : skipSpace (spaces ++ c :: rest) = c :: rest :=
  skipSpace_run blank ((stops_cons _ _ _).2 mark)

/-- A number ends before white space and before a mark. -/
theorem stops_mark {spaces : List Char} {c : Char} (blank : Blank spaces)
    (mark : isNumberPart c = false) : Stops isNumberPart (spaces ++ c :: rest) := by
  cases spaces with
  | nil => exact (stops_cons _ _ _).2 mark
  | cons space others =>
    exact (stops_cons _ _ _).2 (isNumberPart_isSpace (blank space List.mem_cons_self))

theorem textChars_append (name : String) (rest : List Char) :
    textChars (some name) ++ rest = '"' :: (name.toList.flatMap escape ++ '"' :: rest) := by
  change ('"' :: name.toList.flatMap escape ++ ['"']) ++ rest = _
  rw [List.cons_append, List.cons_append, List.append_assoc]
  rfl

/-- A field is read back, given that its value is. -/
theorem reads_field_form (name : String) {before between chars : List Char} (front : Blank before)
    (inside : Blank between) (form : Form json chars)
    (inner : Reads (value? (chars ++ rest)) json rest) :
    Reads (field? value?
      (before ++ (textChars (some name) ++ ':' :: (between ++ (chars ++ rest)))))
      (some name, json) rest := by
  have skipped := @skipSpace_form rest json between chars inside form
  rw [← skipped] at inner
  have opened : skipSpace (before ++ (textChars (some name) ++ ':' :: (between ++
      (chars ++ rest)))) = '"' :: (name.toList.flatMap escape ++ '"' :: ':' :: (between ++
        (chars ++ rest))) := by
    rw [textChars_append, skipSpace_mark front rfl]
  have read := reads_field opened (reads_string name.toList) (skipSpace_cons rfl) inner
  rwa [Option.map_some, String.ofList_toList] at read

/-- The first item is no closing bracket. -/
theorem ItemsForm.filled {items : List Json} {chars : List Char} (form : ItemsForm items chars)
    (rest after : List Char) : skipSpace (chars ++ rest) ≠ ']' :: after := by
  cases form with
  | last front item back =>
    rw [List.append_assoc, List.append_assoc, skipSpace_form front item]
    obtain ⟨c, others, rfl, -, other⟩ := item.head
    intro same
    exact other (List.cons.inj same).1
  | more front item behind =>
    rw [List.append_assoc, List.append_assoc, skipSpace_form front item]
    obtain ⟨c, others, rfl, -, other⟩ := item.head
    intro same
    exact other (List.cons.inj same).1

/-- The first name is no closing brace. -/
theorem FieldsForm.filled {fields : List (Option String × Json)} {chars : List Char}
    (form : FieldsForm fields chars) (rest after : List Char) :
    skipSpace (chars ++ rest) ≠ '}' :: after := by
  cases form with
  | last name front inside value back =>
    rw [List.append_assoc, List.append_assoc, textChars_append, skipSpace_mark front rfl]
    intro same
    cases (List.cons.inj same).1
  | more name front inside value behind =>
    rw [List.append_assoc, List.append_assoc, textChars_append, skipSpace_mark front rfl]
    intro same
    cases (List.cons.inj same).1

mutual

/-- Every form of a value is read back, if arrays and objects may be nested deep enough. -/
theorem Form.reads {json : Json} {chars rest : List Char} (form : Form json chars) {depth : Nat}
    (deep : chars.length < depth) (stops : Stops isNumberPart rest) :
    Reads (Json.value? depth (chars ++ rest)) json rest := by
  -- What is inside is shorter than the whole, so one depth less does for it.
  match depth, form with
  | depth + 1, .number digits => exact reads_value_number digits rfl stops
  | depth + 1, .emptyArray => exact reads_array_empty (skipSpace_cons rfl)
  | depth + 1, .emptyObject => exact reads_object_empty (skipSpace_cons rfl)
  | depth + 1, .array inner =>
    exact reads_array (inner.filled rest) (inner.reads (Nat.lt_of_succ_lt_succ deep))
  | depth + 1, .object inner =>
    exact reads_object (inner.filled rest) (inner.reads (Nat.lt_of_succ_lt_succ deep))

theorem ItemsForm.reads {items : List Json} {chars rest : List Char}
    (form : ItemsForm items chars) {depth : Nat} (deep : chars.length < depth) :
    Reads (items? (Json.value? depth) (chars ++ rest)) items rest := by
  match form with
  | @ItemsForm.last item before inner behind front value back =>
    have short : inner.length < depth := by
      simp only [List.length_append] at deep
      omega
    have stops : Stops isNumberPart (behind ++ ']' :: rest) := stops_mark back rfl
    have read := value.reads short stops
    rw [← skipSpace_form front value] at read
    have whole := reads_items_last read (skipSpace_mark back rfl)
    rw [List.append_assoc, List.append_assoc, List.append_assoc]
    exact whole
  | @ItemsForm.more item others before inner tail front value more =>
    have short : inner.length < depth := by
      simp only [List.length_append] at deep
      omega
    have shorter : tail.length < depth := by
      simp only [List.length_append, List.length_cons] at deep
      omega
    have stops : Stops isNumberPart (',' :: (tail ++ rest)) := (stops_cons _ _ _).2 rfl
    have read := value.reads short stops
    rw [← skipSpace_form front value] at read
    have whole := reads_items_more read (skipSpace_cons rfl) (more.reads shorter)
    rw [List.append_assoc, List.append_assoc]
    exact whole

theorem FieldsForm.reads {fields : List (Option String × Json)} {chars rest : List Char}
    (form : FieldsForm fields chars) {depth : Nat} (deep : chars.length < depth) :
    Reads (fields? (Json.value? depth) (chars ++ rest)) fields rest := by
  match form with
  | @FieldsForm.last name json before between inner behind front inside value back =>
    have short : inner.length < depth := by
      simp only [List.length_append, List.length_cons] at deep
      omega
    have stops : Stops isNumberPart (behind ++ '}' :: rest) := stops_mark back rfl
    have field := reads_field_form name front inside value (value.reads short stops)
    have whole := reads_fields_last field (skipSpace_mark back rfl)
    rw [List.append_assoc, List.append_assoc, List.cons_append, List.append_assoc,
      List.append_assoc, List.append_assoc]
    exact whole
  | @FieldsForm.more name json others before between inner tail front inside value more =>
    have short : inner.length < depth := by
      simp only [List.length_append, List.length_cons] at deep
      omega
    have shorter : tail.length < depth := by
      simp only [List.length_append, List.length_cons] at deep
      omega
    have stops : Stops isNumberPart (',' :: (tail ++ rest)) := (stops_cons _ _ _).2 rfl
    have field := reads_field_form name front inside value (value.reads short stops)
    have whole := reads_fields_more field (skipSpace_cons rfl) (more.reads shorter)
    rw [List.append_assoc, List.append_assoc, List.cons_append, List.append_assoc,
      List.append_assoc]
    exact whole

end

/-- Every form of a value is read as that value. -/
theorem Form.ofChars? {chars : List Char} (form : Form json chars) :
    Json.ofChars? chars = some json := by
  obtain ⟨c, others, split, mark, -⟩ := form.head
  have front : skipSpace chars = chars := by
    rw [split, skipSpace_cons mark]
  have read : Reads (Json.value? (chars.length + 1) (skipSpace chars)) json [] := by
    have whole := form.reads (Nat.lt_succ_self chars.length) (stops_nil isNumberPart)
    rw [List.append_nil] at whole
    rw [front]
    exact whole
  obtain ⟨taken, here, rfl, none⟩ := read
  rw [Json.ofChars?, here]
  dsimp only
  rw [none]
  rfl

/-! ### What is written -/

/-- Values whose numbers are whole and whose names are texts. -/
inductive Plain : Json → Prop
  | number (number : Nat) : Plain (.number (.ofNat number))
  | array {items : List Json} (all : ∀ item ∈ items, Plain item) : Plain (.array items)
  | object {fields : List (Option String × Json)}
    (named : ∀ field ∈ fields, ∃ name, field.1 = some name)
    (all : ∀ field ∈ fields, Plain field.2) : Plain (.object fields)

theorem chars_ofNat (number : Nat) :
    (Numeral.ofNat number).chars = Nat.toDigits 10 number := by
  simp [Numeral.chars, Numeral.ofNat]

theorem blank_nil : Blank [] := by
  intro c member
  cases member

theorem blank_newLine (depth : Nat) : Blank (newLine depth) := by
  intro c member
  rcases List.mem_cons.1 member with rfl | member
  · rfl
  · rw [List.eq_of_mem_replicate member]
    rfl

theorem itemsForm_compact {items : List Json} (filled : items ≠ [])
    (all : ∀ item ∈ items, Form item (compactChars item)) :
    ItemsForm items (compactItems items ++ [']']) := by
  induction items with
  | nil => exact absurd rfl filled
  | cons item others ih =>
    have form := all item List.mem_cons_self
    cases others with
    | nil => exact .last blank_nil form blank_nil
    | cons second rest =>
      have behind := ih (List.cons_ne_nil second rest)
        (fun other member => all other (List.mem_cons_of_mem _ member))
      have whole := ItemsForm.more blank_nil form behind
      rw [compactItems, List.append_assoc]
      · exact whole
      · intro none
        cases none

theorem fieldsForm_compact {fields : List (Option String × Json)} (filled : fields ≠ [])
    (named : ∀ field ∈ fields, ∃ name, field.1 = some name)
    (all : ∀ field ∈ fields, Form field.2 (compactChars field.2)) :
    FieldsForm fields (compactFields fields ++ ['}']) := by
  induction fields with
  | nil => exact absurd rfl filled
  | cons field others ih =>
    obtain ⟨name, value⟩ := field
    obtain ⟨text, same⟩ := named _ List.mem_cons_self
    dsimp only at same
    subst same
    have form := all _ List.mem_cons_self
    cases others with
    | nil =>
      have whole := FieldsForm.last text blank_nil blank_nil form blank_nil
      rw [compactFields, List.append_assoc]
      exact whole
    | cons second rest =>
      have behind := ih (List.cons_ne_nil second rest)
        (fun other member => named other (List.mem_cons_of_mem _ member))
        (fun other member => all other (List.mem_cons_of_mem _ member))
      have whole := FieldsForm.more text blank_nil blank_nil form behind
      rw [compactFields, List.append_assoc, List.append_assoc]
      · exact whole
      · intro none
        cases none

/-- What is written in one line is a form. -/
theorem form_compactChars (plain : Plain json) : Form json (compactChars json) := by
  induction plain with
  | number number =>
    rw [compactChars, chars_ofNat]
    exact .number number
  | @array items all ih =>
    by_cases filled : items = []
    · subst filled
      exact .emptyArray
    · rw [compactChars]
      exact .array (itemsForm_compact filled ih)
  | @object fields named all ih =>
    by_cases filled : fields = []
    · subst filled
      exact .emptyObject
    · rw [compactChars]
      exact .object (fieldsForm_compact filled named ih)

theorem itemsForm_pretty {items : List Json} {depth : Nat} {behind : List Char}
    (back : Blank behind) (filled : items ≠ [])
    (all : ∀ item ∈ items, Form item (prettyChars depth item)) :
    ItemsForm items (prettyItems depth items ++ (behind ++ [']'])) := by
  induction items with
  | nil => exact absurd rfl filled
  | cons item others ih =>
    have form := all item List.mem_cons_self
    cases others with
    | nil =>
      rw [prettyItems, List.append_assoc]
      exact .last (blank_newLine depth) form back
    | cons second rest =>
      have more := ih (List.cons_ne_nil second rest)
        (fun other member => all other (List.mem_cons_of_mem _ member))
      have whole := ItemsForm.more (blank_newLine depth) form more
      rw [prettyItems, List.append_assoc, List.append_assoc]
      · exact whole
      · intro none
        cases none

theorem fieldsForm_pretty {fields : List (Option String × Json)} {depth : Nat} {behind : List Char}
    (back : Blank behind) (filled : fields ≠ [])
    (named : ∀ field ∈ fields, ∃ name, field.1 = some name)
    (all : ∀ field ∈ fields, Form field.2 (prettyChars depth field.2)) :
    FieldsForm fields (prettyFields depth fields ++ (behind ++ ['}'])) := by
  have space : Blank [' '] := by
    intro c member
    rw [List.mem_singleton.1 member]
    rfl
  induction fields with
  | nil => exact absurd rfl filled
  | cons field others ih =>
    obtain ⟨name, value⟩ := field
    obtain ⟨text, same⟩ := named _ List.mem_cons_self
    dsimp only at same
    subst same
    have form := all _ List.mem_cons_self
    cases others with
    | nil =>
      have whole := FieldsForm.last text (blank_newLine depth) space form back
      rw [prettyFields, List.append_assoc, List.append_assoc]
      exact whole
    | cons second rest =>
      have more := ih (List.cons_ne_nil second rest)
        (fun other member => named other (List.mem_cons_of_mem _ member))
        (fun other member => all other (List.mem_cons_of_mem _ member))
      have whole := FieldsForm.more text (blank_newLine depth) space form more
      rw [prettyFields, List.append_assoc, List.append_assoc, List.append_assoc]
      · exact whole
      · intro none
        cases none

/-- What is written on indented lines is a form. -/
theorem form_prettyChars (plain : Plain json) (depth : Nat) :
    Form json (prettyChars depth json) := by
  induction plain generalizing depth with
  | number number =>
    rw [prettyChars, chars_ofNat]
    exact .number number
  | @array items all ih =>
    by_cases filled : items = []
    · subst filled
      exact .emptyArray
    · have form := itemsForm_pretty (blank_newLine depth) filled
        (fun item member => ih item member (depth + 1))
      rw [prettyChars, List.append_assoc]
      · exact .array form
      · exact filled
  | @object fields named all ih =>
    by_cases filled : fields = []
    · subst filled
      exact .emptyObject
    · have form := fieldsForm_pretty (blank_newLine depth) filled named
        (fun field member => ih field member (depth + 1))
      rw [prettyChars, List.append_assoc]
      · exact .object form
      · exact filled

/-- Reading undoes writing. -/
theorem ofString?_compact (plain : Plain json) : ofString? json.compact = some json := by
  rw [ofString?, compact, String.toList_ofList]
  exact (form_compactChars plain).ofChars?

theorem ofString?_pretty (plain : Plain json) : ofString? json.pretty = some json := by
  rw [ofString?, pretty, String.toList_ofList]
  exact (form_prettyChars plain 0).ofChars?

end Narrative.Json
