import Narrative.Proofs.Run
import Narrative.Source.Error

/-!
What the list of a syntax error says. Different things are never displayed alike, and sorting the
list and leaving out repetitions loses nothing, so a displayed item tells what could have come. The
list tells no more than that: it is the same however often and in which order things were expected.
-/

set_option autoImplicit false

namespace Narrative

/-! ### Repetitions -/

section Repetitions

variable {α : Type} [BEq α] [LawfulBEq α] {item first : α} {rest kept list : List α}

theorem mem_eraseReps_loop :
    item ∈ List.eraseRepsBy.loop (· == ·) first rest kept ↔
      item ∈ kept ∨ item = first ∨ item ∈ rest := by
  induction rest generalizing first kept with
  | nil => simp [List.eraseRepsBy.loop, or_comm]
  | cons next rest ih =>
    rw [List.eraseRepsBy.loop]
    split
    · next same =>
      rw [ih, eq_of_beq same, List.mem_cons, ← or_assoc (a := item = next), or_self]
    · rw [ih, List.mem_cons, List.mem_cons, or_comm (b := item ∈ kept), or_assoc]

theorem mem_eraseReps : item ∈ list.eraseReps ↔ item ∈ list := by
  cases list with
  | nil => exact Iff.rfl
  | cons first rest =>
    rw [List.eraseReps, List.eraseRepsBy, mem_eraseReps_loop, List.mem_cons]
    simp

end Repetitions

/-! ### Sorted texts -/

section Sorted

variable {first : String} {rest kept list other : List String}

theorem pairwise_eraseReps_loop (sorted : (first :: rest).Pairwise (· ≤ ·))
    (increasing : (kept.reverse ++ [first]).Pairwise (· < ·)) :
    (List.eraseRepsBy.loop (· == ·) first rest kept).Pairwise (· < ·) := by
  induction rest generalizing first kept with
  | nil => simpa [List.eraseRepsBy.loop] using increasing
  | cons next rest ih =>
    rw [List.eraseRepsBy.loop]
    have tail := (List.pairwise_cons.1 sorted).2
    split
    · next same =>
      cases eq_of_beq same
      exact ih tail increasing
    · next differs =>
      have later : first < next :=
        Std.lt_of_le_of_ne (List.rel_of_pairwise_cons sorted List.mem_cons_self)
          (by simpa using differs)
      refine ih tail ?_
      rw [List.reverse_cons, List.pairwise_append]
      refine ⟨increasing, List.pairwise_singleton _ _, fun earlier member last single => ?_⟩
      rw [List.mem_singleton.1 single]
      rcases List.mem_append.1 member with before | here
      · have front := (List.pairwise_append.1 increasing).2.2 earlier before first
          (List.mem_singleton_self first)
        exact String.lt_trans front later
      · rwa [List.mem_singleton.1 here]

/-- Sorted and without repetitions, a list is strictly increasing. -/
theorem pairwise_eraseReps_mergeSort (list : List String) :
    (list.mergeSort (· ≤ ·)).eraseReps.Pairwise (· < ·) := by
  have sorted := @List.pairwise_mergeSort String (fun a b => decide (a ≤ b))
    (fun _ _ _ first second => decide_eq_true
      (String.le_trans (of_decide_eq_true first) (of_decide_eq_true second)))
    (fun a b => by simpa using String.le_total a b) list
  simp only [decide_eq_true_eq] at sorted
  cases split : list.mergeSort (· ≤ ·) with
  | nil => exact List.Pairwise.nil
  | cons first rest =>
    rw [split] at sorted
    exact pairwise_eraseReps_loop sorted (List.pairwise_singleton _ first)

/-- Lists of the same items are alike once they are sorted and without repetitions. -/
theorem eraseReps_mergeSort_congr (same : ∀ item, item ∈ list ↔ item ∈ other) :
    (list.mergeSort (· ≤ ·)).eraseReps = (other.mergeSort (· ≤ ·)).eraseReps := by
  have increasing := pairwise_eraseReps_mergeSort
  have distinct (list : List String) : (list.mergeSort (· ≤ ·)).eraseReps.Nodup :=
    (increasing list).imp String.ne_of_lt
  have alike := (List.perm_ext_iff_of_nodup (distinct list) (distinct other)).2 (fun item => by
    rw [mem_eraseReps, mem_eraseReps, List.mem_mergeSort, List.mem_mergeSort, same])
  exact alike.eq_of_pairwise (fun _ _ _ _ before after => absurd after (String.lt_asymm before))
    (increasing list) (increasing other)

end Sorted

/-! ### Quoted characters -/

namespace Quoted

theorem digitChar_inj :
    ∀ first < 16, ∀ second < 16, Nat.digitChar first = Nat.digitChar second → first = second := by
  decide

theorem hex_inj {first second : Nat} (same : hex first = hex second) : first = second := by
  unfold hex at same
  induction first using Nat.strongRecOn generalizing second with
  | ind first ih =>
    have base : 1 < 16 := by decide
    by_cases low : first < 16
    · by_cases lower : second < 16
      · rw [Nat.toDigits_of_lt_base low, Nat.toDigits_of_lt_base lower] at same
        exact digitChar_inj first low second lower (List.cons.inj same).1
      · rw [Nat.toDigits_of_lt_base low, Nat.toDigits_of_base_le base (Nat.not_lt.1 lower),
          ← List.nil_append [_]] at same
        exact absurd (List.append_inj' same rfl).1.symm Nat.toDigits_ne_nil
    · by_cases lower : second < 16
      · rw [Nat.toDigits_of_lt_base lower, Nat.toDigits_of_base_le base (Nat.not_lt.1 low),
          ← List.nil_append [second.digitChar]] at same
        exact absurd (List.append_inj' same rfl).1 Nat.toDigits_ne_nil
      · rw [Nat.toDigits_of_base_le base (Nat.not_lt.1 low),
          Nat.toDigits_of_base_le base (Nat.not_lt.1 lower)] at same
        obtain ⟨high, digit⟩ := List.append_inj' same rfl
        have quotient := ih (first / 16) (by omega) high
        have remainder := digitChar_inj (first % 16) (Nat.mod_lt first (by decide)) (second % 16)
          (Nat.mod_lt second (by decide)) (List.cons.inj digit).1
        omega

theorem mem_hex {c : Char} {code : Nat} (member : c ∈ hex code) :
    ∃ digit < 16, c = Nat.digitChar digit := by
  unfold hex at member
  induction code using Nat.strongRecOn with
  | ind code ih =>
    by_cases low : code < 16
    · rw [Nat.toDigits_of_lt_base low, List.mem_singleton] at member
      exact ⟨code, low, member⟩
    · rw [Nat.toDigits_of_base_le (by decide) (Nat.not_lt.1 low), List.mem_append,
        List.mem_singleton] at member
      rcases member with high | last
      · exact ih (code / 16) (by omega) high
      · exact ⟨code % 16, Nat.mod_lt code (by decide), last⟩

theorem not_mem_hex (code : Nat) : '}' ∉ hex code := by
  intro member
  obtain ⟨digit, low, same⟩ := mem_hex member
  have others : ∀ digit < 16, '}' ≠ Nat.digitChar digit := by decide
  exact others digit low same

/-- The signs that characters and texts are written between. -/
def delimiters : List Char := ['\'', '"']

/-- The characters with a short escape between two delimiters, and the letters they have. -/
def shorts (delimiter : Char) : List (Char × Char) :=
  [('\t', 't'), ('\n', 'n'), ('\r', 'r'), ('\x00', '0'), ('\\', '\\'), (delimiter, delimiter)]

theorem shorts_inj {delimiter : Char} (member : delimiter ∈ delimiters) :
    ∀ first ∈ shorts delimiter, ∀ second ∈ shorts delimiter,
      first.2 = second.2 → first.1 = second.1 := by
  simp only [delimiters, List.mem_cons, List.not_mem_nil, or_false] at member
  rcases member with rfl | rfl <;> decide

theorem shorts_ne {delimiter : Char} (member : delimiter ∈ delimiters) :
    ∀ short ∈ shorts delimiter, short.2 ≠ 'u' := by
  simp only [delimiters, List.mem_cons, List.not_mem_nil, or_false] at member
  rcases member with rfl | rfl <;> decide

section

variable {delimiter first second : Char} {rest back : List Char}

/-- The three forms of a character between two delimiters. -/
theorem escape_cases (delimiter c : Char) :
    (∃ letter, (c, letter) ∈ shorts delimiter ∧ escape delimiter c = ['\\', letter]) ∨
      escape delimiter c = '\\' :: 'u' :: '{' :: (hex c.toNat ++ ['}']) ∨
      escape delimiter c = [c] ∧ c ≠ '\\' ∧ c ≠ delimiter := by
  unfold escape
  split
  · next same => exact Or.inl ⟨'t', by simp [same, shorts], rfl⟩
  split
  · next same => exact Or.inl ⟨'n', by simp [same, shorts], rfl⟩
  split
  · next same => exact Or.inl ⟨'r', by simp [same, shorts], rfl⟩
  split
  · next zero =>
    have same : c = '\x00' := Char.toNat_inj.1 zero
    exact Or.inl ⟨'0', by simp [same, shorts], rfl⟩
  split
  · next same => exact Or.inl ⟨'\\', by simp [same, shorts], rfl⟩
  split
  · next same => exact Or.inl ⟨c, by simp [same, shorts], rfl⟩
  split
  · exact Or.inr (Or.inl (by simp))
  · next slash sign _ => exact Or.inr (Or.inr ⟨rfl, slash, sign⟩)

theorem escape_head (member : delimiter ∈ delimiters) (c : Char) :
    ∃ d more, escape delimiter c = d :: more ∧ d ≠ delimiter := by
  have slash : ∀ delimiter ∈ delimiters, '\\' ≠ delimiter := by simp [delimiters]
  rcases escape_cases delimiter c with ⟨letter, -, shown⟩ | shown | ⟨shown, -, sign⟩
  · exact ⟨_, _, shown, slash delimiter member⟩
  · exact ⟨_, _, shown, slash delimiter member⟩
  · exact ⟨_, _, shown, sign⟩

/-- A character is told by what it is written as, whatever follows. -/
theorem escape_append_inj (member : delimiter ∈ delimiters)
    (same : escape delimiter first ++ rest = escape delimiter second ++ back) :
    first = second ∧ rest = back := by
  have letters := shorts_ne member
  rcases escape_cases delimiter first with ⟨letter, short, shown⟩ | shown | ⟨shown, slash, -⟩
  · rcases escape_cases delimiter second with
      ⟨other, shorter, shownToo⟩ | shownToo | ⟨shownToo, slashToo, -⟩
    · rw [shown, shownToo] at same
      cases same
      have inj := shorts_inj member (first, letter) short (second, letter) shorter rfl
      exact ⟨inj, rfl⟩
    · rw [shown, shownToo] at same
      cases same
      exact absurd rfl (letters (first, 'u') short)
    · rw [shown, shownToo] at same
      cases same
      exact absurd rfl slashToo
  · rcases escape_cases delimiter second with
      ⟨other, shorter, shownToo⟩ | shownToo | ⟨shownToo, slashToo, -⟩
    · rw [shown, shownToo] at same
      cases same
      exact absurd rfl (letters (second, 'u') shorter)
    · rw [shown, shownToo] at same
      simp only [List.cons_append, List.append_assoc, List.nil_append, List.cons.injEq,
        true_and] at same
      have digits (code : Nat) : ∀ c ∈ hex code, (c != '}') = true := by
        intro c digit
        rw [bne_iff_ne]
        rintro rfl
        exact not_mem_hex code digit
      obtain ⟨codes, rests⟩ := run_inj (digits _) (digits _) (by simp) (by simp) same
      exact ⟨Char.toNat_inj.1 (hex_inj codes), (List.cons.inj rests).2⟩
    · rw [shown, shownToo] at same
      cases same
      exact absurd rfl slashToo
  · rcases escape_cases delimiter second with
      ⟨other, shorter, shownToo⟩ | shownToo | ⟨shownToo, -, -⟩
    · rw [shown, shownToo] at same
      cases same
      exact absurd rfl slash
    · rw [shown, shownToo] at same
      cases same
      exact absurd rfl slash
    · rw [shown, shownToo] at same
      cases same
      exact ⟨rfl, rfl⟩

/-- A text is told by what it is written as between its delimiters, whatever follows. -/
theorem chars_append_inj {content other : List Char} (member : delimiter ∈ delimiters)
    (same : chars delimiter content ++ rest = chars delimiter other ++ back) :
    content = other ∧ rest = back := by
  simp only [chars, List.cons_append, List.append_assoc, List.nil_append, List.cons.injEq,
    true_and] at same
  induction content generalizing other with
  | nil =>
    cases other with
    | nil => exact ⟨rfl, (List.cons.inj same).2⟩
    | cons c other =>
      obtain ⟨d, more, shown, sign⟩ := escape_head member c
      rw [List.flatMap_cons, shown] at same
      exact absurd (List.cons.inj same).1.symm sign
  | cons c content ih =>
    cases other with
    | nil =>
      obtain ⟨d, more, shown, sign⟩ := escape_head member c
      rw [List.flatMap_cons, shown] at same
      exact absurd (List.cons.inj same).1 sign
    | cons d other =>
      rw [List.flatMap_cons, List.flatMap_cons, List.append_assoc, List.append_assoc] at same
      obtain ⟨rfl, behind⟩ := escape_append_inj member same
      obtain ⟨rfl, rests⟩ := ih behind
      exact ⟨rfl, rests⟩

end

theorem char_inj {first second : Char} (same : char first = char second) : first = second := by
  have inside := congrArg String.toList same
  rw [char, char, String.toList_ofList, String.toList_ofList] at inside
  have whole := (chars_append_inj (by simp [delimiters]) (congrArg (· ++ []) inside)).1
  exact (List.cons.inj whole).1

theorem chars_singleton (delimiter c : Char) :
    chars delimiter [c] = delimiter :: (escape delimiter c ++ [delimiter]) := by
  simp [chars]

end Quoted

/-! ### Expected items -/

namespace Expected

/-- The items that are displayed by a word. -/
def words : List Expected :=
  [text, directive, branch, condition, sequenceType, newline, endOfInput]

theorem mem_words_or_char (next : Expected) : next ∈ words ∨ ∃ c, next = char c := by
  cases next with
  | char c => exact Or.inr ⟨c, rfl⟩
  | _ => exact Or.inl (by decide)

theorem words_inj :
    ∀ first ∈ words, ∀ second ∈ words, first.display = second.display → first = second := by
  decide

theorem words_ne_char (c : Char) : ∀ word ∈ words, word.display ≠ Quoted.char c := by
  intro word member same
  have unquoted : ∀ word ∈ words, word.display.toList.head? ≠ some '\'' := by decide
  apply unquoted word member
  rw [same, Quoted.char, String.toList_ofList, Quoted.chars_singleton]
  rfl

/-- Different things are never displayed alike. -/
theorem display_inj {first second : Expected} (same : first.display = second.display) :
    first = second := by
  rcases mem_words_or_char first with member | ⟨c, rfl⟩
  · rcases mem_words_or_char second with member' | ⟨d, rfl⟩
    · exact words_inj first member second member' same
    · exact absurd same (words_ne_char d first member)
  · rcases mem_words_or_char second with member | ⟨d, rfl⟩
    · exact absurd same.symm (words_ne_char c second member)
    · rw [Quoted.char_inj same]

end Expected

/-! ### Errors -/

theorem SyntaxError.mem_expected_ofStuck {source : List Char} {stuck : Written.Stuck}
    {item : String} :
    item ∈ (ofStuck source stuck).expected ↔
      ∃ next ∈ stuck.awaiting.expected, next.display = item := by
  rw [ofStuck, mem_eraseReps, List.mem_mergeSort, List.mem_map]

/-- An item is listed exactly if the reader that stopped waited for it. -/
theorem SyntaxError.display_mem_expected_ofStuck {source : List Char} {stuck : Written.Stuck}
    {next : Expected} :
    next.display ∈ (ofStuck source stuck).expected ↔ next ∈ stuck.awaiting.expected := by
  rw [mem_expected_ofStuck]
  constructor
  · intro listed
    obtain ⟨other, member, same⟩ := listed
    rwa [← Expected.display_inj same]
  · intro member
    exact ⟨next, member, rfl⟩

end Narrative
