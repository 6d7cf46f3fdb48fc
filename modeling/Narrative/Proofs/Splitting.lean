import Narrative.Guard.Comparison

/-!
Guards cut at signs outside quotes. A separator and a comparison are found in the same way, by a
walk that keeps the open quote and tries every place outside quotes, so what is said of such a walk
holds of both. Cutting does not look at blanks: the parts of a text with blanks put around it are
the parts of the text, up to blanks around them.
-/

set_option autoImplicit false

namespace Narrative

/-! ### Blanks -/

/-- Every character of a text is blank. -/
def Blank (text : List Char) : Prop := ∀ c ∈ text, isBlank c = true

instance (text : List Char) : Decidable (Blank text) :=
  List.decidableBAll _ text

section

variable {front text back : List Char}

theorem Blank.reverse (blank : Blank text) : Blank text.reverse :=
  fun c member => blank c (List.mem_reverse.1 member)

theorem trimStart_blank_append (blank : Blank front) :
    trimStart (front ++ text) = trimStart text :=
  List.dropWhile_append_of_pos blank

theorem trimStart_of_blank (blank : Blank text) : trimStart text = [] := by
  have cut : trimStart (text ++ []) = trimStart [] := trimStart_blank_append blank
  rwa [List.append_nil] at cut

theorem trim_blank_append (blank : Blank front) : trim (front ++ text) = trim text := by
  rw [trim, trimStart_blank_append blank, trim]

theorem trim_append_blank (blank : Blank back) : trim (text ++ back) = trim text := by
  have start : trimStart (text ++ back) =
      if (trimStart text).isEmpty then trimStart back else trimStart text ++ back :=
    List.dropWhile_append
  rw [trim, start, trim]
  split
  · next empty => rw [List.isEmpty_iff.1 empty, trimStart_of_blank blank]
  · rw [List.reverse_append, trimStart_blank_append blank.reverse]

/-- A text is its trimmed form with blanks around it. -/
theorem exists_trim (text : List Char) :
    ∃ front back, text = front ++ (trim text ++ back) ∧ Blank front ∧ Blank back := by
  have front := @List.takeWhile_append_dropWhile _ isBlank text
  have back := @List.takeWhile_append_dropWhile _ isBlank (trimStart text).reverse
  refine ⟨text.takeWhile isBlank, ((trimStart text).reverse.takeWhile isBlank).reverse, ?_,
    List.all_eq_true.1 List.all_takeWhile, ?_⟩
  · rw [trim, ← List.reverse_append]
    change text = _ ++ (_ ++ List.dropWhile isBlank _).reverse
    rw [back, List.reverse_reverse]
    exact front.symm
  · exact Blank.reverse (List.all_eq_true.1 List.all_takeWhile)

theorem trim_eq_nil_iff : trim text = [] ↔ Blank text := by
  constructor
  · intro empty
    obtain ⟨front, back, whole, before, behind⟩ := exists_trim text
    rw [empty, List.nil_append] at whole
    intro c member
    rw [whole] at member
    exact (List.mem_append.1 member).elim (before c) (behind c)
  · intro blank
    rw [trim, trimStart_of_blank blank]
    rfl

/-- What begins and ends with other characters has nothing to trim. -/
theorem trim_eq_self (first : ∀ c ∈ text.head?, isBlank c = false)
    (last : ∀ c ∈ text.getLast?, isBlank c = false) : trim text = text := by
  have keeps {text : List Char} (first : ∀ c ∈ text.head?, isBlank c = false) :
      trimStart text = text := by
    cases text with
    | nil => rfl
    | cons c rest =>
      rw [trimStart, List.dropWhile_cons_of_neg]
      rw [first c rfl]
      simp
  rw [trim, keeps first, keeps, List.reverse_reverse]
  rwa [List.head?_reverse]

end

theorem Comparison.mem_all (comparison : Comparison) : comparison ∈ Comparison.all := by
  cases comparison <;> decide

theorem Comparison.exists_sign (comparison : Comparison) : ∃ sign signs,
    comparison.sign.toList = sign :: signs ∧ sign ∈ ['>', '<', '=', '!'] := by
  cases comparison <;> exact ⟨_, _, rfl, by decide⟩

namespace GuardText

/-! ### Quotes -/

/-- The quote that is open behind a text, given the one that is open at its start. -/
def quoteBehind (quote : Option Char) (text : List Char) : Option Char :=
  text.foldl quoteAfter quote

/-- Every quote that opens in a text is closed in it. -/
def Closed (text : List Char) : Prop := quoteBehind none text = none

instance (text : List Char) : Decidable (Closed text) :=
  inferInstanceAs (Decidable (quoteBehind none text = none))

@[simp] theorem quoteBehind_cons (quote : Option Char) (c : Char) (text : List Char) :
    quoteBehind quote (c :: text) = quoteBehind (quoteAfter quote c) text := rfl

theorem quoteBehind_append (quote : Option Char) (front back : List Char) :
    quoteBehind quote (front ++ back) = quoteBehind (quoteBehind quote front) back :=
  List.foldl_append

/-- Characters that are no quotes neither open nor close one. -/
theorem quoteBehind_of_bare {text : List Char} (bare : ∀ c ∈ text, isQuote c = false)
    (quote : Option Char) (mark : ∀ c ∈ quote, isQuote c = true) :
    quoteBehind quote text = quote := by
  induction text with
  | nil => rfl
  | cons c rest ih =>
    have here := bare c List.mem_cons_self
    have kept : quoteAfter quote c = quote := by
      cases quote with
      | none => simp [quoteAfter, here]
      | some other =>
        have different : c ≠ other := by
          rintro rfl
          rw [mark c rfl] at here
          cases here
        simp [quoteAfter, different]
    rw [quoteBehind_cons, kept]
    exact ih (fun c member => bare c (List.mem_cons_of_mem _ member))

theorem closed_of_bare {text : List Char} (bare : ∀ c ∈ text, isQuote c = false) : Closed text :=
  quoteBehind_of_bare bare none (by simp)

/-- A sign begins somewhere in a text, outside quotes. -/
def StandsIn (sign text : List Char) : Prop :=
  ∃ front back, text = front ++ (sign ++ back) ∧ Closed front

/-! ### Walks -/

section

variable {α : Type}

/-- What is found where a text begins, if that is outside quotes. -/
def look (find? : List Char → Option α) (quote : Option Char) (c : Char) (rest : List Char) :
    Option α :=
  if quote.isNone && !isQuote c then find? (c :: rest) else none

/-- Tries every place of a text, from left to right, and gives what is found first with the text
before it. -/
def walk (find? : List Char → Option α) : Option Char → List Char → Option (List Char × α)
  | _, [] => none
  | quote, c :: rest =>
    match look find? quote c rest with
    | some found => some ([], found)
    | none => (walk find? (quoteAfter quote c) rest).map (fun (front, found) => (c :: front, found))

variable {find? : List Char → Option α} {quote : Option Char} {text front : List Char} {found : α}

theorem look_eq_some_iff {c : Char} {rest : List Char} : look find? quote c rest = some found ↔
    quote = none ∧ isQuote c = false ∧ find? (c :: rest) = some found := by
  simp [look, and_assoc]

theorem look_eq_none_iff {c : Char} {rest : List Char} : look find? quote c rest = none ↔
    (quote = none → isQuote c = false → find? (c :: rest) = none) := by
  simp [look]

theorem walk_cons_eq_none_iff {c : Char} {rest : List Char} :
    walk find? quote (c :: rest) = none ↔
      look find? quote c rest = none ∧ walk find? (quoteAfter quote c) rest = none := by
  rw [walk]
  cases look find? quote c rest with
  | none => simp
  | some found => simp

theorem walk_cons_of_some {c : Char} {rest : List Char} (bare : isQuote c = false)
    (here : find? (c :: rest) = some found) : walk find? none (c :: rest) = some ([], found) := by
  rw [walk, look_eq_some_iff.2 ⟨rfl, bare, here⟩]

/-- What a walk finds, it finds outside quotes. -/
theorem exists_of_walk (walked : walk find? quote text = some (front, found)) :
    ∃ c back, text = front ++ c :: back ∧ quoteBehind quote front = none ∧ isQuote c = false ∧
      find? (c :: back) = some found := by
  induction text generalizing quote front with
  | nil => cases walked
  | cons c rest ih =>
    rw [walk] at walked
    split at walked
    · next here =>
      cases walked
      obtain ⟨outside, bare, found⟩ := look_eq_some_iff.1 here
      exact ⟨c, rest, rfl, outside, bare, found⟩
    · obtain ⟨⟨before, other⟩, further, joined⟩ := Option.map_eq_some_iff.1 walked
      cases joined
      obtain ⟨d, back, rfl, closed, bare, here⟩ := ih further
      exact ⟨d, back, rfl, closed, bare, here⟩

/-- A walk finds nothing if nothing is to be found outside quotes. -/
theorem walk_eq_none_iff : walk find? quote text = none ↔
    ∀ front c back, text = front ++ c :: back → quoteBehind quote front = none →
      isQuote c = false → find? (c :: back) = none := by
  induction text generalizing quote with
  | nil => simp [walk]
  | cons c rest ih =>
    rw [walk_cons_eq_none_iff, look_eq_none_iff, ih]
    constructor
    · rintro ⟨here, behind⟩ front d back whole closed bare
      cases front with
      | nil =>
        cases whole
        exact here closed bare
      | cons e front =>
        cases whole
        exact behind front d back rfl closed bare
    · intro all
      exact ⟨fun closed bare => all [] c rest rfl closed bare,
        fun front d back whole closed bare =>
          all (c :: front) d back (by rw [whole, List.cons_append]) closed bare⟩

/-- A walk over a text goes on behind it if it finds nothing there. What is found in the text must
not depend on what stands behind it. -/
theorem walk_append {extend : α → α} {more : List Char}
    (alike : ∀ front c back, text = front ++ c :: back →
      find? (c :: (back ++ more)) = (find? (c :: back)).map extend) :
    walk find? quote (text ++ more) = ((walk find? quote text).map (Prod.map id extend)).or
      ((walk find? (quoteBehind quote text) more).map (Prod.map (text ++ ·) id)) := by
  induction text generalizing quote with
  | nil =>
    have same : (Prod.map (([] : List Char) ++ ·) id : List Char × α → List Char × α) = id := by
      funext pair
      rfl
    rw [same, Option.map_id]
    rfl
  | cons c rest ih =>
    have here : look find? quote c (rest ++ more) = (look find? quote c rest).map extend := by
      rw [look, look, alike [] c rest rfl]
      split <;> rfl
    have behind : walk find? (quoteAfter quote c) (rest ++ more) = _ :=
      ih (fun front d back whole => alike (c :: front) d back (by rw [whole, List.cons_append]))
    rw [List.cons_append, walk, walk, here, behind]
    cases look find? quote c rest with
    | some found => rfl
    | none =>
      cases walk find? (quoteAfter quote c) rest with
      | some found => rfl
      | none =>
        simp only [Option.map_none, Option.none_or, Option.map_map, quoteBehind_cons]
        rfl

/-- A walk passes over text in which it finds nothing whatever stands behind it. -/
theorem walk_append_of_none {more : List Char}
    (nowhere : ∀ c ∈ text, ∀ back, find? (c :: back) = none) :
    walk find? quote (text ++ more) =
      (walk find? (quoteBehind quote text) more).map (Prod.map (text ++ ·) id) := by
  have none : walk find? quote text = none := by
    rw [walk_eq_none_iff]
    rintro front c back rfl - -
    exact nowhere c (by simp) back
  have joined : walk find? quote (text ++ more) = ((walk find? quote text).map (Prod.map id id)).or
      ((walk find? (quoteBehind quote text) more).map (Prod.map (text ++ ·) id)) := by
    apply walk_append
    rintro front c back rfl
    have here := nowhere c (by simp)
    rw [here, here]
    rfl
  rw [joined, none, Option.map_none, Option.none_or]

end

/-! ### Cuts -/

section

variable {separator : List Char} {quote : Option Char} {text front back more : List Char}

/-- What a cut looks for: the separator, and what stands behind it. -/
def afterSeparator? (separator text : List Char) : Option (List Char) :=
  if separator.isPrefixOf text then some (text.drop separator.length) else none

theorem afterSeparator?_eq_some_iff {rest : List Char} :
    afterSeparator? separator text = some rest ↔ text = separator ++ rest := by
  unfold afterSeparator?
  split
  · next begins =>
    obtain ⟨behind, rfl⟩ := List.isPrefixOf_iff_prefix.1 begins
    simp
  · next different =>
    simp only [reduceCtorEq, false_iff]
    rintro rfl
    exact different (List.isPrefixOf_iff_prefix.2 (List.prefix_append separator rest))

theorem afterSeparator?_eq_none_iff :
    afterSeparator? separator text = none ↔ ∀ rest, text ≠ separator ++ rest := by
  rw [Option.eq_none_iff_forall_ne_some]
  exact forall_congr' (fun rest => not_congr afterSeparator?_eq_some_iff)

/-- A cut is a walk. -/
theorem cut?_eq_walk (separator : List Char) (quote : Option Char) (text : List Char) :
    cut? separator quote text = walk (afterSeparator? separator) quote text := by
  induction text generalizing quote with
  | nil => rfl
  | cons c rest ih =>
    rw [cut?, walk, ih, look, afterSeparator?]
    cases quote.isNone && !isQuote c with
    | false => simp
    | true => cases separator.isPrefixOf (c :: rest) <;> simp

/-- A cut takes the separator out of a text, at a place outside quotes. -/
theorem eq_of_cut? (cut : cut? separator quote text = some (front, back)) :
    text = front ++ (separator ++ back) ∧ quoteBehind quote front = none := by
  rw [cut?_eq_walk] at cut
  obtain ⟨c, behind, rfl, closed, -, found⟩ := exists_of_walk cut
  rw [afterSeparator?_eq_some_iff.1 found]
  exact ⟨rfl, closed⟩

/-- A text is whole if the separator stands nowhere in it outside quotes. -/
theorem cut?_eq_none_iff {sign : Char} {signs : List Char} (bare : isQuote sign = false) :
    cut? (sign :: signs) none text = none ↔ ¬ StandsIn (sign :: signs) text := by
  rw [cut?_eq_walk, walk_eq_none_iff]
  constructor
  · rintro nowhere ⟨front, back, rfl, closed⟩
    have missing := nowhere front sign (signs ++ back) rfl closed bare
    exact afterSeparator?_eq_none_iff.1 missing back rfl
  · rintro nowhere front c back rfl closed -
    rw [afterSeparator?_eq_none_iff]
    rintro rest whole
    exact nowhere ⟨front, rest, by rw [whole], closed⟩

/-- Two texts meet without a separator that stands across the border. -/
def Apart (separator text more : List Char) : Prop :=
  (∀ c ∈ text.getLast?, c ∉ separator) ∨ ∀ c ∈ more.head?, c ∉ separator

theorem Apart.suffix {c : Char} (apart : Apart separator (front ++ c :: text) more) :
    Apart separator (c :: text) more := by
  rcases apart with last | first
  · left
    intro d final
    apply last
    rw [List.getLast?_append, Option.mem_def.1 final]
    rfl
  · exact Or.inr first

theorem afterSeparator?_append (apart : Apart separator text more) (some : text ≠ []) :
    afterSeparator? separator (text ++ more) =
      (afterSeparator? separator text).map (· ++ more) := by
  cases found : afterSeparator? separator text with
  | some rest =>
    rw [afterSeparator?_eq_some_iff] at found
    rw [Option.map_some, afterSeparator?_eq_some_iff, found, List.append_assoc]
  | none =>
    rw [afterSeparator?_eq_none_iff] at found
    rw [Option.map_none, afterSeparator?_eq_none_iff]
    -- A separator longer than the text has its last character, and the first one behind it.
    intro rest whole
    rcases List.append_eq_append_iff.1 whole with ⟨across, longer, behind⟩ | ⟨inside, here, -⟩
    · cases across with
      | nil => exact found [] (by rw [longer, List.append_nil, List.append_nil])
      | cons c across =>
        rcases apart with last | first
        · have final := List.getLast_mem some
          exact last _ (List.getLast?_eq_some_getLast some)
            (longer ▸ List.mem_append_left _ final)
        · apply first c
          · rw [behind]
            rfl
          · rw [longer]
            simp
    · exact found inside here

/-- A cut of a text with more behind it. -/
theorem cut?_append (quote : Option Char) (apart : Apart separator text more) :
    cut? separator quote (text ++ more) =
      ((cut? separator quote text).map (Prod.map id (· ++ more))).or
        ((cut? separator (quoteBehind quote text) more).map (Prod.map (text ++ ·) id)) := by
  rw [cut?_eq_walk, cut?_eq_walk, cut?_eq_walk]
  apply walk_append
  rintro front c back rfl
  exact afterSeparator?_append apart.suffix (List.cons_ne_nil c back)

/-- Behind text whose quotes are closed a sign stands in either of two texts that are apart. -/
theorem not_standsIn_append {sign : Char} {signs : List Char} (bare : isQuote sign = false)
    (closed : Closed text) (apart : Apart (sign :: signs) text more) :
    ¬ StandsIn (sign :: signs) (text ++ more) ↔
      ¬ StandsIn (sign :: signs) text ∧ ¬ StandsIn (sign :: signs) more := by
  rw [← cut?_eq_none_iff bare, ← cut?_eq_none_iff bare, ← cut?_eq_none_iff bare,
    cut?_append none apart, closed, Option.or_eq_none_iff, Option.map_eq_none_iff,
    Option.map_eq_none_iff]

theorem StandsIn.append {sign : List Char} (stands : StandsIn sign text) (more : List Char) :
    StandsIn sign (text ++ more) := by
  obtain ⟨front, back, rfl, closed⟩ := stands
  exact ⟨front, back ++ more, by simp, closed⟩

theorem StandsIn.cons {sign : List Char} (stands : StandsIn sign text) {c : Char}
    (bare : isQuote c = false) : StandsIn sign (c :: text) := by
  obtain ⟨front, back, rfl, closed⟩ := stands
  refine ⟨c :: front, back, rfl, ?_⟩
  rw [Closed, quoteBehind_cons, quoteAfter, bare]
  exact closed

/-! ### Comparisons -/

/-- What the search for a comparison looks for: its sign, and what stands behind it. -/
def afterComparison? (text : List Char) : Option (Comparison × List Char) :=
  (comparisonAt? text).map (fun comparison => (comparison, text.drop comparison.sign.length))

/-- The search for a comparison is a walk. -/
theorem comparison?_eq_walk (quote : Option Char) (text : List Char) :
    comparison? quote text = walk afterComparison? quote text := by
  induction text generalizing quote with
  | nil => rfl
  | cons c rest ih =>
    rw [comparison?, walk, ih, look, afterComparison?]
    cases quote.isNone && !isQuote c with
    | false => simp
    | true => cases comparisonAt? (c :: rest) <;> simp

theorem comparisonAt?_eq_none_iff :
    comparisonAt? text = none ↔ ∀ comparison : Comparison, ¬ comparison.sign.toList <+: text := by
  simp only [comparisonAt?, List.find?_eq_none, List.isPrefixOf_iff_prefix]
  exact ⟨fun nowhere comparison => nowhere comparison (Comparison.mem_all comparison),
    fun nowhere comparison _ => nowhere comparison⟩

/-- No comparison is found if the sign of none stands in the text outside quotes. -/
theorem comparison?_eq_none_iff : comparison? none text = none ↔
    ∀ comparison : Comparison, ¬ StandsIn comparison.sign.toList text := by
  rw [comparison?_eq_walk, walk_eq_none_iff]
  constructor
  · rintro nowhere comparison ⟨front, back, rfl, closed⟩
    obtain ⟨sign, signs, spelled, first⟩ := comparison.exists_sign
    have bare : ∀ sign ∈ ['>', '<', '=', '!'], isQuote sign = false := by simp [isQuote]
    rw [spelled] at nowhere
    have missing := nowhere front sign (signs ++ back) rfl closed (bare sign first)
    rw [afterComparison?, Option.map_eq_none_iff, comparisonAt?_eq_none_iff] at missing
    apply missing comparison
    rw [spelled]
    exact List.prefix_append _ _
  · rintro nowhere front c back rfl closed -
    rw [afterComparison?, Option.map_eq_none_iff, comparisonAt?_eq_none_iff]
    rintro comparison ⟨rest, whole⟩
    exact nowhere comparison ⟨front, rest, by rw [whole], closed⟩

/-! ### Parts -/

theorem split_of_some (nonempty : separator ≠ [])
    (cut : cut? separator none text = some (front, back)) :
    split separator nonempty text = front :: split separator nonempty back := by
  rw [split]
  split
  · next found =>
    rw [cut] at found
    cases found
    rfl
  · next found =>
    rw [cut] at found
    cases found

theorem split_of_none (nonempty : separator ≠ []) (whole : cut? separator none text = none) :
    split separator nonempty text = [text] := by
  rw [split]
  split
  · next found =>
    rw [whole] at found
    cases found
  · rfl

/-- The parts of two texts with a separator between them are those of the one and of the other. -/
theorem split_join (nonempty : separator ≠ []) (bare : ∀ c ∈ separator, isQuote c = false)
    (closed : Closed text) (apart : ∀ c ∈ text.getLast?, c ∉ separator) (behind : List Char) :
    split separator nonempty (text ++ (separator ++ behind)) =
      split separator nonempty text ++ split separator nonempty behind := by
  induction text using split.induct separator nonempty with
  | case1 text front back cut _ ih =>
    obtain ⟨rfl, before⟩ := eq_of_cut? cut
    have closedBack : Closed back := by
      rw [Closed, quoteBehind_append, before, quoteBehind_append,
        quoteBehind_of_bare bare none (by simp)] at closed
      exact closed
    have apartBack : ∀ c ∈ back.getLast?, c ∉ separator := by
      intro c final
      apply apart
      rw [List.getLast?_append, List.getLast?_append, Option.mem_def.1 final]
      rfl
    have joined := cut?_append none (show Apart _ _ (separator ++ behind) from Or.inl apart)
    rw [cut, Option.map_some, Option.some_or] at joined
    rw [split_of_some nonempty joined, split_of_some nonempty cut]
    exact congrArg (front :: ·) (ih closedBack apartBack)
  | case2 text cut =>
    have found : cut? separator none (separator ++ behind) = some ([], behind) := by
      cases separator with
      | nil => exact absurd rfl nonempty
      | cons c signs =>
        rw [cut?_eq_walk, List.cons_append]
        apply walk_cons_of_some (bare c List.mem_cons_self)
        exact afterSeparator?_eq_some_iff.2 rfl
    have joined := cut?_append none (show Apart _ _ (separator ++ behind) from Or.inl apart)
    rw [cut, closed, found] at joined
    rw [split_of_some nonempty joined, split_of_none nonempty cut]
    simp

/-! ### Parts up to blanks -/

theorem isQuote_of_isBlank {c : Char} (blank : isBlank c = true) : isQuote c = false := by
  cases quote : isQuote c with
  | false => rfl
  | true =>
    simp only [isQuote, Bool.or_eq_true, beq_iff_eq] at quote
    rcases quote with rfl | rfl <;> cases blank

theorem isBlank_of_isQuote {c : Char} (mark : isQuote c = true) : isBlank c = false := by
  cases blank : isBlank c with
  | false => rfl
  | true =>
    rw [isQuote_of_isBlank blank] at mark
    cases mark

/-- No character of a separator is blank or a quote. -/
structure Plain (separator : List Char) : Prop where
  nonempty : separator ≠ []
  bare : ∀ c ∈ separator, isQuote c = false
  filled : ∀ c ∈ separator, isBlank c = false

theorem Plain.not_mem (plain : Plain separator) {c : Char} (blank : isBlank c = true) :
    c ∉ separator := by
  intro member
  rw [plain.filled c member] at blank
  cases blank

theorem Plain.cut?_blank (plain : Plain separator) (blank : Blank text) (quote : Option Char) :
    cut? separator quote text = none := by
  rw [cut?_eq_walk, walk_eq_none_iff]
  rintro front c back rfl - -
  rw [afterSeparator?_eq_none_iff]
  intro rest whole
  obtain ⟨d, signs, rfl⟩ := List.exists_cons_of_ne_nil plain.nonempty
  obtain ⟨rfl, -⟩ := List.cons.inj whole
  exact plain.not_mem (blank c (by simp)) List.mem_cons_self

theorem Plain.split_blank_append (plain : Plain separator) (blank : Blank front) :
    (split separator plain.nonempty (front ++ text)).map trim =
      (split separator plain.nonempty text).map trim := by
  have bare : ∀ c ∈ front, isQuote c = false := fun c member => isQuote_of_isBlank (blank c member)
  have apart : Apart separator front text :=
    Or.inl (fun c final => plain.not_mem (blank c (List.mem_of_getLast? final)))
  have joined := cut?_append none apart
  rw [plain.cut?_blank blank, Option.map_none, Option.none_or, closed_of_bare bare] at joined
  cases cut : cut? separator none text with
  | none =>
    rw [cut] at joined
    rw [split_of_none plain.nonempty joined, split_of_none plain.nonempty cut, List.map_singleton,
      List.map_singleton, trim_blank_append blank]
  | some found =>
    rw [cut] at joined
    rw [split_of_some plain.nonempty joined, split_of_some plain.nonempty cut, List.map_cons,
      List.map_cons]
    exact congrArg (· :: _) (trim_blank_append blank)

theorem Plain.split_append_blank (plain : Plain separator) (blank : Blank back) :
    (split separator plain.nonempty (text ++ back)).map trim =
      (split separator plain.nonempty text).map trim := by
  have apart (text : List Char) : Apart separator text back :=
    Or.inr (fun c first => plain.not_mem (blank c (List.mem_of_head? first)))
  induction text using split.induct separator plain.nonempty with
  | case1 text front rest cut _ ih =>
    have joined := cut?_append none (apart text)
    rw [cut, Option.map_some, Option.some_or] at joined
    rw [split_of_some plain.nonempty joined, split_of_some plain.nonempty cut, List.map_cons,
      List.map_cons]
    exact congrArg (trim front :: ·) ih
  | case2 text cut =>
    have joined := cut?_append none (apart text)
    rw [cut, plain.cut?_blank blank, Option.map_none, Option.map_none, Option.none_or] at joined
    rw [split_of_none plain.nonempty joined, split_of_none plain.nonempty cut, List.map_singleton,
      List.map_singleton, trim_append_blank blank]

/-- The parts of a text are those of its trimmed form, up to blanks around them. -/
theorem Plain.map_trim_split (plain : Plain separator) (text : List Char) :
    (split separator plain.nonempty (trim text)).map trim =
      (split separator plain.nonempty text).map trim := by
  obtain ⟨front, back, whole, before, behind⟩ := exists_trim text
  have joined := congrArg (fun text => (split separator plain.nonempty text).map trim) whole
  rw [joined, plain.split_blank_append before, plain.split_append_blank behind]

/-- The parts of two texts with a separator and blanks between them are those of the one and of the
other, up to blanks around them. -/
theorem Plain.split_spaced (plain : Plain separator) (closed : Closed front) (back : List Char) :
    (split separator plain.nonempty (front ++ ' ' :: (separator ++ ' ' :: back))).map trim =
      (split separator plain.nonempty front ++ split separator plain.nonempty back).map trim := by
  have space : Blank [' '] := by decide
  have closedSpaced : Closed (front ++ [' ']) := by
    rw [Closed, quoteBehind_append, closed]
    rfl
  have last : ∀ c ∈ (front ++ [' ']).getLast?, c ∉ separator := by
    intro c final
    rw [List.getLast?_append, List.getLast?_singleton] at final
    cases final
    exact plain.not_mem rfl
  have joined := split_join plain.nonempty plain.bare closedSpaced last (' ' :: back)
  rw [List.append_assoc, List.singleton_append] at joined
  rw [joined, List.map_append, List.map_append, plain.split_append_blank space,
    ← List.singleton_append, plain.split_blank_append space]

end

end GuardText

end Narrative
