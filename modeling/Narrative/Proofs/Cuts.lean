import Narrative.Proofs.Splitting

/-!
Where guards are cut. A walk finds what stands first outside quotes. So the parts of a text are what
is left between separators that are taken from the left, each of them unless it overlaps the one
taken before, and the comparison of a term is the first one outside quotes, that with the longer
sign if two begin at one place. Every cut lies outside quotes, and so each part has the quotes that
it has in the whole text.
-/

set_option autoImplicit false

namespace Narrative

theorem Comparison.sign_inj {first second : Comparison}
    (same : first.sign.toList = second.sign.toList) : first = second := by
  revert same
  cases first <;> cases second <;> decide

namespace GuardText

variable {separator sign text front back inner part : List Char} {parts : List (List Char)}

/-! ### Places outside quotes -/

/-- A sign stands in a text behind `front`, outside quotes. -/
def StandsAt (sign text front : List Char) : Prop := Closed front ∧ front ++ sign <+: text

theorem standsIn_iff : StandsIn sign text ↔ ∃ front, StandsAt sign text front := by
  constructor
  · rintro ⟨front, back, rfl, closed⟩
    exact ⟨front, closed, back, List.append_assoc front sign back⟩
  · rintro ⟨front, closed, back, rfl⟩
    exact ⟨front, back, List.append_assoc front sign back, closed⟩

/-- Behind text whose quotes are closed, a sign stands where it does without that text. -/
theorem standsAt_append_iff (closed : Closed front) :
    StandsAt sign (front ++ text) (front ++ inner) ↔ StandsAt sign text inner := by
  rw [StandsAt, StandsAt, Closed, quoteBehind_append, closed, List.append_assoc,
    List.prefix_append_right_inj]
  rfl

/-- A walk stops at the first place outside quotes where something is to be found. -/
theorem length_le_of_walk {α : Type} {find? : List Char → Option α} {quote : Option Char}
    {found : α} (walked : walk find? quote text = some (front, found)) {earlier rest : List Char}
    {c : Char} (whole : text = earlier ++ c :: rest) (outside : quoteBehind quote earlier = none)
    (bare : isQuote c = false) (here : find? (c :: rest) ≠ none) :
    front.length ≤ earlier.length := by
  induction text generalizing quote front earlier with
  | nil => cases walked
  | cons d text ih =>
    rw [walk] at walked
    split at walked
    · cases walked
      exact Nat.zero_le _
    · next missing =>
      obtain ⟨⟨before, other⟩, further, joined⟩ := Option.map_eq_some_iff.1 walked
      cases joined
      cases earlier with
      | nil =>
        cases whole
        exact absurd (look_eq_none_iff.1 missing outside bare) here
      | cons e earlier =>
        cases whole
        exact Nat.succ_le_succ (ih further rfl outside)

/-! ### Cuts -/

/-- A cut is made at the first place where the separator stands. -/
theorem length_le_of_cut? (nonempty : separator ≠ []) (bare : ∀ c ∈ separator, isQuote c = false)
    (cut : cut? separator none text = some (front, back)) (stands : StandsAt separator text inner) :
    front.length ≤ inner.length := by
  obtain ⟨closed, rest, rfl⟩ := stands
  obtain ⟨c, signs, rfl⟩ := List.exists_cons_of_ne_nil nonempty
  rw [cut?_eq_walk] at cut
  apply length_le_of_walk cut (List.append_assoc inner (c :: signs) rest) closed
    (bare c List.mem_cons_self)
  exact Option.ne_none_iff_exists'.2 ⟨rest, afterSeparator?_eq_some_iff.2 rfl⟩

theorem not_standsAt_of_cut? (nonempty : separator ≠ [])
    (bare : ∀ c ∈ separator, isQuote c = false) (cut : cut? separator none text = none) :
    ¬ StandsAt separator text front := by
  intro stands
  obtain ⟨c, signs, rfl⟩ := List.exists_cons_of_ne_nil nonempty
  exact (cut?_eq_none_iff (bare c List.mem_cons_self)).1 cut (standsIn_iff.2 ⟨front, stands⟩)

/-- The text in front of a part: the parts before it, each with the separator behind it. -/
def before (separator : List Char) (parts : List (List Char)) : List Char :=
  parts.flatMap (· ++ separator)

/-- A separator is cut out behind `front`: that is the text up to the end of a part that is not the
last. -/
def CutAt (separator : List Char) (parts : List (List Char)) (front : List Char) : Prop :=
  ∃ earlier part later, parts = earlier ++ part :: later ∧ later ≠ [] ∧
    front = before separator earlier ++ part

theorem not_cutAt_singleton : ¬ CutAt separator [part] front := by
  rintro ⟨earlier, other, later, whole, some, -⟩
  cases earlier with
  | nil =>
    cases whole
    exact some rfl
  | cons first earlier => simp at whole

/-- The cuts of parts: one behind the first of them, and those of the others. -/
theorem cutAt_cons_iff (some : parts ≠ []) : CutAt separator (part :: parts) front ↔
    front = part ∨ ∃ inner, CutAt separator parts inner ∧ front = part ++ separator ++ inner := by
  constructor
  · rintro ⟨earlier, other, later, whole, others, rfl⟩
    cases earlier with
    | nil =>
      cases whole
      exact Or.inl rfl
    | cons first earlier =>
      cases whole
      refine Or.inr ⟨_, ⟨earlier, other, later, rfl, others, rfl⟩, ?_⟩
      simp [before]
  · rintro (rfl | ⟨_, ⟨earlier, other, later, rfl, others, rfl⟩, rfl⟩)
    · exact ⟨[], front, parts, rfl, some, rfl⟩
    · refine ⟨part :: earlier, other, later, rfl, others, ?_⟩
      simp [before]

/-- The parts of a text, its separators being cut out outside quotes. -/
structure Parts (separator text : List Char) (parts : List (List Char)) : Prop where
  /-- With the separator between them the parts are the text. -/
  joined : separator.intercalate parts = text
  /-- From the left, a separator is cut out where it stands outside quotes, unless it overlaps one
  that is cut out before. -/
  cuts : ∀ front, CutAt separator parts front ↔ StandsAt separator text front ∧
    ∀ earlier, CutAt separator parts earlier → earlier.length < front.length →
      (earlier ++ separator).length ≤ front.length
  /-- All parts but the last have their quotes closed. -/
  closed : ∀ part ∈ parts.dropLast, Closed part

theorem split_ne_nil (nonempty : separator ≠ []) (text : List Char) :
    split separator nonempty text ≠ [] := by
  cases cut : cut? separator none text with
  | none =>
    rw [split_of_none nonempty cut]
    exact List.cons_ne_nil _ _
  | some found =>
    rw [split_of_some nonempty cut]
    exact List.cons_ne_nil _ _

/-- A text without the separator is its only part. -/
theorem Parts.whole (nowhere : ∀ front, ¬ StandsAt separator text front) :
    Parts separator text [text] := by
  refine ⟨List.intercalate_singleton, fun front => ?_, by simp⟩
  exact iff_of_false not_cutAt_singleton (fun stands => nowhere front stands.1)

section

variable (some : parts ≠ []) (closed : Closed front) (bare : ∀ c ∈ separator, isQuote c = false)
  (first : ∀ other, StandsAt separator (front ++ separator ++ back) other →
    front.length ≤ other.length)
  (rest : Parts separator back parts)

include closed bare in
theorem closed_append_separator : Closed (front ++ separator) := by
  rw [Closed, quoteBehind_append, closed, quoteBehind_of_bare bare none (by simp)]

include some closed bare rest in
/-- The first separator and those of the text behind it stand outside quotes and do not overlap. -/
theorem Parts.standsAt_of_cutAt (cut : CutAt separator (front :: parts) inner) :
    StandsAt separator (front ++ separator ++ back) inner ∧
      ∀ earlier, CutAt separator (front :: parts) earlier → earlier.length < inner.length →
        (earlier ++ separator).length ≤ inner.length := by
  rcases (cutAt_cons_iff some).1 cut with rfl | ⟨behind, later, rfl⟩
  · refine ⟨⟨closed, List.prefix_append _ _⟩, fun earlier cut shorter => ?_⟩
    rcases (cutAt_cons_iff some).1 cut with rfl | ⟨other, -, rfl⟩
    · exact absurd shorter (Nat.lt_irrefl _)
    · simp only [List.length_append] at shorter
      omega
  · obtain ⟨stands, apart⟩ := (rest.cuts behind).1 later
    have closedBoth := closed_append_separator closed bare
    refine ⟨(standsAt_append_iff closedBoth).2 stands, fun earlier cut shorter => ?_⟩
    rcases (cutAt_cons_iff some).1 cut with rfl | ⟨other, former, rfl⟩
    · simp
    · have ends := apart other former
      simp only [List.length_append] at shorter ends ⊢
      omega

include some closed bare first rest in
/-- A separator outside quotes is the first one, or overlaps it, or is one of the text behind it. -/
theorem Parts.cutAt_of_standsAt (stands : StandsAt separator (front ++ separator ++ back) inner)
    (apart : ∀ earlier, CutAt separator (front :: parts) earlier → earlier.length < inner.length →
      (earlier ++ separator).length ≤ inner.length) :
    CutAt separator (front :: parts) inner := by
  have begins := (List.prefix_append inner separator).trans stands.2
  rw [cutAt_cons_iff some]
  rcases Nat.eq_or_lt_of_le (first inner stands) with same | further
  · left
    have beginsToo : front <+: front ++ separator ++ back := by
      rw [List.append_assoc]
      exact List.prefix_append _ _
    exact ((List.prefix_of_prefix_length_le beginsToo begins (Nat.le_of_eq same)).eq_of_length
      same).symm
  · right
    have here : CutAt separator (front :: parts) front := (cutAt_cons_iff some).2 (Or.inl rfl)
    obtain ⟨behind, rfl⟩ := List.prefix_of_prefix_length_le
      (List.prefix_append (front ++ separator) back) begins (apart front here further)
    have closedBoth := closed_append_separator closed bare
    refine ⟨behind, (rest.cuts behind).2 ⟨(standsAt_append_iff closedBoth).1 stands, ?_⟩, rfl⟩
    intro earlier cut shorter
    have cutToo : CutAt separator (front :: parts) (front ++ separator ++ earlier) :=
      (cutAt_cons_iff some).2 (Or.inr ⟨earlier, cut, rfl⟩)
    have ends := apart _ cutToo
    simp only [List.length_append] at ends ⊢
    omega

include some closed bare first rest in
/-- The first part of a text is what stands in front of the first separator. -/
theorem Parts.cons : Parts separator (front ++ separator ++ back) (front :: parts) := by
  refine ⟨?_, fun inner => ⟨?_, ?_⟩, ?_⟩
  · rw [List.intercalate_cons_of_ne_nil some, rest.joined]
  · exact rest.standsAt_of_cutAt some closed bare
  · rintro ⟨stands, apart⟩
    exact rest.cutAt_of_standsAt some closed bare first stands apart
  · intro part member
    rw [List.dropLast_cons_of_ne_nil some] at member
    rcases List.mem_cons.1 member with rfl | member
    · exact closed
    · exact rest.closed part member

end

/-- Splitting gives the parts of a text. -/
theorem parts_split (nonempty : separator ≠ []) (bare : ∀ c ∈ separator, isQuote c = false)
    (text : List Char) : Parts separator text (split separator nonempty text) := by
  induction text using split.induct separator nonempty with
  | case1 text front back cut _ ih =>
    have first (other : List Char) := @length_le_of_cut? separator text front back other nonempty
      bare cut
    obtain ⟨whole, closed⟩ := eq_of_cut? cut
    rw [← List.append_assoc] at whole
    subst whole
    rw [split_of_some nonempty cut]
    exact ih.cons (split_ne_nil nonempty back) closed bare first
  | case2 text cut =>
    rw [split_of_none nonempty cut]
    exact .whole (fun front => not_standsAt_of_cut? nonempty bare cut)

/-! ### Parts on their own -/

theorem intercalate_append (earlier later : List (List Char)) :
    separator.intercalate (earlier ++ part :: later) =
      before separator earlier ++ separator.intercalate (part :: later) := by
  induction earlier with
  | nil => rfl
  | cons first earlier ih =>
    rw [List.cons_append, List.intercalate_cons_of_ne_nil (by simp), ih]
    simp [before]

theorem prefix_intercalate (later : List (List Char)) :
    part <+: separator.intercalate (part :: later) := by
  cases later with
  | nil =>
    exact ⟨[], by simp⟩
  | cons next later =>
    rw [List.intercalate_cons_cons, List.append_assoc]
    exact List.prefix_append _ _

/-- Closed parts with separators behind them have all their quotes closed. -/
theorem closed_before (bare : ∀ c ∈ separator, isQuote c = false)
    (closed : ∀ part ∈ parts, Closed part) : Closed (before separator parts) := by
  induction parts with
  | nil => rfl
  | cons part parts ih =>
    have first := closed part List.mem_cons_self
    have others := ih (fun other member => closed other (List.mem_cons_of_mem _ member))
    rw [before, List.flatMap_cons, Closed, quoteBehind_append, quoteBehind_append, first,
      quoteBehind_of_bare bare none (by simp)]
    exact others

/-- At every place of a part the same quote is open as at this place of the whole text. -/
theorem Parts.alone (cut : Parts separator text parts)
    (bare : ∀ c ∈ separator, isQuote c = false) {earlier later : List (List Char)}
    (split : parts = earlier ++ part :: later) :
    before separator earlier ++ part <+: text ∧
      ∀ front, front <+: part →
        quoteBehind none (before separator earlier ++ front) = quoteBehind none front := by
  subst split
  constructor
  · rw [← cut.joined, intercalate_append, List.prefix_append_right_inj]
    exact prefix_intercalate later
  · intro front _
    have closed : ∀ other ∈ earlier, Closed other := by
      intro other member
      apply cut.closed
      rw [List.dropLast_append_cons]
      exact List.mem_append_left _ member
    have outside := closed_before bare closed
    rw [quoteBehind_append, outside]

/-! ### Comparisons -/

/-- Of the comparisons whose signs are at the front of a text, one with the longest sign. -/
def Longest (text : List Char) (comparison : Comparison) : Prop :=
  comparison.sign.toList <+: text ∧ ∀ other : Comparison, other.sign.toList <+: text →
    other.sign.toList.length ≤ comparison.sign.toList.length

/-- No two comparisons have the longest sign. -/
theorem Longest.unique {first second : Comparison} (longest : Longest text first)
    (longestToo : Longest text second) : first = second := by
  have same := Nat.le_antisymm (longestToo.2 first longest.1) (longest.2 second longestToo.1)
  apply Comparison.sign_inj
  exact (List.prefix_of_prefix_length_le longest.1 longestToo.1 (Nat.le_of_eq same)).eq_of_length
    same

theorem longest_of_comparisonAt? {comparison : Comparison}
    (found : comparisonAt? text = some comparison) : Longest text comparison := by
  have ordered : Comparison.all.Pairwise (fun first second =>
      second.sign.toList.length ≤ first.sign.toList.length) := by decide
  obtain ⟨begins, earlier, later, all, refused⟩ := List.find?_eq_some_iff_append.1 found
  refine ⟨List.isPrefixOf_iff_prefix.1 begins, fun other beginsToo => ?_⟩
  have member := Comparison.mem_all other
  rw [all, List.mem_append, List.mem_cons] at member
  rw [all] at ordered
  rcases member with member | rfl | member
  · have missing := refused other member
    rw [List.isPrefixOf_iff_prefix.2 beginsToo] at missing
    cases missing
  · exact Nat.le_refl _
  · exact (List.pairwise_cons.1 (List.pairwise_append.1 ordered).2.1).1 other member

/-- A comparison cuts a text at its sign. No sign of a comparison stands outside quotes before it,
and none where it stands is longer. -/
structure FirstComparison (text front : List Char) (comparison : Comparison) (back : List Char) :
    Prop where
  whole : text = front ++ (comparison.sign.toList ++ back)
  outside : Closed front
  first : ∀ (other : Comparison) (earlier : List Char),
    StandsAt other.sign.toList text earlier → front.length ≤ earlier.length
  longest : Longest (comparison.sign.toList ++ back) comparison

theorem FirstComparison.unique {comparison other : Comparison} {frontToo backToo : List Char}
    (cut : FirstComparison text front comparison back)
    (cutToo : FirstComparison text frontToo other backToo) :
    (front, comparison, back) = (frontToo, other, backToo) := by
  have stands {comparison : Comparison} {front back : List Char}
      (cut : FirstComparison text front comparison back) :
      StandsAt comparison.sign.toList text front := by
    refine ⟨cut.outside, back, ?_⟩
    rw [cut.whole, List.append_assoc]
  have same := Nat.le_antisymm (cut.first other _ (stands cutToo))
    (cutToo.first comparison _ (stands cut))
  have whole := cut.whole.symm.trans cutToo.whole
  obtain ⟨rfl, rest⟩ := List.append_inj whole same
  have longest := cut.longest
  rw [rest] at longest
  obtain rfl := longest.unique cutToo.longest
  rw [List.append_cancel_left rest]

theorem firstComparison_of_comparison? {comparison : Comparison}
    (found : comparison? none text = some (front, comparison, back)) :
    FirstComparison text front comparison back := by
  rw [comparison?_eq_walk] at found
  obtain ⟨c, behind, rfl, outside, -, here⟩ := exists_of_walk found
  obtain ⟨_, begins, same⟩ := Option.map_eq_some_iff.1 here
  cases same
  have longest := longest_of_comparisonAt? begins
  obtain ⟨rest, spelled⟩ := longest.1
  have back : (c :: behind).drop comparison.sign.length = rest := by
    rw [← spelled, ← String.length_toList, List.drop_left]
  rw [back]
  rw [← spelled] at longest
  refine ⟨by rw [spelled], outside, ?_, longest⟩
  rintro other earlier ⟨closed, after, whole⟩
  obtain ⟨sign, signs, signed, mark⟩ := other.exists_sign
  have bare : ∀ sign ∈ ['>', '<', '=', '!'], isQuote sign = false := by simp [isQuote]
  rw [signed, List.append_assoc] at whole
  apply length_le_of_walk found whole.symm closed (bare sign mark)
  rw [afterComparison?, ne_eq, Option.map_eq_none_iff, comparisonAt?_eq_none_iff]
  intro nowhere
  apply nowhere other
  rw [signed]
  exact List.prefix_append _ _

theorem comparison?_eq_some_iff {comparison : Comparison} :
    comparison? none text = some (front, comparison, back) ↔
      FirstComparison text front comparison back := by
  refine ⟨firstComparison_of_comparison?, fun cut => ?_⟩
  cases found : comparison? none text with
  | none =>
    apply absurd (show StandsIn _ _ from ⟨front, back, cut.whole, cut.outside⟩)
    exact comparison?_eq_none_iff.1 found comparison
  | some other =>
    obtain ⟨frontToo, comparisonToo, backToo⟩ := other
    rw [cut.unique (firstComparison_of_comparison? found)]

/-! ### Guards -/

/-- Guards are cut outside quotes and nothing is lost. The separators that are cut out are the
leftmost ones that do not overlap, and every part has the quotes that it has in the whole text. A
comparison is found where the first of their signs stands, and is the one with the longest sign. -/
theorem cut_outside_quotes (nonempty : separator ≠ []) (bare : ∀ c ∈ separator, isQuote c = false)
    (text : List Char) :
    Parts separator text (split separator nonempty text) ∧
    (∀ earlier part later, split separator nonempty text = earlier ++ part :: later →
      before separator earlier ++ part <+: text ∧ ∀ front, front <+: part →
        quoteBehind none (before separator earlier ++ front) = quoteBehind none front) ∧
    (∀ front comparison back, comparison? none text = some (front, comparison, back) ↔
      FirstComparison text front comparison back) ∧
    (comparison? none text = none ↔
      ∀ (comparison : Comparison) (front : List Char),
        ¬ StandsAt comparison.sign.toList text front) := by
  have parts := parts_split nonempty bare text
  refine ⟨parts, ?_, fun _ _ _ => comparison?_eq_some_iff, ?_⟩
  · intro earlier part later cut
    exact parts.alone bare cut
  · rw [comparison?_eq_none_iff]
    exact forall_congr' (fun comparison => by rw [standsIn_iff, not_exists])

/-- Three bars in a row, separators and comparisons in quoted texts with the other quote inside, and
a quote that is not closed. -/
def tangled : List Char := "a|||\"<=||'\" ||x<='b||\"'||'d||>".toList

theorem cut_outside_quotes_tangled :
    Parts ['|', '|'] tangled
      ["a".toList, "|\"<=||'\" ".toList, "x<='b||\"'".toList, "'d||>".toList] ∧
    quoteBehind none (before ['|', '|'] ["a".toList, "|\"<=||'\" ".toList] ++ "x<='b".toList) =
      some '\'' ∧
    FirstComparison tangled "a|||\"<=||'\" ||x".toList .atMost "'b||\"'||'d||>".toList ∧
    ∀ (comparison : Comparison) (front : List Char),
      ¬ StandsAt comparison.sign.toList "a || \">=\"".toList front := by
  have bare : ∀ c ∈ ['|', '|'], isQuote c = false := by simp [isQuote]
  obtain ⟨parts, alone, compares, -⟩ := cut_outside_quotes (by simp) bare tangled
  have cut : split ['|', '|'] (by simp) tangled =
      ["a".toList, "|\"<=||'\" ".toList, "x<='b||\"'".toList, "'d||>".toList] := by decide +kernel
  rw [cut] at parts alone
  refine ⟨parts, ?_, (compares _ _ _).1 (by decide +kernel), ?_⟩
  · have third := (alone ["a".toList, "|\"<=||'\" ".toList] "x<='b||\"'".toList _ rfl).2
    exact third "x<='b".toList (by decide)
  · exact (cut_outside_quotes (by simp) bare _).2.2.2.1 (by decide +kernel)

end GuardText

end Narrative
