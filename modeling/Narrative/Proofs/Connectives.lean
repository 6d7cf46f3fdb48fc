import Narrative.Proofs.Splitting

/-!
The connectives of guards. A guard is cut at `||` and each of its alternatives at `&&`, in text that
nothing has been read from yet, so it has to be shown that cutting respects what the connectives
mean. Main statement: an alternative, a conjunction and a negation of guards are answered from the
answers of the guards, from left to right, and a guard whose answer is not needed is not asked.
-/

set_option autoImplicit false

namespace Narrative.GuardText

/-! ### Answers from left to right -/

/-- The first answer, or the second one if the first is no. -/
def either (first second : Except GuardError Bool) : Except GuardError Bool :=
  match first with
  | .ok false => second
  | .ok true => .ok true
  | .error error => .error error

/-- The first answer, or the second one if the first is yes. -/
def both (first second : Except GuardError Bool) : Except GuardError Bool :=
  match first with
  | .ok true => second
  | .ok false => .ok false
  | .error error => .error error

section

variable (first second third : Except GuardError Bool)

theorem either_assoc : either (either first second) third = either first (either second third) := by
  cases first with
  | error error => rfl
  | ok holds => cases holds <;> rfl

theorem both_assoc : both (both first second) third = both first (both second third) := by
  cases first with
  | error error => rfl
  | ok holds => cases holds <;> rfl

@[simp] theorem either_false : either first (.ok false) = first := by
  cases first with
  | error error => rfl
  | ok holds => cases holds <;> rfl

@[simp] theorem both_true : both first (.ok true) = first := by
  cases first with
  | error error => rfl
  | ok holds => cases holds <;> rfl

end

variable (bindings : Bindings)

/-! ### Terms of an alternative -/

theorem plain_ampersands : Plain ['&', '&'] :=
  ⟨by simp, by simp [isQuote], by simp [isBlank]⟩

theorem plain_bars : Plain ['|', '|'] :=
  ⟨by simp, by simp [isQuote], by simp [isBlank]⟩

theorem allHold_cons (first : List Char) (rest : List (List Char)) :
    allHold bindings (first :: rest) =
      both (term bindings (trim first)) (allHold bindings rest) := by
  rw [allHold]
  cases term bindings (trim first) with
  | error error => rfl
  | ok holds => cases holds <;> rfl

theorem allHold_append (first second : List (List Char)) :
    allHold bindings (first ++ second) =
      both (allHold bindings first) (allHold bindings second) := by
  induction first with
  | nil => rfl
  | cons part rest ih => rw [List.cons_append, allHold_cons, allHold_cons, ih, both_assoc]

/-- Terms are answered without regard to the blanks around them. -/
theorem allHold_congr {parts others : List (List Char)} (same : others.map trim = parts.map trim) :
    allHold bindings others = allHold bindings parts := by
  induction parts generalizing others with
  | nil => rw [List.map_eq_nil_iff.1 same]
  | cons part rest ih =>
    obtain ⟨other, more, rfl, here, behind⟩ := List.map_eq_cons_iff.1 same
    rw [allHold_cons, allHold_cons, here, ih behind]

def alternative (text : List Char) : Except GuardError Bool :=
  allHold bindings (split ['&', '&'] plain_ampersands.nonempty text)

theorem alternative_trim (text : List Char) :
    alternative bindings (trim text) = alternative bindings text :=
  allHold_congr bindings (plain_ampersands.map_trim_split text)

/-! ### Alternatives of a guard -/

theorem someHolds_cons (first : List Char) (rest : List (List Char)) :
    someHolds bindings (first :: rest) =
      either (alternative bindings first) (someHolds bindings rest) := by
  rw [someHolds, alternative]
  cases allHold bindings (split ['&', '&'] (by simp) first) with
  | error error => rfl
  | ok holds => cases holds <;> rfl

theorem someHolds_append (first second : List (List Char)) :
    someHolds bindings (first ++ second) =
      either (someHolds bindings first) (someHolds bindings second) := by
  induction first with
  | nil => rfl
  | cons part rest ih => rw [List.cons_append, someHolds_cons, someHolds_cons, ih, either_assoc]

theorem someHolds_congr {parts others : List (List Char)}
    (same : others.map trim = parts.map trim) :
    someHolds bindings others = someHolds bindings parts := by
  induction parts generalizing others with
  | nil => rw [List.map_eq_nil_iff.1 same]
  | cons part rest ih =>
    obtain ⟨other, more, rfl, here, behind⟩ := List.map_eq_cons_iff.1 same
    rw [someHolds_cons, someHolds_cons, ← alternative_trim bindings other, here,
      alternative_trim, ih behind]

def alternatives (text : List Char) : Except GuardError Bool :=
  someHolds bindings (split ['|', '|'] plain_bars.nonempty text)

/-- A guard that is not blank is answered by its alternatives, the blanks around it left alone. -/
theorem evaluate_of_filled {guard : String} (filled : ¬ Blank guard.toList) :
    evaluate bindings guard = alternatives bindings guard.toList := by
  have some : (trim guard.toList).isEmpty = false := by
    rw [List.isEmpty_eq_false_iff]
    exact fun empty => filled (trim_eq_nil_iff.1 empty)
  rw [evaluate, some]
  exact someHolds_congr bindings (plain_bars.map_trim_split guard.toList)

/-- A guard without `||` outside quotes is one alternative. -/
theorem alternatives_of_whole {text : List Char} (whole : ¬ StandsIn ['|', '|'] text) :
    alternatives bindings text = alternative bindings text := by
  rw [alternatives, split_of_none _ ((cut?_eq_none_iff rfl).2 whole), someHolds_cons]
  exact either_false _

/-- An alternative without `&&` outside quotes is one term. -/
theorem alternative_of_whole {text : List Char} (whole : ¬ StandsIn ['&', '&'] text) :
    alternative bindings text = term bindings (trim text) := by
  rw [alternative, split_of_none _ ((cut?_eq_none_iff rfl).2 whole), allHold_cons]
  exact both_true _

/-! ### Guards put together -/

section

variable {first second : List Char}

/-- Two guards with `||` between them. -/
theorem alternatives_bars (closed : Closed first) :
    alternatives bindings (first ++ " || ".toList ++ second) =
      either (alternatives bindings first) (alternatives bindings second) := by
  have parts := someHolds_congr bindings (plain_bars.split_spaced closed second)
  rw [someHolds_append] at parts
  rw [List.append_assoc]
  exact parts

/-- Two alternatives with `&&` between them. -/
theorem alternative_ampersands (closed : Closed first) :
    alternative bindings (first ++ " && ".toList ++ second) =
      both (alternative bindings first) (alternative bindings second) := by
  have parts := allHold_congr bindings (plain_ampersands.split_spaced closed second)
  rw [allHold_append] at parts
  rw [List.append_assoc]
  exact parts

/-- Putting `&&` between two alternatives makes no others. -/
theorem whole_ampersands (closed : Closed first) (left : ¬ StandsIn ['|', '|'] first)
    (right : ¬ StandsIn ['|', '|'] second) :
    ¬ StandsIn ['|', '|'] (first ++ " && ".toList ++ second) := by
  have between : ¬ StandsIn ['|', '|'] " && ".toList := (cut?_eq_none_iff rfl).1 (by decide)
  have closedBetween : Closed " && ".toList := by decide
  rw [List.append_assoc, not_standsIn_append rfl closed (Or.inr (by simp)),
    not_standsIn_append rfl closedBetween (Or.inl (by simp))]
  exact ⟨left, between, right⟩

/-- A term with `!` in front and no comparison in it is answered by the rest of it. -/
theorem term_not (text : List Char)
    (plain : ∀ comparison : Comparison, ¬ StandsIn comparison.sign.toList ('!' :: text)) :
    term bindings (trim ('!' :: text)) = (term bindings (trim text)).map (!·) := by
  obtain ⟨front, back, whole, before, behind⟩ := exists_trim ('!' :: text)
  -- The sign is not blank, so nothing is taken off in front of it.
  have unled : front = [] := by
    cases front with
    | nil => rfl
    | cons c front =>
      obtain ⟨rfl, -⟩ := List.cons.inj whole
      cases before '!' List.mem_cons_self
  subst unled
  rw [List.nil_append] at whole
  cases trimmed : trim ('!' :: text) with
  | nil =>
    have blank := trim_eq_nil_iff.1 trimmed
    cases blank '!' List.mem_cons_self
  | cons c rest =>
    rw [trimmed, List.cons_append] at whole
    obtain ⟨rfl, rfl⟩ := List.cons.inj whole
    have none : comparison? none ('!' :: rest) = none :=
      comparison?_eq_none_iff.2 (fun comparison stands => plain comparison (stands.append back))
    rw [term, none, trim_append_blank behind]
    rfl

end

/-- Text around a guard that is not blank leaves it so. -/
theorem not_blank_append {text : List Char} (filled : ¬ Blank text) (front back : List Char) :
    ¬ Blank (front ++ text ++ back) := by
  intro blank
  apply filled
  intro c member
  apply blank
  simp [member]

/-- Guards are answered like formulas from left to right. Behind a guard whose quotes are closed, an
alternative asks the second guard if the answer of the first is no, a conjunction of guards without
alternatives if it is yes, and the error of a guard that is asked is that of the whole. A sign of
negation in front of a single term negates its answer and keeps its error. -/
theorem evaluate_connected :
    (∀ first second : String, ¬ Blank first.toList → ¬ Blank second.toList →
      Closed first.toList →
        evaluate bindings (first ++ " || " ++ second) =
          either (evaluate bindings first) (evaluate bindings second) ∧
        (¬ StandsIn ['|', '|'] first.toList → ¬ StandsIn ['|', '|'] second.toList →
          evaluate bindings (first ++ " && " ++ second) =
            both (evaluate bindings first) (evaluate bindings second))) ∧
    ∀ guard : String, ¬ Blank guard.toList →
      (∀ comparison : Comparison, ¬ StandsIn comparison.sign.toList ("!" ++ guard).toList) →
      ¬ StandsIn ['&', '&'] ("!" ++ guard).toList → ¬ StandsIn ['|', '|'] ("!" ++ guard).toList →
        evaluate bindings ("!" ++ guard) = (evaluate bindings guard).map (!·) := by
  constructor
  · intro first second left right closed
    have filled (between : String) : ¬ Blank (first ++ between ++ second).toList := by
      rw [String.toList_append, String.toList_append, List.append_assoc]
      exact not_blank_append left [] _
    rw [evaluate_of_filled bindings left, evaluate_of_filled bindings right,
      evaluate_of_filled bindings (filled " || "), evaluate_of_filled bindings (filled " && "),
      String.toList_append, String.toList_append, String.toList_append, String.toList_append]
    refine ⟨alternatives_bars bindings closed, fun front back => ?_⟩
    rw [alternatives_of_whole bindings (whole_ampersands closed front back),
      alternatives_of_whole bindings front, alternatives_of_whole bindings back]
    exact alternative_ampersands bindings closed
  · intro guard filled terms ands bars
    have negated : ¬ Blank ("!" ++ guard).toList := by
      rw [String.toList_append, ← List.append_nil (_ ++ _)]
      exact not_blank_append filled _ []
    rw [evaluate_of_filled bindings filled, evaluate_of_filled bindings negated]
    rw [String.toList_append] at terms ands bars ⊢
    have within {sign : List Char} (absent : ¬ StandsIn sign ("!".toList ++ guard.toList)) :
        ¬ StandsIn sign guard.toList := fun stands => absent (stands.cons rfl)
    rw [alternatives_of_whole bindings bars, alternatives_of_whole bindings (within bars),
      alternative_of_whole bindings ands, alternative_of_whole bindings (within ands)]
    exact term_not bindings guard.toList terms

/-- A guard with a separator inside quotes. -/
def quotingGuard : String := "!seen && name == 'a || b'"

def quotingBindings : Bindings :=
  (KeyMap.empty.insert "seen" (.bool false)).insert "name" (.text "a || b")

theorem evaluate_connected_quoting :
    ¬ Blank quotingGuard.toList ∧ Closed quotingGuard.toList ∧
    (evaluate quotingBindings quotingGuard).toOption = some true ∧
    (evaluate quotingBindings (quotingGuard ++ " || " ++ "ghost")).toOption = some true ∧
    evaluate quotingBindings (quotingGuard ++ " && " ++ "ghost") =
      both (evaluate quotingBindings quotingGuard) (evaluate quotingBindings "ghost") ∧
    evaluate quotingBindings ("!" ++ " seen") = (evaluate quotingBindings " seen").map (!·) := by
  have filled : ¬ Blank quotingGuard.toList := by decide
  have closed : Closed quotingGuard.toList := by decide
  have holds : (evaluate quotingBindings quotingGuard).toOption = some true := by decide +kernel
  obtain ⟨connected, negated⟩ := evaluate_connected quotingBindings
  obtain ⟨alternative, conjunction⟩ := connected quotingGuard "ghost" filled (by decide) closed
  refine ⟨filled, closed, holds, ?_, ?_, ?_⟩
  · rw [alternative]
    decide +kernel
  · exact conjunction ((cut?_eq_none_iff rfl).1 (by decide)) ((cut?_eq_none_iff rfl).1 (by decide))
  · exact negated " seen" (by decide) (comparison?_eq_none_iff.1 (by decide))
      ((cut?_eq_none_iff rfl).1 (by decide)) ((cut?_eq_none_iff rfl).1 (by decide))

end Narrative.GuardText
