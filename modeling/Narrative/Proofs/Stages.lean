import Narrative.Proofs.Nesting
import Narrative.Source.Error

/-!
A stack machine for source texts, which reads one character after the other and never looks ahead.
Its stack holds one stage for each embed that is open, innermost first. It stops at the first
character that no source text can have there, and every stack it reaches can be closed again.
-/

set_option autoImplicit false

namespace Narrative.Written

/-- Where a text stands inside an embed that is open. -/
inductive Stage where
  /-- Nothing but a run of label characters since the brace. -/
  | opening (run : List Char)
  /-- After a label with its colon, where a gap or a line break may still come. -/
  | content
  /-- After the carriage return of a line break. -/
  | lineFeed
  /-- In an argument. -/
  | argument
  /-- Before the first dash of a block. -/
  | dash
  /-- In an entry. -/
  | entry
deriving DecidableEq

namespace Stage

/-- The stage after a character that is no brace. -/
def afterChar? (c : Char) : Stage → Option Stage
  | opening run =>
    if isLabel c then some (opening (run ++ [c]))
    else if c = ':' then some (if run.isEmpty then argument else content)
    else if c = '|' then some argument
    else if mayBreak run then some (if c = '\n' then dash else lineFeed)
    else none
  | content =>
    if isGap c then some content
    else if c = '\n' then some dash
    else if c = '\r' then some lineFeed
    else some argument
  | lineFeed => if c = '\n' then some dash else none
  | argument => if isLineEnd c then none else some argument
  | dash => if isSpace c then some dash else if c = '-' then some entry else none
  | entry => some entry

/-- The stage after an embed inside. -/
def afterEmbed? : Stage → Option Stage
  | opening _ | content | argument => some argument
  | entry => some entry
  | lineFeed | dash => none

/-- Whether the embed may end here. -/
def mayClose : Stage → Bool
  | opening _ | content | argument | entry => true
  | lineFeed | dash => false

/-- A text that ends the embed. -/
def closing : Stage → List Char
  | opening _ | content | argument | entry => ['}']
  | lineFeed => ['\n', '-', '}']
  | dash => ['-', '}']

end Stage

/-- The stack after a character. -/
def advance? (c : Char) : List Stage → Option (List Stage)
  | [] => if c = '{' then some [.opening []] else if c = '}' then none else some []
  | stage :: outer =>
    if c = '{' then stage.afterEmbed?.map (fun left => .opening [] :: left :: outer)
    else if c = '}' then if stage.mayClose then some outer else none
    else (stage.afterChar? c).map (· :: outer)

def walk : List Char → List Stage → Option (List Stage)
  | [], stack => some stack
  | c :: rest, stack =>
    match advance? c stack with
    | some next => walk rest next
    | none => none

/-- A text leads from one stack to another. -/
def Leads (text : List Char) (stack last : List Stage) : Prop := walk text stack = some last

variable {c : Char} {front back text : List Char} {stack middle last outer : List Stage}
  {stage : Stage}

theorem Leads.nil (stack : List Stage) : Leads [] stack stack := rfl

theorem leads_cons_iff :
    Leads (c :: text) stack last ↔ ∃ next, advance? c stack = some next ∧ Leads text next last := by
  rw [Leads, walk]
  split
  · next next stepped => simp [stepped, Leads]
  · next stuck => simp [stuck]

theorem Leads.cons {next : List Stage} (stepped : advance? c stack = some next)
    (behind : Leads text next last) : Leads (c :: text) stack last :=
  leads_cons_iff.2 ⟨next, stepped, behind⟩

theorem leads_append_iff :
    Leads (front ++ back) stack last ↔
      ∃ middle, Leads front stack middle ∧ Leads back middle last := by
  induction front generalizing stack with
  | nil => simp [Leads, walk]
  | cons c front ih =>
    rw [List.cons_append, leads_cons_iff]
    constructor
    · intro leads
      obtain ⟨next, stepped, behind⟩ := leads
      obtain ⟨middle, before, after⟩ := ih.1 behind
      exact ⟨middle, before.cons stepped, after⟩
    · intro leads
      obtain ⟨middle, before, after⟩ := leads
      obtain ⟨next, stepped, behind⟩ := leads_cons_iff.1 before
      exact ⟨next, stepped, ih.2 ⟨middle, behind, after⟩⟩

theorem Leads.append (before : Leads front stack middle) (after : Leads back middle last) :
    Leads (front ++ back) stack last :=
  leads_append_iff.2 ⟨middle, before, after⟩

/-- A character that leaves a stack as it is may be repeated. -/
theorem leads_run (still : ∀ c ∈ text, advance? c stack = some stack) : Leads text stack stack := by
  induction text with
  | nil => exact Leads.nil stack
  | cons c text ih =>
    apply Leads.cons (still c List.mem_cons_self)
    exact ih (fun d member => still d (List.mem_cons_of_mem c member))

/-! ### Single characters -/

theorem advance?_text (plain : isTopText c = true) :
    advance? c (stage :: outer) = (stage.afterChar? c).map (· :: outer) := by
  simp only [isTopText, Bool.and_eq_true, bne_iff_ne, ne_eq] at plain
  rw [advance?, if_neg plain.1, if_neg plain.2]

theorem advance?_of_afterChar? {left : Stage} (plain : isTopText c = true)
    (next : stage.afterChar? c = some left) :
    advance? c (stage :: outer) = some (left :: outer) := by
  rw [advance?_text plain, next]
  rfl

theorem advance?_top (plain : isTopText c = true) : advance? c [] = some [] := by
  simp only [isTopText, Bool.and_eq_true, bne_iff_ne, ne_eq] at plain
  rw [advance?, if_neg plain.1, if_neg plain.2]

theorem advance?_label (run : List Char) (label : isLabel c = true) :
    advance? c (.opening run :: outer) = some (.opening (run ++ [c]) :: outer) := by
  apply advance?_of_afterChar? (isTopText_of_isLabel label)
  rw [Stage.afterChar?, if_pos label]

theorem advance?_gap (gap : isGap c = true) :
    advance? c (.content :: outer) = some (.content :: outer) := by
  apply advance?_of_afterChar? (isTopText_of_isGap gap)
  rw [Stage.afterChar?, if_pos gap]

theorem advance?_space (space : isSpace c = true) :
    advance? c (.dash :: outer) = some (.dash :: outer) := by
  apply advance?_of_afterChar? (isTopText_of_isSpace space)
  rw [Stage.afterChar?, if_pos space]

theorem advance?_argument (accepted : isArgumentText c = true) :
    advance? c (.argument :: outer) = some (.argument :: outer) := by
  apply advance?_of_afterChar? (isTopText_of_isArgumentText accepted)
  rw [Stage.afterChar?, if_neg]
  simp only [isArgumentText, Bool.and_eq_true, bne_iff_ne, ne_eq] at accepted
  simp [isLineEnd, accepted]

theorem advance?_entry (plain : isTopText c = true) :
    advance? c (.entry :: outer) = some (.entry :: outer) :=
  advance?_of_afterChar? plain rfl

/-- Label characters after a brace are kept as the run of its stage. -/
theorem leads_labels (run : List Char) (labels : ∀ c ∈ text, isLabel c = true) :
    Leads text (.opening run :: outer) (.opening (run ++ text) :: outer) := by
  induction text generalizing run with
  | nil => rw [List.append_nil]; exact Leads.nil _
  | cons c text ih =>
    have behind := ih (run ++ [c]) (fun d member => labels d (List.mem_cons_of_mem c member))
    rw [List.append_assoc, List.singleton_append] at behind
    exact behind.cons (advance?_label run (labels c List.mem_cons_self))

/-- A label with its colon and its gap. -/
theorem leads_label {gap : List Char} (nonempty : text ≠ [])
    (labels : ∀ c ∈ text, isLabel c = true) (gaps : ∀ c ∈ gap, isGap c = true) :
    Leads (text ++ ':' :: gap) (.opening [] :: outer) (.content :: outer) := by
  apply (leads_labels [] labels).append
  have colon : advance? ':' (.opening ([] ++ text) :: outer) = some (.content :: outer) := by
    apply advance?_of_afterChar? rfl
    rw [Stage.afterChar?, if_neg (by decide), if_pos rfl, if_neg (by simpa using nonempty)]
  apply Leads.cons colon
  exact leads_run (fun c member => advance?_gap (gaps c member))

/-- Stages after which a line break may come. -/
def Stage.Breaks (stage : Stage) : Prop :=
  stage.afterChar? '\n' = some .dash ∧ stage.afterChar? '\r' = some .lineFeed

theorem Stage.breaks_content : Stage.content.Breaks := ⟨rfl, rfl⟩

theorem Stage.breaks_opening {run : List Char} (breaks : mayBreak run = true) :
    (Stage.opening run).Breaks := by
  constructor
  · rw [afterChar?, if_neg (by decide), if_neg (by decide), if_neg (by decide), if_pos breaks,
      if_pos rfl]
  · rw [afterChar?, if_neg (by decide), if_neg (by decide), if_neg (by decide), if_pos breaks,
      if_neg (by decide)]

theorem Stage.Breaks.leads (breaks : stage.Breaks) (carriage : Bool) :
    Leads (lineBreak carriage) (stage :: outer) (.dash :: outer) := by
  cases carriage with
  | false => exact Leads.cons (advance?_of_afterChar? rfl breaks.1) (Leads.nil _)
  | true =>
    apply Leads.cons (advance?_of_afterChar? rfl breaks.2)
    exact Leads.cons (advance?_of_afterChar? rfl rfl) (Leads.nil _)

/-! ### Closing and depth -/

theorem Stage.leads_closing (stage : Stage) (outer : List Stage) :
    Leads stage.closing (stage :: outer) outer := by
  cases stage <;> rfl

/-- Every stack can be closed. -/
theorem exists_leads_nil (stack : List Stage) : ∃ text, Leads text stack [] := by
  induction stack with
  | nil => exact ⟨[], Leads.nil []⟩
  | cons stage outer ih =>
    obtain ⟨text, closed⟩ := ih
    exact ⟨stage.closing ++ text, (stage.leads_closing outer).append closed⟩

/-- The stack is as high as the braces are deep. -/
theorem Leads.peak_le (leads : Leads front stack last) (back : List Char) :
    peak last.length back ≤ peak stack.length (front ++ back) := by
  induction front generalizing stack with
  | nil =>
    cases leads
    exact Nat.le_refl _
  | cons c front ih =>
    obtain ⟨next, stepped, behind⟩ := leads_cons_iff.1 leads
    have bound := ih behind
    rw [List.cons_append, peak]
    cases stack with
    | nil =>
      rw [advance?] at stepped
      split at stepped
      · cases stepped
        simpa [*] using bound
      · split at stepped
        · cases stepped
        · cases stepped
          simpa [*] using bound
    | cons stage outer =>
      rw [advance?] at stepped
      split at stepped
      · obtain ⟨left, -, rfl⟩ := Option.map_eq_some_iff.1 stepped
        rw [if_pos (by assumption)]
        exact bound
      · split at stepped
        · split at stepped
          · cases stepped
            rw [if_neg (by assumption), if_pos (by assumption), List.length_cons,
              Nat.add_sub_cancel]
            omega
          · cases stepped
        · obtain ⟨left, -, rfl⟩ := Option.map_eq_some_iff.1 stepped
          rw [if_neg (by assumption), if_neg (by assumption)]
          exact bound

end Narrative.Written
