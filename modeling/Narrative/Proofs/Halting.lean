import Narrative.Proofs.Stages

/-!
The readers of a source text go the way of the stack machine. A reader that gives a value has read
a text that the machine takes, and a reader that stops has done so where the machine cannot go on,
waiting for what its stage says. Readers look ahead and the machine does not: a label is found by
its colon, so the first argument and the opening before it are followed together.
-/

set_option autoImplicit false

namespace Narrative.Written

/-- The stage at which a reader waits, none if no embed is open. -/
def Awaiting.stage? : Awaiting → Option Stage
  | piece => none
  | opening run => some (.opening run)
  | content => some .content
  | lineFeed => some .lineFeed
  | argument => some .argument
  | dash => some .dash
  | entry _ | entryContent _ => some .entry

/-- A reader stopped where the machine has the given stack and cannot go on: the next character has
no step, and if there is none an embed is open. -/
structure Stuck.At (stuck : Stuck) (stack : List Stage) : Prop where
  stage : stack.head? = stuck.awaiting.stage?
  blocked : ∀ c more, stuck.rest = c :: more → advance? c stack = none
  opened : stuck.rest = [] → stack ≠ []

/-- A reader stopped within a text that begins at the given stack. -/
def Halts (source : List Char) (stack : List Stage) (stuck : Stuck) : Prop :=
  ∃ read last, source = read ++ stuck.rest ∧ Leads read stack last ∧ stuck.At last

variable {source read rest : List Char} {stack middle outer : List Stage} {stage : Stage}
  {stuck : Stuck}

theorem Halts.prepend (halts : Halts rest middle stuck) (spelled : source = read ++ rest)
    (before : Leads read stack middle) : Halts source stack stuck := by
  obtain ⟨more, last, rfl, behind, here⟩ := halts
  exact ⟨read ++ more, last, by rw [spelled, List.append_assoc], before.append behind, here⟩

theorem Stuck.At.halts (here : stuck.At stack) : Halts stuck.rest stack stuck :=
  ⟨[], stack, rfl, Leads.nil stack, here⟩

/-- At the end of the text a reader that waits in an embed is stopped. -/
theorem Stuck.at_end {awaiting : Awaiting} (ended : rest = [])
    (waits : awaiting.stage? = some stage) (outer : List Stage) :
    Stuck.At ⟨rest, awaiting⟩ (stage :: outer) := by
  refine ⟨waits.symm, ?_, fun _ => List.cons_ne_nil stage outer⟩
  intro c more here
  cases ended.symm.trans here

/-- A result that ends in a stack with a property, or stops with the machine. -/
def Ends {α : Type} (result : Except Stuck (Taken α source)) (stack : List Stage)
    (property : List Char → List Stage → Prop) : Prop :=
  match result with
  | .ok taken => ∃ read last, source = read ++ taken.rest ∧ Leads read stack last ∧
      property taken.rest last
  | .error stuck => Halts source stack stuck

theorem Ends.imp {α : Type} {result : Except Stuck (Taken α source)}
    {weak strong : List Char → List Stage → Prop} (ends : Ends result stack strong)
    (le : ∀ rest last, strong rest last → weak rest last) : Ends result stack weak := by
  cases result with
  | error stuck => exact ends
  | ok taken =>
    obtain ⟨read, last, spelled, leads, holds⟩ := ends
    exact ⟨read, last, spelled, leads, le taken.rest last holds⟩

/-- A reader that goes on as another one does behind a text ends where that one does. -/
theorem Ends.prepend {α β : Type} {result : Except Stuck (Taken α rest)}
    {whole : Except Stuck (Taken β source)} {property : List Char → List Stage → Prop}
    (ends : Ends result middle property) (spelled : source = read ++ rest)
    (before : Leads read stack middle) (same : whole.map Taken.rest = result.map Taken.rest) :
    Ends whole stack property := by
  cases result with
  | error stuck =>
    cases whole with
    | error other =>
      cases same
      exact Halts.prepend ends spelled before
    | ok found => cases same
  | ok taken =>
    cases whole with
    | error other => cases same
    | ok found =>
      obtain ⟨more, last, consumed, behind, holds⟩ := ends
      have left : found.rest = taken.rest := Except.ok.inj same
      refine ⟨read ++ more, last, ?_, before.append behind, left ▸ holds⟩
      rw [left, List.append_assoc, ← consumed]
      exact spelled

/-- Behind a text that was followed, no more embeds can be open than before it. -/
theorem Leads.shallow {bound : Nat} (before : Leads read stack middle)
    (spelled : source = read ++ rest) (shallow : peak stack.length source ≤ bound) :
    peak middle.length rest ≤ bound := by
  rw [spelled] at shallow
  exact Nat.le_trans (before.peak_le rest) shallow

theorem length_lt_of_append_cons {c : Char} (spelled : source = read ++ [c] ++ rest) :
    rest.length < source.length := by
  rw [spelled]
  simp only [List.length_append, List.length_cons]
  omega

/-- A reader of embeds goes the way of the machine if no more than `depth` embeds can be open. -/
def Follows (depth : Nat) (embed : EmbedReader) : Prop :=
  ∀ outer inner, peak (outer.length + 1) inner ≤ outer.length + depth →
    Ends (embed inner) (.opening [] :: outer) (fun _ last => last = outer)

/-! ### Pieces -/

/-- Text and embeds may be repeated at a stack. -/
structure Loops (accept : Char → Bool) (stack : List Stage) : Prop where
  text : ∀ c, accept c = true → advance? c stack = some stack
  opens : advance? '{' stack = some (.opening [] :: stack)

theorem loops_top : Loops isTopText [] := ⟨fun _ plain => advance?_top plain, rfl⟩

theorem loops_argument (outer : List Stage) : Loops isArgumentText (.argument :: outer) :=
  ⟨fun _ accepted => advance?_argument accepted, rfl⟩

theorem loops_entry (outer : List Stage) : Loops isEntryText (.entry :: outer) :=
  ⟨fun _ accepted => advance?_entry (isTopText_of_isEntryText accepted), rfl⟩

variable {accept : Char → Bool} {depth : Nat} {embed : EmbedReader}

theorem Loops.leads (loops : Loops accept stack) {text : List Char}
    (all : ∀ c ∈ text, accept c = true) : Leads text stack stack :=
  leads_run (fun c member => loops.text c (all c member))

/-- Where reading pieces ends: after the first text if no embed follows it, or where they loop. -/
def PiecesEnd (accept : Char → Bool) (source : List Char) (first loop : List Stage)
    (rest : List Char) (last : List Stage) : Prop :=
  (∀ inner, rest ≠ '{' :: inner) ∧ Stops accept rest ∧
    (last = first ∧ rest = source.dropWhile accept ∨
      last = loop ∧ ∃ inner, source.dropWhile accept = '{' :: inner)

/-- Pieces are followed if their first text leads to a stack from which an embed leads to where they
loop. -/
theorem Follows.pieces (follows : Follows depth embed) {loop : List Stage}
    (loops : Loops accept loop) (source : List Char)
    (text : Leads (source.takeWhile accept) stack middle)
    (opens : advance? '{' middle = some (.opening [] :: loop))
    (shallow : peak stack.length source ≤ loop.length + depth) :
    Ends (Written.pieces accept embed source) stack (PiecesEnd accept source middle loop) := by
  -- On the length of the source, as what follows an embed is read from the stack where they loop.
  induction size : source.length using Nat.strongRecOn generalizing source stack middle with
  | ind bound ih =>
    have whole : source = source.takeWhile accept ++ source.dropWhile accept :=
      List.takeWhile_append_dropWhile.symm
    rw [Written.pieces]
    split
    · next inner split =>
      have brace : Leads (source.takeWhile accept ++ ['{']) stack (.opening [] :: loop) :=
        text.append (Leads.cons opens (Leads.nil _))
      have spelled : source = source.takeWhile accept ++ ['{'] ++ inner := by
        rw [List.append_assoc, List.singleton_append, ← split]
        exact whole
      have embedded := follows loop inner (brace.shallow spelled shallow)
      split
      · next stuck failed =>
        rw [failed] at embedded
        exact Halts.prepend embedded spelled brace
      · next found taken =>
        rw [taken] at embedded
        obtain ⟨read, last, consumed, leads, rfl⟩ := embedded
        have before := brace.append leads
        have all : source = source.takeWhile accept ++ ['{'] ++ read ++ found.rest := by
          rw [List.append_assoc, ← consumed]
          exact spelled
        have shorter : found.rest.length < bound := by
          have within := found.shorter
          have inside := length_lt_of_append_cons spelled
          omega
        have again := ih found.rest.length shorter found.rest
          (loops.leads accept_of_mem_takeWhile) loops.opens (before.shallow all shallow) rfl
        have ends : Ends (Written.pieces accept embed found.rest) last
            (PiecesEnd accept source middle last) := by
          apply again.imp
          intro rest final ended
          obtain ⟨unopened, stops, place⟩ := ended
          refine ⟨unopened, stops, Or.inr ⟨?_, inner, split⟩⟩
          rcases place with ⟨same, -⟩ | ⟨same, -⟩ <;> exact same
        exact ends.prepend all before (by split <;> next found => rw [found]; rfl)
    · next other =>
      exact ⟨_, middle, whole, text, other, stops_dropWhile accept source, Or.inl ⟨rfl, rfl⟩⟩

/-! ### Arguments -/

/-- An argument ends at a stage before a text: a bar or the closing brace may follow, and nothing
else that stands there. -/
structure ArgumentEnds (awaiting : Awaiting) (outer : List Stage) (stage : Stage)
    (rest : List Char) : Prop where
  bar : stage.afterChar? '|' = some .argument
  closes : stage.mayClose = true
  waits : (∀ more, rest ≠ '|' :: more) → (∀ more, rest ≠ '}' :: more) →
    (∀ more, rest ≠ '{' :: more) → Stuck.At ⟨rest, awaiting⟩ (stage :: outer)

/-- The first text of an argument leads to a stage at which it may end or go on with an embed. -/
structure ArgumentBegins (awaiting : Awaiting) (stack outer : List Stage) (stage : Stage)
    (source : List Char) : Prop where
  text : Leads (source.takeWhile isArgumentText) stack (stage :: outer)
  opens : stage.afterEmbed? = some .argument
  ends : ArgumentEnds awaiting outer stage (source.dropWhile isArgumentText)
  embeds : ∀ inner, source.dropWhile isArgumentText = '{' :: inner → awaiting = .argument

/-- The characters that end the text of an argument. -/
theorem cases_not_isArgumentText {c : Char} (outside : isArgumentText c = false) :
    c = '{' ∨ c = '}' ∨ c = '|' ∨ isLineEnd c = true := by
  simp only [isArgumentText, Bool.and_eq_false_iff, bne_eq_false_iff_eq] at outside
  simp only [isLineEnd, Bool.or_eq_true, beq_iff_eq]
  grind

theorem Stuck.at_of_lineEnd {awaiting : Awaiting} (stops : Stops isArgumentText rest)
    (waits : awaiting.stage? = some stage) (bars : ∀ more, rest ≠ '|' :: more)
    (closes : ∀ more, rest ≠ '}' :: more) (opens : ∀ more, rest ≠ '{' :: more)
    (blocked : ∀ c more, rest = c :: more → isLineEnd c = true → stage.afterChar? c = none) :
    Stuck.At ⟨rest, awaiting⟩ (stage :: outer) := by
  refine ⟨waits.symm, ?_, fun _ => List.cons_ne_nil stage outer⟩
  intro c more here
  dsimp only at here
  subst here
  rcases cases_not_isArgumentText ((stops_cons _ c more).1 stops) with rfl | rfl | rfl | ends
  · exact absurd rfl (opens more)
  · exact absurd rfl (closes more)
  · exact absurd rfl (bars more)
  · have plain : isTopText c = true := by
      simp only [isLineEnd, Bool.or_eq_true, beq_iff_eq] at ends
      rcases ends with rfl | rfl <;> rfl
    rw [advance?_text plain, blocked c more rfl ends]
    rfl

theorem argumentEnds_argument (outer : List Stage) (stops : Stops isArgumentText rest) :
    ArgumentEnds .argument outer .argument rest := by
  refine ⟨rfl, rfl, fun bars closes opens => Stuck.at_of_lineEnd stops rfl bars closes opens ?_⟩
  intro c more here ends
  rw [Stage.afterChar?, if_pos ends]

theorem argumentBegins_argument (outer : List Stage) (source : List Char) :
    ArgumentBegins .argument (.argument :: outer) outer .argument source :=
  ⟨(loops_argument outer).leads accept_of_mem_takeWhile, rfl,
    argumentEnds_argument outer (stops_dropWhile isArgumentText source), fun _ _ => rfl⟩

theorem Follows.arguments (follows : Follows depth embed) {awaiting : Awaiting}
    (begins : ArgumentBegins awaiting stack outer stage source)
    (shallow : peak stack.length source ≤ outer.length + 1 + depth) :
    Ends (Written.arguments embed awaiting source) stack (fun _ last => last = outer) := by
  -- Only the first argument may begin at another stage. After a bar all begin alike.
  induction size : source.length using Nat.strongRecOn generalizing source stack awaiting stage with
  | ind bound ih =>
    have opens : advance? '{' (stage :: outer) = some (.opening [] :: .argument :: outer) := by
      rw [advance?, if_pos rfl, begins.opens]
      rfl
    have pieces := follows.pieces (loops_argument outer) source begins.text opens shallow
    rw [Written.arguments]
    split
    · next stuck failed =>
      rw [failed] at pieces
      exact pieces
    · next first taken =>
      rw [taken] at pieces
      obtain ⟨read, last, consumed, leads, unopened, stops, place⟩ := pieces
      have ended : ∃ left, last = left :: outer ∧ ArgumentEnds awaiting outer left first.rest := by
        rcases place with ⟨rfl, here⟩ | ⟨rfl, inner, embedded⟩
        · rw [here]
          exact ⟨stage, rfl, begins.ends⟩
        · rw [begins.embeds inner embedded]
          exact ⟨.argument, rfl, argumentEnds_argument outer stops⟩
      obtain ⟨left, rfl, ends⟩ := ended
      split
      · next next split =>
        have bar : Leads ['|'] (left :: outer) (.argument :: outer) :=
          Leads.cons (advance?_of_afterChar? rfl ends.bar) (Leads.nil _)
        have before := leads.append bar
        have all : source = read ++ ['|'] ++ next := by simpa [split] using consumed
        have again := ih next.length (size ▸ length_lt_of_append_cons all)
          (argumentBegins_argument outer next) (before.shallow all shallow) rfl
        exact again.prepend all before (by split <;> next found => rw [found]; rfl)
      · next after split =>
        have close : Leads ['}'] (left :: outer) outer := by
          refine Leads.cons ?_ (Leads.nil outer)
          rw [advance?, if_neg (by decide), if_pos rfl, if_pos ends.closes]
        refine ⟨read ++ ['}'], outer, ?_, leads.append close, rfl⟩
        simpa [split] using consumed
      · next bars closes =>
        exact (ends.waits bars closes unopened).halts.prepend consumed leads

/-! ### Entries -/

theorem Margin.leads (source : List Char) (outer : List Stage) :
    Leads (margin source).value.spell (.entry :: outer) (.entry :: outer) :=
  leads_run (fun c member => advance?_entry ((margin_spec source).2.isTopText c member))

/-- The text of an entry ends at a dash, at a brace or at the end. -/
theorem eq_nil_of_stops_isEntryText (stops : Stops isEntryText rest)
    (dashes : ∀ more, rest ≠ '-' :: more) (closes : ∀ more, rest ≠ '}' :: more)
    (opens : ∀ more, rest ≠ '{' :: more) : rest = [] := by
  cases rest with
  | nil => rfl
  | cons c more =>
    have outside := (stops_cons _ c more).1 stops
    simp only [isEntryText, Bool.and_eq_false_iff, bne_eq_false_iff_eq] at outside
    rcases outside with (rfl | rfl) | rfl
    · exact absurd rfl (opens more)
    · exact absurd rfl (closes more)
    · exact absurd rfl (dashes more)

/-- Nothing but space after a dash leads to no other stage. -/
theorem leads_space (empty : source.dropWhile isSpace = []) (outer : List Stage) :
    Leads source (.entry :: outer) (.entry :: outer) := by
  apply leads_run
  intro c member
  by_cases inside : isSpace c = true
  · exact advance?_entry (isTopText_of_isSpace inside)
  · exact absurd empty (dropWhile_ne_nil member (by simpa using inside))

theorem Follows.entries (follows : Follows depth embed) (wasOpen : Bool)
    (shallow : peak (outer.length + 1) source ≤ outer.length + 1 + depth) :
    Ends (Written.entries embed wasOpen source) (.entry :: outer) (fun _ last => last = outer) := by
  induction size : source.length using Nat.strongRecOn generalizing source wasOpen with
  | ind bound ih =>
    rw [Written.entries]
    split
    · next empty =>
      have spaces := leads_space (List.isEmpty_iff.1 empty) outer
      exact (Stuck.at_end rfl rfl outer).halts.prepend (List.append_nil source).symm spaces
    · have front := Margin.leads source outer
      have whole := (margin_spec source).1
      have pieces := follows.pieces (loops_entry outer) (margin source).rest
        ((loops_entry outer).leads accept_of_mem_takeWhile) (loops_entry outer).opens
        (front.shallow whole shallow)
      split
      · next stuck failed =>
        rw [failed] at pieces
        exact Halts.prepend pieces whole front
      · next content taken =>
        rw [taken] at pieces
        obtain ⟨read, last, consumed, leads, unopened, stops, place⟩ := pieces
        have same : last = .entry :: outer := by
          rcases place with ⟨same, -⟩ | ⟨same, -⟩ <;> exact same
        subst same
        have before := front.append leads
        have all : source = (margin source).value.spell ++ read ++ content.rest := by
          rw [List.append_assoc, ← consumed]
          exact whole
        split
        · next next split =>
          have dash : Leads ['-'] (.entry :: outer) (.entry :: outer) :=
            Leads.cons (advance?_entry rfl) (Leads.nil _)
          have spelled : source = (margin source).value.spell ++ read ++ ['-'] ++ next := by
            rw [List.append_assoc _ ['-'], List.singleton_append, ← split]
            exact all
          have beyond := before.append dash
          have again := ih next.length (size ▸ length_lt_of_append_cons spelled)
            (wasOpen || labelOpen (source.dropWhile isSpace)) (beyond.shallow spelled shallow) rfl
          exact again.prepend spelled beyond (by split <;> next found => rw [found]; rfl)
        · next after split =>
          have close : Leads ['}'] (.entry :: outer) outer := Leads.cons rfl (Leads.nil outer)
          refine ⟨_, outer, ?_, before.append close, rfl⟩
          rw [List.append_assoc _ ['}'], List.singleton_append, ← split]
          exact all
        · next dashes closes =>
          have ended := eq_nil_of_stops_isEntryText stops dashes closes unopened
          exact (Stuck.at_end ended rfl outer).halts.prepend all before

theorem Follows.block (follows : Follows depth embed) (carriage : Bool) (gap : List Char)
    (value : Opening) (shallow : peak (outer.length + 1) source ≤ outer.length + 1 + depth) :
    Ends (Written.block embed carriage gap source value) (.dash :: outer)
      (fun _ last => last = outer) := by
  have whole : source = source.takeWhile isSpace ++ source.dropWhile isSpace :=
    List.takeWhile_append_dropWhile.symm
  have spaces : Leads (source.takeWhile isSpace) (.dash :: outer) (.dash :: outer) :=
    leads_run (fun c member => advance?_space (accept_of_mem_takeWhile c member))
  rw [Written.block]
  split
  · next next split =>
    have dash : Leads ['-'] (.dash :: outer) (.entry :: outer) := Leads.cons rfl (Leads.nil _)
    have before := spaces.append dash
    have all : source = source.takeWhile isSpace ++ ['-'] ++ next := by
      rw [List.append_assoc, List.singleton_append, ← split]
      exact whole
    have entries := follows.entries false (before.shallow all shallow)
    exact entries.prepend all before (by split <;> next found => rw [found]; rfl)
  · next dashes =>
    refine ⟨_, _, whole, spaces, rfl, ?_, fun _ => by simp⟩
    intro c more here
    dsimp only at here
    have outside : isSpace c = false := by
      have stops := stops_dropWhile isSpace source
      rw [here] at stops
      exact (stops_cons _ c more).1 stops
    have undashed : c ≠ '-' := by
      intro same
      exact dashes more (same ▸ here)
    rw [advance?]
    simp [Stage.afterEmbed?, Stage.mayClose, Stage.afterChar?, outside, undashed]

end Narrative.Written
