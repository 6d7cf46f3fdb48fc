import Mathlib.Data.List.Permutation
import Narrative.Proofs.Rounds

/-!
Shuffles under changing guards. A visit of a shuffle is told as a log of what it does: it draws a
fresh order, or it shows a branch. Whatever is eligible in each visit of a run, the entries before
the cursor are those shown since the last draw, so that nothing is lost or repeated between two
draws, and nothing is drawn as long as the order at hand has an entry to show.
-/

set_option autoImplicit false

namespace Narrative.Selection

/-! ### Visits with a log -/

/-- An order and the place in it that comes next. -/
structure Deck where
  order : List Nat
  cursor : Nat
deriving DecidableEq

/-- The deck that progress keeps. A cursor behind the order stands at its end. -/
def Deck.ofProgress (progress : Progress) : Deck :=
  ⟨progress.order.getD [], min (progress.cursor.getD 0) (progress.order.getD []).length⟩

/-- What a shuffle does. -/
inductive Event where
  /-- A fresh order is drawn, and a deck is put away for it. -/
  | drawn (replaced : Deck)
  /-- A branch is shown. -/
  | shown (branch : Nat)
deriving DecidableEq

/-- The branch that is shown in an event. -/
def Event.branch? : Event → Option Nat
  | drawn _ => none
  | shown branch => some branch

/-- Draws a fresh order in place of a deck, and tells it. -/
def drawTold (replaced : Deck) (eligible : List Nat) (avoid : Option Nat) (source : RandomSource) :
    (List Nat × RandomSource) × List Event :=
  (freshOrder eligible avoid source, [.drawn replaced])

def seekTold (deck : Deck) (eligible : List Nat) (source : RandomSource) :
    (List Nat × Nat × Nat × RandomSource) × List Event :=
  match nextPlace? deck.order eligible deck.cursor with
  | some place => ((deck.order, deck.cursor, place, source), [])
  | none =>
    let last := if deck.cursor = 0 then none else deck.order[deck.cursor - 1]?
    let ((order, source), log) := drawTold deck eligible last source
    ((order, 0, 0, source), log)

def shuffledTold (progress : Progress) (first : Nat) (rest : List Nat) (source : RandomSource) :
    Selection × List Event :=
  let eligible := first :: rest
  let ((order, cursor, place, source), log) := seekTold (.ofProgress progress) eligible source
  let order := swapAt order cursor place
  let chosen := order.getD cursor first
  let log := log ++ [.shown chosen]
  if cursor + 1 = order.length then
    let ((order, source), more) := drawTold ⟨order, cursor + 1⟩ eligible (some chosen) source
    (⟨some chosen, { progress.visited with order := some order, cursor := some 0 }, source⟩,
      log ++ more)
  else
    (⟨some chosen, { progress.visited with order := some order, cursor := some (cursor + 1) },
      source⟩, log)

/-- A visit of a shuffle, telling what it does. -/
def selectTold (progress : Progress) (eligible : List Nat) (source : RandomSource) :
    Selection × List Event :=
  match eligible with
  | first :: rest => shuffledTold progress first rest source
  | [] => (⟨none, progress, source⟩, [])

variable {eligible : List Nat}

theorem seekTold_fst (deck : Deck) (eligible : List Nat) (source : RandomSource) :
    (seekTold deck eligible source).1 = seek deck.order deck.cursor eligible source := by
  unfold seekTold seek
  cases nextPlace? deck.order eligible deck.cursor with
  | some place => rfl
  | none => rfl

theorem shuffledTold_fst (progress : Progress) (first : Nat) (rest : List Nat)
    (source : RandomSource) :
    (shuffledTold progress first rest source).1 = shuffled progress first rest source := by
  have sought := seekTold_fst (.ofProgress progress) (first :: rest) source
  unfold shuffledTold shuffled
  dsimp only [Deck.ofProgress] at sought ⊢
  rw [← sought]
  split
  · rfl
  · rfl

/-- Telling changes nothing. -/
theorem selectTold_fst (progress : Progress) (eligible : List Nat) (source : RandomSource) :
    (selectTold progress eligible source).1 = select .shuffle progress eligible source := by
  cases eligible with
  | nil => rfl
  | cons first rest => exact shuffledTold_fst progress first rest source

/-! ### What a visit can do -/

/-- What comes before a branch is shown: nothing, if the deck has an eligible entry to come, or else
a draw. -/
inductive Opens (eligible : List Nat) (deck : Deck) : List Event → Deck → Prop
  | found : Opens eligible deck [] deck
  | drawn {order : List Nat} (lacking : ∀ entry ∈ deck.order.drop deck.cursor, entry ∉ eligible)
    (fresh : order.Perm eligible) : Opens eligible deck [.drawn deck] ⟨order, 0⟩

/-- What comes after a branch was shown: a draw, if that was the last entry of the deck, or else
nothing. -/
inductive Closes (eligible : List Nat) (deck : Deck) : List Event → Deck → Prop
  | further (left : deck.cursor ≠ deck.order.length) : Closes eligible deck [] deck
  | drawn {order : List Nat} (ended : deck.cursor = deck.order.length)
    (fresh : order.Perm eligible) : Closes eligible deck [.drawn deck] ⟨order, 0⟩

/-- All that a visit of a shuffle with eligible branches does, from one deck to the next. -/
inductive Visit (eligible : List Nat) (deck : Deck) : List Event → Nat → Deck → Prop
  | visit {opening closing : List Event} {middle after : Deck} {place chosen : Nat}
    (opens : Opens eligible deck opening middle)
    (next : nextPlace? middle.order eligible middle.cursor = some place)
    (moved : (swapAt middle.order middle.cursor place)[middle.cursor]? = some chosen)
    (closes : Closes eligible ⟨swapAt middle.order middle.cursor place, middle.cursor + 1⟩ closing
      after) :
    Visit eligible deck (opening ++ .shown chosen :: closing) chosen after

theorem opens_seekTold (deck : Deck) (source : RandomSource) :
    Opens eligible deck (seekTold deck eligible source).2
      ⟨(seekTold deck eligible source).1.1, (seekTold deck eligible source).1.2.1⟩ := by
  unfold seekTold
  split
  · exact .found
  · next missing =>
    have lacking : ∀ entry ∈ deck.order.drop deck.cursor, entry ∉ eligible := by
      have empty := held_eq_nil_iff.2 missing
      rw [held, List.filter_eq_nil_iff] at empty
      intro entry member
      simpa using empty entry member
    exact .drawn lacking (freshOrder_perm eligible _ source)

/-- A visit with eligible branches shows one of them and keeps the deck that it comes to. -/
theorem visit_selectTold (nonempty : eligible ≠ []) (progress : Progress) (source : RandomSource) :
    ∃ chosen after, Visit eligible (.ofProgress progress) (selectTold progress eligible source).2
        chosen after ∧
      (select .shuffle progress eligible source).branch = some chosen ∧
      (select .shuffle progress eligible source).progress.order = some after.order ∧
      (select .shuffle progress eligible source).progress.cursor = some after.cursor := by
  rw [← selectTold_fst]
  obtain ⟨first, rest, rfl⟩ := List.exists_cons_of_ne_nil nonempty
  have opens := @opens_seekTold (first :: rest) (.ofProgress progress) source
  have next := nextPlace?_seek nonempty (Deck.ofProgress progress).order
    (Deck.ofProgress progress).cursor source
  rw [← seekTold_fst] at next
  rw [selectTold, shuffledTold]
  generalize seekTold (.ofProgress progress) (first :: rest) source = sought at opens next
  obtain ⟨⟨order, cursor, place, later⟩, opening⟩ := sought
  dsimp only at opens next ⊢
  obtain ⟨chosen, moved, -⟩ := held_swapAt next
  have picked : (swapAt order cursor place).getD cursor first = chosen := by
    rw [List.getD_eq_getElem?_getD, moved, Option.getD_some]
  rw [picked]
  split
  · next last =>
    have fresh := freshOrder_perm (first :: rest) (some chosen) later
    refine ⟨chosen, ⟨_, 0⟩, ?_, rfl, rfl, rfl⟩
    rw [List.append_assoc]
    exact .visit opens next moved (.drawn last fresh)
  · next left =>
    exact ⟨chosen, ⟨_, cursor + 1⟩, .visit opens next moved (.further left), rfl, rfl, rfl⟩

/-! ### What a log tells of the deck -/

/-- The branches shown since the last draw, in their order. -/
def sinceDraw (log : List Event) : List Nat :=
  log.foldl (fun branches event =>
    match event with
    | .drawn _ => []
    | .shown branch => branches ++ [branch]) []

theorem sinceDraw_drawn (log : List Event) (replaced : Deck) :
    sinceDraw (log ++ [.drawn replaced]) = [] := by
  rw [sinceDraw, List.foldl_append]
  rfl

theorem sinceDraw_shown (log : List Event) (branch : Nat) :
    sinceDraw (log ++ [.shown branch]) = sinceDraw log ++ [branch] := by
  rw [sinceDraw, List.foldl_append]
  rfl

/-- A deck is where a log leads: its entries before the cursor are those shown since the last draw,
and at no point of the log was one shown twice since the draw before. -/
structure Deck.Follows (deck : Deck) (log : List Event) : Prop where
  inside : deck.cursor ≤ deck.order.length
  nodup : deck.order.Nodup
  shown : deck.order.take deck.cursor = sinceDraw log
  once : ∀ part, part <+: log → (sinceDraw part).Nodup

variable {deck middle after : Deck} {log told opening closing : List Event} {chosen : Nat}

theorem follows_none : (Deck.ofProgress .none).Follows [] := by
  refine ⟨Nat.le_refl 0, List.nodup_nil, rfl, ?_⟩
  intro part front
  rw [List.prefix_nil.1 front]
  exact List.nodup_nil

/-- One more event keeps the log free of repetitions if the deck after it has none. -/
theorem once_concat (once : ∀ part, part <+: log → (sinceDraw part).Nodup) {event : Event}
    (nodup : (sinceDraw (log ++ [event])).Nodup) :
    ∀ part, part <+: log ++ [event] → (sinceDraw part).Nodup := by
  intro part front
  rcases List.prefix_concat_iff.1 front with rfl | front
  · exact nodup
  · exact once part front

theorem Deck.Follows.draw (follows : deck.Follows log) (replaced : Deck) {order : List Nat}
    (nodup : order.Nodup) : (Deck.mk order 0).Follows (log ++ [.drawn replaced]) := by
  have none := sinceDraw_drawn log replaced
  refine ⟨Nat.zero_le _, nodup, none.symm, once_concat follows.once ?_⟩
  rw [none]
  exact List.nodup_nil

theorem Deck.Follows.emit (follows : deck.Follows log) {place chosen : Nat}
    (next : nextPlace? deck.order eligible deck.cursor = some place)
    (moved : (swapAt deck.order deck.cursor place)[deck.cursor]? = some chosen) :
    (Deck.mk (swapAt deck.order deck.cursor place) (deck.cursor + 1)).Follows
      (log ++ [.shown chosen]) := by
  have perm := swapAt_perm deck.order deck.cursor place
  have nodup := perm.nodup_iff.2 follows.nodup
  have before : (swapAt deck.order deck.cursor place).take deck.cursor = sinceDraw log := by
    rw [← follows.shown]
    obtain ⟨front, skipped, entry, back, whole, size, here, -, -⟩ := exists_skipped next
    rw [whole, here, ← size]
    cases skipped with
    | nil => rw [List.length_nil, Nat.add_zero, swapAt_self]
    | cons first others =>
      rw [List.length_cons, List.cons_append, swapAt_append, List.take_left, List.take_left]
  have taken : (swapAt deck.order deck.cursor place).take (deck.cursor + 1) =
      sinceDraw (log ++ [.shown chosen]) := by
    rw [List.take_add_one, moved, before, sinceDraw_shown]
    rfl
  have inside := (List.getElem?_eq_some_iff.1 moved).1
  refine ⟨inside, nodup, taken, once_concat follows.once ?_⟩
  rw [← taken]
  exact nodup.sublist (List.take_sublist _ _)

theorem Opens.follows (opens : Opens eligible deck opening middle) (nodup : eligible.Nodup)
    (follows : deck.Follows log) : middle.Follows (log ++ opening) := by
  cases opens with
  | found => rwa [List.append_nil]
  | drawn lacking fresh => exact follows.draw deck (fresh.nodup_iff.2 nodup)

theorem Closes.follows (closes : Closes eligible deck closing after) (nodup : eligible.Nodup)
    (follows : deck.Follows log) : after.Follows (log ++ closing) := by
  cases closes with
  | further left => rwa [List.append_nil]
  | drawn ended fresh => exact follows.draw deck (fresh.nodup_iff.2 nodup)

/-- A visit leads to the deck that its log tells of. -/
theorem Visit.follows (visit : Visit eligible deck told chosen after) (nodup : eligible.Nodup)
    (follows : deck.Follows log) : after.Follows (log ++ told) := by
  cases visit with
  | visit opens next moved closes =>
    have begun := opens.follows nodup follows
    have emitted := begun.emit next moved
    have ended := closes.follows nodup emitted
    simpa using ended

/-- A visit leaves a deck with an entry to come. -/
theorem Visit.inside (visit : Visit eligible deck told chosen after) (nonempty : eligible ≠ []) :
    after.cursor < after.order.length := by
  cases visit with
  | visit opens next moved closes =>
    have within := (List.getElem?_eq_some_iff.1 moved).1
    cases closes with
    | further left =>
      dsimp only at left ⊢
      omega
    | drawn ended fresh =>
      rw [fresh.length_eq]
      exact List.length_pos_iff.2 nonempty

/-- A visit shows one branch, and that is eligible. -/
theorem Visit.branches (visit : Visit eligible deck told chosen after) :
    chosen ∈ eligible ∧ told.filterMap Event.branch? = [chosen] := by
  cases visit with
  | @visit opening closing middle _ place _ opens next moved closes =>
    constructor
    · obtain ⟨entry, shown, split⟩ := held_swapAt next
      have same : entry = chosen := Option.some.inj (shown.symm.trans moved)
      have member : entry ∈ held middle.order middle.cursor eligible := by
        rw [split]
        exact List.mem_cons_self
      rw [held, List.mem_filter] at member
      rw [← same]
      simpa using member.2
    · have before : opening.filterMap Event.branch? = [] := by cases opens <;> rfl
      have behind : closing.filterMap Event.branch? = [] := by cases closes <;> rfl
      rw [List.filterMap_append, before, List.filterMap_cons, behind]
      rfl

/-- A visit without a draw rearranges the order, which has an entry then. -/
theorem Visit.perm (visit : Visit eligible deck told chosen after)
    (undrawn : ∀ replaced, .drawn replaced ∉ told) :
    deck.order ≠ [] ∧ after.order.Perm deck.order := by
  cases visit with
  | visit opens next moved closes =>
    cases opens with
    | drawn lacking fresh => exact absurd List.mem_cons_self (undrawn deck)
    | found =>
      cases closes with
      | drawn ended fresh => exact absurd (List.mem_cons_of_mem _ List.mem_cons_self) (undrawn _)
      | further left =>
        have perm := swapAt_perm deck.order deck.cursor
        refine ⟨?_, perm _⟩
        intro empty
        rw [empty] at next
        simp [nextPlace?] at next

/-- A draw stands before the branch that a visit shows or after it. -/
theorem drawn_cases {before later : List Event} {replaced : Deck}
    (split : opening ++ .shown chosen :: closing = before ++ .drawn replaced :: later) :
    (∃ more, opening = before ++ .drawn replaced :: more) ∨
      ∃ more, before = opening ++ .shown chosen :: more ∧
        closing = more ++ .drawn replaced :: later := by
  rcases List.append_eq_append_iff.1 split with ⟨between, here, there⟩ | ⟨between, here, there⟩
  · cases between with
    | nil => cases there
    | cons event more =>
      rw [List.cons_append, List.cons.injEq] at there
      obtain ⟨rfl, rest⟩ := there
      exact Or.inr ⟨more, here, rest⟩
  · cases between with
    | nil => cases there
    | cons event more =>
      rw [List.cons_append, List.cons.injEq] at there
      obtain ⟨rfl, rest⟩ := there
      exact Or.inl ⟨more, here⟩

/-- A visit draws before it shows a branch if the deck has no eligible entry to come, and after it
if all entries of the order have been shown since the draw before. -/
theorem Visit.due (visit : Visit eligible deck told chosen after) (nodup : eligible.Nodup)
    (follows : deck.Follows log) {before later : List Event} {replaced : Deck}
    (split : told = before ++ .drawn replaced :: later) :
    (before = [] ∧ ∀ entry ∈ deck.order.drop deck.cursor, entry ∉ eligible) ∨
      (replaced.order.getLast? = some chosen ∧ sinceDraw (log ++ before) = replaced.order ∧
        before.getLast? = some (.shown chosen)) := by
  cases visit with
  | visit opens next moved closes =>
    have emitted := (opens.follows nodup follows).emit next moved
    -- The draw is that of the opening, which stands first, or that of the closing, which is last.
    rcases drawn_cases split with ⟨more, here⟩ | ⟨more, rfl, there⟩
    · cases opens with
      | found => simp at here
      | drawn lacking fresh =>
        refine Or.inl ⟨?_, lacking⟩
        cases before with
        | nil => rfl
        | cons event rest => simp at here
    · cases closes with
      | further left => simp at there
      | drawn ended fresh =>
        cases more with
        | cons event rest => simp at there
        | nil =>
          cases there
          have whole := emitted.shown
          dsimp only at ended whole
          rw [ended, List.take_length] at whole
          refine Or.inr ⟨?_, ?_, by simp⟩
          · rw [List.getLast?_eq_getElem?, ← ended, Nat.add_sub_cancel]
            exact moved
          · rw [← List.append_assoc, ← whole]

/-! ### Runs of visits -/

/-- The progress of a shuffle and its random source after visits with the given eligible
branches. -/
def afterRun : List (List Nat) → Progress → RandomSource → Progress × RandomSource
  | [], progress, source => (progress, source)
  | eligible :: rest, progress, source =>
    let selection := select .shuffle progress eligible source
    afterRun rest selection.progress selection.source

/-- What these visits tell. -/
def logOfRun : List (List Nat) → Progress → RandomSource → List Event
  | [], _, _ => []
  | eligible :: rest, progress, source =>
    let selection := select .shuffle progress eligible source
    (selectTold progress eligible source).2 ++ logOfRun rest selection.progress selection.source

theorem ofProgress_eq {progress : Progress} (ordered : progress.order = some deck.order)
    (placed : progress.cursor = some deck.cursor) (inside : deck.cursor ≤ deck.order.length) :
    Deck.ofProgress progress = deck := by
  rw [Deck.ofProgress, ordered, placed, Option.getD_some, Option.getD_some,
    Nat.min_eq_left inside]

/-- The deck of a shuffle follows the log of its visits. -/
theorem follows_afterRun {run : List (List Nat)}
    (proper : ∀ eligible ∈ run, eligible ≠ [] ∧ eligible.Nodup) {progress : Progress}
    (follows : (Deck.ofProgress progress).Follows log) (source : RandomSource) :
    (Deck.ofProgress (afterRun run progress source).1).Follows
      (log ++ logOfRun run progress source) := by
  -- On the visits to come, with the log of those before them.
  induction run generalizing log progress source with
  | nil =>
    rw [logOfRun, List.append_nil]
    exact follows
  | cons eligible rest ih =>
    obtain ⟨nonempty, nodup⟩ := proper eligible List.mem_cons_self
    obtain ⟨chosen, after, visit, -, ordered, placed⟩ :=
      visit_selectTold nonempty progress source
    have next := visit.follows nodup follows
    have kept := ofProgress_eq ordered placed next.inside
    rw [← kept] at next
    rw [logOfRun, ← List.append_assoc]
    exact ih (fun other member => proper other (List.mem_cons_of_mem _ member)) next _

/-- What holds of a visit of a shuffle after visits that told a log. -/
structure Lossless (log : List Event) (progress : Progress) (eligible : List Nat)
    (source : RandomSource) : Prop where
  /-- The visit shows one branch, which is eligible. -/
  chosen : ∃ branch ∈ eligible, (select .shuffle progress eligible source).branch = some branch ∧
    (selectTold progress eligible source).2.filterMap Event.branch? = [branch]
  /-- It leaves an order without repetitions and a cursor in it, and the entries before the cursor
  are the branches shown since the last draw. -/
  kept : ∃ order cursor,
    (select .shuffle progress eligible source).progress.order = some order ∧
    (select .shuffle progress eligible source).progress.cursor = some cursor ∧
    order ≠ [] ∧ order.Nodup ∧ cursor < order.length ∧
    order.take cursor = sinceDraw (log ++ (selectTold progress eligible source).2)
  /-- No branch has been shown twice between two draws. -/
  once : ∀ part, part <+: log ++ (selectTold progress eligible source).2 → (sinceDraw part).Nodup
  /-- If nothing is drawn, the order is a rearrangement of the one before. -/
  rearranged : (∀ replaced, .drawn replaced ∉ (selectTold progress eligible source).2) →
    ∃ before after, progress.order = some before ∧
      (select .shuffle progress eligible source).progress.order = some after ∧ after.Perm before
  /-- An order is drawn at the beginning of the visit if no entry from the cursor on is eligible, or
  when the last entry of an order has just been shown, all others having been shown before. -/
  drawn : ∀ before replaced later,
    (selectTold progress eligible source).2 = before ++ .drawn replaced :: later →
    (before = [] ∧ ∀ entry ∈ (progress.order.getD []).drop (progress.cursor.getD 0),
      entry ∉ eligible) ∨
    ∃ last, before.getLast? = some (.shown last) ∧ replaced.order.getLast? = some last ∧
      sinceDraw (log ++ before) = replaced.order

/-- Whatever branches are eligible in the visits of a shuffle that has shown nothing before, no
visit loses or repeats one within an order. -/
theorem lossless_of_run {earlier : List (List Nat)} {eligible : List Nat}
    (proper : ∀ branches ∈ earlier ++ [eligible], branches ≠ [] ∧ branches.Nodup)
    (source : RandomSource) :
    Lossless (logOfRun earlier .none source) (afterRun earlier .none source).1 eligible
      (afterRun earlier .none source).2 := by
  have before := follows_afterRun
    (fun branches member => proper branches (List.mem_append_left _ member)) follows_none source
  obtain ⟨nonempty, nodup⟩ := proper eligible (List.mem_append_right _ List.mem_cons_self)
  rw [List.nil_append] at before
  generalize logOfRun earlier .none source = log at before
  generalize afterRun earlier .none source = state at before
  obtain ⟨progress, source⟩ := state
  obtain ⟨chosen, after, visit, shown, ordered, placed⟩ :=
    visit_selectTold nonempty progress source
  have next := visit.follows nodup before
  have inside := visit.inside nonempty
  constructor
  · exact ⟨chosen, visit.branches.1, shown, visit.branches.2⟩
  · refine ⟨after.order, after.cursor, ordered, placed, ?_, next.nodup, inside, next.shown⟩
    exact List.ne_nil_of_length_pos (Nat.zero_lt_of_lt inside)
  · exact next.once
  · intro undrawn
    obtain ⟨filled, perm⟩ := visit.perm undrawn
    cases stored : progress.order with
    | none =>
      rw [Deck.ofProgress, stored] at filled
      exact absurd rfl filled
    | some order =>
      rw [Deck.ofProgress, stored] at perm
      exact ⟨order, after.order, rfl, ordered, perm⟩
  · intro front replaced later split
    rcases visit.due nodup before split with ⟨first, lacking⟩ | ⟨last, whole, behind⟩
    · refine Or.inl ⟨first, ?_⟩
      intro entry member
      apply lacking entry
      rw [Deck.ofProgress]
      dsimp only
      by_cases inside : progress.cursor.getD 0 ≤ (progress.order.getD []).length
      · rwa [Nat.min_eq_left inside]
      · have short := Nat.le_of_not_le inside
        rw [List.drop_eq_nil_of_le short] at member
        cases member
    · exact Or.inr ⟨chosen, behind, last, whole⟩

/-- The guards of two branches fail after the first visit, so that the third one draws before and
after it shows the branch that is left. -/
theorem lossless_of_run_narrowing :
    let words := RandomSource.cyclic [5, 4000000000, 7]
    (∀ branches ∈ [[0, 1, 2], [1]] ++ [[1]], branches ≠ [] ∧ branches.Nodup) ∧
      logOfRun [[0, 1, 2], [1], [1]] .none words =
        [.drawn ⟨[], 0⟩, .shown 2, .shown 1, .drawn ⟨[2, 1, 0], 2⟩, .shown 1, .drawn ⟨[1], 1⟩] ∧
      Lossless (logOfRun [[0, 1, 2], [1]] .none words) (afterRun [[0, 1, 2], [1]] .none words).1 [1]
        (afterRun [[0, 1, 2], [1]] .none words).2 :=
  ⟨by decide, by cbv, lossless_of_run (by decide) _⟩

end Narrative.Selection
