import Narrative.Proofs.Furthest
import Narrative.Proofs.Nesting

/-!
How deep the grammar goes. Along every path that the rules try, abandoned or not, the braces that
stand open are counted, and what is still to be read bounds how many more can be opened. So a bound
on the rule for embeds that a text does not reach changes nothing, neither values nor failures.
-/

set_option autoImplicit false

namespace Narrative.Grammar

open Written

/-! ### Room for open braces -/

/-- What can be left of a text inside a number of open braces if never more than `bound` braces are
open. -/
structure Room (bound : Nat) where
  admits : Nat → List Char → Prop
  plain : ∀ {opened c rest}, isTopText c = true → admits opened (c :: rest) → admits opened rest
  opens : ∀ {opened rest}, admits opened ('{' :: rest) → opened < bound ∧ admits (opened + 1) rest
  closes : ∀ {opened rest}, admits (opened + 1) ('}' :: rest) → admits opened rest

/-- The braces that a text itself opens bound those that are open. -/
def Room.ofPeak (bound : Nat) : Room bound where
  admits opened text := peak opened text ≤ bound
  plain := by
    intro opened c rest text within
    rwa [peak_text text] at within
  opens := by
    intro opened rest within
    rw [peak_openBrace] at within
    exact ⟨Nat.le_trans (le_peak (opened + 1) rest) within, within⟩
  closes := by
    intro opened rest within
    rw [peak_closeBrace, Nat.add_sub_cancel] at within
    exact Nat.le_trans (Nat.le_max_right _ _) within

/-- No text has more opening braces than characters. -/
def Room.ofLength (bound : Nat) : Room bound where
  admits opened text := opened + text.length ≤ bound
  plain := by
    intro opened c rest _ within
    rw [List.length_cons] at within
    omega
  opens := by
    intro opened rest within
    rw [List.length_cons] at within
    omega
  closes := by
    intro opened rest within
    rw [List.length_cons] at within
    omega

variable {bound : Nat} {room : Room bound} {α β : Type}

/-- Two rules do the same, inside `before` open braces, on every text for which there is room, and
they leave one for which there is room inside `after` of them. -/
def Agree (room : Room bound) (before after : Nat) (rule other : Rule α) : Prop :=
  ∀ source furthest, room.admits before source →
    rule source furthest = other source furthest ∧
    ∀ value rest later, rule source furthest = (some (value, rest), later) →
      room.admits after rest

namespace Agree

variable {before between after opened : Nat}

theorem symm {rule other : Rule α} (agree : Agree room before after rule other) :
    Agree room before after other rule := by
  intro source furthest admitted
  obtain ⟨same, leaves⟩ := agree source furthest admitted
  exact ⟨same.symm, same ▸ leaves⟩

theorem trans {first second third : Rule α} (agree : Agree room before after first second)
    (next : Agree room before after second third) : Agree room before after first third := by
  intro source furthest admitted
  obtain ⟨same, leaves⟩ := agree source furthest admitted
  exact ⟨same.trans (next source furthest admitted).1, leaves⟩

theorem pure (value : α) : Agree room opened opened (pure value) (pure value) := by
  intro source furthest admitted
  refine ⟨rfl, fun found rest later read => ?_⟩
  cases read
  exact admitted

theorem bind {rule other : Rule α} {next step : α → Rule β}
    (agree : Agree room before between rule other)
    (agrees : ∀ value, Agree room between after (next value) (step value)) :
    Agree room before after (rule >>= next) (other >>= step) := by
  intro source furthest admitted
  obtain ⟨same, leaves⟩ := agree source furthest admitted
  rcases result : rule source furthest with ⟨_ | ⟨value, rest⟩, later⟩
  · have refused := result.symm.trans same
    rw [bind_of_none result, bind_of_none refused.symm]
    exact ⟨rfl, fun _ _ _ read => by cases read⟩
  · have read := result.symm.trans same
    rw [bind_of_some result, bind_of_some read.symm]
    exact agrees value rest later (leaves value rest later result)

theorem fail : Agree room before after (fail : Rule α) Grammar.fail := by
  intro source furthest _
  exact ⟨rfl, fun _ _ _ read => by cases read⟩

theorem orElse {first other second another : Rule α}
    (agree : Agree room before after first other)
    (agrees : Agree room before after second another) :
    Agree room before after (orElse first second) (Grammar.orElse other another) := by
  intro source furthest admitted
  obtain ⟨same, leaves⟩ := agree source furthest admitted
  unfold Grammar.orElse
  rw [← same]
  rcases result : first source furthest with ⟨_ | ⟨value, rest⟩, later⟩
  · exact agrees source later admitted
  · refine ⟨rfl, fun found left last read => ?_⟩
    cases read
    exact leaves value rest later result

theorem firstOf {rules : List (Rule α)}
    (agrees : ∀ rule ∈ rules, Agree room before after rule rule) :
    Agree room before after (firstOf rules) (Grammar.firstOf rules) := by
  induction rules with
  | nil => exact fail
  | cons rule rest ih =>
    exact orElse (agrees rule List.mem_cons_self)
      (ih (fun other member => agrees other (List.mem_cons_of_mem rule member)))

theorem optional {rule other : Rule α} (agree : Agree room opened opened rule other) :
    Agree room opened opened (optional rule) (Grammar.optional other) :=
  orElse (agree.bind (fun value => pure (some value))) (pure none)

theorem many {rule other : Rule α} (agree : Agree room opened opened rule other) :
    Agree room opened opened (many rule) (Grammar.many other) := by
  intro source
  induction length : source.length using Nat.strongRecOn generalizing source with
  | ind size ih =>
    subst length
    intro furthest admitted
    obtain ⟨same, leaves⟩ := agree source furthest admitted
    rw [Grammar.many, Grammar.many, ← same]
    rcases result : rule source furthest with ⟨_ | ⟨value, rest⟩, later⟩
    · refine ⟨rfl, fun found left last read => ?_⟩
      cases read
      exact admitted
    · dsimp only
      split
      · next shorter =>
        obtain ⟨alike, rests⟩ := ih rest.length shorter rest rfl later
          (leaves value rest later result)
        rw [← alike]
        rcases more : Grammar.many rule rest later with ⟨_ | ⟨values, tail⟩, last⟩
        · exact ⟨rfl, fun _ _ _ read => by cases read⟩
        · refine ⟨rfl, fun found left final read => ?_⟩
          cases read
          exact rests values tail last more
      · refine ⟨rfl, fun found left last read => ?_⟩
        cases read
        exact admitted

theorem oneOrMore {rule other : Rule α} (agree : Agree room opened opened rule other) :
    Agree room opened opened (oneOrMore rule) (Grammar.oneOrMore other) :=
  agree.bind (fun first => agree.many.bind (fun more => pure (first :: more)))

theorem labelled (label : Expected) {rule other : Rule α}
    (agree : Agree room before after rule other) :
    Agree room before after (labelled label rule) (Grammar.labelled label other) := by
  intro source furthest admitted
  obtain ⟨same, leaves⟩ := agree source none admitted
  refine ⟨by rw [Grammar.labelled, Grammar.labelled, same], fun value rest later read => ?_⟩
  have first : (rule source none).1 = some (value, rest) := congrArg Prod.fst read
  exact leaves value rest _ (Prod.ext first rfl)

theorem filter (accept : α → Bool) {rule : Rule α} (agree : Agree room before after rule rule) :
    Agree room before after (filter accept rule) (Grammar.filter accept rule) := by
  intro source furthest admitted
  refine ⟨rfl, fun value rest later read => ?_⟩
  unfold Grammar.filter at read
  split at read
  · next found left last result =>
    split at read
    · cases read
      exact (agree source furthest admitted).2 value rest later result
    · cases read
  · cases read

/-- A character that is no brace leaves as many braces open as there are. -/
theorem one {accept : Char → Bool} {expected : List Expected}
    (plain : ∀ c, accept c = true → isTopText c = true) :
    Agree room opened opened (one accept expected) (Grammar.one accept expected) := by
  intro source furthest admitted
  refine ⟨rfl, fun value rest later read => ?_⟩
  unfold Grammar.one at read
  split at read
  · split at read
    · next accepted =>
      cases read
      exact room.plain (plain _ accepted) admitted
    · cases read
  · cases read

theorem char {c : Char} (plain : isTopText c = true) :
    Agree room opened opened (char c) (Grammar.char c) := by
  refine one (fun d same => ?_)
  rwa [beq_iff_eq.1 same]

theorem openBrace : Agree room opened (opened + 1) (Grammar.char '{') (Grammar.char '{') := by
  intro source furthest admitted
  refine ⟨rfl, fun value rest later read => ?_⟩
  unfold Grammar.char Grammar.one at read
  split at read
  · split at read
    · next accepted =>
      cases read
      rw [beq_iff_eq.1 accepted] at admitted
      exact (room.opens admitted).2
    · cases read
  · cases read

theorem closeBrace : Agree room (opened + 1) opened (Grammar.char '}') (Grammar.char '}') := by
  intro source furthest admitted
  refine ⟨rfl, fun value rest later read => ?_⟩
  unfold Grammar.char Grammar.one at read
  split at read
  · split at read
    · next accepted =>
      cases read
      rw [beq_iff_eq.1 accepted] at admitted
      exact room.closes admitted
    · cases read
  · cases read

theorem ended : Agree room opened opened ended Grammar.ended := by
  intro source furthest admitted
  refine ⟨rfl, fun value rest later read => ?_⟩
  unfold Grammar.ended at read
  split at read <;> cases read
  exact admitted

theorem closed {rule other : Rule α} (agree : Agree room (opened + 1) (opened + 1) rule other) :
    Agree room (opened + 1) opened (closed rule) (Grammar.closed other) :=
  agree.bind (fun value => closeBrace.bind (fun _ => pure value))

end Agree

/-! ### The grammar -/

section

variable {opened : Nat}

theorem agree_word {chars : List Char} (plain : ∀ c ∈ chars, isTopText c = true) :
    Agree room opened opened (word chars) (word chars) := by
  induction chars with
  | nil => exact Agree.pure ()
  | cons c rest ih =>
    exact (Agree.char (plain c List.mem_cons_self)).bind
      (fun _ => ih (fun d member => plain d (List.mem_cons_of_mem c member)))

theorem agree_gap : Agree room opened opened gap gap :=
  (Agree.one (fun _ => isTopText_of_isGap)).many

theorem agree_space : Agree room opened opened space space :=
  (Agree.one (fun _ => isTopText_of_isSpace)).many

theorem agree_newline : Agree room opened opened newline newline :=
  .labelled .newline ((Agree.char rfl).optional.bind (fun carriage =>
    (Agree.char rfl).bind (fun _ => Agree.pure carriage.isSome)))

theorem agree_marker (kind : Discipline) :
    Agree room opened opened (marker kind) (marker kind) := by
  have plain : ∀ c ∈ kind.marker.toList, isTopText c = true := by
    cases kind <;> exact List.all_eq_true.1 (by decide)
  exact (agree_word plain).bind (fun _ => Agree.pure _)

theorem agree_sign (value : Sign) : Agree room opened opened (sign value) (sign value) :=
  (Agree.char (isTopText_sign value)).bind (fun _ => Agree.pure _)

theorem agree_sequenceType : Agree room opened opened sequenceType sequenceType := by
  refine .labelled .sequenceType ((Agree.firstOf ?_).bind (fun _ =>
    agree_gap.bind (fun _ => Agree.pure _)))
  intro rule member
  simp only [sequenceTypes, List.mem_cons, List.not_mem_nil, or_false] at member
  rcases member with rfl | rfl | rfl | rfl | rfl | rfl | rfl
  all_goals first | exact agree_marker _ | exact agree_sign _

theorem agree_condition : Agree room opened opened condition condition :=
  .labelled .condition ((Agree.one (fun _ => isTopText_of_isLabel)).oneOrMore.bind (fun _ =>
    (Agree.char rfl).bind (fun _ => agree_gap.bind (fun _ => Agree.pure _))))

theorem agree_header : Agree room opened opened header header :=
  (Agree.orElse ((Agree.filter _ agree_condition).bind (fun _ => Agree.pure _))
    agree_sequenceType).optional.bind (fun _ => Agree.pure _)

variable {rule other : Rule Embed}

theorem Agree.pieces {accept : Char → Bool} (plain : ∀ c, accept c = true → isTopText c = true)
    (agree : Agree room opened opened rule other) :
    Agree room opened opened (pieces accept rule) (Grammar.pieces accept other) :=
  (Agree.orElse (.labelled .text ((Agree.one plain).oneOrMore.bind (fun _ => Agree.pure _)))
    (agree.bind (fun _ => Agree.pure _))).many

theorem Agree.arguments (agree : Agree room opened opened rule other) :
    Agree room opened opened (arguments rule) (Grammar.arguments other) :=
  have argument := agree.pieces (fun _ => isTopText_of_isArgumentText)
  argument.bind (fun _ =>
    ((Agree.char rfl).bind (fun _ => argument)).many.bind (fun _ => Agree.pure _))

theorem agree_margin : Agree room opened opened margin margin :=
  agree_space.bind (fun _ => agree_condition.optional.bind (fun _ => Agree.pure _))

theorem Agree.branch (agree : Agree room opened opened rule other) :
    Agree room opened opened (branch rule) (Grammar.branch other) :=
  .labelled .branch ((Agree.char rfl).bind (fun _ => agree_margin.bind (fun _ =>
    (agree.pieces (fun _ => isTopText_of_isEntryText)).bind (fun _ =>
      agree_space.bind (fun _ => Agree.pure _)))))

theorem Agree.inline (agree : Agree room (opened + 1) (opened + 1) rule other) :
    Agree room opened opened (inline rule) (Grammar.inline other) :=
  openBrace.bind (fun _ => agree_header.bind (fun _ =>
    agree.arguments.closed.bind (fun _ => Agree.pure _)))

theorem Agree.block (agree : Agree room (opened + 1) (opened + 1) rule other) :
    Agree room opened opened (block rule) (Grammar.block other) :=
  openBrace.bind (fun _ => agree_header.bind (fun _ => agree_gap.bind (fun _ =>
    agree_newline.bind (fun _ => agree_space.bind (fun _ =>
      agree.branch.oneOrMore.closed.bind (fun _ => Agree.pure _))))))

/-- The rule for embeds passes one brace on the way to the embeds inside. -/
theorem Agree.embedWith (agree : Agree room (opened + 1) (opened + 1) rule other) :
    Agree room opened opened (embedWith rule) (Grammar.embedWith other) :=
  .labelled .directive (agree.block.orElse agree.inline)

end

/-- Without an opening brace no embed is tried, whatever the rule for the embeds inside is. -/
theorem embedWith_of_stops {rule : Rule Embed} {source : List Char}
    (stops : Stops (· == '{') source) (furthest : Furthest) :
    embedWith rule source furthest =
      (none, furthest.merge (some (.at source [.directive]))) := by
  have refused (known : Furthest) :
      char '{' source known = (none, known.add (.at source [.char '{'])) :=
    one_of_stops stops _ known
  have blocked : block rule source none = _ := bind_of_none (refused none)
  have inlined (known : Furthest) : inline rule source known = _ := bind_of_none (refused known)
  have neither : orElse (block rule) (inline rule) source none =
      (none, some (.at source [.char '{', .char '{'])) := by
    rw [orElse, blocked]
    dsimp only
    rw [inlined]
    simp [Furthest.add, Failure.at]
  rw [embedWith, labelled, neither]
  simp [Furthest.relabel, Failure.at]

/-! ### Bounds -/

theorem Room.stops_openBrace {opened : Nat} {source : List Char}
    (full : bound ≤ opened) (admitted : room.admits opened source) :
    Stops (· == '{') source := by
  cases source with
  | nil => exact stops_nil _
  | cons c rest =>
    refine (stops_cons _ c rest).2 (beq_eq_false_iff_ne.2 ?_)
    rintro rfl
    exact absurd (room.opens admitted).1 (Nat.not_lt.2 full)

theorem bounded_zero_of_stops {beyond : Rule Embed} {source : List Char}
    (stops : Stops (· == '{') source) (furthest : Furthest) :
    bounded beyond 0 source furthest = embedWith beyond source furthest := by
  show (if source.head? = some '{' then _ else _) = _
  rw [if_neg]
  intro head
  exact absurd (stops '{' head) (by decide)

/-- Bounds that no text with room in it can reach all come to the same. -/
theorem agree_bounded (beyond other : Rule Embed) {opened depth deep : Nat}
    (enough : bound ≤ opened + depth) (also : bound ≤ opened + deep) :
    Agree room opened opened (bounded beyond depth) (bounded other deep) := by
  -- A bound of zero refuses what any bound refuses: no brace opens where there is no room.
  have refuses (beyond : Rule Embed) {opened : Nat} (full : bound ≤ opened) (rule : Rule Embed) :
      Agree room opened opened (bounded beyond 0) (embedWith rule) := by
    intro source furthest admitted
    have stops := room.stops_openBrace full admitted
    rw [bounded_zero_of_stops stops, embedWith_of_stops stops, embedWith_of_stops stops]
    exact ⟨rfl, fun _ _ _ read => by cases read⟩
  induction depth generalizing opened deep with
  | zero =>
    have here := refuses beyond enough other
    cases deep with
    | zero => exact here.trans (refuses other also other).symm
    | succ deep => exact refuses beyond enough (bounded other deep)
  | succ depth ih =>
    cases deep with
    | zero => exact (refuses other also (bounded beyond depth)).symm
    | succ deep => exact (ih (by omega) (by omega)).embedWith

/-- The rule for embeds does what it does with any bound that the length of the text cannot
reach. -/
theorem embed_eq_bounded (beyond : Rule Embed) {source : List Char} {depth : Nat}
    (enough : source.length ≤ depth) (furthest : Furthest) :
    embed source furthest = bounded beyond depth source furthest :=
  have agree := @agree_bounded _ (Room.ofLength source.length) fail beyond 0 source.length depth
    (by omega) (by omega)
  (agree source furthest (Nat.le_of_eq (Nat.zero_add _))).1

theorem agree_embed (beyond : Rule Embed) {opened depth : Nat} (enough : bound ≤ opened + depth) :
    Agree room opened opened embed (bounded beyond depth) := by
  intro source furthest admitted
  have deep := @agree_bounded _ room beyond beyond opened (max source.length depth) depth (by omega)
    enough source furthest admitted
  rw [embed_eq_bounded beyond (Nat.le_max_left source.length depth)]
  exact deep

/-- The rule for embeds calls itself for the embeds inside. -/
theorem embed_eq : embed = embedWith embed := by
  funext source furthest
  rw [embed_eq_bounded fail (Nat.le_succ source.length)]
  have inner := @agree_embed _ (Room.ofLength source.length) fail 1 source.length (by omega)
  have whole := inner.symm.embedWith source furthest (Nat.le_of_eq (Nat.zero_add _))
  exact whole.1

/-- No other rule for embeds calls itself for the embeds inside. -/
theorem eq_embed {rule : Rule Embed} (recursive : rule = embedWith rule) : rule = embed := by
  -- With each brace the two rules agree on texts that are longer by one.
  have agree (bound opened : Nat) : Agree (Room.ofLength bound) opened opened rule embed := by
    induction left : bound - opened generalizing opened with
    | zero =>
      intro source furthest admitted
      have stops := (Room.ofLength bound).stops_openBrace (by omega) admitted
      rw [recursive, embed_eq, embedWith_of_stops stops, embedWith_of_stops stops]
      exact ⟨rfl, fun _ _ _ read => by cases read⟩
    | succ more ih =>
      rw [recursive, embed_eq]
      exact (ih (opened + 1) (by omega)).embedWith
  funext source furthest
  exact (agree source.length 0 source furthest (Nat.le_of_eq (Nat.zero_add _))).1

/-- A bound that is not less than the nesting of a text changes nothing of how it is read. -/
theorem source_bounded (beyond : Rule Embed) {text : List Char} {depth : Nat}
    (enough : (Nesting.ofSource text).depth ≤ depth) (furthest : Furthest) :
    source (bounded beyond depth) text furthest = source embed text furthest := by
  rw [depth_ofSource] at enough
  have inner := @agree_embed _ (Room.ofPeak (peak 0 text)) beyond 0 depth (by omega)
  have whole := (inner.pieces (fun _ same => same)).bind (fun found =>
    Agree.ended.bind (fun _ => Agree.pure found))
  exact (whole text furthest (Nat.le_refl _)).1.symm

end Narrative.Grammar
