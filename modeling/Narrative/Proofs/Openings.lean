import Narrative.Proofs.Halting

/-!
The reader of embeds goes the way of the stack machine. It looks for the colon of a label first and
for a line break next, and only then takes what it passed over for an argument. The machine keeps
the same run of characters, and knows no more about it until the colon or the line break comes.
-/

set_option autoImplicit false

namespace Narrative.Written

variable {source rest gap : List Char} {outer : List Stage} {value : Opening}

theorem isLabel_of_isGap {c : Char} (inside : isGap c = true) : isLabel c = true := by
  simp only [isGap, Bool.or_eq_true, beq_iff_eq] at inside
  rcases inside with rfl | rfl <;> rfl

theorem isLabel_sign_gap (sign : Sign) (gaps : ∀ c ∈ gap, isGap c = true) :
    ∀ c ∈ sign.char :: gap, isLabel c = true := by
  intro c member
  rcases List.mem_cons.1 member with rfl | member
  · cases sign <;> rfl
  · exact isLabel_of_isGap (gaps c member)

def Opening.stage : Opening → Stage
  | bare => .opening []
  | sign value gap => .opening (value.char :: gap)
  | label _ _ => .content

theorem Opening.Fits.leads (fits : value.Fits rest) (outer : List Stage) :
    Leads value.spell (.opening [] :: outer) (value.stage :: outer) := by
  cases value with
  | bare => exact Leads.nil _
  | sign sign gap =>
    exact leads_labels [] (isLabel_sign_gap sign fits.1)
  | label text gap =>
    obtain ⟨nonempty, labels, gaps, -⟩ := fits
    exact leads_label nonempty labels gaps

/-- The line break of a block may follow an opening and a gap. -/
theorem Opening.Fits.exists_breaks (fits : value.Fits rest) (gaps : ∀ c ∈ gap, isGap c = true)
    (outer : List Stage) :
    ∃ left, Leads gap (value.stage :: outer) (left :: outer) ∧ left.Breaks := by
  have labels : ∀ c ∈ gap, isLabel c = true := fun c member => isLabel_of_isGap (gaps c member)
  cases value with
  | bare =>
    refine ⟨.opening ([] ++ gap), leads_labels [] labels, Stage.breaks_opening ?_⟩
    cases gap with
    | nil => rfl
    | cons c gap =>
      have first := gaps c List.mem_cons_self
      have others : ∀ d ∈ gap, isGap d = true :=
        fun d member => gaps d (List.mem_cons_of_mem c member)
      simpa [mayBreak, first] using others
  | sign sign before =>
    refine ⟨.opening (sign.char :: before ++ gap), leads_labels _ labels, Stage.breaks_opening ?_⟩
    have all : ∀ c ∈ before ++ gap, isGap c = true := by
      intro c member
      exact (List.mem_append.1 member).elim (fits.1 c) (gaps c)
    rw [List.cons_append, mayBreak, Sign.ofChar?_char, List.all_eq_true.2 all]
    simp
  | label text before =>
    exact ⟨.content, leads_run (fun c member => advance?_gap (gaps c member)),
      Stage.breaks_content⟩

/-! ### The first argument -/

theorem firstAwaiting_opening
    (ends : ∀ c more, source.dropWhile isLabel = c :: more → isLineEnd c = true) :
    firstAwaiting source rest = .opening (source.takeWhile isLabel) := by
  unfold firstAwaiting
  split
  · rfl
  · rfl
  · rfl
  · next empty carriage feed =>
    cases split : source.dropWhile isLabel with
    | nil => exact absurd split empty
    | cons c more =>
      have ended := ends c more split
      simp only [isLineEnd, Bool.or_eq_true, beq_iff_eq] at ended
      rcases ended with rfl | rfl
      · exact absurd split (carriage more)
      · exact absurd split (feed more)

theorem firstAwaiting_argument {c : Char} {more : List Char}
    (split : source.dropWhile isLabel = c :: more) (inside : isLineEnd c = false)
    (nonempty : rest ≠ []) : firstAwaiting source rest = .argument := by
  unfold firstAwaiting
  rw [split]
  split
  · next empty => cases empty
  · next same => cases same; cases inside
  · next same => cases same; cases inside
  · rw [if_neg (by simpa using nonempty)]

/-- After a label the content begins with the first character that is no gap. -/
theorem argumentBegins_label {text : List Char} (labels : ∀ c ∈ text, isLabel c = true)
    (stops : Stops isGap rest) (line : Stops isLineEnd rest) (outer : List Stage) :
    ∃ stage, ArgumentBegins (firstAwaiting (text ++ ':' :: (gap ++ rest)) rest)
      (.content :: outer) outer stage rest := by
  have colon : (text ++ ':' :: (gap ++ rest)).dropWhile isLabel = ':' :: (gap ++ rest) :=
    dropWhile_run labels (by simp [isLabel])
  cases rest with
  | nil =>
    have awaiting : firstAwaiting (text ++ ':' :: (gap ++ [])) [] = .content := by
      rw [firstAwaiting, colon]
      rfl
    rw [awaiting]
    refine ⟨.content, Leads.nil _, rfl, ⟨rfl, rfl, fun _ _ _ => Stuck.at_end rfl rfl outer⟩, ?_⟩
    intro inner split
    cases split
  | cons c more =>
    rw [firstAwaiting_argument colon rfl (List.cons_ne_nil c more)]
    rw [stops_cons] at stops line
    cases inside : isArgumentText c with
    | false =>
      refine ⟨.content, ?_, rfl, ⟨rfl, rfl, ?_⟩, fun _ _ => rfl⟩
      · rw [List.takeWhile_cons_of_neg (by simp [inside])]
        exact Leads.nil _
      · rw [List.dropWhile_cons_of_neg (by simp [inside])]
        intro bars closes opens
        rcases cases_not_isArgumentText inside with rfl | rfl | rfl | ends
        · exact absurd rfl (opens more)
        · exact absurd rfl (closes more)
        · exact absurd rfl (bars more)
        · cases line.symm.trans ends
    | true =>
      refine ⟨.argument, ?_, rfl,
        argumentEnds_argument outer (stops_dropWhile isArgumentText (c :: more)), fun _ _ => rfl⟩
      rw [List.takeWhile_cons_of_pos inside]
      have first : advance? c (.content :: outer) = some (.argument :: outer) := by
        apply advance?_of_afterChar? (isTopText_of_isArgumentText inside)
        simp only [isLineEnd, Bool.or_eq_false_iff, beq_eq_false_iff_ne] at line
        rw [Stage.afterChar?, if_neg (by simp [stops]), if_neg line.2, if_neg line.1]
      exact Leads.cons first ((loops_argument outer).leads accept_of_mem_takeWhile)

theorem isArgumentText_of_isLabel {c : Char} (inside : isLabel c = true) :
    isArgumentText c = true := by
  simp only [isLabel, Bool.and_eq_true] at inside
  simp [isArgumentText, inside]

theorem Stage.afterChar?_lineEnd {run : List Char} {c : Char} (ends : isLineEnd c = true)
    (unbroken : mayBreak run = false) : (Stage.opening run).afterChar? c = none := by
  have blocked : ¬ mayBreak run = true := by simp [unbroken]
  simp only [isLineEnd, Bool.or_eq_true, beq_iff_eq] at ends
  rcases ends with rfl | rfl
  · rw [afterChar?, if_neg (by decide), if_neg (by decide), if_neg (by decide), if_neg blocked]
  · rw [afterChar?, if_neg (by decide), if_neg (by decide), if_neg (by decide), if_neg blocked]

variable {run label after : List Char}

/-- Without a label the content begins with the brace. Its first text is the run that a label would
have. -/
theorem argumentBegins_run (runs : ∀ c ∈ run, isLabel c = true)
    (labels : ∀ c ∈ label, isLabel c = true) (ends : Stops isArgumentText after)
    (line : mayBreak (run ++ label) = true → Stops isLineEnd after) (outer : List Stage) :
    ArgumentBegins (firstAwaiting (run ++ (label ++ after)) (label ++ after))
      (.opening run :: outer) outer (.opening (run ++ label)) (label ++ after) := by
  have all : ∀ c ∈ run ++ label, isLabel c = true := by
    intro c member
    exact (List.mem_append.1 member).elim (runs c) (labels c)
  have stops : Stops isLabel after := ends.mono (fun _ => isArgumentText_of_isLabel)
  have taken : (run ++ (label ++ after)).takeWhile isLabel = run ++ label := by
    rw [← List.append_assoc]
    exact takeWhile_run all stops
  have left : (run ++ (label ++ after)).dropWhile isLabel = after := by
    rw [← List.append_assoc]
    exact dropWhile_run all stops
  have texts : ∀ c ∈ label, isArgumentText c = true :=
    fun c member => isArgumentText_of_isLabel (labels c member)
  have first : (label ++ after).takeWhile isArgumentText = label := takeWhile_run texts ends
  have second : (label ++ after).dropWhile isArgumentText = after := dropWhile_run texts ends
  refine ⟨?_, rfl, ⟨rfl, rfl, ?_⟩, ?_⟩
  · rw [first]
    exact leads_labels run labels
  · rw [second]
    intro bars closes opens
    have lineEnd : ∀ c more, after = c :: more → isLineEnd c = true := by
      intro c more here
      have outside := (stops_cons _ c more).1 (here ▸ ends)
      rcases cases_not_isArgumentText outside with rfl | rfl | rfl | ended
      · exact absurd here (opens more)
      · exact absurd here (closes more)
      · exact absurd here (bars more)
      · exact ended
    rw [firstAwaiting_opening (left.symm ▸ lineEnd), taken]
    apply Stuck.at_of_lineEnd ends rfl bars closes opens
    intro c more here ended
    apply Stage.afterChar?_lineEnd ended
    cases breaks : mayBreak (run ++ label) with
    | false => rfl
    | true =>
      have outside := (stops_cons _ c more).1 (here ▸ line breaks)
      cases outside.symm.trans ended
  · rw [second]
    intro inner here
    exact firstAwaiting_argument (left.trans here) rfl (by simp [here])

/-- A colon that ends no label stands right after the brace, and is text. -/
theorem argumentBegins_colon (more : List Char) (outer : List Stage) :
    ArgumentBegins (firstAwaiting (':' :: more) (':' :: more)) (.opening [] :: outer) outer
      .argument (':' :: more) := by
  have colon : (':' :: more).dropWhile isLabel = ':' :: more :=
    List.dropWhile_cons_of_neg (by decide)
  have first : advance? ':' (.opening [] :: outer) = some (.argument :: outer) := rfl
  rw [firstAwaiting_argument colon rfl (List.cons_ne_nil ':' more)]
  refine ⟨?_, rfl, argumentEnds_argument outer (stops_dropWhile isArgumentText (':' :: more)),
    fun _ _ => rfl⟩
  rw [List.takeWhile_cons_of_pos rfl]
  exact Leads.cons first ((loops_argument outer).leads accept_of_mem_takeWhile)

theorem exists_argumentBegins_unlabelled (runs : ∀ c ∈ run, isLabel c = true)
    (labels : ∀ c ∈ label, isLabel c = true) (stops : Stops isLabel after)
    (unlabelled : ¬ Labelled (run ++ (label ++ after)))
    (line : mayBreak (run ++ label) = true → Stops isLineEnd after) (outer : List Stage) :
    ∃ stage, ArgumentBegins (firstAwaiting (run ++ (label ++ after)) (label ++ after))
      (.opening run :: outer) outer stage (label ++ after) := by
  by_cases colon : ∃ more, after = ':' :: more
  · obtain ⟨more, rfl⟩ := colon
    have empty : run ++ label = [] := by
      apply Classical.byContradiction
      intro nonempty
      apply unlabelled
      refine ⟨run ++ label, more, nonempty, ?_, by rw [List.append_assoc]⟩
      intro c member
      exact (List.mem_append.1 member).elim (runs c) (labels c)
    obtain ⟨rfl, rfl⟩ := List.append_eq_nil_iff.1 empty
    exact ⟨.argument, argumentBegins_colon more outer⟩
  · have ends : Stops isArgumentText after := by
      intro c head
      obtain ⟨more, rfl⟩ := List.head?_eq_some_iff.1 head
      have outside := stops c rfl
      have other : c ≠ ':' := fun same => colon ⟨more, by rw [same]⟩
      cases inside : isArgumentText c with
      | false => rfl
      | true =>
        simp only [isArgumentText, Bool.and_eq_true, bne_iff_ne, ne_eq] at inside
        simp [isLabel, inside, other] at outside
    exact ⟨_, argumentBegins_run runs labels ends line outer⟩

/-- If a line break could follow the run after an unlabelled opening, then that run is a gap. -/
theorem Opening.Fits.gaps_of_mayBreak (fits : value.Fits (run ++ after))
    (unlabelled : ∀ text gap, value ≠ .label text gap)
    (breaks : mayBreak (value.spell ++ run) = true) : ∀ c ∈ run, isGap c = true := by
  cases value with
  | bare =>
    have unsigned : Stops isSign run := fits.2.of_append
    rw [spell, List.nil_append] at breaks
    cases run with
    | nil =>
      intro c member
      cases member
    | cons first others =>
      rw [stops_cons, isSign] at unsigned
      simp only [mayBreak, unsigned, Bool.or_false, Bool.and_eq_true, List.all_eq_true] at breaks
      intro c member
      rcases List.mem_cons.1 member with rfl | member
      · exact breaks.1
      · exact breaks.2 c member
  | sign sign gap =>
    rw [spell, List.cons_append, mayBreak, Bool.and_eq_true, List.all_eq_true] at breaks
    intro c member
    exact breaks.2 c (List.mem_append_right gap member)
  | label text gap => exact absurd rfl (unlabelled text gap)

/-- If no line break follows the opening and its gap, an argument does. -/
theorem Opening.Fits.exists_argumentBegins (fits : value.Fits rest)
    (line : Stops isLineEnd (rest.dropWhile isGap)) (outer : List Stage) :
    ∃ stage, ArgumentBegins (firstAwaiting (value.spell ++ rest) rest) (value.stage :: outer) outer
      stage rest := by
  obtain ⟨label, after, rfl, labels, stops⟩ := exists_run isLabel rest
  have outside (unlabelled : ∀ text gap, value ≠ .label text gap)
      (breaks : mayBreak (value.spell ++ label) = true) : Stops isLineEnd after := by
    have gaps := fits.gaps_of_mayBreak unlabelled breaks
    have ends : Stops isGap after := stops.mono (fun _ => isLabel_of_isGap)
    rwa [dropWhile_run gaps ends] at line
  cases value with
  | bare =>
    exact exists_argumentBegins_unlabelled (List.forall_mem_nil _) labels stops fits.1
      (outside (by simp)) outer
  | sign sign gap =>
    exact exists_argumentBegins_unlabelled (isLabel_sign_gap sign fits.1) labels stops fits.2.2
      (outside (by simp)) outer
  | label text gap =>
    obtain ⟨-, texts, gaps, begun⟩ := fits
    rw [dropWhile_of_stops begun] at line
    rw [spell, List.append_assoc, List.cons_append]
    exact argumentBegins_label texts begun line outer

theorem stops_isLineEnd {text : List Char} (carriage : ∀ more, text ≠ '\r' :: more)
    (feed : ∀ more, text ≠ '\n' :: more) : Stops isLineEnd text := by
  intro c first
  obtain ⟨after, split⟩ := List.head?_eq_some_iff.1 first
  simp only [isLineEnd, Bool.or_eq_false_iff, beq_eq_false_iff_ne]
  exact ⟨fun same => carriage after (same ▸ split), fun same => feed after (same ▸ split)⟩

/-! ### Embeds and whole texts -/

variable {depth : Nat} {embed : EmbedReader}

/-- The opening that is read and the gap behind it lead to a stage after which a line break may
come. -/
theorem exists_head (source : List Char) (outer : List Stage) :
    ∃ head left, source = head ++ (opening source).rest.dropWhile isGap ∧
      Leads head (.opening [] :: outer) (left :: outer) ∧ left.Breaks := by
  obtain ⟨whole, fits⟩ := opening_spec source
  have gaps : ∀ c ∈ (opening source).rest.takeWhile isGap, isGap c = true := accept_of_mem_takeWhile
  obtain ⟨left, behind, breaks⟩ := fits.exists_breaks gaps outer
  refine ⟨(opening source).value.spell ++ (opening source).rest.takeWhile isGap, left, ?_,
    (fits.leads outer).append behind, breaks⟩
  rw [List.append_assoc, List.takeWhile_append_dropWhile]
  exact whole

theorem Stuck.at_lineFeed (outer : List Stage) (unfed : ∀ more, rest ≠ '\n' :: more) :
    Stuck.At ⟨rest, .lineFeed⟩ (.lineFeed :: outer) := by
  refine ⟨rfl, ?_, fun _ => List.cons_ne_nil _ _⟩
  intro c more here
  dsimp only at here
  have other : c ≠ '\n' := by
    intro same
    exact unfed more (by rw [here, same])
  rw [advance?]
  simp [Stage.afterEmbed?, Stage.mayClose, Stage.afterChar?, other]

theorem Follows.embedWith (follows : Follows depth embed) :
    Follows (depth + 1) (Written.embedWith embed) := by
  intro outer source shallow
  have shallow : peak (outer.length + 1) source ≤ outer.length + 1 + depth := by omega
  obtain ⟨head, left, line, front, breaks⟩ := exists_head source outer
  rw [Written.embedWith]
  split
  · next below split =>
    have before := front.append (breaks.leads false)
    have all : source = head ++ lineBreak false ++ below := by
      rw [split] at line
      rw [List.append_assoc]
      exact line
    have block := follows.block false ((opening source).rest.takeWhile isGap) (opening source).value
      (before.shallow all shallow)
    exact block.prepend all before (by split <;> next found => rw [found]; rfl)
  · next below split =>
    have before := front.append (breaks.leads true)
    have all : source = head ++ lineBreak true ++ below := by
      rw [split] at line
      rw [List.append_assoc]
      exact line
    have block := follows.block true ((opening source).rest.takeWhile isGap) (opening source).value
      (before.shallow all shallow)
    exact block.prepend all before (by split <;> next found => rw [found]; rfl)
  · next rest unfed split =>
    -- The carriage return is read, and a line feed is the only way on.
    have carriage : Leads ['\r'] (left :: outer) (.lineFeed :: outer) :=
      Leads.cons (advance?_of_afterChar? rfl breaks.2) (Leads.nil _)
    apply (Stuck.at_lineFeed outer unfed).halts.prepend _ (front.append carriage)
    rw [List.append_assoc, List.singleton_append, ← split]
    exact line
  · next feed pair carriage =>
    have stops := stops_isLineEnd carriage feed
    obtain ⟨whole, fits⟩ := opening_spec source
    obtain ⟨stage, begins⟩ := fits.exists_argumentBegins stops outer
    rw [← whole] at begins
    have before := fits.leads outer
    have arguments := follows.arguments begins (before.shallow whole shallow)
    exact arguments.prepend whole before (by split <;> next found => rw [found]; rfl)

/-- Reading embeds goes the way of the machine as deep as it reads. -/
theorem follows_embed (depth : Nat) : Follows depth (Written.embed depth) := by
  induction depth with
  | zero =>
    intro outer inner shallow
    have opened := le_peak (outer.length + 1) inner
    omega
  | succ depth ih => exact ih.embedWith

/-- A text that is not too deep is read if the machine takes it and closes all its embeds.
Otherwise reading stops with the machine. -/
theorem read_cases (shallow : peak 0 source ≤ depth) :
    (∃ pieces, read depth source = .ok pieces) ∧ Leads source [] [] ∨
      ∃ stuck, read depth source = .error stuck ∧ Halts source [] stuck := by
  have pieces := (follows_embed depth).pieces loops_top source
    (loops_top.leads accept_of_mem_takeWhile) rfl (by simpa using shallow)
  cases taken : Written.pieces isTopText (Written.embed depth) source with
  | error stuck =>
    rw [taken] at pieces
    exact Or.inr ⟨stuck, by rw [read, taken], pieces⟩
  | ok found =>
    rw [taken] at pieces
    obtain ⟨front, last, consumed, leads, unopened, stops, place⟩ := pieces
    have closed : last = [] := by
      rcases place with ⟨same, -⟩ | ⟨same, -⟩ <;> exact same
    subst closed
    cases behind : found.rest with
    | nil =>
      rw [behind, List.append_nil] at consumed
      subst consumed
      exact Or.inl ⟨⟨found.value, by rw [read, taken]; simp [behind]⟩, leads⟩
    | cons c more =>
      rw [behind] at consumed unopened stops
      refine Or.inr ⟨⟨c :: more, .piece⟩, by rw [read, taken]; simp [behind], front, [], consumed,
        leads, rfl, ?_, by simp⟩
      intro d others same
      cases same
      have outside := (stops_cons _ c more).1 stops
      simp only [isTopText, Bool.and_eq_false_iff, bne_eq_false_iff_eq] at outside
      rcases outside with rfl | rfl
      · exact absurd rfl (unopened more)
      · rfl

end Narrative.Written
