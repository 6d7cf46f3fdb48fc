import Narrative.Proofs.Display
import Narrative.Proofs.Language
import Narrative.Proofs.Viability

/-!
What a syntax error expects. Each thing that a stopped reader waits for is compared with the steps
of the stack machine at its stage, once in each direction. Main statement: the list of an error is
exact, so whatever is listed can come, and nothing else can.
-/

set_option autoImplicit false

namespace Narrative

open Written (Awaiting Leads Sign Stage advance? advance?_argument advance?_entry advance?_label
  advance?_of_afterChar? advance?_space advance?_top follows_embed isGap isLabel isSpace isTopText
  leads_cons_iff leads_label leads_labels leads_run lineBreak)

/-- The texts that an expected item stands for. -/
inductive Expected.Instance : Expected → List Char → Prop
  | char (c : Char) : Instance (.char c) [c]
  | text {c : Char} (plain : isTopText c = true) : Instance .text [c]
  | directive {text : List Char} (embed : IsEmbed text) : Instance .directive text
  | branch : Instance .branch ['-']
  | condition {guard : List Char} (nonempty : guard ≠ [])
    (labels : ∀ c ∈ guard, isLabel c = true) : Instance .condition (guard ++ [':'])
  | marker (kind : Discipline) : Instance .sequenceType kind.marker.toList
  | sign (sign : Sign) : Instance .sequenceType [sign.char]
  | newline (carriage : Bool) : Instance .newline (lineBreak carriage)

/-- What an expected item says of the text before it. The end may come only if that text is a
source text. Anything else must go on as some source text does: every instance of it must, but for
text, of which some character must. -/
structure Expected.CanFollow (next : Expected) (front : List Char) : Prop where
  ends : next = .endOfInput → Parses front
  some : next ≠ .endOfInput → ∃ text, next.Instance text ∧ Viable (front ++ text)
  every : next ≠ .text → ∀ text, next.Instance text → Viable (front ++ text)

/-! ### Items and the machine -/

/-- What an expected item says of the stack of the machine. -/
def Expected.Passes (stack : List Stage) : Expected → Prop
  | .endOfInput => stack = []
  | .text => ∃ c, isTopText c = true ∧ ∃ next, advance? c stack = some next
  | next => ∀ text, next.Instance text → ∃ last, Leads text stack last

variable {front text : List Char} {stack last left outer : List Stage} {stage : Stage}

theorem Expected.exists_instance {next : Expected} (more : next ≠ .endOfInput) :
    ∃ text, next.Instance text := by
  cases next with
  | char c => exact ⟨[c], .char c⟩
  | text => exact ⟨['a'], .text rfl⟩
  | directive => exact ⟨_, .directive (.inline .nil)⟩
  | branch => exact ⟨['-'], .branch⟩
  | condition => exact ⟨_, .condition (List.cons_ne_nil 'a' []) (List.all_eq_true.1 rfl)⟩
  | sequenceType => exact ⟨_, .sign .tilde⟩
  | newline => exact ⟨_, .newline false⟩
  | endOfInput => exact absurd rfl more

theorem Expected.Passes.canFollow {next : Expected} (passes : next.Passes last)
    (leads : Leads front [] last) : next.CanFollow front := by
  have single {next : Expected}
      (every : ∀ text, next.Instance text → ∃ final, Leads text last final)
      (more : next ≠ .endOfInput) : next.CanFollow front := by
    refine ⟨fun same => absurd same more, fun _ => ?_, fun _ text found => ?_⟩
    · obtain ⟨text, found⟩ := Expected.exists_instance more
      exact ⟨text, found, (viable_append_iff leads).2 (every text found)⟩
    · exact (viable_append_iff leads).2 (every text found)
  cases next with
  | endOfInput =>
    obtain rfl : last = [] := passes
    refine ⟨fun _ => parses_iff_leads.2 leads, fun more => absurd rfl more, fun _ text found => ?_⟩
    cases found
  | text =>
    obtain ⟨c, plain, next, stepped⟩ := passes
    refine ⟨fun same => ?_, fun _ => ⟨[c], .text plain, ?_⟩, fun other => absurd rfl other⟩
    · cases same
    · exact (viable_append_iff leads).2 ⟨next, Leads.cons stepped (Leads.nil next)⟩
  | _ => exact single passes (by simp)

/-- An embed leads over itself where its brace may open. -/
theorem IsEmbed.leads (embed : IsEmbed text)
    (opens : advance? '{' stack = some (.opening [] :: left)) : Leads text stack left := by
  obtain ⟨inner, rfl⟩ := embed.eq_cons
  -- A reader that is deep enough for the length of the text reads it, and is followed.
  let depth := inner.length + 1 + peak (left.length + 1) inner
  obtain ⟨value, taken, read, -, behind⟩ := Written.accepts_embed depth inner [] embed (by omega)
  have follows := follows_embed depth left (inner ++ []) (by rw [List.append_nil]; omega)
  rw [read] at follows
  obtain ⟨front, last, consumed, leads, rfl⟩ := follows
  rw [behind, List.append_nil, List.append_nil] at consumed
  rw [consumed]
  exact Leads.cons opens leads

theorem passes_char {c : Char} {next : List Stage} (stepped : advance? c stack = some next) :
    (Expected.char c).Passes stack := by
  intro text found
  cases found
  exact ⟨next, Leads.cons stepped (Leads.nil next)⟩

theorem passes_text {c : Char} {next : List Stage} (plain : isTopText c = true)
    (stepped : advance? c stack = some next) : Expected.text.Passes stack :=
  ⟨c, plain, next, stepped⟩

theorem passes_directive (opens : advance? '{' stack = some (.opening [] :: left)) :
    Expected.directive.Passes stack := by
  intro text found
  cases found with
  | directive embed => exact ⟨left, embed.leads opens⟩

theorem passes_branch {next : List Stage} (stepped : advance? '-' stack = some next) :
    Expected.branch.Passes stack := by
  intro text found
  cases found
  exact ⟨next, Leads.cons stepped (Leads.nil next)⟩

theorem passes_newline (breaks : stage.Breaks) : Expected.newline.Passes (stage :: outer) := by
  intro text found
  cases found with
  | newline carriage => exact ⟨_, breaks.leads carriage⟩

/-! ### Each stage -/

/-- What may follow an argument passes where a bar, an embed and the closing brace may come. -/
theorem passes_afterArgument {c : Char} {next : List Stage} (plain : isTopText c = true)
    (stepped : advance? c (stage :: outer) = some next)
    (bar : stage.afterChar? '|' = some .argument) (embed : stage.afterEmbed? = some .argument)
    (closes : stage.mayClose = true) :
    ∀ next ∈ Written.afterArgument, next.Passes (stage :: outer) := by
  intro next member
  simp only [Written.afterArgument, List.mem_cons, List.not_mem_nil, or_false] at member
  rcases member with rfl | rfl | rfl | rfl
  · exact passes_char (advance?_of_afterChar? rfl bar)
  · exact passes_char (show advance? '}' (stage :: outer) = some outer by simp [advance?, closes])
  · exact passes_directive (show advance? '{' (stage :: outer) =
      some (.opening [] :: .argument :: outer) by simp [advance?, embed])
  · exact passes_text plain stepped

theorem passes_spaces (still : ∀ c, isSpace c = true → advance? c stack = some stack) :
    ∀ next ∈ Written.spaces, next.Passes stack := by
  intro next member
  simp only [Written.spaces, List.mem_cons, List.not_mem_nil, or_false] at member
  rcases member with rfl | rfl | rfl | rfl
  all_goals exact passes_char (still _ rfl)

theorem passes_afterEntry (outer : List Stage) :
    ∀ next ∈ Written.afterEntry, next.Passes (.entry :: outer) := by
  intro next member
  simp only [Written.afterEntry, List.mem_append, List.mem_cons, List.not_mem_nil,
    or_false] at member
  rcases member with member | rfl | rfl | rfl | rfl
  · exact passes_spaces (fun c space => advance?_entry (Written.isTopText_of_isSpace space)) next
      member
  · exact passes_char rfl
  · exact passes_branch (advance?_entry rfl)
  · exact passes_directive rfl
  · exact passes_text rfl (@advance?_entry 'a' outer rfl)

theorem passes_colonIf (labelOpen : Bool) (outer : List Stage) :
    ∀ next ∈ Written.colonIf labelOpen, next.Passes (.entry :: outer) := by
  intro next member
  cases labelOpen with
  | false => cases member
  | true =>
    cases List.mem_singleton.1 member
    exact passes_char (advance?_entry rfl)

theorem passes_condition_entry (outer : List Stage) :
    Expected.condition.Passes (.entry :: outer) := by
  intro text found
  cases found with
  | @condition guard nonempty labels =>
    refine ⟨_, leads_run (fun c member => advance?_entry ?_)⟩
    rcases List.mem_append.1 member with member | member
    · exact Written.isTopText_of_isLabel (labels c member)
    · cases List.mem_singleton.1 member
      rfl

theorem passes_condition_opening (outer : List Stage) :
    Expected.condition.Passes (.opening [] :: outer) := by
  intro text found
  cases found with
  | condition nonempty labels =>
    exact ⟨_, leads_label nonempty labels (List.forall_mem_nil _)⟩

/-- A marker that is spelled out is a label with its colon. -/
theorem Discipline.toList_marker (kind : Discipline) :
    kind.marker.toList = kind.word.toList ++ [':'] := by
  rw [marker, String.toList_append]
  rfl

theorem passes_sequenceType (outer : List Stage) :
    Expected.sequenceType.Passes (.opening [] :: outer) := by
  intro text found
  cases found with
  | marker kind =>
    obtain ⟨nonempty, labels⟩ := kind.isLabel_word
    rw [kind.toList_marker]
    exact ⟨_, leads_label nonempty labels (List.forall_mem_nil _)⟩
  | sign sign =>
    have label : isLabel sign.char = true := by cases sign <;> rfl
    exact ⟨_, leads_labels [] (by simpa using label)⟩

theorem passes_colon_opening (run : List Char) (outer : List Stage) :
    (Expected.char ':').Passes (.opening run :: outer) := by
  have stepped : advance? ':' (.opening run :: outer) =
      some ((if run.isEmpty then .argument else .content) :: outer) := by
    apply advance?_of_afterChar? rfl
    rw [Stage.afterChar?, if_neg (by decide), if_pos rfl]
  exact passes_char stepped

/-- The next character of a marker continues a label or ends it. -/
theorem passes_markerContinuations (run : List Char) (outer : List Stage) :
    ∀ next ∈ Written.markerContinuations run, next.Passes (.opening run :: outer) := by
  intro next member
  obtain ⟨kind, -, found⟩ := List.mem_filterMap.1 member
  dsimp only at found
  split at found
  · obtain ⟨c, head, rfl⟩ := Option.map_eq_some_iff.1 found
    have inside : c ∈ kind.marker.toList :=
      List.mem_of_mem_drop (List.mem_of_mem_head? head)
    rw [kind.toList_marker] at inside
    rcases List.mem_append.1 inside with inside | inside
    · exact passes_char (advance?_label run (kind.isLabel_word.2 c inside))
    · cases List.mem_singleton.1 inside
      exact passes_colon_opening run outer
  · cases found

theorem passes_opening (run : List Char) (outer : List Stage) :
    ∀ next ∈ (Awaiting.opening run).expected, next.Passes (.opening run :: outer) := by
  intro next member
  simp only [Awaiting.expected, List.mem_append] at member
  rcases member with (member | member) | member
  · have letter : advance? 'a' (.opening run :: outer) = some (.opening (run ++ ['a']) :: outer) :=
      advance?_label run rfl
    exact passes_afterArgument rfl letter rfl rfl rfl next member
  · split at member
    · next empty =>
      obtain rfl : run = [] := List.isEmpty_iff.1 empty
      simp only [List.mem_cons, List.not_mem_nil, or_false] at member
      rcases member with rfl | rfl
      · exact passes_condition_opening outer
      · exact passes_sequenceType outer
    · rcases List.mem_cons.1 member with rfl | member
      · exact passes_colon_opening run outer
      · exact passes_markerContinuations run outer next member
  · split at member
    · next breaks =>
      simp only [List.mem_cons, List.not_mem_nil, or_false] at member
      rcases member with rfl | rfl | rfl
      · exact passes_char (advance?_label run rfl)
      · exact passes_char (advance?_label run rfl)
      · exact passes_newline (Stage.breaks_opening breaks)
    · cases member

theorem passes_content (outer : List Stage) :
    ∀ next ∈ Awaiting.content.expected, next.Passes (.content :: outer) := by
  intro next member
  simp only [Awaiting.expected, List.mem_append, List.mem_cons, List.not_mem_nil,
    or_false] at member
  rcases member with (rfl | rfl | rfl) | member
  · exact passes_char rfl
  · exact passes_char rfl
  · exact passes_newline Stage.breaks_content
  · have letter : advance? 'a' (.content :: outer) = some (.argument :: outer) := rfl
    exact passes_afterArgument rfl letter rfl rfl rfl next member

/-- Whatever a reader waits for can come at its stage. -/
theorem Written.Awaiting.passes {awaiting : Awaiting} (place : stack.head? = awaiting.stage?) :
    ∀ next ∈ awaiting.expected, next.Passes stack := by
  intro next member
  cases awaiting with
  | piece =>
    obtain rfl : stack = [] := List.head?_eq_none_iff.1 place
    simp only [expected, List.mem_cons, List.not_mem_nil, or_false] at member
    rcases member with rfl | rfl | rfl
    · exact passes_directive rfl
    · exact rfl
    · exact passes_text rfl (@advance?_top 'a' rfl)
  | opening run =>
    obtain ⟨outer, rfl⟩ := List.head?_eq_some_iff.1 place
    exact passes_opening run outer next member
  | content =>
    obtain ⟨outer, rfl⟩ := List.head?_eq_some_iff.1 place
    exact passes_content outer next member
  | lineFeed =>
    obtain ⟨outer, rfl⟩ := List.head?_eq_some_iff.1 place
    cases List.mem_singleton.1 member
    exact passes_char rfl
  | argument =>
    obtain ⟨outer, rfl⟩ := List.head?_eq_some_iff.1 place
    exact passes_afterArgument rfl (@advance?_argument 'a' outer rfl) rfl rfl rfl next member
  | dash =>
    obtain ⟨outer, rfl⟩ := List.head?_eq_some_iff.1 place
    rcases List.mem_append.1 member with member | member
    · exact passes_spaces (fun c space => advance?_space space) next member
    · cases List.mem_singleton.1 member
      exact passes_branch rfl
  | entry labelOpen =>
    obtain ⟨outer, rfl⟩ := List.head?_eq_some_iff.1 place
    rcases List.mem_append.1 member with member | member
    · exact passes_afterEntry outer next member
    · rcases List.mem_cons.1 member with rfl | member
      · exact passes_condition_entry outer
      · exact passes_colonIf labelOpen outer next member
  | entryContent labelOpen =>
    obtain ⟨outer, rfl⟩ := List.head?_eq_some_iff.1 place
    rcases List.mem_append.1 member with member | member
    · exact passes_afterEntry outer next member
    · exact passes_colonIf labelOpen outer next member

theorem eq_of_advance?_lineFeed {c : Char} {next : List Stage}
    (stepped : advance? c (.lineFeed :: outer) = some next) : c = '\n' := by
  simp only [advance?, Stage.afterEmbed?, Stage.mayClose, Stage.afterChar?] at stepped
  grind

theorem cases_of_advance?_dash {c : Char} {next : List Stage}
    (stepped : advance? c (.dash :: outer) = some next) : isSpace c = true ∨ c = '-' := by
  simp only [advance?, Stage.afterEmbed?, Stage.mayClose, Stage.afterChar?] at stepped
  grind

/-- A character begins an instance of an expected item. -/
def Covered (expected : List Expected) (c : Char) : Prop :=
  ∃ next ∈ expected, ∃ text, next.Instance (c :: text)

/-- Text and embeds cover all but the closing brace. -/
theorem covered_of_text {expected : List Expected} {c : Char}
    (within : .directive ∈ expected ∧ .text ∈ expected)
    (closes : c = '}' → .char '}' ∈ expected) : Covered expected c := by
  by_cases opens : c = '{'
  · subst opens
    exact ⟨_, within.1, ['}'], .directive (.inline .nil)⟩
  · by_cases close : c = '}'
    · subst close
      exact ⟨_, closes rfl, [], .char '}'⟩
    · exact ⟨_, within.2, [], .text (by simp [isTopText, opens, close])⟩

/-- Whatever character can come at the stage of a reader, the reader waits for it. -/
theorem Written.Awaiting.covered {awaiting : Awaiting} {c : Char} {next : List Stage}
    (place : stack.head? = awaiting.stage?) (stepped : advance? c stack = some next) :
    Covered awaiting.expected c := by
  have closing : .char '}' ∈ afterArgument ∧ .char '}' ∈ afterEntry := by decide
  have within : .directive ∈ afterArgument ∧ .text ∈ afterArgument := by decide
  have entered : .directive ∈ afterEntry ∧ .text ∈ afterEntry := by decide
  cases awaiting with
  | piece =>
    obtain rfl : stack = [] := List.head?_eq_none_iff.1 place
    apply covered_of_text (by decide)
    intro close
    subst close
    cases stepped
  | opening run =>
    apply covered_of_text
    · simp [expected, within]
    · simp [expected, closing]
  | content =>
    apply covered_of_text
    · simp [expected, within]
    · simp [expected, closing]
  | argument => exact covered_of_text within (fun _ => closing.1)
  | entry labelOpen =>
    apply covered_of_text
    · simp [expected, entered]
    · simp [expected, closing]
  | entryContent labelOpen =>
    apply covered_of_text
    · simp [expected, entered]
    · simp [expected, closing]
  | lineFeed =>
    obtain ⟨outer, rfl⟩ := List.head?_eq_some_iff.1 place
    cases eq_of_advance?_lineFeed stepped
    exact ⟨_, List.mem_singleton_self _, [], .char '\n'⟩
  | dash =>
    obtain ⟨outer, rfl⟩ := List.head?_eq_some_iff.1 place
    rcases cases_of_advance?_dash stepped with space | rfl
    · simp only [isSpace, isGap, Bool.or_eq_true, beq_iff_eq] at space
      rcases space with ((rfl | rfl) | rfl) | rfl
      all_goals exact ⟨.char _, by simp [expected, spaces], [], .char _⟩
    · exact ⟨.branch, by simp [expected], [], .branch⟩

/-! ### Errors -/

/-- The listed items are what can follow a text: each is displayed for something that can, and each
character that can follow begins something that is listed. -/
structure ExactAt (front : List Char) (listed : List String) : Prop where
  displayed : ∀ item ∈ listed, ∃ next : Expected, next.display = item
  sound : ∀ next : Expected, next.display ∈ listed → next.CanFollow front
  complete : ∀ c, Viable (front ++ [c]) →
    ∃ next : Expected, next.display ∈ listed ∧ ∃ text, next.Instance (c :: text)

/-- What a syntax error lists is exactly what can follow the text before it. -/
theorem Document.exactAt_of_parse_error {options : ParseOptions} {source : String}
    {error : SyntaxError}
    (shallow : (Nesting.ofSource source.toList).depth ≤ options.maxDepth)
    (failed : Document.parse options source = .error error) :
    ∃ front, front <+: source.toList ∧ byteLength front = error.position.offset ∧
      ExactAt front error.expected := by
  obtain ⟨front, stuck, last, split, leads, here, rfl⟩ := exists_halt_of_parse_error shallow failed
  rw [split]
  refine ⟨front, List.prefix_append front stuck.rest,
    (SyntaxError.ofStuck_offset front stuck).symm, ?_, ?_, ?_⟩
  · intro item listed
    obtain ⟨next, -, shown⟩ := SyntaxError.mem_expected_ofStuck.1 listed
    exact ⟨next, shown⟩
  · intro next listed
    have member := SyntaxError.display_mem_expected_ofStuck.1 listed
    exact (Awaiting.passes here.stage next member).canFollow leads
  · intro c viable
    obtain ⟨final, taken⟩ := (viable_append_iff leads).1 viable
    obtain ⟨middle, stepped, -⟩ := leads_cons_iff.1 taken
    obtain ⟨next, member, text, found⟩ := Awaiting.covered here.stage stepped
    exact ⟨next, SyntaxError.display_mem_expected_ofStuck.2 member, text, found⟩

/-- An embed that has only begun, with the first letters of a marker. -/
def openSource : String := "é\x7bsh"

theorem Document.exactAt_of_parse_error_open :
    ∃ error, Document.parse { document := "d" } openSource = .error error ∧
      error.position.offset = 5 ∧ ∃ front, front <+: openSource.toList ∧ byteLength front = 5 ∧
        ExactAt front error.expected := by
  have place : (match Document.parse { document := "d" } openSource with
      | .error error => error.position.offset
      | .ok _ => 0) = 5 := by decide +kernel
  cases parsed : Document.parse { document := "d" } openSource with
  | ok document =>
    rw [parsed] at place
    cases place
  | error error =>
    rw [parsed] at place
    dsimp only at place
    have found := exactAt_of_parse_error (by decide +kernel) parsed
    rw [place] at found
    exact ⟨error, rfl, place, found⟩

end Narrative
