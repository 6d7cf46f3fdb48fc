import Narrative.Document.Parser
import Narrative.Proofs.Openings

/-!
Viable texts: those that can be completed to a source text. They are the texts that the stack
machine takes, so a reader that stops where the machine cannot go on has read as much of its source
as any source text has in common with it. Main statement: a syntax error stands there.
-/

set_option autoImplicit false

namespace Narrative

open Written (Leads Stage Stuck leads_append_iff leads_cons_iff)

/-- A source text that is parsed if embeds may nest deep enough. -/
def Parses (source : List Char) : Prop :=
  ∃ options document, Document.parse options (String.ofList source) = .ok document

/-- A text that some source text begins with. -/
def Viable (front : List Char) : Prop := ∃ back, Parses (front ++ back)

variable {source front rest : List Char} {stack last : List Stage} {stuck : Stuck}

/-- Where a reader stops, the rest of its source cannot close what is open. -/
theorem Written.Stuck.At.not_leads (here : stuck.At stack) : ¬ Leads stuck.rest stack [] := by
  intro leads
  cases split : stuck.rest with
  | nil =>
    rw [split] at leads
    cases leads
    exact here.opened split rfl
  | cons c more =>
    rw [split] at leads
    obtain ⟨next, stepped, -⟩ := leads_cons_iff.1 leads
    rw [here.blocked c more split] at stepped
    cases stepped

/-- What is parsed is what leads the machine back to where nothing is open. -/
theorem parses_iff_leads : Parses source ↔ Leads source [] [] := by
  constructor
  · intro parses
    obtain ⟨options, document, parsed⟩ := parses
    rw [Document.parse, String.toList_ofList] at parsed
    dsimp only at parsed
    split at parsed
    · cases parsed
    · next shallow =>
      rw [depth_ofSource, Nat.not_lt] at shallow
      rcases Written.read_cases shallow with ⟨-, leads⟩ | ⟨stuck, failed, -⟩
      · exact leads
      · rw [failed] at parsed
        cases parsed
  · intro leads
    refine ⟨{ document := "", maxDepth := peak 0 source }, ?_⟩
    rw [Document.parse, String.toList_ofList]
    dsimp only
    rw [depth_ofSource, if_neg (Nat.lt_irrefl _)]
    rcases Written.read_cases (Nat.le_refl (peak 0 source)) with ⟨⟨pieces, read⟩, -⟩ |
      ⟨stuck, -, halts⟩
    · rw [read]
      exact ⟨_, rfl⟩
    · obtain ⟨front, last, split, before, here⟩ := halts
      rw [split] at leads
      obtain ⟨middle, first, behind⟩ := leads_append_iff.1 leads
      cases before.symm.trans first
      exact absurd behind here.not_leads

/-- A text is viable if the machine takes it, as what is open can always be closed. -/
theorem viable_iff_leads : Viable front ↔ ∃ last, Leads front [] last := by
  constructor
  · intro viable
    obtain ⟨back, parses⟩ := viable
    obtain ⟨last, leads, -⟩ := leads_append_iff.1 (parses_iff_leads.1 parses)
    exact ⟨last, leads⟩
  · intro taken
    obtain ⟨last, leads⟩ := taken
    obtain ⟨back, closed⟩ := Written.exists_leads_nil last
    exact ⟨back, parses_iff_leads.2 (leads.append closed)⟩

/-- What may follow a text that the machine takes is what it takes from there. -/
theorem viable_append_iff (leads : Leads front [] last) :
    Viable (front ++ rest) ↔ ∃ next, Leads rest last next := by
  rw [viable_iff_leads]
  constructor
  · intro taken
    obtain ⟨next, whole⟩ := taken
    obtain ⟨middle, first, behind⟩ := leads_append_iff.1 whole
    cases leads.symm.trans first
    exact ⟨next, behind⟩
  · intro taken
    obtain ⟨next, behind⟩ := taken
    exact ⟨next, leads.append behind⟩

/-! ### Errors -/

/-- The longest text that a source begins with and that is viable. -/
structure LongestViable (source front : List Char) : Prop where
  isPrefix : front <+: source
  viable : Viable front
  longest : ∀ longer, longer <+: source → Viable longer → longer.length ≤ front.length

/-- Where a reader stops with the machine, the text before is the longest viable one. -/
theorem Written.Stuck.At.longestViable (here : stuck.At last) (leads : Leads front [] last) :
    LongestViable (front ++ stuck.rest) front := by
  refine ⟨List.prefix_append front stuck.rest, viable_iff_leads.2 ⟨last, leads⟩, ?_⟩
  intro longer start viable
  rcases List.prefix_or_prefix_of_prefix start (List.prefix_append front stuck.rest) with
    shorter | ⟨more, rfl⟩
  · exact shorter.length_le
  · cases more with
    | nil => exact Nat.le_of_eq (congrArg List.length (List.append_nil front))
    | cons c more =>
      obtain ⟨behind, split⟩ := (List.prefix_append_right_inj front).1 start
      obtain ⟨final, taken⟩ := (viable_append_iff leads).1 viable
      obtain ⟨next, stepped, -⟩ := leads_cons_iff.1 taken
      rw [here.blocked c (more ++ behind) split.symm] at stepped
      cases stepped

/-- A source that is not parsed, but for its depth, is one in which reading stops. -/
theorem Document.exists_stuck_of_parse_error {options : ParseOptions} {source : String}
    {error : SyntaxError}
    (shallow : (Nesting.ofSource source.toList).depth ≤ options.maxDepth)
    (failed : Document.parse options source = .error error) :
    ∃ stuck, Written.read options.maxDepth source.toList = .error stuck ∧
      Written.Halts source.toList [] stuck ∧ error = .ofStuck source.toList stuck := by
  rw [Document.parse] at failed
  dsimp only at failed
  rw [if_neg (Nat.not_lt.2 shallow)] at failed
  rw [depth_ofSource] at shallow
  rcases Written.read_cases shallow with ⟨⟨pieces, read⟩, -⟩ | ⟨stuck, read, halts⟩
  · rw [read] at failed
    cases failed
  · rw [read] at failed
    exact ⟨stuck, read, halts, (Except.error.inj failed).symm⟩

theorem Document.exists_halt_of_parse_error {options : ParseOptions} {source : String}
    {error : SyntaxError}
    (shallow : (Nesting.ofSource source.toList).depth ≤ options.maxDepth)
    (failed : Document.parse options source = .error error) :
    ∃ front stuck last, source.toList = front ++ stuck.rest ∧ Leads front [] last ∧
      stuck.At last ∧ error = .ofStuck source.toList stuck := by
  obtain ⟨stuck, -, halts, described⟩ := exists_stuck_of_parse_error shallow failed
  obtain ⟨front, last, split, leads, here⟩ := halts
  exact ⟨front, stuck, last, split, leads, here, described⟩

/-- An error of a stopped reader stands behind the text that was read. -/
theorem SyntaxError.ofStuck_position (front : List Char) (stuck : Stuck) :
    (ofStuck (front ++ stuck.rest) stuck).position = Position.start.advance front := by
  rw [ofStuck, byteLength_append, Nat.add_sub_cancel]
  exact Position.ofOffset_append front stuck.rest

theorem SyntaxError.ofStuck_offset (front : List Char) (stuck : Stuck) :
    (ofStuck (front ++ stuck.rest) stuck).position.offset = byteLength front := by
  rw [ofStuck_position, Position.advance_offset]
  exact Nat.zero_add _

/-- A syntax error stands behind the longest viable text that its source begins with: what comes
before it can be completed to a source text, and no more of the source can. -/
theorem Document.longestViable_of_parse_error {options : ParseOptions} {source : String}
    {error : SyntaxError}
    (shallow : (Nesting.ofSource source.toList).depth ≤ options.maxDepth)
    (failed : Document.parse options source = .error error) :
    ∃ front, LongestViable source.toList front ∧ byteLength front = error.position.offset := by
  obtain ⟨front, stuck, last, split, leads, here, rfl⟩ := exists_halt_of_parse_error shallow failed
  rw [split]
  exact ⟨front, here.longestViable leads, (SyntaxError.ofStuck_offset front stuck).symm⟩

/-- A block without a dash, after a character of two bytes. -/
def dashlessSource : String := "é\x7b~ \r\n b\x7d"

theorem Document.longestViable_of_parse_error_dashless :
    ∃ error, Document.parse { document := "d" } dashlessSource = .error error ∧
      error.position.offset = 8 ∧
      ∃ front, LongestViable dashlessSource.toList front ∧ byteLength front = 8 := by
  have place : (match Document.parse { document := "d" } dashlessSource with
      | .error error => error.position.offset
      | .ok _ => 0) = 8 := by decide +kernel
  cases parsed : Document.parse { document := "d" } dashlessSource with
  | ok document =>
    rw [parsed] at place
    cases place
  | error error =>
    rw [parsed] at place
    dsimp only at place
    have longest := longestViable_of_parse_error (by decide +kernel) parsed
    rw [place] at longest
    exact ⟨error, rfl, place, longest⟩

end Narrative
