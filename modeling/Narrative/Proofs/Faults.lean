import Narrative.Proofs.Limit
import Narrative.Proofs.Viability

/-!
What the message of a syntax error says. Its parts come from different sides: the character that was
found and the place come from the furthest failure of the rules, the brace that is left open comes
from a walk over the tokens. Both are told by the stack machine: where it stops before a character,
that character is reported, and where it stops at the end, its stack is as high as the braces that
are open. Main statement: the message fits the position in every source that is refused, and there is
always a failure that it is made of.
-/

set_option autoImplicit false

namespace Narrative

open Written (isTopText Leads Stage advance? leads_cons_iff)

/-! ### Open braces -/

/-- The places of the open braces behind a character that stands at a place. A closing brace closes
the innermost one. -/
def stepOpen (opened : List Position) (place : Position) (c : Char) : List Position :=
  if c = '{' then place :: opened else if c = '}' then opened.tail else opened

/-- The places of the braces that are open behind a text, innermost first. -/
def openPlaces : List Position → Position → List Char → List Position
  | opened, _, [] => opened
  | opened, place, c :: rest => openPlaces (stepOpen opened place c) (place.step c) rest

/-- A text in which every brace has its partner. -/
inductive Balanced : List Char → Prop
  | nil : Balanced []
  | char {c : Char} {rest : List Char} (plain : isTopText c = true) (behind : Balanced rest) :
    Balanced (c :: rest)
  | braces {inside rest : List Char} (within : Balanced inside) (behind : Balanced rest) :
    Balanced ('{' :: (inside ++ '}' :: rest))

/-- Places are those of the braces which a text leaves open: behind each of them, up to the next one
or to the end, every brace has its partner. -/
def LeavesOpen : List Char → List Position → Prop
  | _, [] => True
  | text, place :: outer => ∃ before inside, text = before ++ '{' :: inside ∧ Balanced inside ∧
    place = Position.start.advance before ∧ LeavesOpen before outer

section

variable {c : Char} {text first second run : List Char} {opened : List Position} {place : Position}

theorem stepOpen_text (plain : isTopText c = true) : stepOpen opened place c = opened := by
  simp only [isTopText, Bool.and_eq_true, bne_iff_ne, ne_eq] at plain
  rw [stepOpen, if_neg plain.1, if_neg plain.2]

theorem openPlaces_run {rest : List Char} (all : ∀ c ∈ run, isTopText c = true) :
    openPlaces opened place (run ++ rest) = openPlaces opened (place.advance run) rest := by
  induction run generalizing place with
  | nil => rfl
  | cons c run ih =>
    rw [List.cons_append, openPlaces, stepOpen_text (all c List.mem_cons_self),
      Position.advance_cons]
    exact ih (fun d member => all d (List.mem_cons_of_mem c member))

theorem Balanced.append (before : Balanced first) (after : Balanced second) :
    Balanced (first ++ second) := by
  induction before with
  | nil => exact after
  | char plain _ ih => exact .char plain ih
  | braces within _ _ ih =>
    rw [List.cons_append, List.append_assoc, List.cons_append]
    exact .braces within ih

/-- A character leaves the braces open that are open behind it. -/
theorem LeavesOpen.step (leaves : LeavesOpen text opened) (c : Char) :
    LeavesOpen (text ++ [c]) (stepOpen opened (Position.start.advance text) c) := by
  by_cases opens : c = '{'
  · subst opens
    exact ⟨text, [], rfl, .nil, rfl, leaves⟩
  by_cases closes : c = '}'
  · subst closes
    cases opened with
    | nil => exact trivial
    | cons innermost rest =>
      cases rest with
      | nil => exact trivial
      | cons place outer =>
        -- The brace that is closed lies behind the one that is the innermost from here on.
        obtain ⟨front, inside, rfl, within, -, before, between, rfl, plain, same, leaves⟩ := leaves
        refine ⟨before, between ++ '{' :: (inside ++ ['}']), by simp, ?_, same, leaves⟩
        exact plain.append (.braces within .nil)
  · have plain : isTopText c = true := by simp [isTopText, opens, closes]
    rw [stepOpen_text plain]
    cases opened with
    | nil => exact trivial
    | cons innermost outer =>
      obtain ⟨before, inside, rfl, within, same, leaves⟩ := leaves
      refine ⟨before, inside ++ [c], by simp, ?_, same, leaves⟩
      exact within.append (.char plain .nil)

/-- A walk over a text finds the braces that it leaves open. -/
theorem LeavesOpen.walk (leaves : LeavesOpen first opened) (text : List Char) :
    LeavesOpen (first ++ text) (openPlaces opened (Position.start.advance first) text) := by
  induction text generalizing first opened with
  | nil => rwa [List.append_nil]
  | cons c rest ih =>
    have behind := ih (leaves.step c)
    rw [List.append_assoc, List.singleton_append, Position.advance_append] at behind
    exact behind

end

/-! ### Tokens and the stack machine -/

/-- Tokens leave the braces open that characters leave open. -/
theorem openBraces_split (source : List Char) (opened : List Position) (place : Position) :
    openBraces (opened.map Position.offset) (Lexeme.place place.offset (Token.split source)) =
      (openPlaces opened place source).map Position.offset := by
  induction source using split_induction generalizing opened place with
  | nil => rw [Token.split, Lexeme.place, openBraces, openPlaces]
  | openBrace rest ih =>
    have next := ih (place :: opened) (place.advance ['{'])
    rw [Position.advance_offset] at next
    rw [Token.split]
    exact next
  | closeBrace rest ih =>
    have next := ih opened.tail (place.advance ['}'])
    rw [Position.advance_offset, List.map_tail] at next
    rw [Token.split]
    exact next
  | other token chars rest opens closes plain split ih =>
    have next := ih opened (place.advance chars)
    rw [Position.advance_offset] at next
    rw [split, Lexeme.place, openPlaces_run plain, ← next]
    cases token with
    | openBrace => exact absurd rfl opens
    | closeBrace => exact absurd rfl closes
    | pipe | dash | newline | text => rfl

/-- The brace that tokens leave open is the innermost one. -/
theorem unclosedBrace?_eq (source : List Char) :
    unclosedBrace? source = ((openPlaces [] .start source).head?).map Position.offset := by
  rw [unclosedBrace?, Lexeme.ofSource, ← List.head?_map]
  exact congrArg List.head? (openBraces_split source [] .start)

section

variable {c : Char} {text : List Char} {stack next last : List Stage} {opened : List Position}

/-- The stack of the machine stays as high as the braces are open. -/
theorem length_stepOpen (stepped : advance? c stack = some next)
    (same : opened.length = stack.length) (place : Position) :
    (stepOpen opened place c).length = next.length := by
  by_cases opens : c = '{'
  · subst opens
    cases stack with
    | nil =>
      cases stepped
      exact congrArg Nat.succ same
    | cons stage outer =>
      obtain ⟨left, -, rfl⟩ := Option.map_eq_some_iff.1 stepped
      exact congrArg Nat.succ same
  by_cases closes : c = '}'
  · subst closes
    cases stack with
    | nil => cases stepped
    | cons stage outer =>
      have closed : (if stage.mayClose then some outer else none) = some next := stepped
      rw [Option.ite_none_right_eq_some] at closed
      obtain rfl : outer = next := Option.some.inj closed.2
      change opened.tail.length = outer.length
      rw [List.length_tail, same]
      rfl
  · have plain : isTopText c = true := by simp [isTopText, opens, closes]
    rw [stepOpen_text plain, same]
    cases stack with
    | nil =>
      rw [Written.advance?_top plain] at stepped
      cases stepped
      rfl
    | cons stage outer =>
      rw [Written.advance?_text plain] at stepped
      obtain ⟨left, -, rfl⟩ := Option.map_eq_some_iff.1 stepped
      rfl

theorem length_openPlaces (leads : Leads text stack last) (same : opened.length = stack.length)
    (place : Position) : (openPlaces opened place text).length = last.length := by
  induction text generalizing stack opened place with
  | nil =>
    cases leads
    exact same
  | cons c rest ih =>
    obtain ⟨next, stepped, behind⟩ := leads_cons_iff.1 leads
    exact ih behind (length_stepOpen stepped same place) (place.step c)

/-- A text that leads into an embed leaves a brace open, and the tokens tell which. -/
theorem Written.Leads.exists_unclosed (leads : Leads text [] last) (inside : last ≠ []) :
    ∃ before within, text = before ++ '{' :: within ∧ Balanced within ∧
      unclosedBrace? text = some (byteLength before) := by
  have high := length_openPlaces leads (show ([] : List Position).length = _ from rfl) .start
  have leaves : LeavesOpen ([] ++ text) (openPlaces [] .start text) :=
    LeavesOpen.walk (show LeavesOpen [] [] from trivial) text
  rw [List.nil_append] at leaves
  rw [unclosedBrace?_eq]
  cases opened : openPlaces [] .start text with
  | nil =>
    rw [opened] at high
    exact absurd (List.length_eq_zero_iff.1 high.symm) inside
  | cons place outer =>
    rw [opened] at leaves
    obtain ⟨before, within, split, balanced, rfl, -⟩ := leaves
    refine ⟨before, within, split, balanced, ?_⟩
    rw [List.head?_cons, Option.map_some, Position.advance_offset]
    exact congrArg some (Nat.zero_add _)

end

/-! ### Messages -/

namespace SyntaxError

/-- The message of an error fits its position. Before a character it tells that character, and at
the end it tells the innermost of the braces that are open there. -/
structure Fits (source : List Char) (error : SyntaxError) : Prop where
  boundary : ∃ front rest, source = front ++ rest ∧ error.position = Position.start.advance front
  unexpected : error.position.offset < byteLength source → ∃ front c rest,
    source = front ++ c :: rest ∧ byteLength front = error.position.offset ∧
      error.fault.message = "unexpected " ++ Quoted.char c
  unterminated : error.position.offset = byteLength source → ∃ before inside,
    source = before ++ '{' :: inside ∧ Balanced inside ∧ error.fault.message =
      "unterminated directive opened at " ++ (Position.start.advance before).display
  specific : error.fault.message ≠ "unexpected end of input" ∧
    error.fault.message ≠ "unparseable input"

/-- Texts that differ in their twelfth letters are different. -/
theorem ne_of_letter {first second : String} {c : Char} (letter : first.toList[11]? = some c)
    (other : second.toList[11]? ≠ some c) : first ≠ second := by
  rintro rfl
  exact other letter

theorem fits_of_unexpected {front rest : List Char} {c : Char} {error : SyntaxError}
    (place : error.position = Position.start.advance front) (fault : error.fault = .unexpected c) :
    error.Fits (front ++ c :: rest) := by
  have offset : error.position.offset = byteLength front := by
    rw [place, Position.advance_offset]
    exact Nat.zero_add _
  have positive := c.utf8Size_pos
  have message : error.fault.message = "unexpected " ++ Quoted.char c := by
    rw [fault]
    rfl
  have letter : error.fault.message.toList[11]? = some '\'' := by
    rw [message, String.toList_append, List.getElem?_append_right (by decide), Quoted.char,
      String.toList_ofList, Quoted.chars, List.cons_append]
    rfl
  refine ⟨⟨front, c :: rest, rfl, place⟩, fun _ => ⟨front, c, rest, rfl, offset.symm, message⟩, ?_,
    ne_of_letter letter (by decide), ne_of_letter letter (by decide)⟩
  intro ended
  rw [offset, byteLength_append, byteLength_cons] at ended
  omega

theorem fits_of_unterminated {source before inside : List Char} {error : SyntaxError}
    (place : error.position = Position.start.advance source)
    (split : source = before ++ '{' :: inside) (balanced : Balanced inside)
    (fault : error.fault = .unterminated (Position.start.advance before)) :
    error.Fits source := by
  have offset : error.position.offset = byteLength source := by
    rw [place, Position.advance_offset]
    exact Nat.zero_add _
  have message : error.fault.message =
      "unterminated directive opened at " ++ (Position.start.advance before).display := by
    rw [fault]
    rfl
  have letter : error.fault.message.toList[11]? = some 'd' := by
    rw [message, String.toList_append, List.getElem?_append_left (by decide)]
    decide
  refine ⟨⟨source, [], (List.append_nil source).symm, place⟩, ?_,
    fun _ => ⟨before, inside, split, balanced, message⟩,
    ne_of_letter letter (by decide), ne_of_letter letter (by decide)⟩
  intro inside
  omega

end SyntaxError

namespace Document

variable {options : ParseOptions} {source : String} {error : SyntaxError}

/-- The error of a refused source is that of a failure of the rules, at the place where the stack
machine stops. -/
theorem exists_failure_of_parse_error
    (shallow : (Nesting.ofSource source.toList).depth ≤ options.maxDepth)
    (failed : Document.parse options source = .error error) :
    ∃ front rest last expected, source.toList = front ++ rest ∧ Leads front [] last ∧
      (rest = [] → last ≠ []) ∧
      Grammar.source Grammar.embed source.toList none = (none, some (.at rest expected)) ∧
      error = (Grammar.Failure.at rest expected).toError source.toList := by
  obtain ⟨stuck, read, halts, described⟩ := exists_stuck_of_parse_error shallow failed
  obtain ⟨front, last, split, leads, here⟩ := halts
  rw [depth_ofSource] at shallow
  have mirrored := Grammar.mirrored_read shallow
  rw [read] at mirrored
  obtain ⟨expected, same, runs⟩ := mirrored.furthest (Grammar.expected_ne_nil stuck.awaiting)
  exact ⟨front, stuck.rest, last, expected, split, leads, here.opened, runs,
    described.trans (Grammar.toError_at same).symm⟩

/-- The message of a syntax error fits its position in every source that is refused for anything but
its depth, and it is made of a failure that the rules give up with. So it never says that the text
just ends, nor that nothing can be said. -/
theorem fits_of_parse_error
    (shallow : (Nesting.ofSource source.toList).depth ≤ options.maxDepth)
    (failed : Document.parse options source = .error error) :
    error.Fits source.toList ∧
      ∃ failure, Grammar.source Grammar.embed source.toList none = (none, some failure) ∧
        error = failure.toError source.toList := by
  obtain ⟨front, rest, last, expected, split, leads, inside, runs, described⟩ :=
    exists_failure_of_parse_error shallow failed
  refine ⟨?_, _, runs, described⟩
  have place : error.position = Position.start.advance front := by
    rw [described, split]
    change Position.ofOffset (front ++ rest) (byteLength (front ++ rest) - byteLength rest) = _
    rw [byteLength_append, Nat.add_sub_cancel]
    exact Position.ofOffset_append front rest
  have fault : error.fault = Grammar.faultOf source.toList rest.head? := by
    rw [described]
    rfl
  cases rest with
  | cons c rest =>
    rw [split]
    exact SyntaxError.fits_of_unexpected place fault
  | nil =>
    rw [List.append_nil] at split
    obtain ⟨before, within, opens, balanced, unclosed⟩ := leads.exists_unclosed (inside rfl)
    rw [split]
    apply SyntaxError.fits_of_unterminated place opens balanced
    rw [fault, List.head?_nil, Grammar.faultOf, split, unclosed]
    dsimp only
    rw [opens, Position.ofOffset_append]

/-- A list with a marker word that ends in a list with a sign, behind an embed that is closed. -/
def unclosedSource : String := "é\n\x7bcycle: a\x7b\x7d|\x7b!b"

theorem fits_of_parse_error_unclosedSource :
    ∃ error, Document.parse { document := "d" } unclosedSource = .error error ∧
      error.position.offset = byteLength unclosedSource.toList ∧
      error.fault.message = "unterminated directive opened at 2:13" ∧
      error.Fits unclosedSource.toList ∧
      ∃ failure, Grammar.source Grammar.embed unclosedSource.toList none = (none, some failure) ∧
        error = failure.toError unclosedSource.toList := by
  have told : (((Document.parse { document := "d" } unclosedSource).map (fun _ => (0, ""))).tryCatch
      (fun error => .ok (error.position.offset, error.fault.message))).toOption =
        some (18, "unterminated directive opened at 2:13") := by decide +kernel
  cases parsed : Document.parse { document := "d" } unclosedSource with
  | ok document =>
    rw [parsed] at told
    cases Option.some.inj told
  | error error =>
    rw [parsed] at told
    obtain ⟨offset, message⟩ := Prod.mk.inj (Option.some.inj told)
    have whole : byteLength unclosedSource.toList = 18 := by decide
    exact ⟨error, rfl, offset.trans whole.symm, message,
      fits_of_parse_error (by decide +kernel) parsed⟩

end Document

end Narrative
