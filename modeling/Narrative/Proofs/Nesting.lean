import Narrative.Proofs.Inverse
import Narrative.Source.Token

/-!
The nesting that the tokens of a source show is the depth of its embeds. Tokens open braces where
characters do, and both depths are compared with the greatest number of braces open at once, found
in one walk over the characters.
-/

set_option autoImplicit false

namespace Narrative

/-- The greatest number of braces open at once in a text, `opened` of them from before it. -/
def peak : Nat → List Char → Nat
  | opened, [] => opened
  | opened, c :: rest =>
    if c = '{' then peak (opened + 1) rest
    else if c = '}' then max opened (peak (opened - 1) rest)
    else peak opened rest

theorem peak_openBrace (opened : Nat) (rest : List Char) :
    peak opened ('{' :: rest) = peak (opened + 1) rest := rfl

theorem peak_closeBrace (opened : Nat) (rest : List Char) :
    peak opened ('}' :: rest) = max opened (peak (opened - 1) rest) := rfl

theorem le_peak (opened : Nat) (source : List Char) : opened ≤ peak opened source := by
  induction source generalizing opened with
  | nil => exact Nat.le_refl opened
  | cons c rest ih =>
    unfold peak
    split
    · exact Nat.le_trans (Nat.le_succ opened) (ih (opened + 1))
    · split
      · exact Nat.le_max_left opened _
      · exact ih opened

/-- Characters that are no braces do not count. -/
theorem peak_text {c : Char} (text : Written.isTopText c = true) (opened : Nat)
    (rest : List Char) : peak opened (c :: rest) = peak opened rest := by
  simp only [Written.isTopText, Bool.and_eq_true, bne_iff_ne, ne_eq] at text
  rw [peak, if_neg text.1, if_neg text.2]

theorem peak_run {run rest : List Char} (all : ∀ c ∈ run, Written.isTopText c = true)
    (opened : Nat) : peak opened (run ++ rest) = peak opened rest := by
  induction run with
  | nil => rfl
  | cons c run ih =>
    rw [List.cons_append, peak_text (all c List.mem_cons_self)]
    exact ih (fun d member => all d (List.mem_cons_of_mem c member))

/-! ### Tokens -/

theorem isTopText_of_ofMark? {c : Char} (unmarked : Token.ofMark? c = none) :
    Written.isTopText c = true := by
  by_cases opens : c = '{'
  · subst opens
    cases unmarked
  · by_cases closes : c = '}'
    · subst closes
      cases unmarked
    · simp [Written.isTopText, opens, closes]

theorem isTopText_of_isOrdinary {c : Char} (ordinary : Token.isOrdinary c = true) :
    Written.isTopText c = true := by
  simp only [Token.isOrdinary, Bool.and_eq_true, Option.isNone_iff_eq_none] at ordinary
  exact isTopText_of_ofMark? ordinary.1

/-- A text is taken apart token by token. Of the tokens only two matter for braces, and the others
have none in them. -/
theorem split_induction {motive : List Char → Prop} (nil : motive [])
    (openBrace : ∀ rest, motive rest → motive ('{' :: rest))
    (closeBrace : ∀ rest, motive rest → motive ('}' :: rest))
    (other : ∀ token chars rest, token ≠ .openBrace → token ≠ .closeBrace →
      (∀ c ∈ chars, Written.isTopText c = true) →
      Token.split (chars ++ rest) = (token, chars) :: Token.split rest → motive rest →
      motive (chars ++ rest))
    (source : List Char) : motive source := by
  induction source using Token.split.induct with
  | case1 => exact nil
  | case2 c rest token mark ih =>
    unfold Token.ofMark? at mark
    split at mark <;> cases mark
    · exact openBrace rest ih
    · exact closeBrace rest ih
    all_goals
      refine other _ [_] rest ?_ ?_ (by simp [Written.isTopText])
        (by rw [List.singleton_append, Token.split]; rfl) ih
      · decide
      · decide
  | case3 rest feed mark ih =>
    obtain ⟨after, rfl⟩ := List.head?_eq_some_iff.1 feed
    exact other .newline ['\r', '\n'] after (by decide) (by decide) (by simp [Written.isTopText])
      (by rw [List.cons_append, Token.split]; rfl) ih
  | case4 rest feed mark ih =>
    refine other .text ['\r'] rest (by decide) (by decide) (by simp [Written.isTopText]) ?_ ih
    rw [List.singleton_append, Token.split]
    simp only [mark, if_neg feed]
    rfl
  | case5 c rest mark ordinary ih =>
    have all : ∀ d ∈ c :: rest.takeWhile Token.isOrdinary, Written.isTopText d = true := by
      intro d member
      rcases List.mem_cons.1 member with rfl | member
      · exact isTopText_of_ofMark? mark
      · exact isTopText_of_isOrdinary (accept_of_mem_takeWhile d member)
    have whole : c :: rest.takeWhile Token.isOrdinary ++ rest.dropWhile Token.isOrdinary =
        c :: rest := by rw [List.cons_append, List.takeWhile_append_dropWhile]
    rw [← whole]
    refine other .text _ _ (by decide) (by decide) all ?_ ih
    rw [whole, Token.split]
    simp only [mark, if_neg ordinary]

/-- The places where tokens open a brace, each with the number of braces open from there on. -/
def Nesting.points : Nat → List Lexeme → List Nesting
  | _, [] => []
  | opened, lexeme :: rest =>
    match lexeme.token with
    | .openBrace => ⟨opened + 1, lexeme.start⟩ :: points (opened + 1) rest
    | .closeBrace => points (opened - 1) rest
    | _ => points opened rest

/-- The deeper of two points, the first of them if they are alike. -/
def Nesting.deeper (found point : Nesting) : Nesting :=
  if found.depth < point.depth then point else found

theorem Nesting.scan_eq_foldl (opened : Nat) (found : Nesting) (lexemes : List Lexeme) :
    scan opened found lexemes = (points opened lexemes).foldl deeper found := by
  induction lexemes generalizing opened found with
  | nil => rfl
  | cons lexeme rest ih =>
    obtain ⟨token, start, stop⟩ := lexeme
    cases token with
    | openBrace => exact ih (opened + 1) _
    | closeBrace => exact ih (opened - 1) found
    | pipe | dash | newline | text => exact ih opened found

/-- The places where characters open a brace. -/
def braces : Nat → Position → List Char → List Nesting
  | _, _, [] => []
  | opened, place, c :: rest =>
    if c = '{' then ⟨opened + 1, place.offset⟩ :: braces (opened + 1) (place.step c) rest
    else if c = '}' then braces (opened - 1) (place.step c) rest
    else braces opened (place.step c) rest

theorem braces_text {c : Char} (text : Written.isTopText c = true) (opened : Nat)
    (place : Position) (rest : List Char) :
    braces opened place (c :: rest) = braces opened (place.step c) rest := by
  simp only [Written.isTopText, Bool.and_eq_true, bne_iff_ne, ne_eq] at text
  rw [braces, if_neg text.1, if_neg text.2]

theorem braces_run {run rest : List Char} (all : ∀ c ∈ run, Written.isTopText c = true)
    (opened : Nat) (place : Position) :
    braces opened place (run ++ rest) = braces opened (place.advance run) rest := by
  induction run generalizing place with
  | nil => rfl
  | cons c run ih =>
    rw [List.cons_append, braces_text (all c List.mem_cons_self), Position.advance_cons]
    exact ih (fun d member => all d (List.mem_cons_of_mem c member)) (place.step c)

/-- Tokens open braces where characters do. -/
theorem points_split (source : List Char) (opened : Nat) (place : Position) :
    Nesting.points opened (Lexeme.place place.offset (Token.split source)) =
      braces opened place source := by
  induction source using split_induction generalizing opened place with
  | nil => rw [Token.split, Lexeme.place, Nesting.points, braces]
  | openBrace rest ih =>
    have next := ih (opened + 1) (place.advance ['{'])
    rw [Position.advance_offset] at next
    rw [Token.split]
    exact congrArg (List.cons _) next
  | closeBrace rest ih =>
    have next := ih (opened - 1) (place.advance ['}'])
    rw [Position.advance_offset] at next
    rw [Token.split]
    exact next
  | other token chars rest opens closes plain split ih =>
    have next := ih opened (place.advance chars)
    rw [Position.advance_offset] at next
    rw [split, Lexeme.place, braces_run plain, ← next]
    cases token with
    | openBrace => exact absurd rfl opens
    | closeBrace => exact absurd rfl closes
    | pipe | dash | newline | text => rfl

/-- The nesting of a text is the deepest of the places where its characters open a brace. -/
theorem ofSource_eq_foldl (source : List Char) :
    Nesting.ofSource source = (braces 0 .start source).foldl Nesting.deeper ⟨0, 0⟩ := by
  rw [Nesting.ofSource, Lexeme.ofSource, Nesting.scan_eq_foldl]
  exact congrArg (List.foldl Nesting.deeper ⟨0, 0⟩) (points_split source 0 .start)

theorem depth_foldl_braces (source : List Char) (opened : Nat) (place : Position)
    (found : Nesting) (reached : opened ≤ found.depth) :
    ((braces opened place source).foldl Nesting.deeper found).depth =
      max found.depth (peak opened source) := by
  induction source generalizing opened place found with
  | nil => exact (Nat.max_eq_left reached).symm
  | cons c rest ih =>
    unfold braces peak
    split
    · have above := le_peak (opened + 1) rest
      rw [List.foldl_cons, Nesting.deeper]
      split
      · next deeper =>
        rw [ih (opened + 1) (place.step c) ⟨opened + 1, place.offset⟩ (Nat.le_refl _)]
        dsimp only at deeper ⊢
        omega
      · next shallow => exact ih _ _ _ (Nat.le_of_not_lt shallow)
    · split
      · rw [ih _ _ _ (by omega)]
        omega
      · exact ih _ _ _ reached

theorem depth_ofSource (source : List Char) : (Nesting.ofSource source).depth = peak 0 source := by
  rw [ofSource_eq_foldl, depth_foldl_braces source 0 .start ⟨0, 0⟩ (Nat.le_refl 0)]
  exact Nat.zero_max _

/-! ### Embeds -/

namespace Written

theorem Opening.Fits.isTopText {value : Opening} {after : List Char} (fits : value.Fits after) :
    ∀ c ∈ value.spell, isTopText c = true := by
  intro c member
  cases value with
  | bare => cases member
  | sign sign gap =>
    rcases List.mem_cons.1 member with rfl | member
    · exact isTopText_sign sign
    · exact isTopText_of_isGap (fits.1 c member)
  | label text gap =>
    obtain ⟨-, labels, gaps, -⟩ := fits
    rcases List.mem_append.1 member with member | member
    · exact isTopText_of_isLabel (labels c member)
    · rcases List.mem_cons.1 member with rfl | member
      · rfl
      · exact isTopText_of_isGap (gaps c member)

theorem Margin.Fits.isTopText {value : Margin} {after : List Char} (fits : value.Fits after) :
    ∀ c ∈ value.spell, isTopText c = true := by
  intro c member
  obtain ⟨space, _ | ⟨text, gap⟩⟩ := value
  · rw [Margin.spell, List.append_nil] at member
    exact isTopText_of_isSpace (fits.1 c member)
  · obtain ⟨spaces, -, -, labels, gaps, -⟩ := fits
    simp only [Margin.spell, List.mem_append, List.mem_cons] at member
    rcases member with member | member | rfl | member
    · exact isTopText_of_isSpace (spaces c member)
    · exact isTopText_of_isLabel (labels c member)
    · rfl
    · exact isTopText_of_isGap (gaps c member)

theorem Break.Blank.isTopText {value : Break} (blank : value.Blank) :
    ∀ c ∈ value.spell, isTopText c = true := by
  intro c member
  simp only [Break.spell, List.mem_append] at member
  rcases member with (member | member) | member
  · exact isTopText_of_isGap (blank.1 c member)
  · exact isTopText_lineBreak c member
  · exact isTopText_of_isSpace (blank.2 c member)

mutual

/-- The peak of an embed lies as much above the braces around it as it is deep. -/
theorem Embed.peak_spell (value : Embed) (legible : value.Legible) (opened : Nat)
    (rest : List Char) :
    peak opened (value.spell ++ rest) = max (opened + value.depth) (peak opened rest) := by
  match value with
  | .inline opening arguments =>
    obtain ⟨-, fits, legible⟩ := legible
    rw [Embed.spell, List.cons_append, List.append_assoc, List.append_assoc, List.singleton_append,
      peak_openBrace, peak_run fits.isTopText, peak_spellArguments arguments legible,
      peak_closeBrace, Embed.depth, Nat.add_sub_cancel]
    omega
  | .block opening margin entries =>
    obtain ⟨-, fits, blank, legible⟩ := legible
    rw [Embed.spell, List.cons_append, List.append_assoc, List.append_assoc, List.append_assoc,
      List.singleton_append, peak_openBrace, peak_run fits.isTopText, peak_run blank.isTopText,
      peak_spellEntries entries legible, peak_closeBrace, Embed.depth, Nat.add_sub_cancel]
    omega

theorem peak_spellPieces {accept : Char → Bool}
    (plain : ∀ c, accept c = true → isTopText c = true) (pieces : List Piece)
    (legible : legiblePieces accept pieces) (opened : Nat) (rest : List Char) :
    peak opened (spellPieces pieces ++ rest) =
      max (opened + depthOfPieces pieces) (peak opened rest) := by
  match pieces with
  | [] =>
    have bound := le_peak opened rest
    rw [spellPieces, List.nil_append, depthOfPieces]
    omega
  | .text chars :: more =>
    obtain ⟨⟨-, all⟩, -, legible⟩ := legible
    rw [spellPieces, Piece.spell, List.append_assoc,
      peak_run (fun c member => plain c (all c member)), peak_spellPieces plain more legible,
      depthOfPieces, Piece.depth, Nat.zero_max]
  | .embed value :: more =>
    obtain ⟨legible, legibles⟩ := legible
    rw [spellPieces, Piece.spell, List.append_assoc, Embed.peak_spell value legible,
      peak_spellPieces plain more legibles, depthOfPieces, Piece.depth]
    omega

theorem peak_spellArguments (arguments : List (List Piece)) (legible : legibleArguments arguments)
    (opened : Nat) (rest : List Char) :
    peak opened (spellArguments arguments ++ rest) =
      max (opened + depthOfArguments arguments) (peak opened rest) := by
  match arguments with
  | [] =>
    have bound := le_peak opened rest
    rw [spellArguments, List.nil_append, depthOfArguments]
    omega
  | [pieces] =>
    rw [spellArguments, peak_spellPieces (fun _ => isTopText_of_isArgumentText) pieces legible.1,
      depthOfArguments, depthOfArguments, Nat.max_zero]
  | pieces :: next :: more =>
    rw [spellArguments_cons pieces (by simp), List.append_assoc, List.cons_append,
      peak_spellPieces (fun _ => isTopText_of_isArgumentText) pieces legible.1,
      peak_text rfl, peak_spellArguments (next :: more) legible.2,
      depthOfArguments.eq_2 pieces (next :: more)]
    omega

theorem peak_spellEntries (entries : List Entry) (legible : legibleEntries entries)
    (opened : Nat) (rest : List Char) :
    peak opened (spellEntries entries ++ rest) =
      max (opened + depthOfEntries entries) (peak opened rest) := by
  match entries with
  | [] =>
    have bound := le_peak opened rest
    rw [spellEntries, List.nil_append, depthOfEntries]
    omega
  | ⟨margin, pieces⟩ :: more =>
    obtain ⟨fits, legible, legibles⟩ := legible
    rw [spellEntries, Entry.spell, List.cons_append, List.cons_append, List.append_assoc,
      List.append_assoc, peak_text rfl, peak_run fits.isTopText,
      peak_spellPieces (fun _ => isTopText_of_isEntryText) pieces legible,
      peak_spellEntries more legibles, depthOfEntries]
    omega

end

/-- The nesting of a spelling is the depth of its pieces. -/
theorem depth_ofSource_spellPieces {pieces : List Piece}
    (legible : legiblePieces isTopText pieces) :
    (Nesting.ofSource (spellPieces pieces)).depth = depthOfPieces pieces := by
  have found := peak_spellPieces (fun _ text => text) pieces legible 0 []
  rw [List.append_nil, Nat.zero_add] at found
  rw [depth_ofSource, found]
  exact Nat.max_eq_left (Nat.zero_le _)

end Written

end Narrative
