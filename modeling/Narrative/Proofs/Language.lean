import Narrative.Proofs.Parsing

/-!
The language of source texts, apart from any reader. Main statement: a source is parsed exactly if
it is in the language and its braces do not nest too deep, so no choice that the readers make is
ever the wrong one.

    Source = (character | Embed)*                         no braces
    Embed  = '{' (character | Embed)* '}'                 no braces, no line ends
           | '{' Head gap line-break space '-' (character | Embed)* '}'
-/

set_option autoImplicit false

namespace Narrative

open Written (isGap isSpace isLabel isTopText isArgumentText isEntryText isLineEnd lineBreak Reads)

/-- The characters of an embed on one line, bars included. -/
def isLineText (c : Char) : Bool := c != '{' && c != '}' && c != '\r' && c != '\n'

/-- What may stand between the brace of a block and its line break: nothing, a sign, or a label with
its colon. -/
inductive IsHead : List Char → Prop
  | none : IsHead []
  | sign (value : Written.Sign) : IsHead [value.char]
  | label {text : List Char} (nonempty : text ≠ []) (labels : ∀ c ∈ text, isLabel c = true) :
    IsHead (text ++ [':'])

mutual

/-- Accepted characters and embeds in any order. -/
inductive IsBody : (Char → Bool) → List Char → Prop
  | nil {accept : Char → Bool} : IsBody accept []
  | char {accept : Char → Bool} {c : Char} {rest : List Char} (accepted : accept c = true)
    (body : IsBody accept rest) : IsBody accept (c :: rest)
  | embed {accept : Char → Bool} {value rest : List Char} (embed : IsEmbed value)
    (body : IsBody accept rest) : IsBody accept (value ++ rest)

/-- A text in braces, on one line or with a dash at the start of a line. -/
inductive IsEmbed : List Char → Prop
  | inline {body : List Char} (line : IsBody isLineText body) : IsEmbed ('{' :: (body ++ ['}']))
  | block {head gap space body : List Char} {carriage : Bool} (begun : IsHead head)
    (gaps : ∀ c ∈ gap, isGap c = true) (spaces : ∀ c ∈ space, isSpace c = true)
    (entries : IsBody isTopText body) :
    IsEmbed ('{' :: (head ++ gap ++ lineBreak carriage ++ space ++ '-' :: body ++ ['}']))

end

/-- The source texts. -/
def IsSource (source : List Char) : Prop := IsBody isTopText source

variable {accept : Char → Bool} {source rest : List Char}

theorem IsEmbed.eq_cons (embed : IsEmbed source) : ∃ inner, source = '{' :: inner := by
  cases embed <;> exact ⟨_, rfl⟩

/-- A body is empty or begins with an accepted character or with an embed. -/
theorem IsBody.cons_cases {c : Char} (body : IsBody accept (c :: rest)) :
    accept c = true ∧ IsBody accept rest ∨
      c = '{' ∧ ∃ inner after, IsEmbed ('{' :: inner) ∧ IsBody accept after ∧
        rest = inner ++ after := by
  generalize whole : c :: rest = source at body
  cases body with
  | nil => cases whole
  | char accepted body =>
    cases whole
    exact Or.inl ⟨accepted, body⟩
  | embed embed body =>
    obtain ⟨inner, rfl⟩ := embed.eq_cons
    cases whole
    exact Or.inr ⟨rfl, inner, _, embed, body, rfl⟩

/-- A body stays one without plain characters at its start. -/
theorem IsBody.of_append {front : List Char} (plain : ∀ c ∈ front, isTopText c = true)
    (body : IsBody accept (front ++ rest)) : IsBody accept rest := by
  induction front with
  | nil => exact body
  | cons c front ih =>
    rcases body.cons_cases with ⟨-, body⟩ | ⟨rfl, -⟩
    · exact ih (fun d member => plain d (List.mem_cons_of_mem c member)) body
    · cases plain '{' List.mem_cons_self

theorem IsBody.run {front : List Char} (all : ∀ c ∈ front, accept c = true)
    (body : IsBody accept rest) : IsBody accept (front ++ rest) := by
  induction front with
  | nil => exact body
  | cons c front ih =>
    exact .char (all c List.mem_cons_self)
      (ih (fun d member => all d (List.mem_cons_of_mem c member)))

theorem IsBody.append {first second : List Char} (before : IsBody accept first)
    (after : IsBody accept second) : IsBody accept (first ++ second) := by
  match before with
  | .nil => exact after
  | .char accepted body => exact .char accepted (body.append after)
  | .embed value body =>
    rw [List.append_assoc]
    exact .embed value (body.append after)

/-! ### Legible trees are in the language -/

theorem isLineText_of_isArgumentText {c : Char} (text : isArgumentText c = true) :
    isLineText c = true := by
  simp only [isArgumentText, Bool.and_eq_true] at text
  simp [isLineText, text]

theorem isTopText_of_isLineText {c : Char} (text : isLineText c = true) : isTopText c = true := by
  simp only [isLineText, Bool.and_eq_true] at text
  simp [isTopText, text]

theorem isLineText_of_isLabel {c : Char} (label : isLabel c = true) : isLineText c = true := by
  simp only [isLabel, Bool.and_eq_true] at label
  simp [isLineText, label]

theorem isLineText_of_isGap {c : Char} (gap : isGap c = true) : isLineText c = true := by
  simp only [isGap, Bool.or_eq_true, beq_iff_eq] at gap
  rcases gap with rfl | rfl <;> rfl

namespace Written

/-- What an opening says without the gap after it. -/
theorem Opening.Fits.head {value : Opening} {after : List Char} (fits : value.Fits after) :
    ∃ head gap, value.spell = head ++ gap ∧ IsHead head ∧ ∀ c ∈ gap, isGap c = true := by
  cases value with
  | bare => exact ⟨[], [], rfl, .none, by simp⟩
  | sign sign gap => exact ⟨[sign.char], gap, rfl, .sign sign, fits.1⟩
  | label text gap =>
    obtain ⟨nonempty, labels, gaps, -⟩ := fits
    exact ⟨text ++ [':'], gap, by simp [spell], .label nonempty labels, gaps⟩

theorem Opening.Fits.isLineText {value : Opening} {after : List Char} (fits : value.Fits after) :
    ∀ c ∈ value.spell, isLineText c = true := by
  intro c member
  obtain ⟨head, gap, split, begun, gaps⟩ := fits.head
  rw [split, List.mem_append] at member
  rcases member with member | member
  · cases begun with
    | none => cases member
    | sign sign =>
      cases List.mem_singleton.1 member
      cases sign <;> rfl
    | label nonempty labels =>
      rcases List.mem_append.1 member with member | member
      · exact isLineText_of_isLabel (labels c member)
      · cases List.mem_singleton.1 member
        rfl
  · exact isLineText_of_isGap (gaps c member)

mutual

theorem Embed.isEmbed (value : Embed) (legible : value.Legible) : IsEmbed value.spell := by
  match value with
  | .inline opening arguments =>
    obtain ⟨-, fits, legible⟩ := legible
    exact .inline (IsBody.run fits.isLineText (isBody_spellArguments arguments legible))
  | .block opening ⟨gap, carriage, space⟩ entries =>
    obtain ⟨nonempty, fits, ⟨gaps, spaces⟩, legible⟩ := legible
    obtain ⟨head, before, split, begun, befores⟩ := fits.head
    obtain ⟨inner, dash⟩ := spellEntries_eq_cons nonempty
    have body := isBody_spellEntries entries legible
    rw [dash] at body
    have inside := @IsBody.of_append isTopText inner ['-'] (List.all_eq_true.1 rfl) body
    have allGaps : ∀ c ∈ before ++ gap, isGap c = true := by
      intro c member
      exact (List.mem_append.1 member).elim (befores c) (gaps c)
    have whole : IsEmbed ('{' :: (head ++ (before ++ gap) ++ lineBreak carriage ++ space ++
        '-' :: inner ++ ['}'])) :=
      .block begun allGaps spaces inside
    simpa [Embed.spell, Break.spell, split, dash] using whole

theorem isBody_spellPieces {small big : Char → Bool}
    (le : ∀ c, small c = true → big c = true) (pieces : List Piece)
    (legible : legiblePieces small pieces) : IsBody big (spellPieces pieces) := by
  match pieces with
  | [] => exact .nil
  | .text chars :: rest =>
    obtain ⟨⟨-, all⟩, -, legible⟩ := legible
    exact IsBody.run (fun c member => le c (all c member)) (isBody_spellPieces le rest legible)
  | .embed value :: rest =>
    obtain ⟨legible, legibles⟩ := legible
    exact .embed (Embed.isEmbed value legible) (isBody_spellPieces le rest legibles)

theorem isBody_spellArguments (arguments : List (List Piece))
    (legible : legibleArguments arguments) : IsBody isLineText (spellArguments arguments) := by
  match arguments with
  | [] => exact .nil
  | [pieces] => exact isBody_spellPieces (fun _ => isLineText_of_isArgumentText) pieces legible.1
  | pieces :: next :: rest =>
    rw [spellArguments_cons pieces (by simp)]
    exact (isBody_spellPieces (fun _ => isLineText_of_isArgumentText) pieces legible.1).append
      (.char rfl (isBody_spellArguments (next :: rest) legible.2))

theorem isBody_spellEntries (entries : List Entry) (legible : legibleEntries entries) :
    IsBody isTopText (spellEntries entries) := by
  match entries with
  | [] => exact .nil
  | ⟨margin, pieces⟩ :: rest =>
    obtain ⟨fits, legible, legibles⟩ := legible
    rw [spellEntries, Entry.spell, List.cons_append, List.append_assoc]
    exact .char rfl (IsBody.run fits.isTopText
      ((isBody_spellPieces (fun _ => isTopText_of_isEntryText) pieces legible).append
        (isBody_spellEntries rest legibles)))

end

/-! ### Texts of the language are read -/

/-- A reader reads all embeds of the language that are shorter than a bound. -/
def Accepts (bound : Nat) (embed : EmbedReader) : Prop :=
  ∀ inner rest, IsEmbed ('{' :: inner) → inner.length < bound →
    ∃ value, Reads (embed (inner ++ rest)) value rest

variable {bound : Nat} {embed : EmbedReader} {body : List Char}

theorem Accepts.pieces (accepts : Accepts bound embed) {small big : Char → Bool}
    (le : ∀ c, small c = true → big c = true) (plain : ∀ c, big c = true → isTopText c = true)
    (inside : IsBody big body) (short : body.length ≤ bound) {tail : List Char}
    (stops : Stops small tail) (unopened : ∀ inner, tail ≠ '{' :: inner) :
    ∃ found left, Reads (Written.pieces small embed (body ++ tail)) found (left ++ tail) ∧
      IsBody big left ∧ left.length ≤ body.length ∧ Stops small left ∧
      ∀ inner, left ≠ '{' :: inner := by
  induction size : body.length using Nat.strongRecOn generalizing body with
  | ind length ih =>
    obtain ⟨run, rest, rfl, all, ends⟩ := exists_run small body
    rw [List.length_append] at size short
    have inside := inside.of_append (fun c member => plain c (le c (all c member)))
    suffices ∃ found left, Reads (Written.pieces small embed (rest ++ tail)) found (left ++ tail) ∧
        IsBody big left ∧ left.length ≤ rest.length ∧ Stops small left ∧
        ∀ inner, left ≠ '{' :: inner by
      obtain ⟨found, left, reading, body, shorter, stopped⟩ := this
      refine ⟨textPieces run ++ found, left, ?_, body, by omega, stopped⟩
      rw [List.append_assoc]
      exact reads_pieces_run all (ends.append stops) reading
    cases rest with
    | nil => exact ⟨[], [], reads_pieces_nil stops unopened, .nil, Nat.le_refl _, ends, by simp⟩
    | cons c rest =>
      rcases inside.cons_cases with ⟨accepted, -⟩ | ⟨rfl, inner, after, embedded, behind, rfl⟩
      · have plainHead := plain c accepted
        have unopened : ∀ inner, c :: rest ≠ '{' :: inner := by
          intro inner same
          rw [(List.cons.inj same).1] at plainHead
          cases plainHead
        refine ⟨[], c :: rest, reads_pieces_nil (ends.append stops) ?_, inside, Nat.le_refl _, ends,
          unopened⟩
        intro inner same
        obtain ⟨rfl, -⟩ := List.cons.inj same
        cases plainHead
      · have brace := (stops_cons small '{' _).1 ends
        simp only [List.length_cons, List.length_append] at size short
        obtain ⟨value, first⟩ := accepts inner (after ++ tail) embedded (by omega)
        obtain ⟨found, left, second, body, shorter, stopped⟩ :=
          ih after.length (by omega) behind (by omega) rfl
        refine ⟨.embed value :: found, left, ?_, body, ?_, stopped⟩
        · rw [List.cons_append, List.append_assoc]
          exact reads_pieces_embed brace first second
        · simp only [List.length_cons, List.length_append]
          omega

/-- Plain characters before the brace that closes a body are in the body. -/
theorem exists_left {front : List Char} (plain : ∀ c ∈ front, isTopText c = true)
    (split : body ++ '}' :: rest = front ++ source) :
    ∃ left, body = front ++ left ∧ source = left ++ '}' :: rest := by
  rcases List.append_eq_append_iff.1 split with ⟨more, rfl, back⟩ | ⟨left, rfl, rfl⟩
  · cases more with
    | nil => exact ⟨[], by simp, by simpa using back.symm⟩
    | cons c more =>
      obtain ⟨rfl, -⟩ := List.cons.inj back
      cases plain '}' (by simp)
  · exact ⟨left, rfl, rfl⟩

theorem eq_bar {c : Char} (line : isLineText c = true) (outside : isArgumentText c = false) :
    c = '|' := by
  simp only [isLineText, Bool.and_eq_true] at line
  simpa [isArgumentText, line] using outside

theorem eq_dash {c : Char} (text : isTopText c = true) (outside : isEntryText c = false) :
    c = '-' := by
  simp only [isTopText, Bool.and_eq_true] at text
  simpa [isEntryText, text] using outside

theorem Accepts.arguments (accepts : Accepts bound embed) (inside : IsBody isLineText body)
    (short : body.length ≤ bound) (awaiting : Awaiting) (rest : List Char) :
    ∃ found, Reads (Written.arguments embed awaiting (body ++ '}' :: rest)) found rest := by
  induction size : body.length using Nat.strongRecOn generalizing body awaiting with
  | ind length ih =>
    obtain ⟨first, left, reading, inside, shorter, ends, unopened⟩ :=
      accepts.pieces (fun _ => isLineText_of_isArgumentText) (fun _ => isTopText_of_isLineText)
        inside short (show Stops isArgumentText ('}' :: rest) by simp [isArgumentText]) (by simp)
    cases left with
    | nil => exact ⟨[first], reads_arguments_iff.2 ⟨first, _, reading, Or.inr ⟨rfl, rfl⟩⟩⟩
    | cons c next =>
      rcases inside.cons_cases with ⟨accepted, behind⟩ | ⟨rfl, -⟩
      · obtain rfl := eq_bar accepted ((stops_cons isArgumentText c next).1 ends)
        rw [List.length_cons] at shorter
        obtain ⟨more, there⟩ := ih next.length (by omega) behind (by omega) .argument rfl
        exact ⟨first :: more, reads_arguments_iff.2 ⟨first, _, reading,
          Or.inl ⟨_, more, rfl, there, rfl⟩⟩⟩
      · exact absurd rfl (unopened next)

theorem Accepts.entries (accepts : Accepts bound embed) (inside : IsBody isTopText body)
    (short : body.length ≤ bound) (wasOpen : Bool) (rest : List Char) :
    ∃ found, Reads (Written.entries embed wasOpen (body ++ '}' :: rest)) found rest := by
  induction size : body.length using Nat.strongRecOn generalizing body wasOpen with
  | ind length ih =>
    obtain ⟨split, fits⟩ := margin_spec (body ++ '}' :: rest)
    obtain ⟨content, same, after⟩ := exists_left fits.isTopText split
    have begun : (body ++ '}' :: rest).dropWhile isSpace ≠ [] :=
      dropWhile_ne_nil (show '}' ∈ _ by simp) rfl
    have lengths := congrArg List.length same
    rw [List.length_append] at lengths
    rw [same] at inside
    obtain ⟨first, left, reading, inside, shorter, ends, unopened⟩ :=
      accepts.pieces (fun _ => isTopText_of_isEntryText) (fun _ text => text)
        (inside.of_append fits.isTopText) (by omega)
        (show Stops isEntryText ('}' :: rest) by simp [isEntryText]) (by simp)
    rw [← after] at reading
    cases left with
    | nil => exact ⟨_, reads_entries_iff.2 ⟨begun, first, _, reading, Or.inr ⟨rfl, rfl⟩⟩⟩
    | cons c next =>
      rcases inside.cons_cases with ⟨accepted, behind⟩ | ⟨rfl, -⟩
      · obtain rfl := eq_dash accepted ((stops_cons isEntryText c next).1 ends)
        rw [List.length_cons] at shorter
        obtain ⟨more, there⟩ := ih next.length (by omega) behind (by omega) _ rfl
        exact ⟨_, reads_entries_iff.2 ⟨begun, first, _, reading,
          Or.inl ⟨_, more, rfl, there, rfl⟩⟩⟩
      · exact absurd rfl (unopened next)

/-- What stands between the brace of a block and its line break is read as an opening and a gap. -/
theorem exists_opening {head gap : List Char} (begun : IsHead head)
    (gaps : ∀ c ∈ gap, isGap c = true) (carriage : Bool) (below : List Char) :
    ∃ value after, head ++ gap = value.spell ++ after ∧ (∀ c ∈ after, isGap c = true) ∧
      Opening.Fits (after ++ (lineBreak carriage ++ below)) value := by
  have colon : ':' ∉ gap := fun member => absurd (gaps ':' member) (by decide)
  have ends : Stops isGap (lineBreak carriage ++ below) :=
    stops_lineBreak carriage below ⟨rfl, rfl⟩
  cases begun with
  | none =>
    refine ⟨.bare, gap, rfl, gaps, not_labelled_line colon carriage below, Stops.append ?_
      (stops_lineBreak carriage below ⟨rfl, rfl⟩)⟩
    intro c first
    have inside := gaps c (List.mem_of_mem_head? first)
    simp only [isGap, Bool.or_eq_true, beq_iff_eq] at inside
    rcases inside with rfl | rfl <;> rfl
  | sign value =>
    refine ⟨.sign value gap, [], by simp [Opening.spell], by simp, gaps, ends, ?_⟩
    refine @not_labelled_line (value.char :: gap) ?_ carriage below
    cases value <;> simpa [Sign.char] using colon
  | label nonempty labels =>
    exact ⟨.label _ gap, [], by simp [Opening.spell], by simp, nonempty, labels, gaps, ends⟩

/-- No line break follows the gap before a body on one line. -/
theorem stops_line_body (inside : IsBody isLineText body) (rest : List Char) :
    Stops isLineEnd ((body ++ '}' :: rest).dropWhile isGap) := by
  obtain ⟨gap, content, rfl, gaps, ends⟩ := exists_run isGap body
  have close : Stops isGap ('}' :: rest) := by simp [isGap]
  have inside := inside.of_append (fun c member => isTopText_of_isGap (gaps c member))
  rw [List.append_assoc, dropWhile_run gaps (ends.append close)]
  refine Stops.append ?_ (by simp [isLineEnd])
  cases content with
  | nil => exact stops_nil isLineEnd
  | cons c rest =>
    rw [stops_cons]
    rcases inside.cons_cases with ⟨accepted, -⟩ | ⟨rfl, -⟩
    · simp only [isLineText, Bool.and_eq_true, bne_iff_ne, ne_eq] at accepted
      simp [isLineEnd, accepted]
    · rfl

theorem Accepts.embedWith (accepts : Accepts bound embed) :
    Accepts (bound + 1) (Written.embedWith embed) := by
  intro inner rest embedded short
  generalize whole : '{' :: inner = source at embedded
  cases embedded with
  | @inline body line =>
    obtain ⟨-, rfl⟩ := List.cons.inj whole
    rw [List.append_assoc, List.singleton_append]
    obtain ⟨split, fits⟩ := opening_spec (body ++ '}' :: rest)
    obtain ⟨content, same, after⟩ := exists_left fits.isTopText split
    have lengths := congrArg List.length same
    rw [List.length_append] at lengths short
    rw [same] at line
    have inside := line.of_append fits.isTopText
    obtain ⟨args, reading⟩ := accepts.arguments inside (by omega)
      (firstAwaiting (body ++ '}' :: rest) (opening (body ++ '}' :: rest)).rest) rest
    rw [← after] at reading
    refine ⟨_, reads_embedWith_iff.2 (Or.inr ⟨?_, args, reading, rfl⟩)⟩
    rw [after]
    exact stops_line_body inside rest
  | @block head gap space body carriage begun gaps spaces entries =>
    obtain ⟨-, rfl⟩ := List.cons.inj whole
    obtain ⟨value, after, split, afters, fits⟩ := exists_opening begun gaps carriage
      (space ++ '-' :: (body ++ '}' :: rest))
    obtain ⟨found, left⟩ := opening_of_fits fits
    obtain ⟨entered, reading⟩ := accepts.entries entries
      (by simp only [List.length_append, List.length_cons] at short; omega) false rest
    have spelling : head ++ gap ++ lineBreak carriage ++ space ++ '-' :: body ++ ['}'] ++ rest =
        value.spell ++
          (after ++ (lineBreak carriage ++ (space ++ '-' :: (body ++ '}' :: rest)))) := by
      rw [split]
      simp
    have feed : Stops isGap (lineBreak carriage ++ (space ++ '-' :: (body ++ '}' :: rest))) :=
      stops_lineBreak carriage _ ⟨rfl, rfl⟩
    have dash : Stops isSpace ('-' :: (body ++ '}' :: rest)) := by simp [isSpace, isGap]
    rw [spelling]
    refine ⟨_, reads_embedWith_iff.2 (Or.inl ⟨carriage, _, ?_, reads_block_iff.2
      ⟨_, entered, dropWhile_run spaces dash, reading, rfl⟩⟩)⟩
    rw [left, dropWhile_run afters feed]

theorem accepts_embed (depth : Nat) : Accepts depth (Written.embed depth) := by
  induction depth with
  | zero =>
    intro inner rest embedded short
    exact absurd short (Nat.not_lt_zero _)
  | succ depth ih => exact ih.embedWith

end Written

/-- A source is parsed exactly if it is in the language and its braces do not nest too deep. -/
theorem exists_parse_iff_isSource (options : ParseOptions) (source : String) :
    (∃ document, Document.parse options source = .ok document) ↔
      (Nesting.ofSource source.toList).depth ≤ options.maxDepth ∧ IsSource source.toList := by
  constructor
  · rintro ⟨document, parsed⟩
    obtain ⟨pieces, spelled, legible, shallow, -⟩ := Document.parse_eq_ok_iff.1 parsed
    rw [← spelled, Written.depth_ofSource_spellPieces legible]
    exact ⟨shallow, Written.isBody_spellPieces (fun _ text => text) pieces legible⟩
  · rintro ⟨shallow, inside⟩
    obtain ⟨found, left, reading, body, -, ends, unopened⟩ :=
      (Written.accepts_embed source.toList.length).pieces (fun _ text => text)
        (fun _ text => text) inside (Nat.le_refl _) (stops_nil isTopText) (by simp)
    have ended : left = [] := by
      cases left with
      | nil => rfl
      | cons c left =>
        rcases body.cons_cases with ⟨accepted, -⟩ | ⟨rfl, -⟩
        · rw [stops_cons, accepted] at ends
          cases ends
        · exact absurd rfl (unopened left)
    subst ended
    rw [List.append_nil, List.append_nil] at reading
    obtain ⟨spelled, legible, -⟩ := (Written.sound_embed _).pieces reading
    rw [List.append_nil] at spelled
    rw [spelled, Written.depth_ofSource_spellPieces legible] at shallow
    exact ⟨_, Document.parse_eq_ok_iff.2 ⟨found, spelled.symm, legible, shallow, rfl⟩⟩

end Narrative
