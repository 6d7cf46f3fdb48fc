import Mathlib.Data.Prod.Lex
import Narrative.Proofs.Bytes
import Narrative.Proofs.Edits
import Narrative.Text.LineIndex

/-!
Lines and columns of offsets. Main statement: the search for the line of an offset among the lines
of a source never fails, it leads to the place that going through the source leads to, that place
tells the line feeds before the offset and the characters behind the last of them, and later offsets
between characters have later lines or columns.
-/

set_option autoImplicit false

namespace Narrative

/-! ### Halving -/

section

variable {low high : List Nat} {sought : Nat}

/-- If some numbers are not above the sought one and those behind them are, halving ends at the last
of the former. -/
theorem halve?_append (below : ∀ number ∈ low, number ≤ sought)
    (above : ∀ number ∈ high, sought < number) {base size : Nat} (begun : base < low.length)
    (ends : low.length ≤ base + size) (inside : base + size ≤ (low ++ high).length) :
    halve? (low ++ high) sought base size = some (low.length - 1) := by
  induction size using Nat.strongRecOn generalizing base with
  | ind size ih =>
    rw [halve?]
    by_cases one : size ≤ 1
    · rw [if_pos one]
      congr 1
      omega
    · have here : base + size / 2 < (low ++ high).length := by omega
      rw [if_neg one, List.getElem?_eq_getElem here]
      dsimp only
      by_cases front : base + size / 2 < low.length
      · have least : (low ++ high)[base + size / 2] ≤ sought := by
          rw [List.getElem_append_left front]
          exact below _ (List.getElem_mem front)
        rw [if_neg (Nat.not_lt.2 least)]
        apply ih (size - size / 2)
        all_goals omega
      · have greater : sought < (low ++ high)[base + size / 2] := by
          rw [List.getElem_append_right (Nat.le_of_not_lt front)]
          exact above _ (List.getElem_mem _)
        rw [if_pos greater]
        apply ih (size - size / 2)
        all_goals omega

/-- A search ends at the last number that is not above the sought one, or right behind it. -/
theorem search?_append (below : ∀ number ∈ low, number ≤ sought)
    (above : ∀ number ∈ high, sought < number) (some : low ≠ []) :
    search? (low ++ high) sought = .some (.exact (low.length - 1)) ∨
      search? (low ++ high) sought = .some (.missing low.length) := by
  have filled := List.length_pos_iff.2 some
  have size : 0 + (low ++ high).length = (low ++ high).length := Nat.zero_add _
  have ended := halve?_append below above filled
    (by rw [size, List.length_append]; omega) (Nat.le_of_eq size)
  have last : low.length - 1 < low.length := by omega
  have least := below _ (List.getElem_mem last)
  rw [search?, if_neg (by simp [some]), ended, Option.bind_eq_bind, Option.bind_some,
    List.getElem?_append_left last, List.getElem?_eq_getElem last, Option.bind_some]
  by_cases same : low[low.length - 1] = sought
  · rw [if_pos same]
    exact Or.inl rfl
  · have less : low[low.length - 1] < sought := by omega
    rw [if_neg same, if_pos less, Nat.sub_add_cancel filled]
    exact Or.inr rfl

/-- The line of an offset is the last one that begins at it or before it. -/
theorem LineIndex.line?_append (source : List Char) (below : ∀ start ∈ low, start ≤ sought)
    (above : ∀ start ∈ high, sought < start) (some : low ≠ []) :
    (LineIndex.mk source (low ++ high)).line? sought = .some (low.length - 1) := by
  rw [line?]
  obtain ⟨size, filled⟩ := Nat.exists_eq_succ_of_ne_zero (mt List.length_eq_zero_iff.1 some)
  rcases search?_append below above some with found | found
  · rw [found]
    rfl
  · rw [found, filled]
    rfl

end

/-! ### Offsets between and inside characters -/

/-- Where an offset cuts a source: between characters, or inside one. -/
inductive Cut : List Char → Nat → Prop
  | between (front back : List Char) : Cut (front ++ back) (byteLength front)
  | within (front back : List Char) (c : Char) {extra : Nat} (begun : 0 < extra)
    (unended : extra < c.utf8Size) : Cut (front ++ c :: back) (byteLength front + extra)

theorem cut_of_le {source : List Char} {offset : Nat} (inside : offset ≤ byteLength source) :
    Cut source offset := by
  induction source generalizing offset with
  | nil =>
    have first : offset = 0 := Nat.le_zero.1 inside
    subst first
    exact .between [] []
  | cons c text ih =>
    rw [byteLength_cons] at inside
    by_cases first : offset = 0
    · subst first
      exact .between [] (c :: text)
    · by_cases here : offset < c.utf8Size
      · have cut := Cut.within [] text c (Nat.pos_of_ne_zero first) here
        rwa [byteLength_nil, Nat.zero_add] at cut
      · obtain ⟨rest, rfl⟩ := Nat.exists_eq_add_of_le (Nat.le_of_not_lt here)
        have behind : Cut text rest := ih (by omega)
        cases behind with
        | between front back =>
          have cut := Cut.between (c :: front) back
          rwa [byteLength_cons] at cut
        | within front back d begun unended =>
          have cut := Cut.within (c :: front) back d begun unended
          rwa [byteLength_cons, Nat.add_assoc] at cut

/-- An offset between characters of a source, or at one of its ends. -/
def Boundary (source : List Char) (offset : Nat) : Prop :=
  ∃ front back, source = front ++ back ∧ byteLength front = offset

theorem cutAt?_within (front back : List Char) {c : Char} {extra : Nat} (begun : 0 < extra)
    (unended : extra < c.utf8Size) :
    cutAt? (byteLength front + extra) (front ++ c :: back) = none := by
  induction front with
  | nil =>
    obtain ⟨bytes, rfl⟩ := Nat.exists_eq_succ_of_ne_zero (Nat.ne_of_gt begun)
    rw [byteLength_nil, Nat.zero_add, List.nil_append, cutAt?, if_pos unended]
  | cons d front ih =>
    have positive := d.utf8Size_pos
    obtain ⟨bytes, size⟩ : ∃ bytes, d.utf8Size + byteLength front + extra = bytes + 1 :=
      ⟨d.utf8Size + byteLength front + extra - 1, by omega⟩
    have rest : bytes + 1 - d.utf8Size = byteLength front + extra := by omega
    rw [byteLength_cons, size, List.cons_append, cutAt?, if_neg (by omega), rest, ih]
    rfl

/-- Inside a character the source cannot be cut. -/
theorem not_boundary_within (front back : List Char) {c : Char} {extra : Nat} (begun : 0 < extra)
    (unended : extra < c.utf8Size) :
    ¬ Boundary (front ++ c :: back) (byteLength front + extra) := by
  rintro ⟨first, second, whole, size⟩
  have missing := cutAt?_within front back begun unended
  rw [whole, ← size, cutAt?_append] at missing
  cases missing

/-! ### Lines -/

/-- The characters behind the last line feed of a text. -/
def lastLine (text : List Char) : List Char := (text.reverse.takeWhile (· ≠ '\n')).reverse

theorem not_mem_lastLine (text : List Char) : '\n' ∉ lastLine text := by
  rw [lastLine, List.mem_reverse]
  intro member
  have other := accept_of_mem_takeWhile '\n' member
  simp at other

/-- In front of the last line stand whole lines. -/
theorem exists_wholeLines (text : List Char) :
    ∃ lines, WholeLines lines ∧ text = lines ++ lastLine text := by
  refine ⟨(text.reverse.dropWhile (· ≠ '\n')).reverse, ?_, ?_⟩
  · cases rest : text.reverse.dropWhile (· ≠ '\n') with
    | nil => exact Or.inl rfl
    | cons c more =>
      have feed := List.head?_dropWhile_not (· ≠ '\n') text.reverse
      rw [rest] at feed
      have same : c = '\n' := by simpa using feed
      refine Or.inr ⟨more.reverse, ?_⟩
      rw [List.reverse_cons, same]
  · rw [lastLine, ← List.reverse_append, List.takeWhile_append_dropWhile, List.reverse_reverse]

theorem Position.advance_column (place : Position) {text : List Char} (line : '\n' ∉ text) :
    (place.advance text).column = place.column + text.length := by
  induction text generalizing place with
  | nil => rfl
  | cons c text ih =>
    obtain ⟨other, rest⟩ := not_or.1 (mt List.mem_cons.2 line)
    rw [advance_cons, ih _ rest, step, if_neg (Ne.symm other), List.length_cons]
    dsimp only
    omega

/-- The place behind a text is told by its line feeds and its last line. -/
theorem Position.start_advance (text : List Char) :
    start.advance text =
      ⟨byteLength text, text.count '\n' + 1, (lastLine text).length + 1⟩ := by
  obtain ⟨lines, whole, split⟩ := exists_wholeLines text
  have offset : (start.advance text).offset = byteLength text := by
    rw [advance_offset]
    exact Nat.zero_add _
  have line : (start.advance text).line = text.count '\n' + 1 := by
    rw [advance_line]
    exact Nat.add_comm _ _
  have column : (start.advance text).column = (lastLine text).length + 1 := by
    rw [split, advance_append, advance_column _ (not_mem_lastLine text), whole.advance_column,
      ← split]
    exact Nat.add_comm _ _
  rw [← offset, ← line, ← column]

/-! ### Beginnings of lines -/

namespace LineIndex

theorem startsFrom_append (offset : Nat) (first second : List Char) :
    startsFrom offset (first ++ second) =
      startsFrom offset first ++ startsFrom (offset + byteLength first) second := by
  induction first generalizing offset with
  | nil => rfl
  | cons c first ih =>
    rw [List.cons_append, startsFrom, startsFrom, ih, byteLength_cons, Nat.add_assoc]
    split
    · rfl
    · rfl

theorem length_startsFrom (offset : Nat) (text : List Char) :
    (startsFrom offset text).length = text.count '\n' := by
  induction text generalizing offset with
  | nil => rfl
  | cons c text ih =>
    rw [startsFrom, List.count_cons]
    split
    · next feed => simp [feed, ih]
    · next other => simp [other, ih]

/-- Lines begin behind the offset of a text, and not behind its end. -/
theorem bounds_of_mem_startsFrom {offset start : Nat} {text : List Char}
    (member : start ∈ startsFrom offset text) :
    offset < start ∧ start ≤ offset + byteLength text := by
  induction text generalizing offset with
  | nil => cases member
  | cons c text ih =>
    have positive := c.utf8Size_pos
    rw [byteLength_cons]
    rw [startsFrom] at member
    split at member
    · rcases List.mem_cons.1 member with rfl | later
      · omega
      · have bounds := ih later
        omega
    · have bounds := ih member
      omega

/-- Whole lines end where the next line begins. -/
theorem getElem?_startsFrom {lines : List Char} (whole : WholeLines lines) :
    (0 :: startsFrom 0 lines)[lines.count '\n']? = some (byteLength lines) := by
  rcases whole with rfl | ⟨front, rfl⟩
  · rfl
  · have size : front.count '\n' = (0 :: startsFrom 0 front).length - 1 := by
      rw [List.length_cons, length_startsFrom, Nat.add_sub_cancel]
    have last : startsFrom 0 (front ++ ['\n']) = startsFrom 0 front ++ [byteLength front + 1] := by
      rw [startsFrom_append, Nat.zero_add]
      rfl
    have feed : (front ++ ['\n']).count '\n' = (startsFrom 0 front).length + 1 := by
      rw [List.count_append, length_startsFrom]
      rfl
    have bytes : byteLength (front ++ ['\n']) = byteLength front + 1 := by
      rw [byteLength_append]
      rfl
    rw [feed, last, bytes, List.getElem?_cons_succ, List.getElem?_append_right (Nat.le_refl _)]
    simp

/-! ### Places of offsets -/

/-- The line of an offset is found among the lines of what stands before it, and it begins behind
the whole lines there. -/
theorem line?_ofSource {front back : List Char} {offset : Nat} (begun : byteLength front ≤ offset)
    (behind : ∀ start ∈ startsFrom (byteLength front) back, offset < start) :
    (ofSource (front ++ back)).line? offset = some (front.count '\n') ∧
      ∃ lines, front = lines ++ lastLine front ∧
        (ofSource (front ++ back)).starts[front.count '\n']? = some (byteLength lines) := by
  have split : (ofSource (front ++ back)).starts =
      (0 :: startsFrom 0 front) ++ startsFrom (byteLength front) back := by
    rw [ofSource, startsFrom_append, Nat.zero_add, List.cons_append]
  have below : ∀ start ∈ 0 :: startsFrom 0 front, start ≤ offset := by
    intro start member
    rcases List.mem_cons.1 member with rfl | later
    · exact Nat.zero_le offset
    · have bounds := bounds_of_mem_startsFrom later
      omega
  have size : (0 :: startsFrom 0 front).length = front.count '\n' + 1 := by
    rw [List.length_cons, length_startsFrom]
  constructor
  · have found := line?_append (front ++ back) below behind (List.cons_ne_nil _ _)
    rw [size, Nat.add_sub_cancel, ← split] at found
    exact found
  · obtain ⟨lines, whole, cut⟩ := exists_wholeLines front
    refine ⟨lines, cut, ?_⟩
    have none : (lastLine front).count '\n' = 0 := List.count_eq_zero.2 (not_mem_lastLine front)
    have feeds : front.count '\n' = lines.count '\n' := by
      have both := @List.count_append _ _ '\n' lines (lastLine front)
      rw [← cut, none] at both
      exact both
    have starts : startsFrom 0 front = startsFrom 0 lines := by
      have both := startsFrom_append 0 lines (lastLine front)
      have rest : startsFrom (0 + byteLength lines) (lastLine front) = [] := by
        apply List.eq_nil_of_length_eq_zero
        rw [length_startsFrom, none]
      rwa [← cut, rest, List.append_nil] at both
    rw [split, List.getElem?_append_left (by omega), starts, feeds]
    exact getElem?_startsFrom whole

end LineIndex

theorem slice?_between (lines line back : List Char) :
    slice? (lines ++ line ++ back) (.ofBytes (byteLength lines) (byteLength (lines ++ line))) =
      some line := by
  rw [slice?, Span.ofBytes]
  dsimp only
  rw [byteLength_append, if_neg (by omega), List.append_assoc, cutAt?_append]
  dsimp only
  rw [Nat.add_sub_cancel_left, cutAt?_append]
  rfl

theorem slice?_within (lines line back : List Char) {c : Char} {extra : Nat} (begun : 0 < extra)
    (unended : extra < c.utf8Size) :
    slice? (lines ++ line ++ c :: back)
      (.ofBytes (byteLength lines) (byteLength (lines ++ line) + extra)) = none := by
  rw [slice?, Span.ofBytes]
  dsimp only
  rw [byteLength_append, if_neg (by omega), List.append_assoc, cutAt?_append]
  dsimp only
  rw [Nat.add_assoc, Nat.add_sub_cancel_left, cutAt?_within line back begun unended]
  rfl

/-- Going on to an offset inside a character ends in its line. -/
theorem Position.reach_within (place : Position) (front back : List Char) {c : Char} {extra : Nat}
    (begun : 0 < extra) (unended : extra < c.utf8Size) :
    place.reach (place.offset + (byteLength front + extra)) (front ++ c :: back) =
      ⟨place.offset + (byteLength front + extra), (place.advance front).line, 1⟩ := by
  induction front generalizing place with
  | nil =>
    rw [byteLength_nil, Nat.zero_add, List.nil_append, reach, if_neg (by omega),
      if_pos (by omega), advance_nil]
  | cons d front ih =>
    have positive := d.utf8Size_pos
    have next := ih (place.step d)
    have offset : (place.step d).offset + (byteLength front + extra) =
        place.offset + (byteLength (d :: front) + extra) := by
      rw [step_offset, byteLength_cons]
      omega
    rw [offset] at next
    rw [List.cons_append, reach, if_neg (by rw [byteLength_cons]; omega),
      if_neg (by rw [byteLength_cons]; omega), next, advance_cons]

/-- A line feed has no offset inside. -/
theorem ne_feed_of_within {c : Char} {extra : Nat} (begun : 0 < extra)
    (unended : extra < c.utf8Size) : c ≠ '\n' := by
  rintro rfl
  have one : '\n'.utf8Size = 1 := rfl
  omega

/-- What a place tells of a source: the line feeds before its offset and, if the offset is between
characters, the characters behind the last of them. -/
inductive Position.Told : List Char → Position → Prop
  | between (front back : List Char) : Told (front ++ back)
    ⟨byteLength front, front.count '\n' + 1, (lastLine front).length + 1⟩
  | within (front back : List Char) (c : Char) {extra : Nat} (begun : 0 < extra)
    (unended : extra < c.utf8Size) : Told (front ++ c :: back)
    ⟨byteLength front + extra, front.count '\n' + 1, 1⟩

theorem Position.told_reach {source : List Char} {offset : Nat} (cut : Cut source offset) :
    (start.reach offset source).offset = offset ∧ (start.reach offset source).Told source := by
  have zero (offset : Nat) : start.offset + offset = offset := Nat.zero_add offset
  cases cut with
  | between front back =>
    have place := reach_advance start front back
    rw [zero, start_advance] at place
    rw [place]
    exact ⟨rfl, .between front back⟩
  | within front back c begun unended =>
    have place := start.reach_within front back begun unended
    rw [zero, start_advance] at place
    rw [place]
    exact ⟨rfl, .within front back c begun unended⟩

namespace LineIndex

/-- The search leads to the place that tells the source. -/
theorem position?_of_told {source : List Char} {place : Position} (told : place.Told source)
    {offset : Nat} (clamped : min offset (byteLength source) = place.offset) :
    (ofSource source).position? offset = some place := by
  have whole : (ofSource source).source = source := rfl
  rw [position?, whole]
  dsimp only
  rw [clamped]
  cases told with
  | between front back =>
    obtain ⟨found, lines, split, begun⟩ := @line?_ofSource front back (byteLength front)
      (Nat.le_refl _) (fun _ member => (bounds_of_mem_startsFrom member).1)
    have before := slice?_between lines (lastLine front) back
    rw [← split] at before
    rw [found, Option.bind_eq_bind, Option.bind_some, begun, Option.bind_some, before]
    rfl
  | @within front back c extra begun unended =>
    have behind : ∀ start ∈ startsFrom (byteLength front) (c :: back),
        byteLength front + extra < start := by
      rw [startsFrom, if_neg (ne_feed_of_within begun unended)]
      intro start member
      have bounds := bounds_of_mem_startsFrom member
      omega
    obtain ⟨found, lines, split, begins⟩ := line?_ofSource (Nat.le_add_right _ extra) behind
    have before := slice?_within lines (lastLine front) back begun unended
    rw [← split] at before
    rw [found, Option.bind_eq_bind, Option.bind_some, begins, Option.bind_some, before]
    rfl

end LineIndex

theorem Position.told_ofOffset (source : List Char) (offset : Nat) :
    (ofOffset source offset).offset = min offset (byteLength source) ∧
      (ofOffset source offset).Told source :=
  told_reach (cut_of_le (Nat.min_le_right offset (byteLength source)))

/-- The search leads to the place that going through the source leads to. -/
theorem LineIndex.position?_ofSource (source : List Char) (offset : Nat) :
    (ofSource source).position? offset = some (Position.ofOffset source offset) := by
  obtain ⟨clamped, told⟩ := Position.told_ofOffset source offset
  exact position?_of_told told clamped.symm

theorem LineIndex.locate?_ofSource (source : List Char) (span : Span) :
    (ofSource source).locate? span =
      some (Span.ofOffsets source span.start.offset span.stop.offset) := by
  rw [locate?, position?_ofSource, position?_ofSource]
  rfl

/-! ### Line feeds as bytes -/

/-- Of all characters only the line feed has its byte in its UTF-8 form. -/
theorem feed_not_mem_encode {c : Char} (other : c ≠ '\n') : 10 ∉ String.utf8EncodeChar c := by
  have feed : c.val.toNat ≠ 10 := by
    intro same
    exact other (Char.ext (UInt32.toNat_inj.1 same))
  have byte {number : Nat} (small : number < 256) (apart : number ≠ 10) :
      ¬ (10 : UInt8) = UInt8.ofNat number := by
    intro same
    have numbers := congrArg UInt8.toNat same
    rw [UInt8.toNat_ofNat', Nat.mod_eq_of_lt small] at numbers
    exact apart numbers.symm
  intro member
  simp only [String.utf8EncodeChar] at member
  split_ifs at member
  all_goals
    simp (disch := omega) only [List.mem_cons, List.not_mem_nil, or_false, byte] at member

theorem count_flatMap_encode (text : List Char) :
    (text.flatMap String.utf8EncodeChar).count 10 = text.count '\n' := by
  induction text with
  | nil => rfl
  | cons c text ih =>
    rw [List.flatMap_cons, List.count_append, ih, List.count_cons, Nat.add_comm]
    congr 1
    by_cases feed : c = '\n'
    · subst feed
      rfl
    · rw [List.count_eq_zero.2 (feed_not_mem_encode feed)]
      simp [feed]

theorem length_flatMap_encode (text : List Char) :
    (text.flatMap String.utf8EncodeChar).length = byteLength text := by
  induction text with
  | nil => rfl
  | cons c text ih =>
    rw [List.flatMap_cons, List.length_append, ih, String.length_utf8EncodeChar, byteLength_cons]

/-- A place tells the line feeds among the bytes before it. -/
theorem Position.Told.line {source : List Char} {place : Position} (told : place.Told source) :
    place.line = 1 +
      ((source.flatMap String.utf8EncodeChar).take place.offset).count 10 := by
  rw [Nat.add_comm]
  cases told with
  | between front back =>
    dsimp only
    rw [List.flatMap_append, ← length_flatMap_encode, List.take_left, count_flatMap_encode]
  | @within front back c extra begun unended =>
    have cut : ((c :: back).flatMap String.utf8EncodeChar).take extra =
        (String.utf8EncodeChar c).take extra := by
      rw [List.flatMap_cons, List.take_append_of_le_length]
      rw [String.length_utf8EncodeChar]
      exact Nat.le_of_lt unended
    have none : ((String.utf8EncodeChar c).take extra).count 10 = 0 := by
      apply List.count_eq_zero.2
      exact mt List.mem_of_mem_take (feed_not_mem_encode (ne_feed_of_within begun unended))
    dsimp only
    rw [List.flatMap_append, ← length_flatMap_encode, List.take_length_add_append, cut,
      List.count_append, none, count_flatMap_encode, Nat.add_zero]

/-! ### All offsets -/

/-- Two cuts at one offset have the same text in front. -/
theorem eq_of_byteLength_eq {front back other rest : List Char}
    (whole : front ++ back = other ++ rest) (same : byteLength front = byteLength other) :
    front = other := by
  have cut := cutAt?_append front back
  rw [whole, same, cutAt?_append] at cut
  exact (Prod.mk.inj (Option.some.inj cut)).1.symm

/-- A place is right for an offset of a source. -/
structure Position.Locates (source : String) (offset : Nat) (place : Position) : Prop where
  /-- Offsets past the end stand for the end. -/
  offset : place.offset = min offset (byteLength source.toList)
  /-- Lines count from one, by the line feeds among the bytes before the offset. -/
  line : place.line = 1 + ((utf8 source).take place.offset).count 10
  /-- Between characters, columns count from one, by the characters behind the last line feed. -/
  column : ∀ front back, source.toList = front ++ back → byteLength front = place.offset →
    place.column = 1 + (lastLine front).length
  /-- An offset inside a character has the first column. -/
  inside : ¬ Boundary source.toList place.offset → place.column = 1

theorem Position.Told.locates {source : String} {place : Position} {offset : Nat}
    (told : place.Told source.toList)
    (clamped : place.offset = min offset (byteLength source.toList)) :
    place.Locates source offset := by
  refine ⟨clamped, ?_, ?_, ?_⟩
  · rw [utf8_eq_flatMap]
    exact told.line
  · generalize source.toList = text at told
    cases told with
    | between front back =>
      intro other rest whole same
      rw [eq_of_byteLength_eq whole same.symm]
      exact Nat.add_comm _ _
    | within front back c begun unended =>
      intro other rest whole same
      exact absurd ⟨other, rest, whole, same⟩ (not_boundary_within front back begun unended)
  · generalize source.toList = text at told
    cases told with
    | between front back =>
      intro apart
      exact absurd ⟨front, back, rfl, rfl⟩ apart
    | within front back c begun unended =>
      intro _
      rfl

/-- Places between characters come in the order of their lines and columns. -/
theorem strictMonoOn_ofOffset (source : List Char) :
    StrictMonoOn (fun offset => toLex
      ((Position.ofOffset source offset).line, (Position.ofOffset source offset).column))
      {offset | Boundary source offset} := by
  rintro - ⟨front, back, rfl, rfl⟩ - ⟨other, rest, whole, rfl⟩ less
  rw [Prod.Lex.toLex_lt_toLex]
  dsimp only
  rw [Position.ofOffset_append, whole, Position.ofOffset_append]
  rcases List.append_eq_append_iff.1 whole with ⟨between, rfl, -⟩ | ⟨between, rfl, -⟩
  · have some : between ≠ [] := by
      rintro rfl
      rw [List.append_nil] at less
      exact Nat.lt_irrefl _ less
    rw [Position.advance_append]
    exact Position.advance_line_column _ some
  · rw [byteLength_append] at less
    omega

/-- The places of offsets. Whatever the offset, the search among the lines of a source finds the
place that going through the source leads to, and that place is right. Offsets between characters
that follow one another have places that follow one another, so no two of them share line and
column. -/
theorem LineIndex.places_of_offsets (source : String) :
    (∀ offset, ∃ place, (LineIndex.ofSource source.toList).position? offset = some place ∧
      place = Position.ofOffset source.toList offset ∧ place.Locates source offset) ∧
    StrictMonoOn (fun offset => toLex
      ((Position.ofOffset source.toList offset).line,
        (Position.ofOffset source.toList offset).column))
      {offset | Boundary source.toList offset} ∧
    Set.InjOn (fun offset =>
      ((Position.ofOffset source.toList offset).line,
        (Position.ofOffset source.toList offset).column))
      {offset | Boundary source.toList offset} := by
  have ascending := strictMonoOn_ofOffset source.toList
  refine ⟨fun offset => ?_, ascending, fun first here second there same => ?_⟩
  · obtain ⟨clamped, told⟩ := Position.told_ofOffset source.toList offset
    exact ⟨_, position?_ofSource source.toList offset, rfl, told.locates clamped⟩
  · exact ascending.injOn here there (congrArg toLex same)

/-- The second offset is that of the line feed, the fourth is inside a character, and the last one
is past the end. -/
example : [0, 2, 3, 4, 99].map (LineIndex.ofSource "é\nß".toList).position? =
    [some ⟨0, 1, 1⟩, some ⟨2, 1, 2⟩, some ⟨3, 2, 1⟩, some ⟨4, 2, 1⟩, some ⟨5, 2, 2⟩] := by
  cbv

end Narrative
