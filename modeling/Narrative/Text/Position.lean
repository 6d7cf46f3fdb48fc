/-!
Places in a source text. Offsets count bytes of the UTF-8 form, lines and columns count from one,
and columns count characters. A place is found by going on from an earlier one over the text in
between, or from an offset, and `ofOffset_append` says that both agree.
-/

set_option autoImplicit false

namespace Narrative

-- Sums begin with the built-in zero, whatever else is imported.
attribute [local instance (high)] Zero.ofOfNat0

/-- Number of bytes in the UTF-8 form of a text. -/
def byteLength (text : List Char) : Nat := (text.map Char.utf8Size).sum

@[simp] theorem byteLength_nil : byteLength [] = 0 := rfl

@[simp] theorem byteLength_cons (c : Char) (text : List Char) :
    byteLength (c :: text) = c.utf8Size + byteLength text := by
  simp [byteLength]

@[simp] theorem byteLength_append (first second : List Char) :
    byteLength (first ++ second) = byteLength first + byteLength second := by
  simp [byteLength]

theorem byteLength_pos {text : List Char} (nonempty : text ≠ []) : 0 < byteLength text := by
  obtain ⟨c, rest, rfl⟩ := List.exists_cons_of_ne_nil nonempty
  rw [byteLength_cons]
  exact Nat.add_pos_left c.utf8Size_pos _

/-- Cuts a text after a number of bytes, unless that is inside a character. -/
def cutAt? : Nat → List Char → Option (List Char × List Char)
  | 0, text => some ([], text)
  | _ + 1, [] => none
  | bytes + 1, c :: text =>
    if bytes + 1 < c.utf8Size then none
    else (cutAt? (bytes + 1 - c.utf8Size) text).map (fun (front, back) => (c :: front, back))

theorem cutAt?_append (front back : List Char) :
    cutAt? (byteLength front) (front ++ back) = some (front, back) := by
  induction front with
  | nil => rw [byteLength_nil, List.nil_append, cutAt?]
  | cons c front ih =>
    have positive := c.utf8Size_pos
    obtain ⟨bytes, size⟩ : ∃ bytes, c.utf8Size + byteLength front = bytes + 1 :=
      ⟨c.utf8Size + byteLength front - 1, by omega⟩
    rw [byteLength_cons, size, List.cons_append, cutAt?, if_neg (by omega), ← size,
      Nat.add_sub_cancel_left, ih]
    rfl

/-- A place in a source text. -/
structure Position where
  /-- Bytes before the place. -/
  offset : Nat
  /-- Number of the line, from one. -/
  line : Nat
  /-- Number of the character within its line, from one. -/
  column : Nat
deriving DecidableEq

namespace Position

/-- The place of a node that was not read from a text. -/
instance : Inhabited Position := ⟨⟨0, 0, 0⟩⟩

def start : Position := ⟨0, 1, 1⟩

def step (place : Position) (c : Char) : Position :=
  if c = '\n' then ⟨place.offset + c.utf8Size, place.line + 1, 1⟩
  else ⟨place.offset + c.utf8Size, place.line, place.column + 1⟩

/-- The place after a stretch of text. -/
def advance (place : Position) (text : List Char) : Position := text.foldl step place

@[simp] theorem advance_nil (place : Position) : place.advance [] = place := rfl

@[simp] theorem advance_cons (place : Position) (c : Char) (text : List Char) :
    place.advance (c :: text) = (place.step c).advance text := rfl

theorem advance_append (place : Position) (first second : List Char) :
    place.advance (first ++ second) = (place.advance first).advance second :=
  List.foldl_append

@[simp] theorem step_offset (place : Position) (c : Char) :
    (place.step c).offset = place.offset + c.utf8Size := by
  unfold step
  split <;> rfl

@[simp] theorem advance_offset (place : Position) (text : List Char) :
    (place.advance text).offset = place.offset + byteLength text := by
  induction text generalizing place with
  | nil => rfl
  | cons c text ih => rw [advance_cons, ih, step_offset, byteLength_cons, Nat.add_assoc]

/-- Goes on from a place to an offset. An offset inside a character has the first column of its
line. -/
def reach (place : Position) (offset : Nat) : List Char → Position
  | [] => place
  | c :: text =>
    if offset ≤ place.offset then place
    else if offset < place.offset + c.utf8Size then ⟨offset, place.line, 1⟩
    else (place.step c).reach offset text

/-- The place of a byte offset. Offsets past the end stand for the end. -/
def ofOffset (source : List Char) (offset : Nat) : Position :=
  start.reach (min offset (byteLength source)) source

theorem reach_advance (place : Position) (front back : List Char) :
    place.reach (place.offset + byteLength front) (front ++ back) = place.advance front := by
  induction front generalizing place with
  | nil => cases back <;> simp [reach]
  | cons c front ih =>
    have positive := c.utf8Size_pos
    have next := ih (place.step c)
    rw [step_offset, Nat.add_assoc] at next
    simp only [List.cons_append, reach, byteLength_cons, advance_cons]
    rw [if_neg (by omega), if_neg (by omega), next]

/-- On character boundaries the place of an offset is the place after the text before it. -/
theorem ofOffset_append (front back : List Char) :
    ofOffset (front ++ back) (byteLength front) = start.advance front := by
  have found := reach_advance start front back
  rw [show start.offset = 0 from rfl, Nat.zero_add] at found
  rw [ofOffset, byteLength_append, Nat.min_eq_left (Nat.le_add_right _ _), found]

/-- Written as `line:column`. -/
def display (place : Position) : String :=
  toString place.line ++ ":" ++ toString place.column

end Position

/-- A stretch of a source text, from `start` up to but not including `stop`. -/
structure Span where
  start : Position
  stop : Position
deriving DecidableEq

namespace Span

/-- The span of a node that was not read from a text. -/
instance : Inhabited Span := ⟨⟨default, default⟩⟩

/-- The span of a stretch of text from a place on. -/
def ofText (start : Position) (text : List Char) : Span := ⟨start, start.advance text⟩

/-- A span whose lines and columns are not known yet. -/
def ofBytes (start stop : Nat) : Span := ⟨⟨start, 0, 0⟩, ⟨stop, 0, 0⟩⟩

/-- The span between two byte offsets of a source text. -/
def ofOffsets (source : List Char) (start stop : Nat) : Span :=
  ⟨Position.ofOffset source start, Position.ofOffset source stop⟩

/-- Whether `inner` lies entirely inside `outer`. -/
def contains (outer inner : Span) : Bool :=
  outer.start.offset ≤ inner.start.offset && inner.stop.offset ≤ outer.stop.offset

/-- Written as `line:column-line:column`. -/
def display (span : Span) : String := span.start.display ++ "-" ++ span.stop.display

end Span

/-- The characters of a source at a span, unless the span begins or ends inside a character. -/
def slice? (source : List Char) (span : Span) : Option (List Char) :=
  if span.stop.offset < span.start.offset then none
  else
    match cutAt? span.start.offset source with
    | none => none
    | some (_, back) => (cutAt? (span.stop.offset - span.start.offset) back).map Prod.fst

end Narrative
