import Narrative.Source.Written
import Narrative.Text.Taken

/-!
Reading a source text into its pieces. Nothing is tried twice: the characters after a brace decide
which embed follows. A reader that cannot go on gives the text it stopped before and what it was
waiting for. The depth of embeds is bounded, and the bound is what the recursion descends on.
-/

set_option autoImplicit false

namespace Narrative.Written

/-- What a reader waits for at the place where it stops. -/
inductive Awaiting where
  /-- The next piece outside all embeds. -/
  | piece
  /-- More of what stands after a brace, no colon or other end having been found. -/
  | opening (run : List Char)
  /-- The content after a label. -/
  | content
  /-- The line feed after a carriage return. -/
  | lineFeed
  /-- More of an argument. -/
  | argument
  /-- The first dash of a block. -/
  | dash
  /-- The beginning of an entry, or the colon of an earlier label that may still be open. -/
  | entry (labelOpen : Bool)
  /-- More of an entry, or the colon of a label that may still be open. -/
  | entryContent (labelOpen : Bool)
deriving DecidableEq

structure Stuck where
  /-- The text that was not read. -/
  rest : List Char
  awaiting : Awaiting
deriving DecidableEq

/-- A reader of embeds. It starts after the opening brace. -/
abbrev EmbedReader := (source : List Char) → Except Stuck (Taken Embed source)

/-- Reads text and embeds up to the first other character. -/
def pieces (accept : Char → Bool) (embed : EmbedReader) (source : List Char) :
    Except Stuck (Taken (List Piece) source) :=
  have bound := length_dropWhile_le accept source
  match split : source.dropWhile accept with
  | '{' :: inner =>
    match embed inner with
    | .error stuck => .error stuck
    | .ok found =>
      have inside : found.rest.length < source.length := by
        have := found.shorter
        simp only [split, List.length_cons] at bound
        omega
      match pieces accept embed found.rest with
      | .error stuck => .error stuck
      | .ok more =>
        .ok ⟨textPieces (source.takeWhile accept) ++ .embed found.value :: more.value, more.rest,
          Nat.le_trans more.shorter (Nat.le_of_lt inside)⟩
  | rest => .ok ⟨textPieces (source.takeWhile accept), rest, length_le_of_dropWhile split⟩
termination_by source.length

/-- Reads arguments up to the closing brace. -/
def arguments (embed : EmbedReader) (awaiting : Awaiting) (source : List Char) :
    Except Stuck (Taken (List (List Piece)) source) :=
  match pieces isArgumentText embed source with
  | .error stuck => .error stuck
  | .ok first =>
    have bound := first.shorter
    match split : first.rest with
    | '|' :: next =>
      have inside : next.length < source.length := by
        simp only [split, List.length_cons] at bound
        omega
      match arguments embed .argument next with
      | .error stuck => .error stuck
      | .ok more =>
        .ok ⟨first.value :: more.value, more.rest,
          Nat.le_trans more.shorter (Nat.le_of_lt inside)⟩
    | '}' :: after =>
      .ok ⟨[first.value], after, by simp only [split, List.length_cons] at bound; omega⟩
    | rest => .error ⟨rest, awaiting⟩
termination_by source.length

/-- Reads a label with its colon and the gap after it. -/
def label? (source : List Char) : Option (List Char × List Char × List Char) :=
  match source.takeWhile isLabel, source.dropWhile isLabel with
  | first :: text, ':' :: after =>
    some (first :: text, after.takeWhile isGap, after.dropWhile isGap)
  | _, _ => none

theorem label?_shorter {source text gap rest : List Char}
    (found : label? source = some (text, gap, rest)) : rest.length ≤ source.length := by
  unfold label? at found
  split at found
  · next first chars after _ split =>
    simp only [Option.some.injEq, Prod.mk.injEq] at found
    have outer := length_dropWhile_le isLabel source
    have inner := length_dropWhile_le isGap after
    rw [split, List.length_cons] at outer
    rw [← found.2.2]
    omega
  · simp at found

/-- Whether a label begins the text and nothing ends it. -/
def labelOpen (source : List Char) : Bool :=
  !(source.takeWhile isLabel).isEmpty && (source.dropWhile isLabel).isEmpty

/-- Reads what stands between a dash and the content of its entry. -/
def margin (source : List Char) : Taken Margin source :=
  have bound := length_dropWhile_le isSpace source
  match found : label? (source.dropWhile isSpace) with
  | some (text, gap, rest) =>
    ⟨⟨source.takeWhile isSpace, some (text, gap)⟩, rest,
      Nat.le_trans (label?_shorter found) bound⟩
  | none => ⟨⟨source.takeWhile isSpace, none⟩, source.dropWhile isSpace, bound⟩

/-- Reads entries up to the closing brace, starting after the dash of the first one. `wasOpen`
says whether the label of an earlier entry may still be open. -/
def entries (embed : EmbedReader) (wasOpen : Bool) (source : List Char) :
    Except Stuck (Taken (List Entry) source) :=
  let start := source.dropWhile isSpace
  let isOpen := wasOpen || labelOpen start
  let front := margin source
  if start.isEmpty then .error ⟨[], .entry wasOpen⟩
  else
    match pieces isEntryText embed front.rest with
    | .error stuck => .error stuck
    | .ok content =>
      have bound := Nat.le_trans content.shorter front.shorter
      match split : content.rest with
      | '-' :: next =>
        have inside : next.length < source.length := by
          simp only [split, List.length_cons] at bound
          omega
        match entries embed isOpen next with
        | .error stuck => .error stuck
        | .ok more =>
          .ok ⟨⟨front.value, content.value⟩ :: more.value, more.rest,
            Nat.le_trans more.shorter (Nat.le_of_lt inside)⟩
      | '}' :: after =>
        .ok ⟨[⟨front.value, content.value⟩], after, by
          simp only [split, List.length_cons] at bound; omega⟩
      | rest => .error ⟨rest, .entryContent isOpen⟩
termination_by source.length

/-- Reads what stands between a brace and the branches. A label comes before a sign, so that a
condition may begin with one. -/
def opening (source : List Char) : Taken Opening source :=
  match found : label? source with
  | some (text, gap, rest) => ⟨.label text gap, rest, label?_shorter found⟩
  | none =>
    match source with
    | [] => .nothing [] .bare
    | c :: rest =>
      match Sign.ofChar? c with
      | some sign =>
        ⟨.sign sign (rest.takeWhile isGap), rest.dropWhile isGap,
          Nat.le_succ_of_le (length_dropWhile_le isGap rest)⟩
      | none => .nothing (c :: rest) .bare

/-- What the first argument of an inline embed waits for where it ends too early. `source` is the
text after the brace, `rest` the text after the opening. -/
def firstAwaiting (source rest : List Char) : Awaiting :=
  match source.dropWhile isLabel with
  | [] | '\r' :: _ | '\n' :: _ => .opening (source.takeWhile isLabel)
  | _ => if rest.isEmpty then .content else .argument

/-- Reads a block from below the line of its opening. -/
def block (embed : EmbedReader) (carriage : Bool) (gap source : List Char)
    (value : Opening) : Except Stuck (Taken Embed source) :=
  have bound := length_dropWhile_le isSpace source
  match split : source.dropWhile isSpace with
  | '-' :: next =>
    match entries embed false next with
    | .error stuck => .error stuck
    | .ok found =>
      .ok ⟨.block value ⟨gap, carriage, source.takeWhile isSpace⟩ found.value, found.rest, by
        have := found.shorter
        simp only [split, List.length_cons] at bound
        omega⟩
  | rest => .error ⟨rest, .dash⟩

/-- Reads an embed from after its brace, given a reader for the embeds inside. It is a block if a
line break follows the opening and its gap. -/
def embedWith (embed : EmbedReader) : EmbedReader := fun source =>
  let head := opening source
  have bound := length_dropWhile_le isGap head.rest
  match split : head.rest.dropWhile isGap with
  | '\n' :: below =>
    match block embed false (head.rest.takeWhile isGap) below head.value with
    | .error stuck => .error stuck
    | .ok found =>
      .ok ⟨found.value, found.rest, by
        have := found.shorter
        have := head.shorter
        simp only [split, List.length_cons] at bound
        omega⟩
  | '\r' :: '\n' :: below =>
    match block embed true (head.rest.takeWhile isGap) below head.value with
    | .error stuck => .error stuck
    | .ok found =>
      .ok ⟨found.value, found.rest, by
        have := found.shorter
        have := head.shorter
        simp only [split, List.length_cons] at bound
        omega⟩
  | '\r' :: rest => .error ⟨rest, .lineFeed⟩
  | _ =>
    match arguments embed (firstAwaiting source head.rest) head.rest with
    | .error stuck => .error stuck
    | .ok found =>
      .ok ⟨.inline head.value found.value, found.rest, Nat.le_trans found.shorter head.shorter⟩

/-- Reads an embed from after its brace. Embeds may nest `depth` deep, this one included. -/
def embed : Nat → (source : List Char) → Except Stuck (Taken Embed source)
  | 0, source => .error ⟨'{' :: source, .piece⟩
  | depth + 1, source => embedWith (embed depth) source

/-- Reads a whole source text, with embeds at most `depth` deep. -/
def read (depth : Nat) (source : List Char) : Except Stuck (List Piece) :=
  match pieces isTopText (embed depth) source with
  | .error stuck => .error stuck
  | .ok found => if found.rest.isEmpty then .ok found.value else .error ⟨found.rest, .piece⟩

end Narrative.Written
