import Mathlib.Data.List.Chain
import Narrative.Proofs.Faults

/-!
Tokens and braces of a source text. The tokens lie one behind the other from the first byte to the
last, and a piece of the text is a token exactly if it spells one where it stands. A token begins
and ends where no other one could go on, so nothing that spells a token begins inside another one.
The nesting and the brace left open are those of one scan over the characters that keeps a stack of
open braces: depth is the height of that stack.
-/

set_option autoImplicit false

namespace Narrative

namespace Token

/-! ### Pieces that spell a token -/

/-- The characters that are a token on their own, each with its token. -/
def marks : List (Char × Token) :=
  [('{', openBrace), ('}', closeBrace), ('|', pipe), ('-', dash)]

/-- The characters that shape directives or end lines. Runs are made of all others. -/
def special : List Char := ['{', '}', '|', '-', '\r', '\n']

/-- A piece of a text spells a token, given the text before it and the text behind it. -/
inductive Spells : Token → List Char → List Char → List Char → Prop
  | mark {token : Token} {c : Char} {front back : List Char} (member : (c, token) ∈ marks) :
    Spells token front [c] back
  | lineFeed {front back : List Char} (alone : front.getLast? ≠ some '\r') :
    Spells newline front ['\n'] back
  | returnAndFeed {front back : List Char} : Spells newline front ['\r', '\n'] back
  /-- A run cannot be made longer at either end. -/
  | run {front chars back : List Char} (nonempty : chars ≠ []) (plain : ∀ c ∈ chars, c ∉ special)
    (first : ∀ c ∈ front.getLast?, c ∈ special) (last : ∀ c ∈ back.head?, c ∈ special) :
    Spells text front chars back
  | carriageReturn {front back : List Char} (alone : back.head? ≠ some '\n') :
    Spells text front ['\r'] back

/-- No token goes on over the place between two texts. -/
def Seam (front back : List Char) : Prop :=
  ∀ c ∈ front.getLast?, ∀ d ∈ back.head?, (c ∈ special ∨ d ∈ special) ∧ ¬ (c = '\r' ∧ d = '\n')

variable {token : Token} {front chars back rest : List Char} {c : Char}

theorem special_of_mark (member : (c, token) ∈ marks) : c ∈ special ∧ c ≠ '\r' ∧ c ≠ '\n' := by
  simp only [marks, List.mem_cons, Prod.mk.injEq, List.not_mem_nil, or_false] at member
  rcases member with ⟨rfl, -⟩ | ⟨rfl, -⟩ | ⟨rfl, -⟩ | ⟨rfl, -⟩ <;> decide

theorem ofMark?_of_mark (member : (c, token) ∈ marks) : ofMark? c = some token := by
  simp only [marks, List.mem_cons, Prod.mk.injEq, List.not_mem_nil, or_false] at member
  rcases member with ⟨rfl, rfl⟩ | ⟨rfl, rfl⟩ | ⟨rfl, rfl⟩ | ⟨rfl, rfl⟩ <;> rfl

theorem isOrdinary_iff : isOrdinary c = true ↔ c ∉ special := by
  unfold isOrdinary ofMark?
  split
  all_goals simp_all [special]

theorem Spells.ne_nil (spells : Spells token front chars back) : chars ≠ [] := by
  cases spells with
  | run nonempty => exact nonempty
  | _ => exact List.cons_ne_nil _ _

/-- A token begins where none before it could go on. -/
theorem Spells.seam (spells : Spells token front chars back) : Seam front (chars ++ back) := by
  intro c last d first
  cases spells with
  | mark member =>
    cases first
    obtain ⟨special, -, feed⟩ := special_of_mark member
    exact ⟨Or.inr special, fun both => feed both.2⟩
  | lineFeed alone =>
    cases first
    refine ⟨Or.inr (by decide), fun both => alone ?_⟩
    rw [← both.1]
    exact last
  | returnAndFeed | carriageReturn =>
    cases first
    exact ⟨Or.inr (by decide), by simp⟩
  | run nonempty plain before =>
    obtain ⟨e, more, rfl⟩ := List.exists_cons_of_ne_nil nonempty
    cases first
    refine ⟨Or.inl (before c last), ?_⟩
    rintro ⟨-, rfl⟩
    exact plain '\n' List.mem_cons_self (by decide)

/-- A token ends where it could not go on. -/
theorem Spells.seam_behind (spells : Spells token front chars back) :
    Seam (front ++ chars) back := by
  intro c last d first
  cases spells with
  | mark member =>
    obtain rfl : _ = c := by simpa using last
    obtain ⟨special, carriage, -⟩ := special_of_mark member
    exact ⟨Or.inl special, fun both => carriage both.1⟩
  | lineFeed | returnAndFeed =>
    obtain rfl : '\n' = c := by simpa using last
    exact ⟨Or.inl (by decide), by simp⟩
  | run nonempty plain before behind =>
    have member : c ∈ chars := by
      rw [List.getLast?_append, List.getLast?_eq_some_getLast nonempty, Option.some_or] at last
      exact List.mem_of_getLast? ((List.getLast?_eq_some_getLast nonempty).trans last)
    refine ⟨Or.inr (behind d first), ?_⟩
    rintro ⟨rfl, -⟩
    exact plain '\r' member (by decide)
  | carriageReturn alone =>
    obtain rfl : '\r' = c := by simpa using last
    refine ⟨Or.inl (by decide), fun both => alone ?_⟩
    rw [← both.2]
    exact first

/-- Inside a token it could go on at every place. -/
theorem Spells.not_seam {left right : List Char} {d : Char}
    (spells : Spells token front (left ++ c :: d :: right) back) :
    ¬ Seam (front ++ (left ++ [c])) (d :: (right ++ back)) := by
  intro seam
  obtain ⟨apart, broken⟩ := seam c (by simp) d rfl
  generalize whole : left ++ c :: d :: right = chars at spells
  cases spells with
  | mark | lineFeed | carriageReturn =>
    have size := congrArg List.length whole
    simp only [List.length_append, List.length_cons, List.length_nil] at size
    omega
  | returnAndFeed =>
    cases left with
    | nil =>
      cases whole
      exact broken ⟨rfl, rfl⟩
    | cons e left =>
      have size := congrArg List.length whole
      simp only [List.length_append, List.length_cons, List.length_nil] at size
      omega
  | run nonempty plain =>
    rcases apart with here | there
    · exact plain c (by simp [← whole]) here
    · exact plain d (by simp [← whole]) there

/-- A piece that spells a token where a text begins is cut off as that token. -/
theorem split_of_spells (spells : Spells token front chars back) :
    split (chars ++ back) = (token, chars) :: split back := by
  cases spells with
  | mark member =>
    rw [List.singleton_append, split, ofMark?_of_mark member]
  | lineFeed =>
    rw [List.singleton_append, split]
    rfl
  | returnAndFeed =>
    rw [List.cons_append, split]
    rfl
  | run nonempty plain before behind =>
    obtain ⟨c, more, rfl⟩ := List.exists_cons_of_ne_nil nonempty
    have ordinary := isOrdinary_iff.2 (plain c List.mem_cons_self)
    simp only [isOrdinary, Bool.and_eq_true, Option.isNone_iff_eq_none, bne_iff_ne, ne_eq]
      at ordinary
    have all : ∀ d ∈ more, isOrdinary d = true :=
      fun d member => isOrdinary_iff.2 (plain d (List.mem_cons_of_mem c member))
    have stops : Stops isOrdinary back := by
      intro d head
      have := mt isOrdinary_iff.1 (not_not_intro (behind d head))
      simpa using this
    rw [List.cons_append, split, ordinary.1]
    simp only [if_neg ordinary.2]
    rw [takeWhile_run all stops, dropWhile_run all stops]
  | carriageReturn alone =>
    rw [List.singleton_append, split]
    simp [ofMark?, alone]

/-- Where no token goes on, one is spelled. -/
theorem exists_spells {source : List Char} (seam : Seam front source) (nonempty : source ≠ []) :
    ∃ token chars rest, source = chars ++ rest ∧ Spells token front chars rest := by
  obtain ⟨c, source, rfl⟩ := List.exists_cons_of_ne_nil nonempty
  by_cases special : c ∈ Token.special
  · simp only [Token.special, List.mem_cons, List.not_mem_nil, or_false] at special
    rcases special with rfl | rfl | rfl | rfl | rfl | rfl
    · exact ⟨openBrace, ['{'], source, rfl, .mark (by decide)⟩
    · exact ⟨closeBrace, ['}'], source, rfl, .mark (by decide)⟩
    · exact ⟨pipe, ['|'], source, rfl, .mark (by decide)⟩
    · exact ⟨dash, ['-'], source, rfl, .mark (by decide)⟩
    · by_cases feed : source.head? = some '\n'
      · obtain ⟨rest, rfl⟩ := List.head?_eq_some_iff.1 feed
        exact ⟨newline, ['\r', '\n'], rest, rfl, .returnAndFeed⟩
      · exact ⟨text, ['\r'], source, rfl, .carriageReturn feed⟩
    · refine ⟨newline, ['\n'], source, rfl, .lineFeed (fun last => ?_)⟩
      exact (seam '\r' last '\n' rfl).2 ⟨rfl, rfl⟩
  · obtain ⟨run, rest, rfl, all, stops⟩ := exists_run isOrdinary source
    refine ⟨text, c :: run, rest, rfl, .run (List.cons_ne_nil c run) ?_ ?_ ?_⟩
    · rintro d (_ | ⟨_, member⟩)
      · exact special
      · exact isOrdinary_iff.1 (all d member)
    · intro d last
      exact (seam d last c rfl).1.resolve_right special
    · intro d head
      have stopped := stops d head
      rwa [← Bool.not_eq_true, isOrdinary_iff, Decidable.not_not] at stopped

end Token

/-! ### Tiles -/

open Token (Spells Seam split_of_spells exists_spells)

/-- Lexemes lie one behind the other on a text that follows another one, and each covers a piece
that spells its token. -/
inductive Tiled : List Char → List Char → List Lexeme → Prop
  | nil {front : List Char} : Tiled front [] []
  | cons {token : Token} {front chars rest : List Char} {lexemes : List Lexeme}
    (spells : Spells token front chars rest) (behind : Tiled (front ++ chars) rest lexemes) :
    Tiled front (chars ++ rest) (⟨token, byteLength front, byteLength (front ++ chars)⟩ :: lexemes)

section

variable {token : Token} {front source chars : List Char} {lexemes : List Lexeme} {lexeme : Lexeme}

/-- A text is tiled from every place over which no token goes. -/
theorem tiled_place (seam : Seam front source) :
    Tiled front source (Lexeme.place (byteLength front) (Token.split source)) := by
  induction size : source.length using Nat.strongRecOn generalizing front source with
  | ind length ih =>
    by_cases empty : source = []
    · rw [empty, Token.split, Lexeme.place]
      exact .nil
    obtain ⟨token, chars, rest, rfl, spells⟩ := exists_spells seam empty
    have shorter : rest.length < length := by
      have positive := List.length_pos_iff.2 spells.ne_nil
      rw [List.length_append] at size
      omega
    have behind := ih rest.length shorter spells.seam_behind rfl
    rw [split_of_spells spells, Lexeme.place, ← byteLength_append]
    exact .cons spells behind

theorem Tiled.nonempty (tiled : Tiled front source lexemes) :
    ∀ lexeme ∈ lexemes, lexeme.start < lexeme.stop := by
  induction tiled with
  | nil => exact fun _ member => absurd member List.not_mem_nil
  | @cons token front chars rest lexemes spells behind ih =>
    rintro lexeme (_ | ⟨_, member⟩)
    · change byteLength front < byteLength (front ++ chars)
      rw [byteLength_append]
      exact Nat.lt_add_of_pos_right (byteLength_pos spells.ne_nil)
    · exact ih lexeme member

theorem Tiled.head (tiled : Tiled front source lexemes) :
    ∀ lexeme ∈ lexemes.head?, lexeme.start = byteLength front := by
  cases tiled with
  | nil => exact fun _ head => nomatch head
  | cons spells behind =>
    intro lexeme head
    cases head
    rfl

theorem Tiled.touching (tiled : Tiled front source lexemes) :
    lexemes.IsChain (fun first second => first.stop = second.start) := by
  induction tiled with
  | nil => exact .nil
  | cons spells behind ih =>
    rw [List.isChain_cons]
    exact ⟨fun next head => (behind.head next head).symm, ih⟩

theorem Tiled.eq_nil (tiled : Tiled front source lexemes) (none : lexemes = []) : source = [] := by
  cases tiled with
  | nil => rfl
  | cons spells behind => cases none

theorem Tiled.last (tiled : Tiled front source lexemes) :
    ∀ lexeme ∈ lexemes.getLast?, lexeme.stop = byteLength (front ++ source) := by
  induction tiled with
  | nil => exact fun _ last => nomatch last
  | @cons token front chars rest lexemes spells behind ih =>
    intro lexeme last
    rw [← List.append_assoc]
    by_cases none : lexemes = []
    · obtain rfl := behind.eq_nil none
      subst none
      cases last
      exact congrArg byteLength (List.append_nil _).symm
    · rw [List.getLast?_cons_of_ne_nil none] at last
      exact ih lexeme last

/-- What a tile covers spells its token. -/
theorem Tiled.spelled (tiled : Tiled front source lexemes) (member : lexeme ∈ lexemes) :
    ∃ before chars back, front ++ source = before ++ (chars ++ back) ∧
      Spells lexeme.token before chars back ∧
      lexeme = ⟨lexeme.token, byteLength before, byteLength (before ++ chars)⟩ := by
  induction tiled with
  | nil => exact absurd member List.not_mem_nil
  | @cons token front chars rest lexemes spells behind ih =>
    rcases List.mem_cons.1 member with rfl | member
    · exact ⟨front, chars, rest, rfl, spells, rfl⟩
    · rw [← List.append_assoc]
      exact ih member

/-- What spells a token is covered by a tile. A tile that began before it would end behind its
beginning, and no token begins inside a tile. -/
theorem Tiled.mem {between back : List Char} (tiled : Tiled front source lexemes)
    (whole : source = between ++ (chars ++ back))
    (spells : Spells token (front ++ between) chars back) :
    ⟨token, byteLength (front ++ between), byteLength (front ++ between ++ chars)⟩ ∈ lexemes := by
  induction tiled generalizing between with
  | nil =>
    have empty := List.append_eq_nil_iff.1 (List.append_eq_nil_iff.1 whole.symm).2
    exact absurd empty.1 spells.ne_nil
  | @cons first front tile rest lexemes here behind ih =>
    rcases List.append_eq_append_iff.1 whole with ⟨more, rfl, same⟩ | ⟨beyond, rfl, same⟩
    · rw [← List.append_assoc] at spells ⊢
      exact List.mem_cons_of_mem _ (ih same spells)
    cases beyond with
    | nil =>
      rw [List.append_nil] at here ih ⊢
      rw [List.nil_append] at same
      subst same
      refine List.mem_cons_of_mem _ ?_
      have later := @ih [] rfl (by rwa [List.append_nil])
      rwa [List.append_nil] at later
    | cons d right =>
      rcases between.eq_nil_or_concat with rfl | ⟨left, c, rfl⟩
      · -- Both begin here, and so they are cut off alike.
        rw [List.append_nil] at spells ⊢
        have cut := split_of_spells spells
        rw [List.nil_append] at here
        rw [same, split_of_spells here, List.cons.injEq, Prod.mk.injEq] at cut
        rw [← cut.1.1, ← cut.1.2]
        exact List.mem_cons_self
      · have seam := spells.seam
        rw [List.concat_eq_append, same] at seam
        rw [List.concat_eq_append, List.append_assoc, List.singleton_append] at here
        exact absurd seam here.not_seam

end

/-- Lexemes cover a text from its beginning to its end, and they are all the pieces that spell a
token where they stand. -/
structure Tiling (source : List Char) (lexemes : List Lexeme) : Prop where
  nonempty : ∀ lexeme ∈ lexemes, lexeme.start < lexeme.stop
  first : ∀ lexeme ∈ lexemes.head?, lexeme.start = 0
  touching : lexemes.IsChain (fun first second => first.stop = second.start)
  last : ∀ lexeme ∈ lexemes.getLast?, lexeme.stop = byteLength source
  empty : lexemes = [] → source = []
  mem_iff : ∀ lexeme, lexeme ∈ lexemes ↔ ∃ front chars back, source = front ++ (chars ++ back) ∧
    Spells lexeme.token front chars back ∧
    lexeme = ⟨lexeme.token, byteLength front, byteLength (front ++ chars)⟩

theorem Tiled.tiling {source : List Char} {lexemes : List Lexeme}
    (tiled : Tiled [] source lexemes) : Tiling source lexemes where
  nonempty := tiled.nonempty
  first := tiled.head
  touching := tiled.touching
  last := tiled.last
  empty := tiled.eq_nil
  mem_iff lexeme := by
    refine ⟨tiled.spelled, ?_⟩
    rintro ⟨front, chars, back, whole, spells, same⟩
    have member := tiled.mem whole spells
    rw [same]
    exact member

theorem tiling_ofSource (source : List Char) : Tiling source (Lexeme.ofSource source) :=
  (tiled_place (show Seam [] source from fun _ last => by cases last)).tiling

/-! ### Depth of the braces -/

/-- How many braces a text leaves open. -/
def depthBehind (text : List Char) : Nat := (openPlaces [] .start text).length

/-- A nesting is as deep as the braces get in a text and tells the first brace that gets there. -/
structure Nesting.Profile (text : List Char) (nesting : Nesting) : Prop where
  bound : ∀ front, front <+: text → depthBehind front ≤ nesting.depth
  flat : nesting.depth = 0 → nesting.deepest = 0
  reached : nesting.depth ≠ 0 → ∃ front rest, text = front ++ '{' :: rest ∧
    nesting.deepest = byteLength front ∧ depthBehind (front ++ ['{']) = nesting.depth ∧
    ∀ earlier, earlier <+: front → depthBehind earlier < nesting.depth

section

variable {opened : List Position} {place : Position} {text : List Char} {found : Nesting} {c : Char}

theorem openPlaces_append (first second : List Char) :
    openPlaces opened place (first ++ second) =
      openPlaces (openPlaces opened place first) (place.advance first) second := by
  induction first generalizing opened place with
  | nil => rfl
  | cons c first ih => exact ih

theorem openPlaces_concat (text : List Char) (c : Char) :
    openPlaces [] .start (text ++ [c]) =
      stepOpen (openPlaces [] .start text) (Position.start.advance text) c := by
  rw [openPlaces_append]
  rfl

theorem depthBehind_open (text : List Char) :
    depthBehind (text ++ ['{']) = depthBehind text + 1 := by
  rw [depthBehind, openPlaces_concat]
  rfl

theorem depthBehind_close (text : List Char) :
    depthBehind (text ++ ['}']) = depthBehind text - 1 := by
  rw [depthBehind, openPlaces_concat]
  exact List.length_tail

theorem depthBehind_text (text : List Char) (plain : Written.isTopText c = true) :
    depthBehind (text ++ [c]) = depthBehind text := by
  rw [depthBehind, openPlaces_concat, stepOpen_text plain]
  rfl

/-- A character behind which the braces are no deeper than before leaves the nesting. -/
theorem Nesting.Profile.keep (profile : found.Profile text)
    (shallow : depthBehind (text ++ [c]) ≤ found.depth) : found.Profile (text ++ [c]) where
  bound front leads := by
    rcases List.prefix_concat_iff.1 leads with rfl | leads
    · exact shallow
    · exact profile.bound front leads
  flat := profile.flat
  reached deep := by
    obtain ⟨front, rest, rfl, first⟩ := profile.reached deep
    exact ⟨front, rest ++ [c], by simp, first⟩

/-- A brace that goes deeper than all before it is the new deepest point. -/
theorem Nesting.Profile.deepen (profile : found.Profile text)
    (deeper : found.depth < depthBehind text + 1) :
    Nesting.Profile (text ++ ['{']) ⟨depthBehind text + 1, byteLength text⟩ where
  bound front leads := by
    rcases List.prefix_concat_iff.1 leads with rfl | leads
    · exact Nat.le_of_eq (depthBehind_open text)
    · exact Nat.le_of_lt (Nat.lt_of_le_of_lt (profile.bound front leads) deeper)
  flat none := nomatch none
  reached _ := ⟨text, [], rfl, rfl, depthBehind_open text,
    fun earlier leads => Nat.lt_of_le_of_lt (profile.bound earlier leads) deeper⟩

/-- The braces of a text, one behind the other, lead to the nesting of the whole. -/
theorem Nesting.Profile.walk (profile : found.Profile text) (more : List Char) :
    ((braces (depthBehind text) (Position.start.advance text) more).foldl deeper found).Profile
      (text ++ more) := by
  induction more generalizing text found with
  | nil => rwa [List.append_nil]
  | cons c more ih =>
    have here : (Position.start.advance text).offset = byteLength text := by
      rw [Position.advance_offset]
      exact Nat.zero_add _
    have next {found : Nesting} (profile : found.Profile (text ++ [c])) := ih profile
    simp only [Position.advance_append, List.append_assoc] at next
    by_cases opens : c = '{'
    · subst opens
      rw [depthBehind_open] at next
      rw [braces, if_pos rfl, List.foldl_cons, deeper, here]
      split
      · next deeper => exact next (profile.deepen deeper)
      · next shallow =>
        refine next (profile.keep ?_)
        rw [depthBehind_open]
        exact Nat.le_of_not_lt shallow
    by_cases closes : c = '}'
    · subst closes
      have before := profile.bound text List.prefix_rfl
      have lower := depthBehind_close text
      rw [lower] at next
      exact next (profile.keep (by omega))
    · have plain : Written.isTopText c = true := by simp [Written.isTopText, opens, closes]
      have level := depthBehind_text text plain
      rw [level] at next
      rw [braces_text plain]
      have before := profile.bound text List.prefix_rfl
      exact next (profile.keep (Nat.le_trans (Nat.le_of_eq level) before))

end

theorem profile_ofSource (source : List Char) : (Nesting.ofSource source).Profile source := by
  have start : Nesting.Profile [] ⟨0, 0⟩ :=
    ⟨fun front leads => by rw [List.prefix_nil.1 leads]; exact Nat.le_refl 0, fun _ => rfl,
      fun deep => absurd rfl deep⟩
  rw [ofSource_eq_foldl]
  exact start.walk source

/-- **Tokens and braces.** The tokens of every source text tile it, and each of them is a mark on
its own, a line break, a run that cannot be made longer, or a carriage return before no line feed.
The nesting tells how deep the braces get and where they first get there, the brace reported as open
is the innermost one that a scan over the characters leaves open. -/
theorem tokens_of_source (source : List Char) :
    Tiling source (Lexeme.ofSource source) ∧ (Nesting.ofSource source).Profile source ∧
      unclosedBrace? source = ((openPlaces [] .start source).head?).map Position.offset :=
  ⟨tiling_ofSource source, profile_ofSource source, unclosedBrace?_eq source⟩

end Narrative
