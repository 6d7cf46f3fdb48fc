import Narrative.Proofs.Changes
import Narrative.Proofs.Renderings
import Narrative.Proofs.Replay

/-!
Renderings that go on where others ended. A rendering with a state file goes on with the progress
that the last one saved, and without shuffles that is all it depends on. So visits may be divided
over renderings: each reads the file anew, but the texts and the progress are those of one rendering
of all visits.
-/

set_option autoImplicit false

namespace Narrative

/-! ### Files written and read again -/

/-- Of two values put at one key the later one stays. -/
theorem KeyMap.insert_insert {α : Type} (map : KeyMap α) (key : String) (first second : α) :
    (map.insert key first).insert key second = map.insert key second := by
  refine eq_of_get?_eq (fun asked => ?_)
  by_cases here : asked = key
  · rw [here, get?_insert_self, get?_insert_self]
  · rw [get?_insert_ne _ here, get?_insert_ne _ here, get?_insert_ne _ here]

namespace Directory

variable {directory written : Directory} {path text : String}

/-- A text is written at a path that leads to a name of the directory. -/
theorem exists_of_write (done : directory.write path text = .ok written) :
    ∃ name, Target.ofPath path = .entry name false ∧ path.utf8ByteSize ≤ Target.maxPathBytes ∧
      name.utf8ByteSize ≤ Target.maxNameBytes ∧ written = directory.insert name (some text) := by
  unfold write at done
  split at done
  · cases done
  · next short =>
    split at done
    · cases done
    · cases done
    · cases done
    · next name asDirectory target =>
      split at done
      · cases done
      · next plain =>
        split at done
        · cases done
        · next brief =>
          cases done
          rw [Bool.not_eq_true] at plain
          subst plain
          exact ⟨name, target, Nat.le_of_not_lt short, Nat.le_of_not_lt brief, rfl⟩

theorem write_of_target {name : String} (target : Target.ofPath path = .entry name false)
    (short : path.utf8ByteSize ≤ Target.maxPathBytes)
    (brief : name.utf8ByteSize ≤ Target.maxNameBytes) (directory : Directory) (text : String) :
    directory.write path text = .ok (directory.insert name (some text)) := by
  unfold write
  rw [if_neg (Nat.not_lt.2 short), target]
  dsimp only
  rw [if_neg Bool.false_ne_true, if_neg (Nat.not_lt.2 brief)]

/-- A path at which one text was written takes every other one, in place of that text. -/
theorem write_again (done : directory.write path text = .ok written) (other : String) :
    written.write path other = directory.write path other := by
  obtain ⟨name, target, short, brief, rfl⟩ := exists_of_write done
  rw [write_of_target target short brief, write_of_target target short brief,
    KeyMap.insert_insert]

/-- What was written is read again. -/
theorem view_of_write (done : directory.write path text = .ok written) :
    written.view path = .ok text := by
  obtain ⟨name, target, short, brief, rfl⟩ := exists_of_write done
  unfold view
  rw [if_neg (Nat.not_lt.2 short), target]
  dsimp only
  rw [KeyMap.get?_insert_self]
  rfl

/-- A file at another place is read as before. -/
theorem view_of_write_of_ne (done : directory.write path text = .ok written) {file source : String}
    (apart : Target.ofPath path ≠ Target.ofPath file) (read : directory.view file = .ok source) :
    written.view file = .ok source := by
  obtain ⟨name, target, -, -, rfl⟩ := exists_of_write done
  unfold view at read ⊢
  split at read
  · cases read
  · next short =>
    rw [if_neg short]
    split at read
    · cases read
    · cases read
    · cases read
    · next other asDirectory place =>
      rw [target, place] at apart
      cases asDirectory with
      | true =>
        split at read
        · cases read
        · cases read
      | false =>
        have different : other ≠ name := by
          rintro rfl
          exact apart rfl
        rw [KeyMap.get?_insert_ne _ different]
        exact read

end Directory

/-! ### Progress without shuffles -/

section

variable {answer : String → Except String Bool} {trail after : Trail}

/-- A choice that is not of a shuffle leaves words of 64 bits, for it moves in no order. -/
theorem Directive.fits_choose {directive : Directive} {branch : Option Nat}
    (unshuffled : directive.kind ≠ .list .shuffle)
    (chosen : directive.choose answer trail = (.ok branch, after)) (fits : trail.store.Fits) :
    after.store.Fits := by
  cases sort : directive.kind with
  | conditional => rwa [choose_conditional sort chosen]
  | list kind =>
    obtain ⟨eligible, selection, -, rfl, shown, left⟩ := choose_listed sort chosen
    rw [left]
    cases branch with
    | none => exact fits
    | some index =>
      have counted : kind ≠ .shuffle := fun shuffles => unshuffled (by rw [sort, shuffles])
      have advanced := select_advanced shown
      have small := fits.progress directive.identity
      refine fits.insert _ ⟨?_, ?_⟩
      · rw [advanced.order counted]
        exact small.1
      · rw [advanced.cursor counted]
        exact small.2

theorem Chain.fits {showings : List Showing} (chain : Chain answer trail showings after)
    (unshuffled : ∀ showing ∈ showings, showing.directive.kind ≠ .list .shuffle)
    (fits : trail.store.Fits) : after.store.Fits := by
  induction chain with
  | nil trail => exact fits
  | cons chosen others ih =>
    have here := Directive.fits_choose (unshuffled _ List.mem_cons_self) chosen fits
    exact ih (fun showing member => unshuffled showing (List.mem_cons_of_mem _ member)) here

/-- Without shuffles, a resolution depends on the progress that is kept and on no random source. -/
theorem resolveNodes_of_unshuffled (answer : String → Except String Bool) {nodes : List Node}
    (unshuffled : ∀ directive ∈ directivesOfNodes nodes, directive.kind ≠ .list .shuffle)
    {first second : Trail} (same : second.store = first.store) :
    (resolveNodes answer nodes second).1 = (resolveNodes answer nodes first).1 ∧
      (resolveNodes answer nodes second).2.store = (resolveNodes answer nodes first).2.store := by
  have aligned : Aligned first.store (directivesOfNodes nodes) first second := by
    refine ⟨unshared_of_unshuffled unshuffled, fun directive _ => ?_, fun _ _ _ => rfl⟩
    rw [same]
  have shown : ∀ showing ∈ showingsOfNodes answer nodes first,
      showing.directive.kind ≠ .list .shuffle := fun showing shows =>
    unshuffled showing.directive (mem_of_showingsOfNodes answer nodes first shows)
  obtain ⟨result, store⟩ := resolveNodes_alike answer first.store nodes first second aligned
    (fun showing shows shuffles => absurd shuffles (shown showing shows))
  refine ⟨result, KeyMap.eq_of_get?_eq (fun asked => store asked ?_ ?_)⟩
  · rw [same]
  · exact fun showing shows ends => absurd ends.1 (shown showing shows)

end

namespace Session

/-- Two sessions without localizers that answer guards alike and keep the same progress. Seeds and
random sources may differ. -/
structure Peers (first second : Session) : Prop where
  evaluator : second.evaluator = first.evaluator
  unlocalized : first.localizer = none
  otherUnlocalized : second.localizer = none
  store : second.store = first.store

variable {document : Document} {bindings : Bindings} {session next first second last : Session}
  {text : String} {texts : List String}

/-! ### One visit -/

theorem localize_of_unlocalized (unlocalized : session.localizer = none) (stage : LocalizeStage)
    (text : String) : session.localize stage text = text := by
  rw [localize, unlocalized]

/-- Without shuffles, peers show the same text in a visit, and they stay peers. -/
theorem Peers.resolve (peers : first.Peers second)
    (unshuffled : ∀ directive ∈ document.directives, directive.kind ≠ .list .shuffle)
    (visited : first.resolve document bindings = (.ok text, next)) :
    ∃ other, second.resolve document bindings = (.ok text, other) ∧ next.Peers other := by
  obtain ⟨result, store⟩ :=
    resolveNodes_of_unshuffled (first.evaluator bindings) unshuffled peers.store
  cases resolved : resolveNodes (first.evaluator bindings) document.nodes first.trail with
  | mk outcome trail =>
    cases outcome with
    | error error =>
      rw [resolve_of_error first resolved] at visited
      cases visited
    | ok plain =>
      rw [resolve_of_ok first resolved, localize_of_unlocalized peers.unlocalized] at visited
      cases visited
      rw [resolved] at result store
      have otherResolved : resolveNodes (second.evaluator bindings) document.nodes second.trail =
          (.ok text, (resolveNodes (first.evaluator bindings) document.nodes second.trail).2) := by
        rw [peers.evaluator]
        exact Prod.ext result rfl
      rw [resolve_of_ok second otherResolved, localize_of_unlocalized peers.otherUnlocalized]
      exact ⟨_, rfl, peers.evaluator, peers.unlocalized, peers.otherUnlocalized, store⟩

theorem fits_of_resolve
    (unshuffled : ∀ directive ∈ document.directives, directive.kind ≠ .list .shuffle)
    (visited : session.resolve document bindings = (.ok text, next)) (fits : session.store.Fits) :
    next.store.Fits := by
  obtain ⟨plain, shows, -⟩ := shows_of_resolve visited
  refine shows.chain.fits (fun showing member => ?_) fits
  exact unshuffled _ (shows.sublist.subset (List.mem_map_of_mem member))

/-! ### Visits one after the other -/

theorem Tells.fits (told : session.Tells document bindings texts last)
    (unshuffled : ∀ directive ∈ document.directives, directive.kind ≠ .list .shuffle)
    (fits : session.store.Fits) : last.store.Fits := by
  induction told with
  | nil session => exact fits
  | cons visited others ih => exact ih (fits_of_resolve unshuffled visited fits)

/-- Without shuffles, peers tell the same texts. -/
theorem Tells.peers (told : first.Tells document bindings texts last)
    (unshuffled : ∀ directive ∈ document.directives, directive.kind ≠ .list .shuffle)
    (peers : first.Peers second) :
    ∃ other, second.Tells document bindings texts other ∧ last.Peers other := by
  induction told generalizing second with
  | nil session => exact ⟨second, .nil second, peers⟩
  | cons visited others ih =>
    obtain ⟨next, same, still⟩ := peers.resolve unshuffled visited
    obtain ⟨other, told, ended⟩ := ih still
    exact ⟨other, .cons same told, ended⟩

end Session

namespace Action

variable {view : FileView} {file : String} {document : Document} {bindings : Bindings}
  {texts : List String}

/-! ### Renderings one after the other -/

theorem TakesUp.fits {state : Option String} {store : Store} (takes : TakesUp view state store) :
    store.Fits := by
  cases takes with
  | stateless => exact Store.fits_empty
  | absent failed absent => exact Store.fits_empty
  | saved read restored => exact Store.fits_of_restore? restored

theorem peers_resumed (seed other : UInt64) (store : Store) :
    (resumed seed store).Peers (resumed other store) where
  evaluator := by rw [evaluator_resumed, evaluator_resumed]
  unlocalized := localizer_resumed seed store
  otherUnlocalized := localizer_resumed other store
  store := by rw [store_resumed, store_resumed]

/-- Behind its visits, a rendering is a peer of one that takes up its progress. -/
theorem peers_behind {seed : UInt64} {store : Store} {last : Session}
    (told : (resumed seed store).Tells document bindings texts last) (other : UInt64) :
    last.Peers (resumed other last.store) where
  evaluator := by rw [told.frame, evaluator_resumed, evaluator_resumed]
  unlocalized := by rw [told.frame, localizer_resumed]
  otherUnlocalized := localizer_resumed other last.store
  store := store_resumed other last.store

/-- A file holds no shuffle. -/
def Unshuffled (view : FileView) (file : String) : Prop :=
  ∀ document, Reads view file document →
    ∀ directive ∈ document.directives, directive.kind ≠ .list .shuffle

instance (view : FileView) (file : String) : Decidable (Unshuffled view file) :=
  match read : view file with
  | .error _ => .isTrue (by
      rintro document ⟨source, found, -⟩
      rw [read] at found
      cases found)
  | .ok source =>
    match parsed : Document.parse { document := documentName file } source with
    | .error _ => .isTrue (by
        rintro document ⟨other, found, same⟩
        cases read.symm.trans found
        rw [parsed] at same
        cases same)
    | .ok document =>
      decidable_of_iff (∀ directive ∈ document.directives, directive.kind ≠ .list .shuffle) (by
        refine ⟨fun plain => ?_, fun unshuffled => unshuffled document ⟨source, read, parsed⟩⟩
        rintro other ⟨again, found, same⟩
        cases read.symm.trans found
        cases parsed.symm.trans same
        exact plain)

/-- A rendering whose visits are divided in two is a rendering of those in front, and behind it one
of the others, on any files that hold the same source and the progress that the first one saves. -/
theorem Renders.split {path : String} {vars : Option String} {front back : Nat} {seed : UInt64}
    {store : Store} (renders : Renders view file ⟨front + back, seed, vars, some path⟩ texts store)
    (unshuffled : Unshuffled view file) (frontSeed backSeed : UInt64) :
    ∃ earlier later middle, texts = earlier ++ later ∧ earlier.length = front ∧
      later.length = back ∧
      Renders view file ⟨front, frontSeed, vars, some path⟩ earlier middle ∧
      ∀ between : FileView, between file = view file → between path = .ok middle.savePretty →
        Renders between file ⟨back, backSeed, vars, some path⟩ later store := by
  cases renders with
  | @visited document bindings before last _ reads bound takes told all =>
    have plain := unshuffled document reads
    obtain ⟨earlier, later, rfl, here, there⟩ : ∃ earlier later, texts = earlier ++ later ∧
        earlier.length = front ∧ later.length = back := by
      refine ⟨texts.take front, texts.drop front, (List.take_append_drop front texts).symm, ?_, ?_⟩
      · rw [List.length_take, all]
        exact Nat.min_eq_left (Nat.le_add_right front back)
      · rw [List.length_drop, all]
        exact Nat.add_sub_cancel_left front back
    obtain ⟨middle, begun, ended⟩ := told.split
    -- The first rendering starts as the whole one does, but for its seed.
    obtain ⟨first, firstTold, same⟩ := begun.peers plain (peers_resumed _ frontSeed before)
    refine ⟨earlier, later, first.store, rfl, here, there,
      .visited reads bound takes firstTold here, fun between source saved => ?_⟩
    have small := begun.fits plain takes.fits
    -- The second one starts as the whole one is when the first has made its visits.
    obtain ⟨second, secondTold, alike⟩ := ended.peers plain (peers_behind begun backSeed)
    have resumes : TakesUp between (some path) middle.store := by
      rw [same.store] at saved
      exact .saved saved (Store.restore?_savePretty small)
    have rereads : Reads between file document := by
      obtain ⟨text, read, parsed⟩ := reads
      exact ⟨text, source.trans read, parsed⟩
    rw [← alike.store]
    exact .visited rereads bound resumes secondTold there

end Action

namespace Directory

open Narrative.Action (Unshuffled Fails printed)

variable {directory : Directory} {file path : String} {options : RenderOptions}

/-- A rendering in a directory succeeds, prints the texts of its visits and leaves a directory. -/
structure Renders (directory : Directory) (file : String) (options : RenderOptions)
    (texts : List String) (after : Directory) : Prop where
  visited : ∃ store, Action.Renders directory.view file options texts store
  performed : directory.perform (.render file options) = (.success (printed texts), after)

theorem renders_of_write {texts : List String} {store : Store} {after : Directory}
    (renders : Action.Renders directory.view file options texts store)
    (kept : options.state = some path) (done : directory.write path store.savePretty = .ok after) :
    directory.Renders file options texts after := by
  refine ⟨⟨store, renders⟩, ?_⟩
  rw [perform, renders.run, kept]
  dsimp only [Option.map_some]
  rw [done]
  rfl

/-- A rendering with a state file succeeds if what it saves is written. -/
theorem exists_of_perform (kept : options.state = some path)
    (succeeds : (directory.perform (.render file options)).1.code = 0) :
    ∃ texts store after, Action.Renders directory.view file options texts store ∧
      directory.write path store.savePretty = .ok after := by
  rcases Action.renders_or_fails directory.view file options with
    ⟨texts, store, renders⟩ | fails
  · rw [perform, renders.run, kept] at succeeds
    dsimp only [Option.map_some] at succeeds
    cases done : directory.write path store.savePretty with
    | ok after => exact ⟨texts, store, after, renders, done⟩
    | error error =>
      rw [done] at succeeds
      cases succeeds
  · rw [perform, fails.run.2] at succeeds
    rw [fails.run.1] at succeeds
    cases succeeds

/-- Visits may be divided over renderings of a file without shuffles. If a rendering of all visits
succeeds, so do one of the visits in front and, with the progress that it saves, one of the others,
whatever their seeds. They print the same texts and save the same progress in the end. That is so
on any files that hold what was saved, and in a directory, which both ways leave the same. A
rendering that ends in failure before it saves does so for one of the known reasons. It saves
nothing, and a directory stays as it was. -/
theorem render_divided (file path : String) (vars : Option String) (front back : Nat)
    (seed frontSeed backSeed : UInt64) :
    (∀ view : FileView,
      (Unshuffled view file →
        (Action.run view (.render file ⟨front + back, seed, vars, some path⟩)).code = 0 →
        ∃ earlier later middle last, earlier.length = front ∧ later.length = back ∧
          Action.Renders view file ⟨front + back, seed, vars, some path⟩ (earlier ++ later) last ∧
          Action.Renders view file ⟨front, frontSeed, vars, some path⟩ earlier middle ∧
          ∀ between : FileView, between file = view file → between path = .ok middle.savePretty →
            Action.Renders between file ⟨back, backSeed, vars, some path⟩ later last) ∧
      ∀ options,
        (Fails view file options ↔ (Action.run view (.render file options)).code ≠ 0) ∧
        (Fails view file options → (Action.run view (.render file options)).save = none)) ∧
    ∀ directory : Directory,
      (Unshuffled directory.view file → Target.ofPath path ≠ Target.ofPath file →
        (directory.perform (.render file ⟨front + back, seed, vars, some path⟩)).1.code = 0 →
        ∃ earlier later middle last, earlier.length = front ∧ later.length = back ∧
          directory.Renders file ⟨front + back, seed, vars, some path⟩ (earlier ++ later) last ∧
          directory.Renders file ⟨front, frontSeed, vars, some path⟩ earlier middle ∧
          middle.Renders file ⟨back, backSeed, vars, some path⟩ later last) ∧
      ∀ options, Fails directory.view file options →
        (directory.perform (.render file options)).1.code = 1 ∧
        (directory.perform (.render file options)).2 = directory := by
  refine ⟨fun view => ⟨fun unshuffled succeeds => ?_, fun options => ?_⟩,
    fun directory => ⟨fun unshuffled apart succeeds => ?_, fun options fails => ?_⟩⟩
  · rcases Action.renders_or_fails view file ⟨front + back, seed, vars, some path⟩ with
      ⟨texts, last, renders⟩ | fails
    · obtain ⟨earlier, later, middle, rfl, here, there, first, second⟩ :=
        renders.split unshuffled frontSeed backSeed
      exact ⟨earlier, later, middle, last, here, there, renders, first, second⟩
    · exact absurd succeeds (Action.fails_iff.1 fails)
  · exact ⟨Action.fails_iff, fun fails => fails.run.2⟩
  · obtain ⟨texts, store, last, renders, written⟩ := exists_of_perform rfl succeeds
    obtain ⟨earlier, later, saved, rfl, here, there, first, second⟩ :=
      renders.split unshuffled frontSeed backSeed
    obtain ⟨name, target, short, brief, -⟩ := exists_of_write written
    -- The path that takes the progress behind the last visit takes that of the first rendering too.
    have done := write_of_target target short brief directory saved.savePretty
    obtain ⟨source, read⟩ := renders.readable
    have again := second _ ((view_of_write_of_ne done apart read).trans read.symm)
      (view_of_write done)
    exact ⟨earlier, later, _, last, here, there, renders_of_write renders rfl written,
      renders_of_write first rfl done,
      renders_of_write again rfl ((write_again done _).trans written)⟩
  · rw [perform, fails.run.2]
    exact ⟨fails.run.1, rfl⟩

/-- A file with a condition in the second of three branches, and progress of it and of another
document. -/
def sceneDirectory : Directory :=
  (KeyMap.empty.insert "scene.txt"
      (some "\x7b&dawn|\x7blit: lamp\x7d|dusk\x7d")).insert "state.json"
    (some "\x7b\"attic@3\":\x7b\"counter\":2\x7d,\"scene@0\":\x7b\"counter\":3\x7d\x7d")

/-- An answer to its condition. -/
def sceneBindings : Option String := some "\x7b\"lit\":true\x7d"

def sceneOptions (visits : Nat) (seed : UInt64) (bindings : Option String) : RenderOptions :=
  ⟨visits, seed, bindings, some "state.json"⟩

/-- Three visits are made at once, or one and then two. Without the answer the second of two visits
fails, and the progress of the first is not saved. -/
theorem render_divided_scene :
    let whole := sceneDirectory.perform (.render "scene.txt" (sceneOptions 3 7 sceneBindings))
    let first := sceneDirectory.perform (.render "scene.txt" (sceneOptions 1 8 sceneBindings))
    let second := first.2.perform (.render "scene.txt" (sceneOptions 2 9 sceneBindings))
    let broken := sceneDirectory.perform (.render "scene.txt" (sceneOptions 2 7 none))
    whole.1 = .success "[1] dawn\n[2] lamp\n[3] dusk\n" ∧
      first.1 = .success "dawn\n" ∧ second.1 = .success "[1] lamp\n[2] dusk\n" ∧
      second.2 = whole.2 ∧
      broken.1.output = "[1] dawn\n" ∧ broken.1.code = 1 ∧ broken.2 = sceneDirectory := by
  intro whole first second broken
  have succeeds : whole.1 = .success "[1] dawn\n[2] lamp\n[3] dusk\n" := by decide +kernel
  have unshuffled : Unshuffled sceneDirectory.view "scene.txt" := by decide +kernel
  obtain ⟨-, divided⟩ :=
    render_divided "scene.txt" "state.json" sceneBindings 1 2 7 8 9
  obtain ⟨splits, failing⟩ := divided sceneDirectory
  obtain ⟨_, _, middle, last, -, -, all, front, back⟩ :=
    splits unshuffled (by decide +kernel) (congrArg Outcome.code succeeds)
  have same : second.2 = whole.2 := by
    have between : first.2 = middle := congrArg Prod.snd front.performed
    have ended : whole.2 = last := congrArg Prod.snd all.performed
    subst between
    rw [ended]
    exact congrArg Prod.snd back.performed
  have divides : first.1 = .success "dawn\n" ∧ second.1 = .success "[1] lamp\n[2] dusk\n" := by
    decide +kernel
  have breaks : (Action.run sceneDirectory.view
      (.render "scene.txt" (sceneOptions 2 7 none))).code ≠ 0 ∧
        broken.1.output = "[1] dawn\n" := by decide +kernel
  obtain ⟨code, kept⟩ := failing _ (Action.fails_iff.2 breaks.1)
  exact ⟨succeeds, divides.1, divides.2, same, breaks.2, code, kept⟩

end Directory

end Narrative
