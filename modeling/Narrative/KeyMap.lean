/-!
Finite maps from texts. The entries are kept strictly sorted by key, in code point order, which is
also the order of the UTF-8 forms, so that two maps with the same lookups are equal.
-/

set_option autoImplicit false

namespace Narrative

namespace KeyMap

variable {α : Type}

/-- Puts an entry in its place, replacing one with the same key. -/
def put (key : String) (value : α) : List (String × α) → List (String × α)
  | [] => [(key, value)]
  | (other, old) :: rest =>
    if key < other then (key, value) :: (other, old) :: rest
    else if key = other then (key, value) :: rest
    else (other, old) :: put key value rest

/-- The value at a key of a list of entries. -/
def find? (key : String) : List (String × α) → Option α
  | [] => none
  | (other, value) :: rest => if key = other then some value else find? key rest

/-- Strictly sorted by key. -/
def Sorted (entries : List (String × α)) : Prop :=
  entries.Pairwise (fun first second => first.1 < second.1)

theorem key_of_mem_put {key : String} {value : α} {entries : List (String × α)}
    {entry : String × α} (member : entry ∈ put key value entries) :
    entry.1 = key ∨ entry ∈ entries := by
  induction entries with
  | nil => simp only [put, List.mem_singleton] at member; simp [member]
  | cons head rest ih =>
    obtain ⟨other, old⟩ := head
    unfold put at member
    split at member
    · rcases List.mem_cons.1 member with rfl | member
      · exact Or.inl rfl
      · exact Or.inr member
    · split at member
      · rcases List.mem_cons.1 member with rfl | member
        · exact Or.inl rfl
        · exact Or.inr (List.mem_cons_of_mem _ member)
      · rcases List.mem_cons.1 member with rfl | member
        · exact Or.inr List.mem_cons_self
        · exact (ih member).imp_right (List.mem_cons_of_mem _)

theorem Sorted.put {entries : List (String × α)} (sorted : Sorted entries) (key : String)
    (value : α) : Sorted (put key value entries) := by
  induction entries with
  | nil => simp [KeyMap.put, Sorted]
  | cons head rest ih =>
    obtain ⟨other, old⟩ := head
    have ⟨above, tail⟩ := List.pairwise_cons.1 sorted
    unfold KeyMap.put
    split
    · next less =>
      refine List.pairwise_cons.2 ⟨?_, sorted⟩
      intro entry member
      rcases List.mem_cons.1 member with rfl | member
      · exact less
      · exact String.lt_trans less (above entry member)
    · split
      · next same => subst same; exact List.pairwise_cons.2 ⟨above, tail⟩
      · next notLess notSame =>
        refine List.pairwise_cons.2 ⟨?_, ih tail⟩
        intro entry member
        rcases key_of_mem_put member with same | member
        · rw [same]; show other < key; grind
        · exact above entry member

theorem find?_put_self (key : String) (value : α) (entries : List (String × α)) :
    find? key (put key value entries) = some value := by
  induction entries with
  | nil => simp [put, find?]
  | cons head rest ih =>
    obtain ⟨other, old⟩ := head
    unfold put
    split
    · simp [find?]
    · split
      · simp [find?]
      · next notSame => simp [find?, notSame, ih]

theorem find?_put_ne {key asked : String} (different : asked ≠ key) (value : α)
    (entries : List (String × α)) : find? asked (put key value entries) = find? asked entries := by
  induction entries with
  | nil => simp [put, find?, different]
  | cons head rest ih =>
    obtain ⟨other, old⟩ := head
    unfold put
    split
    · simp [find?, different]
    · split
      · next same => subst same; simp [find?, different]
      · simp [find?, ih]

end KeyMap

/-- A finite map from texts. -/
structure KeyMap (α : Type) where
  /-- The entries in the order of their keys. -/
  entries : List (String × α)
  sorted : KeyMap.Sorted entries

namespace KeyMap

variable {α : Type}

def empty : KeyMap α := ⟨[], List.Pairwise.nil⟩

instance : Inhabited (KeyMap α) := ⟨empty⟩

def size (map : KeyMap α) : Nat := map.entries.length

def isEmpty (map : KeyMap α) : Bool := map.entries.isEmpty

def get? (map : KeyMap α) (key : String) : Option α := find? key map.entries

/-- The map with a value at a key, in place of any value that was there. -/
def insert (map : KeyMap α) (key : String) (value : α) : KeyMap α :=
  ⟨put key value map.entries, map.sorted.put key value⟩

/-- The entries whose key passes a test. -/
def keep (map : KeyMap α) (test : String → Bool) : KeyMap α :=
  ⟨map.entries.filter (fun entry => test entry.1), map.sorted.filter _⟩

def erase (map : KeyMap α) (key : String) : KeyMap α := map.keep (fun other => other != key)

/-- The map of a list of entries, the later of two with one key. -/
def ofList (entries : List (String × α)) : KeyMap α :=
  entries.foldl (fun map entry => map.insert entry.1 entry.2) empty

@[simp] theorem get?_insert_self (map : KeyMap α) (key : String) (value : α) :
    (map.insert key value).get? key = some value := find?_put_self key value map.entries

theorem get?_insert_ne (map : KeyMap α) {key asked : String} (different : asked ≠ key)
    (value : α) : (map.insert key value).get? asked = map.get? asked :=
  find?_put_ne different value map.entries

theorem find?_filter (test : String → Bool) (key : String) (entries : List (String × α)) :
    find? key (entries.filter (fun entry => test entry.1)) =
      if test key then find? key entries else none := by
  induction entries with
  | nil => simp [find?]
  | cons head rest ih =>
    obtain ⟨other, value⟩ := head
    by_cases passes : test other = true
    · simp only [passes, List.filter_cons_of_pos, find?, ih]
      by_cases same : key = other
      · simp [same, passes]
      · simp [same]
    · rw [List.filter_cons_of_neg (by simpa using passes), ih]
      by_cases same : key = other
      · simp [same, passes]
      · simp [find?, same]

theorem get?_keep (map : KeyMap α) (test : String → Bool) (key : String) :
    (map.keep test).get? key = if test key then map.get? key else none :=
  find?_filter test key map.entries

@[simp] theorem get?_erase_self (map : KeyMap α) (key : String) :
    (map.erase key).get? key = none := by
  simp [erase, get?_keep]

theorem get?_erase_ne (map : KeyMap α) {key asked : String} (different : asked ≠ key) :
    (map.erase key).get? asked = map.get? asked := by
  simp [erase, get?_keep, different]

theorem find?_eq_none_of_lt {key : String} {entries : List (String × α)}
    (above : ∀ entry ∈ entries, key < entry.1) : find? key entries = none := by
  induction entries with
  | nil => rfl
  | cons head rest ih =>
    have less := above head List.mem_cons_self
    have different : key ≠ head.1 := fun same => String.lt_irrefl _ (same ▸ less)
    simp only [find?, different, ↓reduceIte]
    exact ih (fun entry member => above entry (List.mem_cons_of_mem _ member))

theorem eq_of_find?_eq {first second : List (String × α)} (sortedFirst : Sorted first)
    (sortedSecond : Sorted second) (same : ∀ key, find? key first = find? key second) :
    first = second := by
  induction first generalizing second with
  | nil =>
    cases second with
    | nil => rfl
    | cons head rest =>
      have := same head.1
      simp [find?] at this
  | cons head rest ih =>
    cases second with
    | nil =>
      have := same head.1
      simp [find?] at this
    | cons other more =>
      obtain ⟨key, value⟩ := head
      obtain ⟨otherKey, otherValue⟩ := other
      have ⟨above, tail⟩ := List.pairwise_cons.1 sortedFirst
      have ⟨otherAbove, otherTail⟩ := List.pairwise_cons.1 sortedSecond
      have keys : key = otherKey := by
        by_cases less : key < otherKey
        · have absent : find? key ((otherKey, otherValue) :: more) = none := by
            refine find?_eq_none_of_lt (fun entry member => ?_)
            rcases List.mem_cons.1 member with rfl | member
            · exact less
            · exact String.lt_trans less (otherAbove entry member)
          have found := same key
          rw [absent] at found
          simp [find?] at found
        · by_cases greater : otherKey < key
          · have absent : find? otherKey ((key, value) :: rest) = none := by
              refine find?_eq_none_of_lt (fun entry member => ?_)
              rcases List.mem_cons.1 member with rfl | member
              · exact greater
              · exact String.lt_trans greater (above entry member)
            have found := same otherKey
            rw [absent] at found
            simp [find?] at found
          · exact String.le_antisymm (String.not_lt.1 greater) (String.not_lt.1 less)
      subst keys
      have values := same key
      simp only [find?, ↓reduceIte, Option.some.injEq] at values
      subst values
      congr 1
      refine ih tail otherTail (fun asked => ?_)
      by_cases atHead : asked = key
      · rw [atHead, find?_eq_none_of_lt above, find?_eq_none_of_lt otherAbove]
      · simpa [find?, atHead] using same asked

/-- Two maps with the same lookups are equal. -/
theorem eq_of_get?_eq {first second : KeyMap α} (same : ∀ key, first.get? key = second.get? key) :
    first = second := by
  obtain ⟨entries, sorted⟩ := first
  obtain ⟨others, sortedOthers⟩ := second
  congr 1
  exact eq_of_find?_eq sorted sortedOthers same

end KeyMap

end Narrative
