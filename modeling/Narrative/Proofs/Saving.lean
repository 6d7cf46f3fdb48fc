import Narrative.Proofs.Writing
import Narrative.Session

/-!
Saved stores. What a store is written as, in one line or on indented lines, is read as that store,
so no two stores are saved as one text. The entries of an order and its cursor are words of 64 bits
here, which is all that the reader takes.
-/

set_option autoImplicit false

namespace Narrative

/-! ### Maps of sorted entries -/

namespace KeyMap

variable {α : Type}

/-- An entry with the greatest key comes last. -/
theorem put_of_forall_lt {key : String} (value : α) {entries : List (String × α)}
    (above : ∀ entry ∈ entries, entry.1 < key) :
    put key value entries = entries ++ [(key, value)] := by
  induction entries with
  | nil => rfl
  | cons head rest ih =>
    have less := above head List.mem_cons_self
    have notLess : ¬ key < head.1 := fun greater =>
      String.lt_irrefl _ (String.lt_trans less greater)
    have different : ¬ key = head.1 := fun same => String.lt_irrefl _ (same ▸ less)
    rw [put, if_neg notLess, if_neg different,
      ih (fun entry member => above entry (List.mem_cons_of_mem _ member))]
    rfl

/-- Entries that come after those of a map are added at its end. -/
theorem entries_foldl_insert (map : KeyMap α) {rest : List (String × α)}
    (sorted : Sorted (map.entries ++ rest)) :
    (rest.foldl (fun map entry => map.insert entry.1 entry.2) map).entries =
      map.entries ++ rest := by
  induction rest generalizing map with
  | nil => rw [List.append_nil]; rfl
  | cons entry rest ih =>
    have last : (map.insert entry.1 entry.2).entries = map.entries ++ [entry] :=
      put_of_forall_lt entry.2 (fun other member =>
        (List.pairwise_append.1 sorted).2.2 other member entry List.mem_cons_self)
    have split : map.entries ++ entry :: rest = (map.insert entry.1 entry.2).entries ++ rest := by
      rw [last, List.append_assoc]
      rfl
    rw [split] at sorted
    rw [List.foldl_cons, ih (map.insert entry.1 entry.2) sorted, split]

/-- The entries of a map with one more are those it had and the new one. -/
theorem mem_put {key : String} {value : α} {entries : List (String × α)} {entry : String × α}
    (member : entry ∈ put key value entries) : entry = (key, value) ∨ entry ∈ entries := by
  induction entries with
  | nil => exact Or.inl (List.mem_singleton.1 member)
  | cons head rest ih =>
    obtain ⟨other, old⟩ := head
    unfold put at member
    split at member
    · exact List.mem_cons.1 member
    · split at member
      · exact (List.mem_cons.1 member).imp_right (List.mem_cons_of_mem _)
      · rcases List.mem_cons.1 member with rfl | behind
        · exact Or.inr List.mem_cons_self
        · exact (ih behind).imp_right (List.mem_cons_of_mem _)

theorem mem_of_find? {key : String} {value : α} {entries : List (String × α)}
    (found : find? key entries = some value) : (key, value) ∈ entries := by
  induction entries with
  | nil => cases found
  | cons head rest ih =>
    obtain ⟨other, old⟩ := head
    unfold find? at found
    split at found
    · next same =>
      cases found
      rw [same]
      exact List.mem_cons_self
    · exact List.mem_cons_of_mem _ (ih found)

/-- A map is the map of its entries. -/
theorem ofList_entries (map : KeyMap α) : ofList map.entries = map := by
  have entries : (ofList map.entries).entries = map.entries :=
    entries_foldl_insert empty map.sorted
  refine eq_of_get?_eq (fun key => ?_)
  rw [get?, get?, entries]

end KeyMap

/-! ### Progress -/

/-- Reading items one by one undoes writing them one by one. -/
theorem mapM_map_of_inverse {α β : Type} {write : α → β} {read : β → Option α} {items : List α}
    (inverse : ∀ item ∈ items, read (write item) = some item) :
    (items.map write).mapM read = some items := by
  induction items with
  | nil => rfl
  | cons item rest ih =>
    have behind := ih (fun other member => inverse other (List.mem_cons_of_mem _ member))
    rw [List.map_cons, List.mapM_cons, inverse item List.mem_cons_self, behind]
    rfl

/-- What is read one by one was each read from an item. -/
theorem exists_of_mem_mapM {α β : Type} {read : β → Option α} {items : List β} {values : List α}
    (all : items.mapM read = some values) {value : α} (member : value ∈ values) :
    ∃ item ∈ items, read item = some value := by
  induction items generalizing values with
  | nil =>
    cases all
    cases member
  | cons item rest ih =>
    rw [List.mapM_cons] at all
    obtain ⟨first, here, others⟩ := Option.bind_eq_some_iff.1 all
    obtain ⟨more, behind, same⟩ := Option.bind_eq_some_iff.1 others
    cases same
    rcases List.mem_cons.1 member with rfl | later
    · exact ⟨item, List.mem_cons_self, here⟩
    · obtain ⟨source, inside, found⟩ := ih behind later
      exact ⟨source, List.mem_cons_of_mem _ inside, found⟩

namespace Progress

/-- The entries of an order and the cursor are words of 64 bits. -/
def Fits (progress : Progress) : Prop :=
  (∀ order ∈ progress.order, ∀ entry ∈ order, entry < 2 ^ 64) ∧
    ∀ cursor ∈ progress.cursor, cursor < 2 ^ 64

instance (progress : Progress) : Decidable progress.Fits := inferInstanceAs (Decidable (_ ∧ _))

theorem natBelow?_natJson {bound value : Nat} (small : value < bound) :
    natBelow? bound (natJson value) = some value := by
  have whole : (Numeral.ofNat value).nat? = some value := rfl
  rw [natJson, natBelow?, whole]
  exact Option.filter_some_pos (decide_eq_true small)

theorem visits?_natJson (visits : UInt32) : visits? (natJson visits.toNat) = some visits := by
  rw [visits?, natBelow?_natJson visits.toNat_lt, Option.map_some, UInt32.ofNat_toNat]

theorem order?_array {order : List Nat} (small : ∀ entry ∈ order, entry < 2 ^ 64) :
    order? (.array (order.map natJson)) = some (some order) := by
  have read : (order.map natJson).mapM (natBelow? (2 ^ 64)) = some order :=
    mapM_map_of_inverse (fun entry member => natBelow?_natJson (small entry member))
  rw [order?, optional?]
  · dsimp only
    rw [read]
    rfl
  · intro null
    cases null

theorem cursor?_natJson {cursor : Nat} (small : cursor < 2 ^ 64) :
    cursor? (natJson cursor) = some (some cursor) := by
  rw [cursor?, optional?, natBelow?_natJson small]
  · rfl
  · intro null
    cases null

def fields (progress : Progress) : List (Option String × Json) :=
  (some "counter", natJson progress.visits.toNat) ::
    (orderField progress.order ++ cursorField progress.cursor)

theorem single?_counter (progress : Progress) :
    single? progress.fields "counter" = some (some (natJson progress.visits.toNat)) := by
  obtain ⟨visits, order, cursor⟩ := progress
  cases order <;> cases cursor <;> rfl

theorem single?_order (progress : Progress) :
    single? progress.fields "order" =
      some (progress.order.map (fun order => .array (order.map natJson))) := by
  obtain ⟨visits, order, cursor⟩ := progress
  cases order <;> cases cursor <;> rfl

theorem single?_cursor (progress : Progress) :
    single? progress.fields "cursor" = some (progress.cursor.map natJson) := by
  obtain ⟨visits, order, cursor⟩ := progress
  cases order <;> cases cursor <;> rfl

theorem all_fields (progress : Progress) :
    progress.fields.all (fun field => field.1.isSome) = true := by
  obtain ⟨visits, order, cursor⟩ := progress
  cases order <;> cases cursor <;> rfl

/-- Progress is read back from its JSON. -/
theorem ofJson?_toJson {progress : Progress} (fits : progress.Fits) :
    ofJson? progress.toJson = some progress := by
  have order : absentOr? order? (progress.order.map (fun order => .array (order.map natJson))) =
      some progress.order := by
    cases stored : progress.order with
    | none => rfl
    | some order => exact order?_array (fits.1 order stored)
  have cursor : absentOr? cursor? (progress.cursor.map natJson) = some progress.cursor := by
    cases stored : progress.cursor with
    | none => rfl
    | some cursor => exact cursor?_natJson (fits.2 cursor stored)
  change ofFields? progress.fields = some progress
  rw [ofFields?, single?_counter, single?_order, single?_cursor]
  simp only [Option.bind_eq_bind, Option.bind_some, all_fields, if_true, visits?_natJson, order,
    cursor]
  rfl

theorem natBelow?_lt {bound value : Nat} {json : Json} (read : natBelow? bound json = some value) :
    value < bound := by
  cases json with
  | number numeral =>
    rw [natBelow?, Option.filter_eq_some_iff] at read
    exact of_decide_eq_true read.2
  | _ => cases read

theorem lt_of_cursor? {json : Json} {stored : Option Nat} (read : cursor? json = some stored) :
    ∀ cursor ∈ stored, cursor < 2 ^ 64 := by
  rw [cursor?, optional?.eq_def] at read
  split at read
  · cases read
    intro cursor member
    cases member
  · obtain ⟨value, found, rfl⟩ := Option.map_eq_some_iff.1 read
    intro cursor member
    cases member
    exact natBelow?_lt found

theorem lt_of_order? {json : Json} {stored : Option (List Nat)} (read : order? json = some stored) :
    ∀ order ∈ stored, ∀ entry ∈ order, entry < 2 ^ 64 := by
  rw [order?, optional?.eq_def] at read
  split at read
  · cases read
    intro order member
    cases member
  · obtain ⟨value, found, rfl⟩ := Option.map_eq_some_iff.1 read
    intro order member entry inside
    cases member
    split at found
    · obtain ⟨item, -, counted⟩ := exists_of_mem_mapM found inside
      exact natBelow?_lt counted
    · cases found

theorem absentOr?_cases {α : Type} {read : Json → Option (Option α)} {stored : Option Json}
    {value : Option α} (found : absentOr? read stored = some value) :
    value = Option.none ∨ ∃ json, read json = some value := by
  cases stored with
  | none => exact Or.inl (Option.some.inj found).symm
  | some json => exact Or.inr ⟨json, found⟩

theorem fits_of_ofFields? {fields : List (Option String × Json)} {progress : Progress}
    (read : ofFields? fields = some progress) : progress.Fits := by
  simp only [ofFields?, Option.bind_eq_bind, Option.bind_eq_some_iff] at read
  obtain ⟨visits, -, order, -, cursor, -, read⟩ := read
  split at read
  · simp only [Option.bind_eq_some_iff, Option.pure_def, Option.some.injEq] at read
    obtain ⟨json, -, count, -, stored, ordered, placed, found, rfl⟩ := read
    constructor
    · rcases absentOr?_cases ordered with rfl | ⟨json, read⟩
      · intro order member
        cases member
      · exact lt_of_order? read
    · rcases absentOr?_cases found with rfl | ⟨json, read⟩
      · intro cursor member
        cases member
      · exact lt_of_cursor? read
  · cases read

/-- Whatever is read as progress is of words of 64 bits. -/
theorem fits_of_ofJson? {json : Json} {progress : Progress} (read : ofJson? json = some progress) :
    progress.Fits := by
  have absent {α : Type} (holds : α → Prop) : ∀ value ∈ (Option.none : Option α), holds value := by
    intro value member
    cases member
  unfold ofJson? at read
  split at read
  · exact fits_of_ofFields? read
  · simp only [Option.bind_eq_bind, Option.bind_eq_some_iff, Option.pure_def,
      Option.some.injEq] at read
    obtain ⟨visits, -, rfl⟩ := read
    exact ⟨absent _, absent _⟩
  · simp only [Option.bind_eq_bind, Option.bind_eq_some_iff, Option.pure_def,
      Option.some.injEq] at read
    obtain ⟨visits, -, order, ordered, rfl⟩ := read
    exact ⟨lt_of_order? ordered, absent _⟩
  · simp only [Option.bind_eq_bind, Option.bind_eq_some_iff, Option.pure_def,
      Option.some.injEq] at read
    obtain ⟨visits, -, order, ordered, cursor, placed, rfl⟩ := read
    exact ⟨lt_of_order? ordered, lt_of_cursor? placed⟩
  · cases read

theorem plain_toJson (progress : Progress) : Json.Plain progress.toJson := by
  obtain ⟨visits, order, cursor⟩ := progress
  have items (order : List Nat) : Json.Plain (.array (order.map natJson)) := by
    refine .array (fun item member => ?_)
    obtain ⟨entry, -, rfl⟩ := List.mem_map.1 member
    exact .number entry
  have listed : ∀ field ∈ fields ⟨visits, order, cursor⟩,
      (∃ name, field.1 = some name) ∧ Json.Plain field.2 := by
    intro field member
    rcases List.mem_cons.1 member with rfl | member
    · exact ⟨⟨_, rfl⟩, .number visits.toNat⟩
    rcases List.mem_append.1 member with member | member
    · cases order with
      | none => cases member
      | some order =>
        rw [List.mem_singleton.1 member]
        exact ⟨⟨_, rfl⟩, items order⟩
    · cases cursor with
      | none => cases member
      | some cursor =>
        rw [List.mem_singleton.1 member]
        exact ⟨⟨_, rfl⟩, .number cursor⟩
  exact .object (fun field member => (listed field member).1)
    (fun field member => (listed field member).2)

end Progress

/-! ### Stores -/

namespace Store

/-- All progress is of words of 64 bits. -/
def Fits (store : Store) : Prop := ∀ entry ∈ store.entries, entry.2.Fits

instance (store : Store) : Decidable store.Fits :=
  inferInstanceAs (Decidable (∀ entry ∈ store.entries, entry.2.Fits))

theorem plain_toJson (store : Store) : Json.Plain store.toJson := by
  refine .object (fun field member => ?_) (fun field member => ?_)
  · obtain ⟨entry, -, rfl⟩ := List.mem_map.1 member
    exact ⟨entry.1, rfl⟩
  · obtain ⟨entry, -, rfl⟩ := List.mem_map.1 member
    exact entry.2.plain_toJson

variable {store : Store}

/-- A store is read back from its JSON. -/
theorem ofJson?_toJson (fits : store.Fits) : ofJson? store.toJson = some store := by
  have inverse : ∀ entry ∈ store.entries, ofField? (some entry.1, entry.2.toJson) = some entry := by
    intro entry member
    rw [ofField?, Progress.ofJson?_toJson (fits entry member)]
  rw [toJson, ofJson?, mapM_map_of_inverse inverse, Option.map_some,
    KeyMap.ofList_entries]

theorem restore?_save (fits : store.Fits) : restore? store.save = some store := by
  rw [restore?, save, Json.ofString?_compact store.plain_toJson, Option.bind_some,
    ofJson?_toJson fits]

theorem restore?_savePretty (fits : store.Fits) : restore? store.savePretty = some store := by
  rw [restore?, savePretty, Json.ofString?_pretty store.plain_toJson, Option.bind_some,
    ofJson?_toJson fits]

/-- The progress of an identity is of words of 64 bits if all is, also if there is none. -/
theorem Fits.progress (fits : store.Fits) (identity : String) : (store.progress identity).Fits := by
  rw [Store.progress]
  cases found : store.get? identity with
  | none => exact ⟨fun order member => (by cases member), fun cursor member => (by cases member)⟩
  | some progress => exact fits _ (KeyMap.mem_of_find? found)

theorem Fits.insert (fits : store.Fits) (identity : String) {progress : Progress}
    (small : progress.Fits) : Fits (KeyMap.insert store identity progress) := by
  intro entry member
  rcases KeyMap.mem_put member with rfl | member
  · exact small
  · exact fits entry member

theorem fits_foldl_insert (fits : store.Fits) {entries : List (String × Progress)}
    (small : ∀ entry ∈ entries, entry.2.Fits) :
    Fits (entries.foldl (fun store entry => KeyMap.insert store entry.1 entry.2) store) := by
  induction entries generalizing store with
  | nil => exact fits
  | cons entry rest ih =>
    exact ih (fits.insert entry.1 (small entry List.mem_cons_self))
      (fun other member => small other (List.mem_cons_of_mem _ member))

theorem fits_empty : Fits KeyMap.empty := fun _ member => (by cases member)

/-- Whatever store is restored is of words of 64 bits. -/
theorem fits_of_restore? {text : String} (read : restore? text = some store) : store.Fits := by
  obtain ⟨json, -, found⟩ := Option.bind_eq_some_iff.1 read
  cases json with
  | object fields =>
    obtain ⟨entries, all, rfl⟩ := Option.map_eq_some_iff.1 found
    refine fits_foldl_insert fits_empty (fun entry member => ?_)
    obtain ⟨field, -, taken⟩ := exists_of_mem_mapM all member
    unfold ofField? at taken
    split at taken
    · next identity progress _ small =>
      cases taken
      exact Progress.fits_of_ofJson? small
    · cases taken
  | _ => cases found

/-- No two stores are saved as one text. -/
theorem save_injective {other : Store} (fits : store.Fits) (otherFits : other.Fits)
    (same : other.save = store.save) : other = store := by
  have read := restore?_save otherFits
  rw [same, restore?_save fits] at read
  exact (Option.some.inj read).symm

end Store

/-! ### Sessions -/

namespace Session

/-- A session takes over the progress in a saved text, or goes on as it is if the text is no saved
state. -/
def restoring (session : Session) (text : String) : Except SessionError Unit × Session :=
  match session.restore text with
  | .ok restored => (.ok (), restored)
  | .error error => (.error error, session)

variable {session next : Session} {text : String}

/-- What a session saved is taken over by any other. -/
theorem restore_save (other : Session) (fits : session.store.Fits) :
    other.restore session.save = .ok (other.withStore session.store) := by
  rw [restore, save, Store.restore?_save fits]

/-- Nothing but the store changes when a text is restored. -/
theorem restoring_eq (session : Session) (text : String) :
    (session.restoring text).2 =
      session.withStore ((Store.restore? text).getD session.store) := by
  rw [restoring, restore]
  cases Store.restore? text <;> rfl

theorem restoring_error {error : SessionError}
    (failed : session.restoring text = (.error error, next)) : Store.restore? text = none := by
  rw [restoring, restore] at failed
  cases read : Store.restore? text with
  | none => rfl
  | some store =>
    rw [read] at failed
    cases failed

/-- A saved store is restored exactly from both layouts, no other store is saved as the same text,
and a text that cannot be restored changes no session. -/
theorem restored_of_saved (store : Store) (fits : store.Fits) :
    Store.restore? store.save = some store ∧ Store.restore? store.savePretty = some store ∧
    (∀ other : Store, other.Fits → other.save = store.save → other = store) ∧
    ∀ (session next : Session) (text : String) (error : SessionError),
      session.restoring text = (.error error, next) → next.store = session.store := by
  refine ⟨Store.restore?_save fits, Store.restore?_savePretty fits, ?_, ?_⟩
  · intro other otherFits same
    exact Store.save_injective fits otherFits same
  · intro session next text error failed
    have after : next = session.withStore ((Store.restore? text).getD session.store) := by
      rw [← restoring_eq, failed]
    rw [after, restoring_error failed]
    rfl

/-- The progress of a list whose identity is hard to write, with the greatest words there are, and
that of a list without an order. -/
def strangeStore : Store :=
  (KeyMap.empty.insert "say \"\\hall\"\n\x01é"
    ⟨0xFFFFFFFF, some [2, 0xFFFFFFFFFFFFFFFF, 0], some 3⟩).insert "" ⟨0, none, none⟩

theorem restored_of_saved_strangeStore :
    strangeStore.Fits ∧ Store.restore? strangeStore.save = some strangeStore ∧
      Store.restore? strangeStore.savePretty = some strangeStore ∧
      ∀ session : Session, (session.restoring "[]").2.store = session.store := by
  have fits : strangeStore.Fits := by decide +kernel
  obtain ⟨compact, pretty, -, unchanged⟩ := restored_of_saved strangeStore fits
  refine ⟨fits, compact, pretty, fun session => ?_⟩
  have unread : Store.restore? "[]" = none := by cbv
  have failed : (session.restoring "[]").1 = .error .state := by
    rw [restoring, restore, unread]
  exact unchanged session _ "[]" .state (Prod.ext failed rfl)

end Session

end Narrative
