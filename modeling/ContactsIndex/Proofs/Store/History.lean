import ContactsIndex.Proofs.Store.Room

/-!
# A store along its history

Whatever is asked of a store that was empty once, it has no more documents than fit
(`Bounded.after`). An entry of a batch call is answered for the store as the entries before it
have left it (`getElem?_put`, `getElem?_remove`): a put refuses a new id when there is no room,
and under each id it leaves the last document that it took (`get?_put_taken`).
-/

namespace ContactsIndex

namespace DocumentStore

variable {store : DocumentStore}

inductive Change where
  | put (docs : List Document)
  | remove (ids : List String)
  | setSchema (schema : Schema) (force : Bool)

def change (store : DocumentStore) : Change → DocumentStore
  | .put docs => (store.put docs).2
  | .remove ids => (store.remove ids).2
  | .setSchema schema force => (store.setSchema schema force).2

def after (store : DocumentStore) (history : List Change) : DocumentStore :=
  history.foldl change store

/-! ## Schemas -/

theorem setSchema_cases (store : DocumentStore) (schema : Schema) (force : Bool) :
    (∃ types, Schema.compatibility store.schema schema = .incompatible types ∧ force = false ∧
      store.setSchema schema force = (.error (.incompatibleSchema types), store)) ∨
    (∃ types, Schema.compatibility store.schema schema = .incompatible types ∧ force = true ∧
      store.setSchema schema force = (.ok types, { store.installSchema schema with documents := ∅ })) ∨
    ((∀ types, Schema.compatibility store.schema schema ≠ .incompatible types) ∧
      store.setSchema schema force = (.ok [], store.installSchema schema)) := by
  unfold setSchema
  split
  · next types hinc =>
    cases force with
    | false => exact .inl ⟨types, hinc, rfl, rfl⟩
    | true => exact .inr (.inl ⟨types, hinc, rfl, rfl⟩)
  · next hkept => exact .inr (.inr ⟨hkept, rfl⟩)

theorem setSchema_refused_iff {schema : Schema} {types : List String} :
    store.setSchema schema false = (.error (.incompatibleSchema types), store) ↔
      Schema.compatibility store.schema schema = .incompatible types := by
  rcases store.setSchema_cases schema false with ⟨refused, hinc, -, hset⟩ | ⟨_, _, hforce, _⟩ | ⟨hkept, hset⟩
  · simp [hset, hinc]
  · cases hforce
  · simp [hset, hkept]

/-! ## Room -/

def Bounded (store : DocumentStore) : Prop :=
  ∀ n, store.capacity = some n → store.size ≤ n

theorem Bounded.isFull_iff (h : store.Bounded) : store.isFull = true ↔ store.capacity = some store.size := by
  rw [DocumentStore.isFull_iff]
  constructor
  · intro ⟨n, hn, hle⟩
    rw [hn, Nat.le_antisymm hle (h n hn)]
  · exact fun hn => ⟨store.size, hn, Nat.le_refl _⟩

theorem Bounded.putOne (h : store.Bounded) (doc : Document) : (store.putOne doc).2.Bounded := by
  rcases store.putOne_cases doc with ⟨-, -, hone⟩ | ⟨hroom, hone⟩
  · rwa [hone]
  · intro n hn
    rw [hone] at hn ⊢
    have hle := h n hn
    simp only [size, Std.TreeMap.size_insert, contains_eq]
    split
    · exact hle
    · -- a new document has come into a store that was not full
      next hnew =>
      have hnone : store.get? doc.id = none := by simpa using hnew
      have hnot : ¬ store.capacity = some store.size := by
        rw [← h.isFull_iff, hroom hnone]
        exact Bool.false_ne_true
      have hne : store.size ≠ n := fun hsame => hnot (hsame ▸ hn)
      exact Nat.lt_of_le_of_ne hle hne

theorem Bounded.putAll : ∀ {store : DocumentStore} (docs : List Document), store.Bounded →
    (putAll docs store).2.Bounded
  | _, [], h => h
  | _, doc :: docs, h => Bounded.putAll docs (h.putOne doc)

theorem Bounded.put (h : store.Bounded) (docs : List Document) : (store.put docs).2.Bounded :=
  have hcalled : ({ store with putCalls := store.putCalls + 1 } : DocumentStore).Bounded := h
  hcalled.putAll docs

theorem Bounded.remove (h : store.Bounded) (ids : List String) : (store.remove ids).2.Bounded := by
  intro n hn
  rw [capacity_remove] at hn
  exact Nat.le_trans (store.size_remove_le ids) (h n hn)

theorem Bounded.setSchema (h : store.Bounded) (schema : Schema) (force : Bool) :
    (store.setSchema schema force).2.Bounded := by
  rcases store.setSchema_cases schema force with ⟨_, _, _, hset⟩ | ⟨_, _, _, hset⟩ | ⟨_, hset⟩ <;> rw [hset]
  · exact h
  · exact fun n _ => Nat.zero_le n
  · exact h

theorem Bounded.change (h : store.Bounded) (ch : Change) : (store.change ch).Bounded := by
  cases ch with
  | put docs => exact h.put docs
  | remove ids => exact h.remove ids
  | setSchema schema force => exact h.setSchema schema force

theorem Bounded.after (h : store.Bounded) (history : List Change) : (store.after history).Bounded :=
  List.foldlRecOn history _ h fun _ hb ch _ => hb.change ch

theorem bounded_empty (capacity : Option Nat) : (empty capacity).Bounded :=
  fun n _ => Nat.zero_le n

theorem capacity_change (store : DocumentStore) (ch : Change) : (store.change ch).capacity = store.capacity := by
  cases ch with
  | put docs => exact store.capacity_put docs
  | remove ids => exact store.capacity_remove ids
  | setSchema schema force =>
    rcases store.setSchema_cases schema force with ⟨_, _, _, hset⟩ | ⟨_, _, _, hset⟩ | ⟨_, hset⟩ <;>
      rw [change, hset] <;> rfl

theorem capacity_after (store : DocumentStore) (history : List Change) :
    (store.after history).capacity = store.capacity := by
  induction history generalizing store with
  | nil => rfl
  | cons ch history ih => exact (ih (store.change ch)).trans (store.capacity_change ch)

/-! ## Answers, entry by entry -/

theorem putAll_append (docs more : List Document) (store : DocumentStore) :
    putAll (docs ++ more) store = ((putAll docs store).1 ++ (putAll more (putAll docs store).2).1,
      (putAll more (putAll docs store).2).2) := by
  induction docs generalizing store with
  | nil => rfl
  | cons doc docs ih => simp [putAll, ih]

theorem removeAll_append (ids more : List String) (store : DocumentStore) :
    removeAll (ids ++ more) store = ((removeAll ids store).1 ++ (removeAll more (removeAll ids store).2).1,
      (removeAll more (removeAll ids store).2).2) := by
  induction ids generalizing store with
  | nil => rfl
  | cons id ids ih => simp [removeAll, ih]

theorem ids_putAll : ∀ (docs : List Document) (store : DocumentStore),
    (putAll docs store).1.map (·.1) = docs.map (·.id)
  | [], _ => rfl
  | _ :: docs, _ => congrArg (_ :: ·) (ids_putAll docs _)

theorem ids_removeAll : ∀ (ids : List String) (store : DocumentStore), (removeAll ids store).1.map (·.1) = ids
  | [], _ => rfl
  | _ :: ids, _ => congrArg (_ :: ·) (ids_removeAll ids _)

theorem getElem?_put (store : DocumentStore) (earlier : List Document) (doc : Document) (later : List Document) :
    (store.put (earlier ++ doc :: later)).1[earlier.length]? =
      some (doc.id, ((store.put earlier).2.putOne doc).1) := by
  rw [put, putAll_append, List.getElem?_append_right (Nat.le_of_eq (length_putAll ..)), length_putAll, Nat.sub_self]
  rfl

theorem getElem?_remove (store : DocumentStore) (earlier : List String) (id : String) (later : List String) :
    (store.remove (earlier ++ id :: later)).1[earlier.length]? =
      some (id, ((store.remove earlier).2.removeOne id).1) := by
  rw [remove, removeAll_append, List.getElem?_append_right (Nat.le_of_eq (length_removeAll ..)), length_removeAll,
    Nat.sub_self]
  rfl

theorem Bounded.status_putOne (h : store.Bounded) (doc : Document) : (store.putOne doc).1 =
    if store.get? doc.id = none ∧ store.capacity = some store.size then .outOfSpace else .ok := by
  rcases store.putOne_cases doc with ⟨hnone, hfull, hone⟩ | ⟨hroom, hone⟩
  · rw [hone, if_pos ⟨hnone, h.isFull_iff.mp hfull⟩]
  · have hnot : ¬ (store.get? doc.id = none ∧ store.capacity = some store.size) := by
      intro ⟨hnone, hfull⟩
      have hfull := h.isFull_iff.mpr hfull
      rw [hroom hnone] at hfull
      cases hfull
    rw [hone, if_neg hnot]

theorem status_removeOne (store : DocumentStore) (id : String) :
    (store.removeOne id).1 = if (store.get? id).isSome then .ok else .notFound := by
  rw [removeOne, contains_eq]
  split <;> rfl

/-! ## All answers -/

/-- An empty store, whatever it is asked: it never has more documents than fit, and gives one answer for each
entry of a call, in order. A put refuses a document just when its id is new and the store is full as its
turn comes, and leaves under each id the last document that it took, or what was there. A removal leaves none
of the ids, and finds each id that is there where it is named first. A schema that does not take over
the documents is refused without force, and all stays as it is. -/
theorem answers_after (capacity : Option Nat) (history : List Change) :
    let store := (empty capacity).after history
    (∀ n, capacity = some n → store.size ≤ n) ∧
    (∀ docs, (store.put docs).1.map (·.1) = docs.map (·.id)) ∧
    (∀ ids, (store.remove ids).1.map (·.1) = ids) ∧
    (∀ earlier doc later, (store.put (earlier ++ doc :: later)).1[earlier.length]? = some (doc.id,
      if (store.put earlier).2.get? doc.id = none ∧ capacity = some (store.put earlier).2.size then .outOfSpace
      else .ok)) ∧
    (∀ docs id, (store.put docs).2.get? id =
      (((store.put docs).1.taken docs).reverse.find? (·.id = id)).or (store.get? id)) ∧
    (∀ ids id, (store.remove ids).2.get? id = if id ∈ ids then none else store.get? id) ∧
    (∀ earlier id later, (store.remove (earlier ++ id :: later)).1[earlier.length]? = some (id,
      if (store.get? id).isSome ∧ id ∉ earlier then .ok else .notFound)) ∧
    ∀ schema types, store.setSchema schema false = (.error (.incompatibleSchema types), store) ↔
      Schema.compatibility store.schema schema = .incompatible types := by
  intro store
  have hstore : store.Bounded := (bounded_empty capacity).after history
  have hcapacity : store.capacity = capacity := (empty capacity).capacity_after history
  refine ⟨fun n hn => hstore n (hcapacity.trans hn), fun docs => ids_putAll docs _, fun ids => ids_removeAll ids _,
    fun earlier doc later => ?_, store.get?_put_taken, store.get?_remove, fun earlier id later => ?_,
    fun schema types => setSchema_refused_iff⟩
  · rw [getElem?_put, (hstore.put earlier).status_putOne, capacity_put, hcapacity]
  · rw [getElem?_remove, status_removeOne, get?_remove]
    by_cases hid : id ∈ earlier <;> simp [hid]

example :
    let doc (id name : String) : Document := { Document.blank with id, name }
    ((empty (some 1)).put [doc "a" "Ada", doc "b" "Bob", doc "a" "Ada King"]).1 =
      [("a", .ok), ("b", .outOfSpace), ("a", .ok)] := by
  decide +kernel

end DocumentStore

end ContactsIndex
