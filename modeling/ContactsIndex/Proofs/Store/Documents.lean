import ContactsIndex.Store.Memory

/-!
# What batch calls leave in the store

`get?_remove` and `get?_put_taken` say what a store holds under an id after a batch call:
nothing under a removed id, and of several documents with one id the last one that was
taken. All are taken where the answer is success throughout (`get?_put`), and in any case
there is, under each id, what was there before or one of the documents (`get?_put_or`).
-/

namespace ContactsIndex

def Outcome.cleared (outcome : Outcome) : Bool :=
  outcome.all fun entry => entry.2.isOk || entry.2 = .notFound

namespace Outcome

variable {outcome : Outcome} {docs : List Document}

def taken (outcome : Outcome) (docs : List Document) : List Document :=
  ((docs.zip outcome).filter (·.2.2.isOk)).map (·.1)

theorem taken_cons (entry : String × Status) (outcome : Outcome) (doc : Document) (docs : List Document) :
    taken (entry :: outcome) (doc :: docs) = if entry.2.isOk then doc :: outcome.taken docs else outcome.taken docs := by
  by_cases hok : entry.2.isOk <;> simp [taken, hok]

theorem mem_of_mem_taken {doc : Document} (h : doc ∈ outcome.taken docs) : doc ∈ docs := by
  obtain ⟨entry, hentry, rfl⟩ := List.mem_map.mp h
  exact (List.of_mem_zip (List.mem_filter.mp hentry).1).1

theorem taken_of_success (h : outcome.success = true) (hlength : outcome.length = docs.length) :
    outcome.taken docs = docs := by
  have hall : (docs.zip outcome).filter (·.2.2.isOk) = docs.zip outcome :=
    List.filter_eq_self.mpr fun entry hentry => List.all_eq_true.mp h entry.2 (List.of_mem_zip hentry).2
  rw [taken, hall, List.map_fst_zip (Nat.le_of_eq hlength.symm)]

end Outcome

namespace DocumentStore

theorem get?_insert (store : DocumentStore) (doc : Document) (id : String) :
    ({ store with documents := store.documents.insert doc.id doc } : DocumentStore).get? id =
      if doc.id = id then some doc else store.get? id := by
  simp only [get?, Std.TreeMap.getElem?_insert, Std.compare_eq_iff_eq]

theorem contains_eq (store : DocumentStore) (id : String) :
    store.documents.contains id = (store.get? id).isSome :=
  Std.TreeMap.contains_eq_isSome_getElem?

theorem mem_ids {store : DocumentStore} {id : String} : id ∈ store.ids ↔ (store.get? id).isSome := by
  rw [ids, Std.TreeMap.mem_keys, Std.TreeMap.mem_iff_isSome_getElem?]; rfl

/-! ## Removing -/

theorem get?_removeOne (store : DocumentStore) (id other : String) :
    (store.removeOne id).2.get? other = if id = other then none else store.get? other := by
  unfold removeOne
  split
  · simp only [get?, Std.TreeMap.getElem?_erase, Std.compare_eq_iff_eq]
  · rename_i h
    rw [contains_eq, Option.not_isSome_iff_eq_none] at h
    by_cases he : id = other
    · subst he; simp [h]
    · simp [he]

theorem length_removeAll :
    ∀ (ids : List String) (store : DocumentStore), (removeAll ids store).1.length = ids.length
  | [], _ => rfl
  | _ :: ids, _ => congrArg (· + 1) (length_removeAll ids _)

theorem get?_removeAll (id : String) : ∀ (ids : List String) (store : DocumentStore),
    (removeAll ids store).2.get? id = if id ∈ ids then none else store.get? id
  | [], store => by simp [removeAll]
  | x :: xs, store => by
    simp only [removeAll, get?_removeAll id xs, get?_removeOne, List.mem_cons]
    by_cases hx : x = id
    · simp [hx]
    · simp [hx, Ne.symm hx]

theorem schema_removeAll :
    ∀ (ids : List String) (store : DocumentStore), (removeAll ids store).2.schema = store.schema
  | [], _ => rfl
  | id :: ids, store => by
    simp only [removeAll, schema_removeAll ids, removeOne]
    split <;> rfl

theorem get?_remove (store : DocumentStore) (ids : List String) (id : String) :
    (store.remove ids).2.get? id = if id ∈ ids then none else store.get? id :=
  get?_removeAll id ids _

/-! ## Putting -/

theorem isFull_iff {store : DocumentStore} :
    store.isFull = true ↔ ∃ n, store.capacity = some n ∧ n ≤ store.size := by
  unfold isFull
  cases store.capacity <;> simp

theorem putOne_cases (store : DocumentStore) (doc : Document) :
    (store.get? doc.id = none ∧ store.isFull = true ∧ store.putOne doc = (.outOfSpace, store)) ∨
    ((store.get? doc.id = none → store.isFull = false) ∧
      store.putOne doc = (.ok, { store with documents := store.documents.insert doc.id doc })) := by
  have hnew : store.documents.contains doc.id = false ↔ store.get? doc.id = none := by
    rw [contains_eq, Option.isSome_eq_false_iff, Option.isNone_iff_eq_none]
  unfold putOne
  by_cases hrefused : store.get? doc.id = none ∧ store.isFull = true
  · exact .inl ⟨hrefused.1, hrefused.2, by simp [hnew.mpr hrefused.1, hrefused.2]⟩
  · refine .inr ⟨fun hnone => by simpa [hnone] using hrefused, ?_⟩
    rw [if_neg (by simpa [hnew] using hrefused)]

theorem putOne_eq (store : DocumentStore) (doc : Document) :
    store.putOne doc = (.outOfSpace, store) ∨
      store.putOne doc = (.ok, { store with documents := store.documents.insert doc.id doc }) :=
  (store.putOne_cases doc).imp (·.2.2) (·.2)

theorem length_putAll :
    ∀ (docs : List Document) (store : DocumentStore), (putAll docs store).1.length = docs.length
  | [], _ => rfl
  | _ :: docs, _ => congrArg (· + 1) (length_putAll docs _)

theorem get?_putAll (id : String) (docs : List Document) (store : DocumentStore) :
    (putAll docs store).2.get? id =
      (((putAll docs store).1.taken docs).reverse.find? (·.id = id)).or (store.get? id) := by
  induction docs generalizing store with
  | nil => rfl
  | cons doc docs ih =>
    rw [putAll, ih, Outcome.taken_cons]
    rcases store.putOne_eq doc with hone | hone
    · simp [hone, Status.isOk]
    · rw [hone, get?_insert]
      by_cases hd : doc.id = id <;> simp [hd, Status.isOk, List.find?_append]

theorem schema_putAll :
    ∀ (docs : List Document) (store : DocumentStore), (putAll docs store).2.schema = store.schema
  | [], _ => rfl
  | doc :: docs, store => by
    rcases store.putOne_eq doc with hone | hone <;> simp only [putAll, schema_putAll docs, hone]

theorem get?_put_taken (store : DocumentStore) (docs : List Document) (id : String) :
    (store.put docs).2.get? id = (((store.put docs).1.taken docs).reverse.find? (·.id = id)).or (store.get? id) :=
  get?_putAll id docs _

theorem get?_put (store : DocumentStore) (docs : List Document) (id : String)
    (h : (store.put docs).1.success = true) :
    (store.put docs).2.get? id = (docs.reverse.find? (·.id = id)).or (store.get? id) := by
  rw [get?_put_taken, Outcome.taken_of_success h (length_putAll ..)]

theorem get?_put_or (store : DocumentStore) (docs : List Document) (id : String) :
    (store.put docs).2.get? id = store.get? id ∨
      ∃ doc ∈ docs, doc.id = id ∧ (store.put docs).2.get? id = some doc := by
  rw [get?_put_taken]
  cases hlast : ((store.put docs).1.taken docs).reverse.find? (·.id = id) with
  | none => exact .inl rfl
  | some doc =>
    have hmem := List.mem_reverse.mp (List.mem_of_find?_eq_some hlast)
    exact .inr ⟨doc, Outcome.mem_of_mem_taken hmem, by simpa using List.find?_some hlast, rfl⟩

theorem get?_put_of_mem {store : DocumentStore} {docs : List Document} {doc : Document}
    (h : (store.put docs).1.success = true) (hd : doc ∈ docs) :
    ∃ d ∈ docs, d.id = doc.id ∧ (store.put docs).2.get? doc.id = some d := by
  rw [get?_put _ _ _ h]
  cases hf : docs.reverse.find? (·.id = doc.id) with
  | none =>
    have := List.find?_eq_none.mp hf doc (List.mem_reverse.mpr hd)
    simp at this
  | some d => exact ⟨d, List.mem_reverse.mp (List.mem_of_find?_eq_some hf),
    by simpa using List.find?_some hf, rfl⟩

end DocumentStore

end ContactsIndex
