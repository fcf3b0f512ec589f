import ContactsIndex.Proofs.Store.Documents

/-!
# Room in a store

A removal always succeeds and makes room, and no call changes how many documents fit. A put
succeeds throughout when there is no bound (`success_put_unbounded`), or when the store has
room for as many documents as there are ids to choose from (`Among.success_put`).
-/

namespace ContactsIndex.DocumentStore

variable {ids : List String} {store : DocumentStore}

/-! ## Removing -/

theorem removeOne_cases (store : DocumentStore) (id : String) :
    store.removeOne id = (.notFound, store) ∨
      store.removeOne id = (.ok, { store with documents := store.documents.erase id }) := by
  unfold removeOne
  split
  · exact .inr rfl
  · exact .inl rfl

theorem cleared_removeAll : ∀ (ids : List String) (store : DocumentStore), (removeAll ids store).1.cleared = true
  | [], _ => rfl
  | id :: ids, store => by
    have ih := cleared_removeAll ids (store.removeOne id).2
    cases store.removeOne_cases id with
    | inl h => rw [h] at ih; simpa [removeAll, h, Outcome.cleared] using ih
    | inr h => rw [h] at ih; simpa [removeAll, h, Outcome.cleared, Status.isOk] using ih

theorem capacity_removeAll : ∀ (ids : List String) (store : DocumentStore),
    (removeAll ids store).2.capacity = store.capacity
  | [], _ => rfl
  | id :: ids, store => by
    cases store.removeOne_cases id with
    | inl h => simp [removeAll, h, capacity_removeAll ids]
    | inr h => simp [removeAll, h, capacity_removeAll ids]

theorem size_removeAll_le : ∀ (ids : List String) (store : DocumentStore), (removeAll ids store).2.size ≤ store.size
  | [], _ => Nat.le_refl _
  | id :: ids, store => by
    have ih := size_removeAll_le ids (store.removeOne id).2
    have hone : (store.removeOne id).2.size ≤ store.size := by
      cases store.removeOne_cases id with
      | inl h => simp [h]
      | inr h => rw [h]; exact Std.TreeMap.size_erase_le
    exact Nat.le_trans ih hone

theorem cleared_remove (store : DocumentStore) (ids : List String) : (store.remove ids).1.cleared = true :=
  cleared_removeAll ids _

@[simp] theorem capacity_remove (store : DocumentStore) (ids : List String) :
    (store.remove ids).2.capacity = store.capacity :=
  capacity_removeAll ids _

theorem size_remove_le (store : DocumentStore) (ids : List String) : (store.remove ids).2.size ≤ store.size :=
  size_removeAll_le ids _

/-! ## Putting -/

theorem capacity_putAll : ∀ (docs : List Document) (store : DocumentStore),
    (putAll docs store).2.capacity = store.capacity
  | [], _ => rfl
  | doc :: docs, store => by
    cases store.putOne_eq doc with
    | inl h => simp [putAll, h, capacity_putAll docs]
    | inr h => simp [putAll, h, capacity_putAll docs]

@[simp] theorem capacity_put (store : DocumentStore) (docs : List Document) :
    (store.put docs).2.capacity = store.capacity :=
  capacity_putAll docs _

theorem success_putAll_unbounded : ∀ (docs : List Document) (store : DocumentStore), store.capacity = none →
    Outcome.success (putAll docs store).1 = true
  | [], _, _ => rfl
  | doc :: docs, store, h => by
    have hone : store.putOne doc = (.ok, { store with documents := store.documents.insert doc.id doc }) := by
      simp [putOne, isFull, h]
    have hrest := success_putAll_unbounded docs (store.putOne doc).2 (by rw [hone]; exact h)
    rw [hone] at hrest
    simpa [putAll, hone, Outcome.success, Status.isOk] using hrest

theorem success_put_unbounded (docs : List Document) (h : store.capacity = none) :
    (store.put docs).1.success = true :=
  success_putAll_unbounded docs _ h

/-! ## Ids to choose from -/

def Among (store : DocumentStore) (ids : List String) : Prop :=
  ∀ id ∈ store.ids, id ∈ ids

theorem Among.size_le (h : store.Among ids) : store.size ≤ ids.length := by
  have hlength : store.ids.length = store.size := Std.TreeMap.length_keys
  rw [← hlength]
  exact Std.TreeMap.nodup_keys.length_le_of_subset h

/-- As many documents fit as there are ids. -/
def Seats (store : DocumentStore) (ids : List String) : Prop :=
  ∀ n, store.capacity = some n → ids.length ≤ n

theorem Among.insert (h : store.Among ids) {doc : Document} (hd : doc.id ∈ ids) :
    ({ store with documents := store.documents.insert doc.id doc } : DocumentStore).Among ids := by
  intro id hid
  rw [mem_ids, get?_insert] at hid
  by_cases he : doc.id = id
  · exact he ▸ hd
  · rw [if_neg he] at hid
    exact h id (mem_ids.mpr hid)

theorem Among.putOne_eq (h : store.Among ids) (hs : store.Seats ids) {doc : Document} (hd : doc.id ∈ ids) :
    store.putOne doc = (.ok, { store with documents := store.documents.insert doc.id doc }) := by
  rcases store.putOne_cases doc with ⟨hnone, hfull, -⟩ | ⟨-, hone⟩
  · -- one more document would be more than there are ids
    have hsize := (h.insert hd).size_le
    have hgrown : ({ store with documents := store.documents.insert doc.id doc } : DocumentStore).size =
        store.size + 1 := by
      simp [size, Std.TreeMap.size_insert, contains_eq, hnone]
    obtain ⟨n, hn, hle⟩ := isFull_iff.mp hfull
    have hseats := hs n hn
    omega
  · exact hone

theorem Among.putAll : ∀ {docs : List Document} {store : DocumentStore}, store.Among ids → store.Seats ids →
    (∀ doc ∈ docs, doc.id ∈ ids) →
      Outcome.success (DocumentStore.putAll docs store).1 = true ∧ (DocumentStore.putAll docs store).2.Among ids
  | [], _, h, _, _ => ⟨rfl, h⟩
  | doc :: docs, store, h, hs, hd => by
    have hone := h.putOne_eq hs (hd doc (List.mem_cons_self ..))
    have hrest := (h.insert (hd doc (List.mem_cons_self ..))).putAll hs fun d hm => hd d (List.mem_cons_of_mem _ hm)
    simp only [DocumentStore.putAll, hone]
    exact ⟨by simpa [Outcome.success, Status.isOk] using hrest.1, hrest.2⟩

theorem Among.success_put {docs : List Document} (h : store.Among ids) (hs : store.Seats ids)
    (hd : ∀ doc ∈ docs, doc.id ∈ ids) : (store.put docs).1.success = true := by
  have hcalled : ({ store with putCalls := store.putCalls + 1 } : DocumentStore).Among ids := h
  exact (hcalled.putAll hs hd).1

theorem Among.put {docs : List Document} (h : store.Among ids) (hs : store.Seats ids)
    (hd : ∀ doc ∈ docs, doc.id ∈ ids) : (store.put docs).2.Among ids := by
  have hcalled : ({ store with putCalls := store.putCalls + 1 } : DocumentStore).Among ids := h
  exact (hcalled.putAll hs hd).2

theorem Among.remove {all removed : List String} (h : store.Among all) (hr : ∀ id ∈ all, id ∉ removed → id ∈ ids) :
    (store.remove removed).2.Among ids := by
  intro id hid
  rw [mem_ids, get?_remove] at hid
  by_cases hm : id ∈ removed
  · rw [if_pos hm] at hid
    cases hid
  · rw [if_neg hm] at hid
    exact hr id (h id (mem_ids.mpr hid)) hm

end ContactsIndex.DocumentStore
