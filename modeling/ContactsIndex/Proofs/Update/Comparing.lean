import ContactsIndex.Proofs.Program.Collaborators
import ContactsIndex.Update.Corpus

/-!
# Comparing contacts with the store

Each contact that was found is compared with what is stored under its own id
(`compare_eq`). What is written for it is its `refreshed` document, and when nothing is,
that document is in the store already (`indexable_diff`).
-/

namespace ContactsIndex

namespace Corpus

theorem compare_eq (deleted : List String) (now : Int) (store : DocumentStore) (found : List Contact) :
    compare deleted now found (store.entries (found.map (·.id))) = found.map fun c =>
      (Document.ofContact c now).diff
      (if deleted.contains c.id then none else (store.get? c.id).map Document.entry) := by
  unfold compare DocumentStore.entries
  rw [List.map_map]
  apply List.ext_getElem
  · simp
  · intro i h₁ h₂
    have hi : i < found.length := by simpa using h₂
    simp [hi]

end Corpus

theorem Diffed.id_of_indexable {diffed : Diffed} {doc : Document} (h : diffed.indexable = some doc) :
    doc.id = diffed.document.id ∧ doc.fingerprint = diffed.document.fingerprint := by
  unfold indexable at h
  split at h
  · cases h; exact ⟨rfl, rfl⟩
  · cases h
  · cases h; exact ⟨rfl, rfl⟩

theorem Document.diff_eq_none {doc : Document} {entry : Option Entry}
    (h : (doc.diff entry).indexable = none) :
    entry.map (·.fingerprint) = some doc.fingerprint := by
  unfold diff decide Diffed.indexable at h
  cases entry with
  | none => cases h
  | some e =>
    dsimp only at h
    split at h
    · cases h
    · next hdec =>
      split at hdec
      · next he => exact congrArg some he
      · cases hdec
    · cases h

theorem Document.indexable_diff_eq_none {doc : Document} {entry : Option Entry}
    (h : entry.map (·.fingerprint) = some doc.fingerprint) : (doc.diff entry).indexable = none := by
  cases entry with
  | none => cases h
  | some e =>
    have he : e.fingerprint = doc.fingerprint := Option.some.inj h
    simp [diff, decide, Diffed.indexable, he]

namespace Corpus

variable {deleted : List String} {now : Int} {store : DocumentStore} {found : List Contact}

theorem mem_compared {doc : Document}
    (h : doc ∈ (compare deleted now found (store.entries (found.map (·.id)))).filterMap
      Diffed.indexable) :
    ∃ c ∈ found, doc.id = c.id ∧ doc.fingerprint = c.fingerprint := by
  rw [compare_eq] at h
  obtain ⟨diffed, hd, hx⟩ := List.mem_filterMap.mp h
  obtain ⟨c, hc, rfl⟩ := List.mem_map.mp hd
  exact ⟨c, hc, Diffed.id_of_indexable hx⟩

theorem compared_or (deleted : List String) (now : Int) (store : DocumentStore) {c : Contact}
    (hc : c ∈ found) :
    (∃ doc ∈ (compare deleted now found (store.entries (found.map (·.id)))).filterMap
      Diffed.indexable, doc.id = c.id) ∨
      (c.id ∉ deleted ∧ store.fingerprint? c.id = some c.fingerprint) := by
  rw [compare_eq]
  cases hx : ((Document.ofContact c now).diff
      (if deleted.contains c.id then none else (store.get? c.id).map Document.entry)).indexable with
  | some doc =>
    refine .inl ⟨doc, List.mem_filterMap.mpr ⟨_, List.mem_map_of_mem hc, hx⟩, ?_⟩
    exact (Diffed.id_of_indexable hx).1
  | none =>
    have heq := Document.diff_eq_none hx
    rw [Document.fingerprint_ofContact] at heq
    by_cases hdel : c.id ∈ deleted
    · simp [hdel] at heq
    · refine .inr ⟨hdel, ?_⟩
      simpa [hdel, DocumentStore.fingerprint?, Document.entry, Function.comp_def] using heq

/-- The documents that are to be written for the contacts found. -/
def drafts (deleted : List String) (now : Int) (found : List Contact) (store : DocumentStore) : List Document :=
  (compare deleted now found (store.entries (found.map (·.id)))).filterMap Diffed.indexable

/-- What the cycle takes to be stored under an id: nothing, if it deletes the id. -/
def kept (deleted : List String) (store : DocumentStore) (id : String) : Option Document :=
  if id ∈ deleted then none else store.get? id

theorem mem_drafts {doc : Document} : doc ∈ drafts deleted now found store ↔
    ∃ c ∈ found,
      ((Document.ofContact c now).diff ((kept deleted store c.id).map Document.entry)).indexable = some doc := by
  have hkept : ∀ id, (if deleted.contains id then none else (store.get? id).map Document.entry) =
      (kept deleted store id).map Document.entry := by
    intro id
    unfold kept
    by_cases h : id ∈ deleted <;> simp [h]
  simp only [drafts, compare_eq, hkept, List.filterMap_map, List.mem_filterMap, Function.comp_apply]

theorem found_of_mem_drafts {read : String → Option Contact} {chunk : List String} {doc : Document}
    (hid : ∀ {id c}, read id = some c → c.id = id)
    (hfound : ∀ c, c ∈ found ↔ ∃ id ∈ chunk, read id = some c) (hd : doc ∈ drafts deleted now found store) :
    doc.id ∈ chunk ∧ ∃ c ∈ found, read doc.id = some c ∧
      ((Document.ofContact c now).diff ((kept deleted store doc.id).map Document.entry)).indexable = some doc := by
  obtain ⟨c, hc, hx⟩ := mem_drafts.mp hd
  obtain ⟨id, hchunk, hr⟩ := (hfound c).mp hc
  obtain rfl := hid hr
  have hdoc : doc.id = c.id := (Diffed.id_of_indexable hx).1
  rw [hdoc]
  exact ⟨hchunk, c, hc, hr, hx⟩

end Corpus

/-! ## The document of a contact that is read -/

/-- The document of a contact, given what is stored: that one itself if it shows the same
content, and else a new one that keeps the creation time. -/
def Document.refreshed (c : Contact) (now : Int) : Option Document → Document
  | none => ofContact c now
  | some doc => if doc.fingerprint = (ofContact c now).fingerprint then doc else ofContact c doc.createdAt

namespace Document

theorem fingerprint_refreshed (c : Contact) (now : Int) (stored : Option Document) :
    (refreshed c now stored).fingerprint = c.fingerprint := by
  cases stored with
  | none => rfl
  | some doc =>
    unfold refreshed
    dsimp only
    split
    · next h => exact h
    · rfl

theorem createdAt_refreshed (c : Contact) (now : Int) (doc : Document) :
    (refreshed c now (some doc)).createdAt = doc.createdAt := by
  unfold refreshed
  dsimp only
  split <;> rfl

theorem indexable_diff (c : Contact) (now : Int) (stored : Option Document) :
    ((ofContact c now).diff (stored.map entry)).indexable = some (refreshed c now stored) ∨
      ((ofContact c now).diff (stored.map entry)).indexable = none ∧ stored = some (refreshed c now stored) := by
  cases stored with
  | none => exact .inl rfl
  | some doc =>
    by_cases h : doc.fingerprint = (ofContact c now).fingerprint
    · right; simp [refreshed, diff, decide, entry, Diffed.indexable, h]
    · left; simp [refreshed, diff, decide, entry, Diffed.indexable, h]; rfl

end Document

end ContactsIndex
