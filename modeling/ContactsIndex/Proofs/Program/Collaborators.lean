import ContactsIndex.Bench.World
import ContactsIndex.Proofs.Program.Failure
import ContactsIndex.Proofs.Source.AddressBook

/-!
# Collaborators in memory

The address book, the document store, the job scheduler and the settings file that
live in memory, as one state that calls are served from. A scene of the test bench
that nothing disturbs serves calls in just this way (`respond_none`).

No call changes a contact (`serve_book`), and few change a document (`serve_get?`).
A program that runs without interruption ends as it may end in any environment
that allows the answers it got (`Program.ends_run`).
-/

namespace ContactsIndex

structure Collaborators where
  book : AddressBook
  store : DocumentStore
  scheduler : JobScheduler
  place : SettingsPlace

namespace Collaborators

def fresh (capacity : Option Nat) : Collaborators :=
  ⟨.empty, .empty capacity, .empty, .missing⟩

def serve (w : Collaborators) : (c : Call) → c.Reply × Collaborators
  | .updated since limit =>
      (.ok (w.book.queryUpdated since limit).1,
      { w with book := (w.book.queryUpdated since limit).2 })
  | .deleted since => (.ok (w.book.queryDeleted since).1,
    { w with book := (w.book.queryDeleted since).2 })
  | .contacts ids => (.ok (w.book.queryContacts ids).1, { w with book := (w.book.queryContacts ids).2 })
  | .put docs => (.ok (w.store.put docs).1, { w with store := (w.store.put docs).2 })
  | .remove ids => (.ok (w.store.remove ids).1, { w with store := (w.store.remove ids).2 })
  | .entries ids => (.ok (w.store.entries ids), w)
  | .listIds => (.ok w.store.ids, w)
  | .getSchema => (.ok w.store.schema, w)
  | .setSchema schema force =>
    ((w.store.setSchema schema force).1, { w with store := (w.store.setSchema schema force).2 })
  | .schedule user job => (.ok (), { w with scheduler := w.scheduler.schedule user job })
  | .cancelJob user => (.ok (w.scheduler.cancel user).1,
    { w with scheduler := (w.scheduler.cancel user).2 })
  | .pendingJob user => (.ok (w.scheduler.pending? user), w)
  | .makeFolder => (if w.place.makeFolder.1 then .ok () else .error .io,
    { w with place := w.place.makeFolder.2 })
  | .loadSettings => (w.place.load, w)
  | .persist settings => ((w.place.persist settings).1,
    { w with place := (w.place.persist settings).2 })

/-- Calls that nobody refuses and nobody waits for. -/
def surroundings (now : Int) : Program.Surroundings Collaborators where
  clock := fun _ => now
  token := fun _ => false
  note := fun _ w => w
  answer := fun _ _ w => w
  reply := fun c w => w.serve c

/-! ## What the source gives -/

theorem serve_updated_iff {w : Collaborators} {since : Int} {limit : Limit} {rows : List ChangeRow} :
    (w.serve (.updated since limit)).1 = .ok (some rows) ↔
      w.book.available = true ∧ rows = w.book.updatedRows since limit := by
  cases h : w.book.available <;> simp [serve, AddressBook.queryUpdated, h, eq_comm]

theorem serve_deleted_iff {w : Collaborators} {since : Int} {rows : List ChangeRow} :
    (w.serve (.deleted since)).1 = .ok (some rows) ↔ w.book.available = true ∧ rows = w.book.deletedRows since := by
  cases h : w.book.available <;> simp [serve, AddressBook.queryDeleted, h, eq_comm]

theorem serve_contacts_iff {w : Collaborators} {ids : List String} {found : List Contact} :
    (w.serve (.contacts ids)).1 = .ok (some found) ↔ w.book.available = true ∧ found = w.book.contactsOf ids := by
  cases h : w.book.available <;> simp [serve, AddressBook.queryContacts, h, eq_comm]

/-! ## What a call leaves alone -/

theorem serve_book (w : Collaborators) (c : Call) : AddressBook.Same w.book (w.serve c).2.book := by
  cases c <;> exact ⟨rfl, rfl, rfl⟩

theorem serve_available (w : Collaborators) (c : Call) : (w.serve c).2.book.available = w.book.available := by
  cases c <;> rfl

end Collaborators

def Call.writes : Call → Bool
  | .put _ | .remove _ | .setSchema _ _ => true
  | _ => false

/-- The ids whose documents an answered call has put in place or removed. -/
def Call.written : (c : Call) → c.Reply → List String
  | .put docs, .ok outcome => if outcome.success then docs.map (·.id) else []
  | .remove ids, .ok _ => ids
  | _, _ => []

theorem Call.written_eq_nil {c : Call} (h : c.writes = false) (reply : c.Reply) :
    c.written reply = [] := by
  cases c <;> first | rfl | cases h

namespace Collaborators

theorem serve_store (w : Collaborators) {c : Call} (h : c.writes = false) :
    (w.serve c).2.store = w.store := by
  cases c <;> first | rfl | cases h

end Collaborators

/-! ## Being right -/

def DocumentStore.fingerprint? (store : DocumentStore) (id : String) : Option Fingerprint :=
  (store.get? id).map (·.fingerprint)

theorem DocumentStore.fingerprint?_eq_none {store : DocumentStore} {id : String} :
    store.fingerprint? id = none ↔ store.get? id = none := by
  rw [fingerprint?, Option.map_eq_none_iff]

theorem AddressBook.fingerprint?_eq_none {book : AddressBook} {id : String} :
    book.fingerprint? id = none ↔ book.get? id = none := by
  rw [fingerprint?, Option.map_eq_none_iff]

/-- The index holds what the source has under the id, or neither has anything. -/
def Collaborators.Right (w : Collaborators) (id : String) : Prop :=
  w.store.fingerprint? id = w.book.fingerprint? id

theorem Collaborators.Right.isSome_iff {w : Collaborators} {id : String} (h : w.Right id) :
    (w.store.get? id).isSome ↔ (w.book.get? id).isSome := by
  have heq := congrArg Option.isSome h
  rw [DocumentStore.fingerprint?, AddressBook.fingerprint?, Option.isSome_map,
    Option.isSome_map] at heq
  rw [heq]

/-! ## Scenes without disturbance -/

namespace Bench.Scene

def collaborators (scene : Scene) : Collaborators :=
  ⟨scene.world.book, scene.world.store, scene.world.scheduler, scene.world.place⟩

def withCollaborators (scene : Scene) (w : Collaborators) : Scene :=
  { scene with
    world := { scene.world with
      book := w.book
      store := w.store
      scheduler := w.scheduler
      place := w.place } }

theorem mergeOutcome_nil (ids : List String) (outcome : Outcome) (h : outcome.length = ids.length) :
    mergeOutcome [] ids outcome = outcome := by
  induction ids generalizing outcome with
  | nil => exact (List.length_eq_zero_iff.mp h).symm
  | cons id ids ih =>
    cases outcome with
    | nil => cases h
    | cons entry rest =>
      simp only [mergeOutcome, List.lookup_nil]
      rw [ih rest (by simpa using h)]

theorem respond_none (scene : Scene) (c : Call) :
    scene.respond .none c =
      ((scene.collaborators.serve c).1, scene.withCollaborators (scene.collaborators.serve c).2) := by
  cases c with
  | put docs =>
    have hm := mergeOutcome_nil (docs.map (·.id)) (scene.world.store.put docs).1
      ((DocumentStore.length_putAll docs _).trans (List.length_map ..).symm)
    have hf : docs.filter (fun _ => true) = docs := List.filter_eq_self.mpr fun _ _ => rfl
    simp only [respond, withStore, storageFailure, Disturbance.none, List.lookup_nil,
      Option.isNone_none, hf, hm]
    rfl
  | remove ids =>
    have hm := mergeOutcome_nil ids (scene.world.store.remove ids).1
      (DocumentStore.length_removeAll ids _)
    have hf : ids.filter (fun _ => true) = ids := List.filter_eq_self.mpr fun _ _ => rfl
    simp only [respond, withStore, storageFailure, Disturbance.none, List.lookup_nil,
      Option.isNone_none, hf, hm]
    rfl
  | entries ids =>
    have ht : (scene.world.store.entries ids).take ids.length = scene.world.store.entries ids :=
      List.take_of_length_le (by simp [DocumentStore.entries])
    simp only [respond, withStore, storageFailure, Disturbance.none, Option.getD_none, ht]
    rfl
  | _ => rfl

end Bench.Scene

/-! ## Runs without interruption -/

namespace Program

variable {σ α : Type}

structure Surroundings.Within (surroundings : Surroundings σ) (env : Environment σ) : Prop where
  clock : ∀ s, env.clock (surroundings.clock s)
  token : ∀ s, env.token (surroundings.token s)
  note : ∀ event s, surroundings.note event s = s
  answer : ∀ job result s, surroundings.answer job result s = s
  reply : ∀ c s, env.answers c s (surroundings.reply c s).1 (surroundings.reply c s).2

theorem ends_run {surroundings : Surroundings σ} {env : Environment σ} (h : surroundings.Within env)
    (p : Program α) (s : σ) : Ends env p s (p.run surroundings s).1 (p.run surroundings s).2 := by
  induction p generalizing s with
  | done a => exact .done
  | now next ih => exact .step (.now (h.clock s)) (ih _ s)
  | cancelled next ih => exact .step (.cancelled (h.token s)) (ih _ s)
  | note event next ih => exact .step .note (by simpa only [run, h.note] using ih s)
  | answer job result next ih => exact .step .answer (by simpa only [run, h.answer] using ih s)
  | call c next ih => exact .step (.call (h.reply c s)) (ih _ _)
  | both c d next later ih _ => exact .step (.first (h.reply c s)) (ih _ _)

theorem run_keeps {I : σ → Prop} {surroundings : Surroundings σ}
    (hr : ∀ c s, I s → I (surroundings.reply c s).2) (hn : ∀ event s, I s → I (surroundings.note event s))
    (ha : ∀ job result s, I s → I (surroundings.answer job result s)) (p : Program α) (s : σ) (hs : I s) :
    I (p.run surroundings s).2 := by
  induction p generalizing s with
  | done a => exact hs
  | now next ih => exact ih _ s hs
  | cancelled next ih => exact ih _ s hs
  | note event next ih => exact ih _ (hn event s hs)
  | answer job result next ih => exact ih _ (ha job result s hs)
  | call c next ih => exact ih _ _ (hr c s hs)
  | both c d next later ih _ => exact ih _ _ (hr c s hs)

end Program

/-! ## One contact -/

def Collaborators.stocked : Collaborators :=
  { Collaborators.fresh none with book := AddressBook.empty.change 1000 (.upsert (.named "a" "Ada")) }

def Config.cautious : Config :=
  { Config.standard with
    firstRunLimit := none
    deltaLimit := none
    fullLimit := none
    keepUpdatingOnError := false }

theorem eq_ok_of_toOption {ε α : Type} {result : Except ε α} {a : α}
    (h : result.toOption = some a) : result = .ok a := by
  cases result with
  | error e => cases h
  | ok b => exact congrArg Except.ok (Option.some.inj h)

end ContactsIndex
