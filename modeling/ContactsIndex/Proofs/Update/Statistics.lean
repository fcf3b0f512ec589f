import ContactsIndex.Proofs.Update.Account

/-!
# The statistics of a cycle

Every candidate that a cycle takes up is counted once, whatever the store and the provider
answer: the numbers to update and to delete are those of the candidates, and each is the sum of
the ways in which it can turn out. A cycle that is cancelled leaves out the candidates that it did
not come to, and the ids of a chunk that it did not read.
-/

namespace ContactsIndex

open Program
open Corpus (updatedIds chunkSize)
open Candidate (deletedIds)

/-- All that was to be updated and to be deleted is counted, but for some ids that were not read. -/
structure Stats.Balanced (stats : Stats) (updates deletes unread : Nat) : Prop where
  toUpdate : stats.toUpdate = updates
  toDelete : stats.toDelete = deletes
  updates : stats.toUpdate = stats.updated + stats.updateFailed + stats.skipped + stats.missing + unread
  deletes : stats.toDelete = stats.deleted + stats.deleteNotFound + stats.deleteFailed
  inserted : stats.inserted ≤ stats.updated

theorem Account.balanced {policy : Policy} {kind : UpdateKind} {now : Int} {taken : List Candidate}
    {reads : List (List String)} {chunk : List String} {work : Work} {sent : List Exchange}
    (h : Account policy (.start kind now) ⟨taken, reads, chunk, 0⟩ work sent) (hidle : work.Idle)
    (hfair : ∀ x ∈ sent, x.Fair) :
    work.stats.Balanced (updatedIds taken).length (deletedIds taken).length chunk.length := by
  have hupdate := h.toUpdate
  have hdelete := h.toDelete
  have hupdates := h.updates hfair
  have hdeletes := h.deletes hfair
  have hinserted := h.inserted
  simp only [Stats.updatesDone, Stats.deletesDone, Stats.start, hidle.1, hidle.2, List.length_nil, Nat.zero_add,
    Nat.add_zero] at hupdate hdelete hupdates hdeletes hinserted
  exact ⟨hupdate, hdelete, by omega, by omega, hinserted⟩

/-- The statistics of a cycle account for every candidate, in any order and with any ids repeated,
as long as the answers that it gets are fair. -/
theorem statistics_balanced {policy : Policy} {candidates : List Candidate} {kind : UpdateKind} {now : Int}
    {result : Except UpdateError Completion} {stats : Stats} {log : List Exchange}
    (h : Ends Exchange.free (Corpus.apply policy candidates (.start kind now)) [] (result, stats) log)
    (hfair : ∀ x ∈ log, x.Fair) :
    (result = .ok .completed → stats.Balanced (updatedIds candidates).length (deletedIds candidates).length 0) ∧
      (result = .ok .cancelled → ∃ taken unread, taken <+: candidates ∧
        Exchange.readIds log ++ unread = updatedIds taken ∧ unread.length < chunkSize policy ∧
        stats.Balanced (updatedIds taken).length (deletedIds taken).length unread.length) := by
  obtain ⟨batcher, hended⟩ := (Account.ended_apply Exchange.records_free candidates).ends h
  constructor
  · intro hcompleted
    rw [hcompleted] at hended
    obtain ⟨hidle, reads, -, sent, rfl, haccount⟩ := hended
    exact haccount.balanced hidle hfair
  · intro hcancelled
    rw [hcancelled] at hended
    obtain ⟨-, hidle, taken, reads, unread, htaken, hchunking, sent, rfl, haccount⟩ := hended
    refine ⟨taken, unread, htaken, ?_, hchunking.short, haccount.balanced hidle hfair⟩
    have hread := haccount.updated
    rw [← haccount.reads, Exchange.flatten_chunks] at hread
    exact hread

theorem Collaborators.fair_serve (w : Collaborators) (c : Call) : c.Fair (w.serve c).1 := by
  cases c with
  | contacts ids =>
    intro found hfound
    cases hav : w.book.available <;> simp [serve, AddressBook.queryContacts, hav] at hfound
    exact hfound ▸ List.length_filterMap_le ..
  | put docs =>
    intro outcome ho
    cases ho
    exact DocumentStore.length_putAll ..
  | remove ids =>
    intro outcome ho
    cases ho
    exact DocumentStore.length_removeAll ..
  | _ => trivial

def Candidate.mixed : List Candidate :=
  [.updated "b", .deleted "c", .updated "a", .deleted "c", .updated "a"]

theorem statistics_balanced_mixed :
    (∃ stats log, Ends Exchange.free (Corpus.apply ⟨⟨2, 1⟩, true⟩ Candidate.mixed (.start .delta 0)) []
      (.ok .completed, stats) log ∧ (∀ x ∈ log, x.Fair) ∧ stats.Balanced 3 2 0 ∧ stats.inserted = 1) ∧
    ∃ stats log, Ends Exchange.free (Corpus.apply ⟨⟨2, 1⟩, true⟩ Candidate.mixed (.start .delta 0)) []
      (.ok .cancelled, stats) log ∧ (∀ x ∈ log, x.Fair) ∧ stats.Balanced 1 1 1 := by
  let cycle := Corpus.apply ⟨⟨2, 1⟩, true⟩ Candidate.mixed (.start .delta 0)
  let env := Collaborators.surroundings 1000
  have hfair : ∀ token, ∀ x ∈ (cycle.run { env.logging with token := token } (.stocked, [])).2.2, x.Fair :=
    fun token => forall_logging env token (fun c w => w.fair_serve c) cycle .stocked
  constructor
  · have hends := ends_logging env (fun _ => false) cycle .stocked []
    have hfair := hfair fun _ => false
    obtain ⟨hcompleted, hinserted⟩ :
        (cycle.run { env.logging with token := fun _ => false } (.stocked, [])).1.1.toOption = some .completed ∧
        (cycle.run { env.logging with token := fun _ => false } (.stocked, [])).1.2.inserted = 1 := by decide +kernel
    generalize cycle.run { env.logging with token := fun _ => false } (.stocked, []) = out at *
    obtain ⟨⟨result, stats⟩, w, log⟩ := out
    obtain rfl := eq_ok_of_toOption hcompleted
    exact ⟨stats, log, hends, hfair, (statistics_balanced hends hfair).1 rfl, hinserted⟩
  · let begun : Collaborators × List Exchange → Bool := fun w => !w.2.isEmpty
    have hends := ends_logging env begun cycle .stocked []
    have hfair := hfair begun
    obtain ⟨hcancelled, hupdate, hdelete, hdone⟩ :
        (cycle.run { env.logging with token := begun } (.stocked, [])).1.1.toOption = some .cancelled ∧
        (cycle.run { env.logging with token := begun } (.stocked, [])).1.2.toUpdate = 1 ∧
        (cycle.run { env.logging with token := begun } (.stocked, [])).1.2.toDelete = 1 ∧
        (cycle.run { env.logging with token := begun } (.stocked, [])).1.2.updatesDone = 0 := by decide +kernel
    generalize cycle.run { env.logging with token := begun } (.stocked, []) = out at *
    obtain ⟨⟨result, stats⟩, w, log⟩ := out
    obtain rfl := eq_ok_of_toOption hcancelled
    obtain ⟨taken, unread, -, -, -, hbalanced⟩ := (statistics_balanced hends hfair).2 rfl
    have hunread : unread.length = 1 := by
      have hupdates := hbalanced.updates
      simp only [Stats.updatesDone] at hupdate hdone
      omega
    rw [← hbalanced.toUpdate, ← hbalanced.toDelete, hunread, hupdate, hdelete] at hbalanced
    exact ⟨stats, log, hends, hfair, hbalanced⟩

end ContactsIndex
