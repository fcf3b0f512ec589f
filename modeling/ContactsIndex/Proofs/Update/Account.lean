import ContactsIndex.Proofs.Program.Exchanges
import ContactsIndex.Proofs.Update.Desk

/-!
# The account of a cycle

The statistics of a cycle, the calls it has made and the candidates it has taken up account for
each other. Every id that is counted was deleted, updated, skipped or missing, has failed, or it
is still to be sent or to be read; what was asked of the provider and of the store are the ids
of the candidates, in order; and a failure is counted exactly when an exchange has failed.
`Account` says this of a cycle between two of its steps. It holds however calls are answered
(`ended_apply`), but for the counts, which are right when the answers are `Fair`.
-/

namespace ContactsIndex

variable {σ : Type}

/-! ## Answers that can be counted -/

/-- The provider gives no more contacts than it was asked for, and the store has one status for
each entry of a batch, unless the call is refused. -/
def Call.Fair : (c : Call) → c.Reply → Prop
  | .contacts ids, reply => ∀ found, reply = .ok (some found) → found.length ≤ ids.length
  | .put docs, reply => ∀ outcome, reply = .ok outcome → outcome.length = docs.length
  | .remove ids, reply => ∀ outcome, reply = .ok outcome → outcome.length = ids.length
  | _, _ => True

def Exchange.Fair (x : Exchange) : Prop :=
  x.call.Fair x.reply

namespace Stats

def updatesDone (stats : Stats) : Nat :=
  stats.updated + stats.updateFailed + stats.skipped + stats.missing

def deletesDone (stats : Stats) : Nat :=
  stats.deleted + stats.deleteNotFound + stats.deleteFailed

structure Tallied (before after : Stats) (puts removes : Nat) : Prop where
  updates : after.updatesDone = before.updatesDone + puts
  deletes : after.deletesDone = before.deletesDone + removes
  inserted : after.inserted + before.updated ≤ after.updated + before.inserted
  toUpdate : after.toUpdate = before.toUpdate
  toDelete : after.toDelete = before.toDelete

variable {a b c : Stats} {m n m' n' : Nat}

theorem Tallied.refl (stats : Stats) : stats.Tallied stats 0 0 :=
  ⟨rfl, rfl, Nat.le_of_eq (Nat.add_comm ..), rfl, rfl⟩

theorem Tallied.trans (h : a.Tallied b m n) (h' : b.Tallied c m' n') : a.Tallied c (m + m') (n + n') where
  updates := by rw [h'.updates, h.updates, Nat.add_assoc]
  deletes := by rw [h'.deletes, h.deletes, Nat.add_assoc]
  inserted := by have := h.inserted; have := h'.inserted; omega
  toUpdate := h'.toUpdate.trans h.toUpdate
  toDelete := h'.toDelete.trans h.toDelete

theorem tallied_recordUpdate (stats : Stats) (status : Status) : stats.Tallied (stats.recordUpdate status) 1 0 := by
  unfold recordUpdate
  split <;> constructor <;> simp [updatesDone, deletesDone] <;> omega

theorem tallied_recordDelete (stats : Stats) (status : Status) : stats.Tallied (stats.recordDelete status) 0 1 := by
  unfold recordDelete
  cases status <;> constructor <;> simp [updatesDone, deletesDone] <;> omega

theorem updated_recordUpdate_ok (stats : Stats) {status : Status} (h : status.isOk = true) :
    (stats.recordUpdate status).updated = stats.updated + 1 := by
  simp [recordUpdate, h]

theorem inserted_recordUpdate (stats : Stats) (status : Status) :
    (stats.recordUpdate status).inserted = stats.inserted := by
  unfold recordUpdate
  split <;> rfl

theorem tallied_recordPuts (newIds : List String) : ∀ (outcome : Outcome) (stats : Stats),
    stats.Tallied (stats.recordPuts newIds outcome) outcome.length 0
  | [], stats => .refl stats
  | entry :: rest, stats => by
    have hone := stats.tallied_recordUpdate entry.2
    have hrest : ∀ s : Stats, stats.Tallied s 1 0 →
        stats.Tallied (s.recordPuts newIds rest) (entry :: rest).length 0 := by
      intro s hs
      rw [List.length_cons, Nat.add_comm]
      exact hs.trans (tallied_recordPuts newIds rest s)
    unfold recordPuts at hrest ⊢
    rw [List.foldl_cons]
    dsimp only
    split
    · next hnew =>
      -- a document is counted as inserted only if it is counted as updated too
      rw [Bool.and_eq_true] at hnew
      have hupdated := stats.updated_recordUpdate_ok hnew.1
      have hinserted := stats.inserted_recordUpdate entry.2
      refine hrest _ ⟨hone.updates, hone.deletes, ?_, hone.toUpdate, hone.toDelete⟩
      dsimp only
      omega
    · exact hrest _ hone

theorem tallied_recordRemoves : ∀ (outcome : Outcome) (stats : Stats),
    stats.Tallied (stats.recordRemoves outcome) 0 outcome.length
  | [], stats => .refl stats
  | entry :: rest, stats => by
    have h := (stats.tallied_recordDelete entry.2).trans (tallied_recordRemoves rest _)
    rw [Nat.add_comm 1] at h
    exact h

theorem tallied_recordFailures {status : Status} : ∀ (count : Nat) (stats : Stats),
    stats.Tallied (Nat.repeat (·.recordUpdate status) count stats) count 0
  | 0, stats => .refl stats
  | count + 1, stats => (tallied_recordFailures count stats).trans (tallied_recordUpdate _ status)

theorem failed_recordFailures {status : Status} (h : status.isOk = false) : ∀ (count : Nat) (stats : Stats),
    (Nat.repeat (·.recordUpdate status) count stats).failed = stats.failed + count
  | 0, stats => rfl
  | count + 1, stats => by
    rw [Nat.repeat, failed_recordUpdate, failed_recordFailures h count, h]
    rfl

end Stats

theorem StorageError.isOk_status (e : StorageError) : e.status.isOk = false := by
  cases e <;> rfl

/-! ## What a flush sends -/

namespace Exchange

/-- A flush sends the ids to remove, if there are any, and takes this for the answer. -/
inductive Removal : List String → List Exchange → Outcome → Prop
  | none : Removal [] [] []
  | answered {ids outcome} (hne : ids ≠ []) : Removal ids [⟨.remove ids, .ok outcome⟩] outcome
  | refused {ids e} (hne : ids ≠ []) : Removal ids [⟨.remove ids, .error e⟩] (.ofError ids e)

inductive Writing : List Document → List Exchange → Outcome → Prop
  | none : Writing [] [] []
  | answered {docs outcome} (hne : docs ≠ []) : Writing docs [⟨.put docs, .ok outcome⟩] outcome
  | refused {docs e} (hne : docs ≠ []) : Writing docs [⟨.put docs, .error e⟩] (.ofError (docs.map (·.id)) e)

variable {ids : List String} {docs : List Document} {sent out into : List Exchange} {outcome written removed : Outcome}

theorem failed_iff_remove {reply : (Call.remove ids).Reply} : (∃ x ∈ [(⟨.remove ids, reply⟩ : Exchange)], x.Failed) ↔
    ∀ outcome, reply = .ok outcome → outcome.cleared = false := by
  simp [Failed, Call.Failed]

theorem failed_iff_put {reply : (Call.put docs).Reply} : (∃ x ∈ [(⟨.put docs, reply⟩ : Exchange)], x.Failed) ↔
    ∀ outcome, reply = .ok outcome → outcome.success = false := by
  simp [Failed, Call.Failed]

namespace Removal

theorem failed_iff (h : Removal ids sent outcome) : (∃ x ∈ sent, x.Failed) ↔ outcome.cleared = false := by
  cases h with
  | none => simp [Outcome.cleared]
  | answered hne =>
    rw [failed_iff_remove]
    exact ⟨fun hall => hall _ rfl, fun hc other ho => by cases ho; exact hc⟩
  | refused hne =>
    rw [failed_iff_remove]
    exact ⟨fun _ => Outcome.not_cleared_ofError hne _, fun _ other ho => by cases ho⟩

theorem length (h : Removal ids sent outcome) (hfair : ∀ x ∈ sent, x.Fair) : outcome.length = ids.length := by
  cases h with
  | none => rfl
  | answered hne => exact hfair _ (List.mem_singleton.mpr rfl) _ rfl
  | refused hne => exact List.length_map ..

theorem removedIds (h : Removal ids sent outcome) : removedIds sent = ids := by
  cases h <;> simp [Exchange.removedIds, Call.removes]

theorem chunks (h : Removal ids sent outcome) : chunks sent = [] := by
  cases h <;> rfl

end Removal

namespace Writing

theorem failed_iff (h : Writing docs sent outcome) : (∃ x ∈ sent, x.Failed) ↔ outcome.success = false := by
  cases h with
  | none => simp [Outcome.success]
  | answered hne =>
    rw [failed_iff_put]
    exact ⟨fun hall => hall _ rfl, fun hc other ho => by cases ho; exact hc⟩
  | refused hne =>
    rw [failed_iff_put]
    exact ⟨fun _ => Outcome.not_success_ofError (by simpa using hne) _, fun _ other ho => by cases ho⟩

theorem length (h : Writing docs sent outcome) (hfair : ∀ x ∈ sent, x.Fair) : outcome.length = docs.length := by
  cases h with
  | none => rfl
  | answered hne => exact hfair _ (List.mem_singleton.mpr rfl) _ rfl
  | refused hne => simp [Outcome.ofError]

theorem removedIds (h : Writing docs sent outcome) : removedIds sent = [] := by
  cases h <;> rfl

theorem chunks (h : Writing docs sent outcome) : chunks sent = [] := by
  cases h <;> rfl

end Writing

/-- What a cycle calls the store with at one time: a lookup, or the calls of one flush. -/
inductive Attempt : List Exchange → Prop
  | lookup (ids : List String) (reply : (Call.entries ids).Reply) : Attempt [⟨.entries ids, reply⟩]
  | removal (ids : List String) (reply : (Call.remove ids).Reply) : Attempt [⟨.remove ids, reply⟩]
  | writing (docs : List Document) (reply : (Call.put docs).Reply) : Attempt [⟨.put docs, reply⟩]
  | both (ids : List String) (docs : List Document) (reply : (Call.remove ids).Reply) (reply' : (Call.put docs).Reply) :
    Attempt [⟨.remove ids, reply⟩, ⟨.put docs, reply'⟩]

theorem Attempt.of_flush (hr : Removal ids out removed) (hw : Writing docs into written) (hne : out ++ into ≠ []) :
    Attempt (out ++ into) := by
  cases hr with
  | none =>
    cases hw with
    | none => exact absurd rfl hne
    | answered => exact .writing ..
    | refused => exact .writing ..
  | answered =>
    cases hw with
    | none => exact .removal ..
    | answered => exact .both ..
    | refused => exact .both ..
  | refused =>
    cases hw with
    | none => exact .removal ..
    | answered => exact .both ..
    | refused => exact .both ..

end Exchange

/-! ## What is accounted for -/

def Corpus.updatedIds (candidates : List Candidate) : List String :=
  candidates.filterMap fun
    | .updated id => some id
    | .deleted _ => none

namespace Candidate

open Corpus (updatedIds)

@[simp] theorem updatedIds_concat_updated (candidates : List Candidate) (id : String) :
    updatedIds (candidates ++ [.updated id]) = updatedIds candidates ++ [id] :=
  List.filterMap_append

@[simp] theorem updatedIds_concat_deleted (candidates : List Candidate) (id : String) :
    updatedIds (candidates ++ [.deleted id]) = updatedIds candidates := by
  simp [updatedIds]

@[simp] theorem deletedIds_concat_updated (candidates : List Candidate) (id : String) :
    deletedIds (candidates ++ [.updated id]) = deletedIds candidates := by
  simp [deletedIds]

@[simp] theorem deletedIds_concat_deleted (candidates : List Candidate) (id : String) :
    deletedIds (candidates ++ [.deleted id]) = deletedIds candidates ++ [id] :=
  List.filterMap_append

theorem updatedIds_update : ∀ unwanted wanted : List String,
    updatedIds (unwanted.map .deleted ++ wanted.map .updated) = wanted
  | [], [] => rfl
  | [], id :: wanted => congrArg (id :: ·) (updatedIds_update [] wanted)
  | _ :: unwanted, wanted => updatedIds_update unwanted wanted

end Candidate

open Corpus (updatedIds)
open Candidate (deletedIds)

structure Stand where
  taken : List Candidate
  reads : List (List String)
  chunk : List String
  /-- How many contacts are read and not yet handed to the batcher. -/
  later : Nat

structure Account (policy : Policy) (start : Stats) (stand : Stand) (work : Work) (sent : List Exchange) : Prop where
  reads : Exchange.chunks sent = stand.reads
  updated : stand.reads.flatten ++ stand.chunk = updatedIds stand.taken
  removed : Exchange.removedIds sent ++ work.batcher.deletes.items = deletedIds stand.taken
  toUpdate : work.stats.toUpdate = start.toUpdate + (updatedIds stand.taken).length
  toDelete : work.stats.toDelete = start.toDelete + (deletedIds stand.taken).length
  updates : (∀ x ∈ sent, x.Fair) → work.stats.updatesDone + work.batcher.updates.items.length + stand.later +
    stand.chunk.length = start.updatesDone + (updatedIds stand.taken).length
  deletes : (∀ x ∈ sent, x.Fair) →
    work.stats.deletesDone + work.batcher.deletes.items.length = start.deletesDone + (deletedIds stand.taken).length
  inserted : work.stats.inserted + start.updated ≤ work.stats.updated + start.inserted
  counted : start.failed ≤ work.stats.failed
  failed : (∃ x ∈ sent, x.Failed) ↔ start.failed < work.stats.failed
  clean : policy.keepGoing = false → ∀ x ∈ sent, ¬ x.Failed

namespace Account

variable {policy : Policy} {start : Stats} {taken : List Candidate} {reads : List (List String)} {chunk : List String}
  {later : Nat} {stand : Stand} {work : Work} {sent : List Exchange} {id : String}

theorem begin (policy : Policy) (start : Stats) : Account policy start ⟨[], [], [], 0⟩ ⟨.empty, start⟩ [] where
  reads := rfl
  updated := rfl
  removed := rfl
  toUpdate := rfl
  toDelete := rfl
  updates _ := rfl
  deletes _ := rfl
  inserted := Nat.le_of_eq (Nat.add_comm ..)
  counted := Nat.le_refl _
  failed := iff_of_false (fun ⟨_, hx, _⟩ => nomatch hx) (Nat.lt_irrefl _)
  clean _ _ hx := nomatch hx

theorem deletion (h : Account policy start ⟨taken, reads, chunk, later⟩ work sent) (id : String) :
    Account policy start ⟨taken ++ [.deleted id], reads, chunk, later⟩
      ⟨{ work.batcher with deletes := work.batcher.deletes.push id },
        { work.stats with toDelete := work.stats.toDelete + 1 }⟩ sent where
  reads := h.reads
  updated := h.updated.trans (Candidate.updatedIds_concat_deleted taken id).symm
  removed := by
    rw [Candidate.deletedIds_concat_deleted, ← h.removed, List.append_assoc]
    rfl
  toUpdate := by rw [Candidate.updatedIds_concat_deleted]; exact h.toUpdate
  toDelete := by
    rw [Candidate.deletedIds_concat_deleted, List.length_append]
    exact congrArg (· + 1) h.toDelete
  updates hfair := by rw [Candidate.updatedIds_concat_deleted]; exact h.updates hfair
  deletes hfair := by
    rw [Candidate.deletedIds_concat_deleted, List.length_append, Batch.push, List.length_append]
    exact congrArg (· + 1) (h.deletes hfair)
  inserted := h.inserted
  counted := h.counted
  failed := h.failed
  clean := h.clean

theorem update (h : Account policy start ⟨taken, reads, chunk, later⟩ work sent) (id : String) :
    Account policy start ⟨taken ++ [.updated id], reads, chunk ++ [id], later⟩
      { work with stats := { work.stats with toUpdate := work.stats.toUpdate + 1 } } sent where
  reads := h.reads
  updated := by rw [Candidate.updatedIds_concat_updated, ← h.updated, List.append_assoc]
  removed := h.removed.trans (Candidate.deletedIds_concat_updated taken id).symm
  toUpdate := by
    rw [Candidate.updatedIds_concat_updated, List.length_append]
    exact congrArg (· + 1) h.toUpdate
  toDelete := by rw [Candidate.deletedIds_concat_updated]; exact h.toDelete
  updates hfair := by
    rw [Candidate.updatedIds_concat_updated, List.length_append, List.length_append]
    exact congrArg (· + 1) (h.updates hfair)
  deletes hfair := by rw [Candidate.deletedIds_concat_updated]; exact h.deletes hfair
  inserted := h.inserted
  counted := h.counted
  failed := h.failed
  clean := h.clean

theorem read (h : Account policy start ⟨taken, reads, chunk, 0⟩ work sent) (found : List Contact) :
    Account policy start ⟨taken, reads ++ [chunk], [], found.length⟩
      { work with stats := { work.stats with missing := work.stats.missing + (chunk.length - found.length) } }
      (sent ++ [⟨.contacts chunk, .ok (some found)⟩]) where
  reads := by rw [Exchange.chunks_append, h.reads]; rfl
  updated := by simpa using h.updated
  removed := by
    rw [Exchange.removedIds_append, List.append_assoc]
    exact h.removed
  toUpdate := h.toUpdate
  toDelete := h.toDelete
  updates hfair := by
    obtain ⟨hold, hnew⟩ := Exchange.forall_concat.mp hfair
    have hupdates := h.updates hold
    have hle : found.length ≤ chunk.length := hnew found rfl
    simp only [Stats.updatesDone, List.length_nil] at hupdates ⊢
    omega
  deletes hfair := h.deletes (Exchange.forall_concat.mp hfair).1
  inserted := h.inserted
  counted := h.counted
  failed := by
    rw [Exchange.exists_concat, or_iff_left fun hf => hf found rfl]
    exact h.failed
  clean hstop := Exchange.forall_concat.mpr ⟨h.clean hstop, fun hf => hf found rfl⟩

theorem lookup (h : Account policy start stand work sent) (ids : List String) (stored : List (Option Entry)) :
    Account policy start stand work (sent ++ [⟨.entries ids, .ok stored⟩]) where
  reads := by rw [Exchange.chunks_append, h.reads]; exact List.append_nil _
  updated := h.updated
  removed := by
    rw [Exchange.removedIds_append, List.append_assoc]
    exact h.removed
  toUpdate := h.toUpdate
  toDelete := h.toDelete
  updates hfair := h.updates (Exchange.forall_concat.mp hfair).1
  deletes hfair := h.deletes (Exchange.forall_concat.mp hfair).1
  inserted := h.inserted
  counted := h.counted
  failed := by
    rw [Exchange.exists_concat, or_iff_left fun hf => hf stored rfl]
    exact h.failed
  clean hstop := Exchange.forall_concat.mpr ⟨h.clean hstop, fun hf => hf stored rfl⟩

/-- The fingerprints cannot be looked up, and the contacts of the chunk count as failures. -/
theorem lookup_failed (h : Account policy start stand work sent) (hlater : 0 < stand.later)
    (hgo : policy.keepGoing = true) (ids : List String) (e : StorageError) :
    Account policy start { stand with later := 0 } (Corpus.recordFailures e.status stand.later work)
      (sent ++ [⟨.entries ids, .error e⟩]) := by
  have hbatcher : (Corpus.recordFailures e.status stand.later work).batcher = work.batcher := rfl
  have htallied : work.stats.Tallied (Corpus.recordFailures e.status stand.later work).stats stand.later 0 :=
    Stats.tallied_recordFailures ..
  have hfailed : (Corpus.recordFailures e.status stand.later work).stats.failed = work.stats.failed + stand.later :=
    Stats.failed_recordFailures e.isOk_status ..
  generalize Corpus.recordFailures e.status stand.later work = after at *
  have hcounted := h.counted
  refine ⟨?_, h.updated, ?_, htallied.toUpdate.trans h.toUpdate, htallied.toDelete.trans h.toDelete, fun hfair => ?_,
    fun hfair => ?_, ?_, ?_, ?_, fun hstop => nomatch hgo.symm.trans hstop⟩
  · rw [Exchange.chunks_append, h.reads]
    exact List.append_nil _
  · rw [Exchange.removedIds_append, List.append_assoc, hbatcher]
    exact h.removed
  · have hupdates := h.updates (Exchange.forall_concat.mp hfair).1
    rw [htallied.updates, hbatcher]
    dsimp only
    omega
  · rw [htallied.deletes, hbatcher]
    exact h.deletes (Exchange.forall_concat.mp hfair).1
  · have hold := h.inserted
    have hnew := htallied.inserted
    omega
  · omega
  · rw [Exchange.exists_concat]
    exact iff_of_true (.inr fun _ hr => nomatch hr) (by omega)

theorem skip (h : Account policy start ⟨taken, reads, chunk, later + 1⟩ work sent) :
    Account policy start ⟨taken, reads, chunk, later⟩
      { work with stats := { work.stats with skipped := work.stats.skipped + 1 } } sent where
  reads := h.reads
  updated := h.updated
  removed := h.removed
  toUpdate := h.toUpdate
  toDelete := h.toDelete
  updates hfair := by
    have hupdates := h.updates hfair
    simp only [Stats.updatesDone] at hupdates ⊢
    omega
  deletes := h.deletes
  inserted := h.inserted
  counted := h.counted
  failed := h.failed
  clean := h.clean

theorem gather (h : Account policy start ⟨taken, reads, chunk, later + 1⟩ work sent) (doc : Document)
    (newIds : List String) :
    Account policy start ⟨taken, reads, chunk, later⟩ { work with
      batcher := { work.batcher with updates := work.batcher.updates.push doc, newIds := newIds } } sent where
  reads := h.reads
  updated := h.updated
  removed := h.removed
  toUpdate := h.toUpdate
  toDelete := h.toDelete
  updates hfair := by
    have hupdates := h.updates hfair
    simp only [Batch.push, List.length_append, List.length_singleton] at hupdates ⊢
    omega
  deletes := h.deletes
  inserted := h.inserted
  counted := h.counted
  failed := h.failed
  clean := h.clean

def flushed (work : Work) (removed written : Outcome) : Work :=
  ⟨{ Batcher.empty with flushes := work.batcher.flushes + 1 },
    (work.stats.recordPuts work.batcher.newIds written).recordRemoves removed⟩

theorem failed_le_flushed (work : Work) (removed written : Outcome) :
    work.stats.failed ≤ (flushed work removed written).stats.failed := by
  dsimp only [flushed]
  rw [Stats.failed_recordRemoves, Stats.failed_recordPuts]
  omega

theorem failed_iff_flushed {out into : List Exchange} {removed written : Outcome}
    (hr : Exchange.Removal work.batcher.deletes.items out removed)
    (hw : Exchange.Writing work.batcher.updates.items into written) :
    (∃ x ∈ out ++ into, x.Failed) ↔ work.stats.failed < (flushed work removed written).stats.failed := by
  have hzero := work.stats.failed_flush work.batcher.newIds written removed
  have hle := failed_le_flushed work removed written
  rw [Exchange.exists_append, hr.failed_iff, hw.failed_iff, ← Bool.not_eq_true, ← Bool.not_eq_true, Or.comm,
    ← Decidable.not_and_iff_not_or_not, ← hzero]
  dsimp only [flushed] at hle ⊢
  omega

theorem flush {out into : List Exchange} {removed written : Outcome} (h : Account policy start stand work sent)
    (hr : Exchange.Removal work.batcher.deletes.items out removed)
    (hw : Exchange.Writing work.batcher.updates.items into written)
    (hgo : policy.keepGoing = false → ∀ x ∈ out ++ into, ¬ x.Failed) :
    Account policy start stand (flushed work removed written) (sent ++ (out ++ into)) := by
  have htallied := (work.stats.tallied_recordPuts work.batcher.newIds written).trans
    (Stats.tallied_recordRemoves removed _)
  rw [Nat.add_zero, Nat.zero_add] at htallied
  have hinserted := htallied.inserted
  refine ⟨?_, h.updated, ?_, ?_, ?_, fun hfair => ?_, fun hfair => ?_, ?_, ?_, ?_, ?_⟩
  · rw [Exchange.chunks_append, Exchange.chunks_append, hr.chunks, hw.chunks, h.reads]
    exact List.append_nil _
  · rw [Exchange.removedIds_append, Exchange.removedIds_append, hr.removedIds, hw.removedIds, ← h.removed]
    simp [flushed, Batcher.empty, Batch.empty]
  · exact htallied.toUpdate.trans h.toUpdate
  · exact htallied.toDelete.trans h.toDelete
  · obtain ⟨hold, hnew⟩ := List.forall_mem_append.mp hfair
    have hupdates := h.updates hold
    have hdone := htallied.updates
    rw [hw.length fun x hx => hnew x (List.mem_append_right _ hx)] at hdone
    simp only [flushed, Batcher.empty, Batch.empty, List.length_nil]
    omega
  · obtain ⟨hold, hnew⟩ := List.forall_mem_append.mp hfair
    have hdeletes := h.deletes hold
    have hdone := htallied.deletes
    rw [hr.length fun x hx => hnew x (List.mem_append_left _ hx)] at hdone
    simp only [flushed, Batcher.empty, Batch.empty, List.length_nil]
    omega
  · have := h.inserted
    dsimp only [flushed]
    omega
  · exact Nat.le_trans h.counted (failed_le_flushed work removed written)
  · have hcounted := h.counted
    have hle := failed_le_flushed work removed written
    rw [Exchange.exists_append, h.failed, failed_iff_flushed hr hw]
    omega
  · exact fun hstop => List.forall_mem_append.mpr ⟨h.clean hstop, hgo hstop⟩

end Account

/-! ## Chunks -/

namespace Corpus

theorem length_compare (deleted : List String) (now : Int) (found : List Contact) (stored : List (Option Entry)) :
    (compare deleted now found stored).length = found.length := by
  rw [compare, List.length_map, List.length_zipIdx]

structure Chunking (size : Nat) (reads : List (List String)) (chunk : List String) : Prop where
  whole : ∀ ids ∈ reads, ids.length = size
  short : chunk.length < size

/-- The ids are read in order, in full chunks but for the last. -/
structure Chunked (size : Nat) (ids : List String) (reads : List (List String)) : Prop where
  flatten : reads.flatten = ids
  whole : ∀ chunk ∈ reads.dropLast, chunk.length = size
  last : ∀ chunk ∈ reads.getLast?, 0 < chunk.length ∧ chunk.length ≤ size

variable {size : Nat} {ids chunk : List String} {reads : List (List String)}

theorem Chunking.begin (policy : Policy) : Chunking (chunkSize policy) [] [] :=
  ⟨fun _ hm => (nomatch hm), Nat.lt_of_lt_of_le Nat.zero_lt_one (Nat.le_max_left ..)⟩

theorem Chunking.add (h : Chunking size reads chunk) (id : String) (hshort : (chunk ++ [id]).length < size) :
    Chunking size reads (chunk ++ [id]) :=
  ⟨h.whole, hshort⟩

theorem Chunking.full (h : Chunking size reads chunk) (id : String) (hfull : ¬ (chunk ++ [id]).length < size) :
    Chunking size (reads ++ [chunk ++ [id]]) [] := by
  have hshort := h.short
  rw [List.length_append, List.length_singleton] at hfull
  refine ⟨List.forall_mem_append.mpr ⟨h.whole, List.forall_mem_singleton.mpr ?_⟩, Nat.zero_lt_of_lt hshort⟩
  rw [List.length_append, List.length_singleton]
  omega

theorem Chunking.finished (h : Chunking size reads []) : Chunked size reads.flatten reads where
  flatten := rfl
  whole chunk hm := h.whole chunk (List.dropLast_subset _ hm)
  last chunk hm := by
    have hlen := h.whole chunk (List.mem_of_getLast? hm)
    have hpos : 0 < size := h.short
    omega

theorem Chunking.finish (h : Chunking size reads chunk) (hne : chunk ≠ []) :
    Chunked size (reads.flatten ++ chunk) (reads ++ [chunk]) where
  flatten := by rw [List.flatten_append, List.flatten_singleton]
  whole ids hm := h.whole ids (by rwa [List.dropLast_concat] at hm)
  last ids hm := by
    obtain rfl : chunk = ids := by simpa using hm
    exact ⟨List.length_pos_iff.mpr hne, Nat.le_of_lt h.short⟩

end Corpus

/-! ## How a cycle stops -/

/-- An error means that the provider could not be read, or that a cycle that is not to go on
after failures has met its first one; after that lookup or flush it calls nobody. -/
inductive Halted (policy : Policy) (start : Stats) : UpdateError → Stats → List Exchange → Prop
  | unread {cause stats sent ids} {reply : (Call.contacts ids).Reply} (mem : ⟨.contacts ids, reply⟩ ∈ sent)
    (failed : (Call.contacts ids).Failed reply) : Halted policy start (.source cause) stats sent
  | aborted {stats : Stats} {clean last} (stop : policy.keepGoing = false) (counted : start.failed < stats.failed)
    (unfailed : ∀ x ∈ clean, ¬ x.Failed) (failed : ∃ x ∈ last, x.Failed) (attempt : Exchange.Attempt last) :
    Halted policy start (.aborted stats.failed) stats (clean ++ last)

namespace Account

def At (log : σ → List Exchange) (base : List Exchange) (policy : Policy) (start : Stats) (stand : Stand) (work : Work)
    (s : σ) : Prop :=
  ∃ sent, log s = base ++ sent ∧ Account policy start stand work sent

def Stopped (log : σ → List Exchange) (base : List Exchange) (policy : Policy) (start : Stats) (e : UpdateError)
    (stats : Stats) (s : σ) : Prop :=
  ∃ sent, log s = base ++ sent ∧ Halted policy start e stats sent

def Went {α : Type} (log : σ → List Exchange) (base : List Exchange) (policy : Policy) (start : Stats)
    (ok : α → Work → σ → Prop) : Progress α → σ → Prop
  | (.ok a, work), t => ok a work t
  | (.error e, work), t => Stopped log base policy start e work.stats t

def Ended (env : Environment σ) (log : σ → List Exchange) (base : List Exchange) (policy : Policy) (start : Stats)
    (candidates : List Candidate) : Except UpdateError Completion → Work → σ → Prop
  | .ok .completed, work, t => work.Idle ∧ ∃ reads,
    Corpus.Chunked (Corpus.chunkSize policy) (updatedIds candidates) reads ∧
    At log base policy start ⟨candidates, reads, [], 0⟩ work t
  | .ok .cancelled, work, t => env.token true ∧ work.Idle ∧ ∃ taken reads chunk, taken <+: candidates ∧
    Corpus.Chunking (Corpus.chunkSize policy) reads chunk ∧ At log base policy start ⟨taken, reads, chunk, 0⟩ work t
  | .error e, work, t => Stopped log base policy start e work.stats t

variable {env : Environment σ} {log : σ → List Exchange} {base : List Exchange} {policy : Policy} {start : Stats}
  {taken : List Candidate} {reads : List (List String)} {chunk : List String} {later : Nat} {stand : Stand}
  {work : Work} {deleted : List String} {s t : σ}

theorem Went.mono {α : Type} {ok ok' : α → Work → σ → Prop} {p : Progress α} (hp : Went log base policy start ok p t)
    (hok : ∀ a work, ok a work t → ok' a work t) : Went log base policy start ok' p t := by
  rcases p with ⟨_ | a, work⟩
  · exact hp
  · exact hok a work hp

theorem At.updated_eq (h : At log base policy start stand work s) :
    stand.reads.flatten ++ stand.chunk = updatedIds stand.taken := by
  obtain ⟨sent, hlog, h⟩ := h
  exact h.updated

variable (R : env.Records log)

include R

theorem At.drift (h : At log base policy start stand work s) (hd : env.drift s t) :
    At log base policy start stand work t := by
  obtain ⟨sent, hlog, ha⟩ := h
  exact ⟨sent, (R.drift hd).trans hlog, ha⟩

theorem Stopped.drift {e : UpdateError} {stats : Stats} (h : Stopped log base policy start e stats s)
    (hd : env.drift s t) : Stopped log base policy start e stats t := by
  obtain ⟨sent, hlog, hh⟩ := h
  exact ⟨sent, (R.drift hd).trans hlog, hh⟩

theorem Ended.drift {candidates : List Candidate} {result : Except UpdateError Completion}
    (h : Ended env log base policy start candidates result work s) (hd : env.drift s t) :
    Ended env log base policy start candidates result work t := by
  rcases result with e | _ | _
  · exact Stopped.drift R h hd
  · obtain ⟨hidle, reads, hc, hat⟩ := h
    exact ⟨hidle, reads, hc, hat.drift R hd⟩
  · obtain ⟨htoken, hidle, taken, reads, chunk, htaken, hc, hat⟩ := h
    exact ⟨htoken, hidle, taken, reads, chunk, htaken, hc, hat.drift R hd⟩

theorem always_error {α : Type} {ok : α → Work → σ → Prop} {e : UpdateError}
    (h : Stopped log base policy start e work.stats s) :
    (pure (.error e, work) : Program (Progress α)).Always env (Went log base policy start ok) s :=
  Program.always_pure.mpr fun _ hd => h.drift R hd

/-! ### Sending -/

theorem sendDeletes (ids : List String) : (Batcher.sendDeletes ids).Always env
    (fun removed t => ∃ out, log t = log s ++ out ∧ Exchange.Removal ids out removed) s := by
  unfold Batcher.sendDeletes
  split
  · next hnil =>
    subst hnil
    exact Program.always_pure.mpr fun t hd => ⟨[], by rw [R.drift hd, List.append_nil], .none⟩
  · next hne =>
    apply Program.always_ask.mpr
    intro t hd reply u ha
    have hlog := R.answers ha
    rw [R.drift hd] at hlog
    cases reply with
    | ok outcome => exact Program.always_pure.mpr fun v hd' => ⟨_, (R.drift hd').trans hlog, .answered hne⟩
    | error e => exact Program.always_pure.mpr fun v hd' => ⟨_, (R.drift hd').trans hlog, .refused hne⟩

theorem sendUpdates (docs : List Document) : (Batcher.sendUpdates docs).Always env
    (fun written t => ∃ into, log t = log s ++ into ∧ Exchange.Writing docs into written) s := by
  unfold Batcher.sendUpdates
  split
  · next hnil =>
    subst hnil
    exact Program.always_pure.mpr fun t hd => ⟨[], by rw [R.drift hd, List.append_nil], .none⟩
  · next hne =>
    apply Program.always_ask.mpr
    intro t hd reply u ha
    have hlog := R.answers ha
    rw [R.drift hd] at hlog
    cases reply with
    | ok outcome => exact Program.always_pure.mpr fun v hd' => ⟨_, (R.drift hd').trans hlog, .answered hne⟩
    | error e => exact Program.always_pure.mpr fun v hd' => ⟨_, (R.drift hd').trans hlog, .refused hne⟩

theorem always_flush {reason : FlushReason} (h : At log base policy start stand work s) :
    (Batcher.flush policy reason work).Always env (Went log base policy start
      fun _ after t => after.Idle ∧ At log base policy start stand after t) s := by
  unfold Batcher.flush
  dsimp only
  split
  · next hnil => exact Program.always_pure.mpr fun t hd => ⟨hnil, h.drift R hd⟩
  · next hsome =>
    obtain ⟨sent, hlog, h⟩ := h
    apply (sendDeletes R _).bind
    intro removed t₁ ⟨out, hout, hr⟩
    apply (sendUpdates R _).bind
    intro written t₂ ⟨into, hinto, hw⟩
    rw [hout, hlog, List.append_assoc, List.append_assoc] at hinto
    have hiff := failed_iff_flushed hr hw
    refine Program.always_record.mpr ?_
    split
    · next hstop =>
      have hfailed : ∃ x ∈ out ++ into, x.Failed := hiff.mpr (Nat.lt_of_sub_pos hstop.1)
      have hne : out ++ into ≠ [] := fun hnil => by simp [hnil] at hfailed
      refine always_error R ⟨_, hinto, .aborted hstop.2 ?_ (h.clean hstop.2) hfailed (.of_flush hr hw hne)⟩
      exact Nat.lt_of_le_of_lt h.counted (hiff.mp hfailed)
    · next hstay =>
      have hgo : policy.keepGoing = false → ∀ x ∈ out ++ into, ¬ x.Failed := fun hk x hx hf =>
        hstay ⟨Nat.sub_pos_of_lt (hiff.mp ⟨x, hx, hf⟩), hk⟩
      exact Program.always_pure.mpr fun t hd =>
        ⟨⟨rfl, rfl⟩, _, (R.drift hd).trans hinto, h.flush hr hw hgo⟩

/-! ### Gathering -/

theorem addUpdate {diffed : Diffed} (h : At log base policy start ⟨taken, reads, chunk, later + 1⟩ work s) :
    (Batcher.addUpdate policy diffed work).Always env (Went log base policy start
      fun _ after t => At log base policy start ⟨taken, reads, chunk, later⟩ after t) s := by
  obtain ⟨sent, hlog, h⟩ := h
  unfold Batcher.addUpdate
  cases diffed.indexable with
  | none => exact Program.always_pure.mpr fun t hd => ⟨sent, (R.drift hd).trans hlog, h.skip⟩
  | some doc =>
    dsimp only
    split
    · exact (always_flush R ⟨sent, hlog, h.gather doc _⟩).mono fun p t hp => hp.mono fun _ _ ha => ha.2
    · exact Program.always_pure.mpr fun t hd => ⟨sent, (R.drift hd).trans hlog, h.gather doc _⟩

theorem addUpdates : ∀ {diffs : List Diffed} {work : Work} {s : σ},
    At log base policy start ⟨taken, reads, chunk, diffs.length⟩ work s →
      (Corpus.addUpdates policy diffs work).Always env (Went log base policy start
        fun _ after t => At log base policy start ⟨taken, reads, chunk, 0⟩ after t) s
  | [], _, _, h => Program.always_pure.mpr fun _ hd => h.drift R hd
  | diffed :: rest, _, _, h => by
    apply (addUpdate R h).bind
    intro p t hp
    rcases p with ⟨e | a, after⟩
    · exact always_error R hp
    · exact addUpdates hp

theorem addDelete {id : String} (work : Work)
    (h : At log base policy start stand
      { work with batcher := { work.batcher with deletes := work.batcher.deletes.push id } } s) :
    (Batcher.addDelete policy id work).Always env (Went log base policy start
      fun _ after t => At log base policy start stand after t) s := by
  unfold Batcher.addDelete
  dsimp only
  split
  · exact (always_flush R h).mono fun p t hp => hp.mono fun _ _ ha => ha.2
  · exact Program.always_pure.mpr fun t hd => h.drift R hd

theorem indexChunk (hne : chunk ≠ []) (h : At log base policy start ⟨taken, reads, chunk, 0⟩ work s) :
    (Corpus.indexChunk policy deleted chunk work).Always env (Went log base policy start
      fun _ after t => At log base policy start ⟨taken, reads ++ [chunk], [], 0⟩ after t) s := by
  obtain ⟨sent, hlog, h⟩ := h
  unfold Corpus.indexChunk Source.readContacts
  simp only [hne, ↓reduceIte]
  rw [Program.always_bind, Program.always_ask]
  intro t₁ hd₁ reply t₂ ha
  have hlog₂ : log t₂ = base ++ (sent ++ [⟨.contacts chunk, reply⟩]) := by
    rw [R.answers ha, R.drift hd₁, hlog, List.append_assoc]
  have hmem : (⟨.contacts chunk, reply⟩ : Exchange) ∈ sent ++ [⟨.contacts chunk, reply⟩] :=
    List.mem_append_right _ (List.mem_singleton.mpr rfl)
  -- the chunk cannot be read, or it is read: then all of it may be missing, or it is looked up
  rcases reply with e | _ | found
  · refine Program.always_pure.mpr fun t₃ hd₂ => always_error R ⟨_, (R.drift hd₂).trans hlog₂, .unread hmem ?_⟩
    exact fun _ hr => nomatch hr
  · refine Program.always_record.mpr (Program.always_pure.mpr fun t₃ hd₂ =>
      always_error R ⟨_, (R.drift hd₂).trans hlog₂, .unread hmem ?_⟩)
    exact fun _ hr => nomatch hr
  · refine Program.always_pure.mpr ?_
    intro t₃ hd₂
    have hread := h.read found
    dsimp only
    split
    · next hnil =>
      subst hnil
      exact Program.always_pure.mpr fun t₄ hd₃ =>
        ⟨_, (R.drift hd₃).trans ((R.drift hd₂).trans hlog₂), hread⟩
    · next hfound =>
      apply Program.always_ask.mpr
      intro t₄ hd₃ reply t₅ ha'
      have hlog₅ := R.answers ha'
      rw [R.drift hd₃, R.drift hd₂, hlog₂, List.append_assoc] at hlog₅
      cases reply with
      | error e =>
        have hpos : 0 < found.length := List.length_pos_iff.mpr hfound
        dsimp only
        split
        · next hkeep =>
          exact Program.always_pure.mpr fun t₆ hd₄ =>
            ⟨_, (R.drift hd₄).trans hlog₅, hread.lookup_failed hpos hkeep _ e⟩
        · next hkeep =>
          have hstop : policy.keepGoing = false := Bool.eq_false_iff.mpr hkeep
          refine always_error R ⟨_, hlog₅, .aborted hstop ?_ (hread.clean hstop) ?_ (.lookup _ _)⟩
          · dsimp only [Corpus.recordFailures]
            rw [Stats.failed_recordFailures e.isOk_status]
            exact Nat.lt_of_le_of_lt hread.counted (Nat.lt_add_of_pos_right hpos)
          · exact ⟨_, List.mem_singleton.mpr rfl, fun _ hr => nomatch hr⟩
      | ok stored =>
        refine Program.always_readClock.mpr fun now hnow => addUpdates R ⟨_, hlog₅, ?_⟩
        rw [Corpus.length_compare]
        exact hread.lookup _ stored

/-! ### One candidate after the other -/

theorem takeUp {candidate : Candidate} (h : At log base policy start ⟨taken, reads, chunk, 0⟩ work s)
    (hc : Corpus.Chunking (Corpus.chunkSize policy) reads chunk) :
    (Corpus.takeUp policy deleted candidate chunk work).Always env (Went log base policy start
      fun chunk after t => ∃ reads, Corpus.Chunking (Corpus.chunkSize policy) reads chunk ∧
        At log base policy start ⟨taken ++ [candidate], reads, chunk, 0⟩ after t) s := by
  obtain ⟨sent, hlog, h⟩ := h
  unfold Corpus.takeUp
  cases candidate with
  | deleted id =>
    apply (addDelete R { work with stats := { work.stats with toDelete := work.stats.toDelete + 1 } }
      ⟨sent, hlog, h.deletion id⟩).bind
    intro p t hp
    rcases p with ⟨e | a, after⟩
    · exact always_error R hp
    · exact Program.always_pure.mpr fun t' hd => ⟨reads, hc, hp.drift R hd⟩
  | updated id =>
    dsimp only
    split
    · next hshort =>
      exact Program.always_pure.mpr fun t hd => ⟨reads, hc.add id hshort, sent, (R.drift hd).trans hlog, h.update id⟩
    · next hfull =>
      apply (indexChunk R (by simp) ⟨sent, hlog, h.update id⟩).bind
      intro p t hp
      rcases p with ⟨e | a, after⟩
      · exact always_error R hp
      · exact Program.always_pure.mpr fun t' hd => ⟨_, hc.full id hfull, hp.drift R hd⟩

/-! ### A whole cycle -/

theorem conclude_cancelled {candidates : List Candidate} (h : At log base policy start ⟨taken, reads, chunk, 0⟩ work s)
    (hc : Corpus.Chunking (Corpus.chunkSize policy) reads chunk) (htaken : taken <+: candidates)
    (htoken : env.token true) : (Corpus.conclude policy .cancelled .cancelled work).Always env
      (fun p t => Ended env log base policy start candidates p.1 p.2 t) s := by
  apply (always_flush R h).bind
  intro p t hp
  rcases p with ⟨e | a, after⟩
  · exact Program.always_pure.mpr fun t' hd => Stopped.drift R hp hd
  · exact Program.always_pure.mpr fun t' hd =>
      ⟨htoken, hp.1, taken, reads, chunk, htaken, hc, hp.2.drift R hd⟩

theorem conclude_completed (h : At log base policy start ⟨taken, reads, [], 0⟩ work s)
    (hc : Corpus.Chunked (Corpus.chunkSize policy) (updatedIds taken) reads) :
    (Corpus.conclude policy .endOfCycle .completed work).Always env
      (fun p t => Ended env log base policy start taken p.1 p.2 t) s := by
  apply (always_flush R h).bind
  intro p t hp
  rcases p with ⟨e | a, after⟩
  · exact Program.always_pure.mpr fun t' hd => Stopped.drift R hp hd
  · exact Program.always_pure.mpr fun t' hd => ⟨hp.1, reads, hc, hp.2.drift R hd⟩

theorem always_applyFrom : ∀ {coming taken : List Candidate} {reads : List (List String)} {chunk : List String}
    {work : Work} {s : σ}, At log base policy start ⟨taken, reads, chunk, 0⟩ work s → Corpus.Chunking (Corpus.chunkSize policy) reads chunk →
      (Corpus.applyFrom policy deleted coming chunk work).Always env
        (fun p t => Ended env log base policy start (taken ++ coming) p.1 p.2 t) s
  | [], taken, reads, chunk, work, s, h, hc => by
    rw [List.append_nil]
    have hupdated := h.updated_eq
    apply Program.always_isCancelled.mpr
    intro b hb
    cases b with
    | true => exact conclude_cancelled R h hc (List.prefix_refl _) hb
    | false =>
      simp only [Bool.false_eq_true, ↓reduceIte]
      split
      · next hnil =>
        subst hnil
        exact conclude_completed R h (by simpa [← hupdated] using hc.finished)
      · next hne =>
        apply (indexChunk R hne h).bind
        intro p t hp
        rcases p with ⟨e | a, after⟩
        · exact Program.always_pure.mpr fun t' hd => Stopped.drift R hp hd
        · exact conclude_completed R hp (hupdated ▸ hc.finish hne)
  | candidate :: rest, taken, reads, chunk, work, s, h, hc => by
    rw [Corpus.applyFrom_cons]
    apply Program.always_isCancelled.mpr
    intro b hb
    cases b with
    | true => exact conclude_cancelled R h hc (List.prefix_append ..) hb
    | false =>
      simp only [Bool.false_eq_true, ↓reduceIte]
      apply (takeUp R h hc).bind
      intro p t hp
      rcases p with ⟨e | a, after⟩
      · exact Program.always_pure.mpr fun t' hd => Stopped.drift R hp hd
      · obtain ⟨reads, hc, hat⟩ := hp
        rw [List.append_cons]
        exact always_applyFrom hat hc

theorem ended_apply (candidates : List Candidate) : (Corpus.apply policy candidates start).Always env
    (fun p t => ∃ batcher, Ended env log (log s) policy start candidates p.1 ⟨batcher, p.2⟩ t) s := by
  have hbegin : At log (log s) policy start ⟨[], [], [], 0⟩ ⟨.empty, start⟩ s :=
    ⟨[], (List.append_nil _).symm, .begin policy start⟩
  apply (always_applyFrom R hbegin (.begin policy)).bind
  intro p t hp
  exact Program.always_pure.mpr fun t' hd => ⟨p.2.batcher, hp.drift R hd⟩

end Account

end ContactsIndex
