import ContactsIndex.Proofs.Program.Answers
import ContactsIndex.Update.Cycle

/-!
# Cycles answer nobody

The jobs that wait for a full update are told its result by the worker. The cycles
themselves answer no job, whatever happens to them.
-/

namespace ContactsIndex

open Program

namespace Source

theorem tells_rowsOf {α : Type} (query : String) (reply : Except ProviderError (Option α)) :
    (rowsOf query reply).Tells [] := by
  rcases reply with e | _ | rows <;> rfl

theorem tells_listing (query : String) (since : Int) (limit : Limit)
    (reply : Except ProviderError (Option (List ChangeRow))) :
    (listing query since limit reply).Tells [] :=
  (tells_rowsOf query reply).silent_bind fun _ => rfl

theorem tells_listUpdated (since : Int) (limit : Limit) : (listUpdated since limit).Tells [] :=
  tells_ask.mpr fun _ => tells_listing ..

theorem tells_listDeleted (since : Int) : (listDeleted since).Tells [] :=
  tells_ask.mpr fun _ => tells_listing ..

theorem tells_readContacts (ids : List String) : (readContacts ids).Tells [] := by
  unfold readContacts
  split
  · rfl
  · exact tells_ask.mpr fun _ => tells_rowsOf ..

theorem tells_listBoth (updatedSince : Int) (limit : Limit) (deletedSince : Int) :
    (listBoth updatedSince limit deletedSince).Tells [] := by
  refine ⟨fun reply => (tells_listing ..).silent_bind ?_, fun reply => (tells_listing ..).silent_bind ?_⟩
  · rintro (e | updated)
    · rfl
    · exact (tells_listDeleted _).silent_bind fun _ => rfl
  · rintro (e | deleted)
    · rfl
    · exact (tells_listUpdated _ _).silent_bind fun _ => rfl

end Source

namespace Batcher

theorem tells_sendDeletes (ids : List String) : (sendDeletes ids).Tells [] := by
  unfold sendDeletes
  split
  · rfl
  · refine tells_ask.mpr fun reply => ?_
    rcases reply with e | outcome <;> rfl

theorem tells_sendUpdates (docs : List Document) : (sendUpdates docs).Tells [] := by
  unfold sendUpdates
  split
  · rfl
  · refine tells_ask.mpr fun reply => ?_
    rcases reply with e | outcome <;> rfl

theorem tells_flush (policy : Policy) (reason : FlushReason) (work : Work) :
    (flush policy reason work).Tells [] := by
  unfold flush
  dsimp only
  split
  · rfl
  · refine (tells_sendDeletes _).silent_bind fun removed => (tells_sendUpdates _).silent_bind fun written =>
      tells_record.mpr ?_
    split <;> rfl

theorem tells_addUpdate (policy : Policy) (diffed : Diffed) (work : Work) :
    (addUpdate policy diffed work).Tells [] := by
  unfold addUpdate
  split
  · rfl
  · dsimp only
    split
    · exact tells_flush ..
    · rfl

theorem tells_addDelete (policy : Policy) (id : String) (work : Work) :
    (addDelete policy id work).Tells [] := by
  unfold addDelete
  dsimp only
  split
  · exact tells_flush ..
  · rfl

end Batcher

namespace Corpus

theorem tells_addUpdates (policy : Policy) : ∀ (diffs : List Diffed) (work : Work),
    (addUpdates policy diffs work).Tells []
  | [], _ => rfl
  | diffed :: rest, work => (Batcher.tells_addUpdate policy diffed work).silent_bind fun
    | (.error _, _) => rfl
    | (.ok _, after) => tells_addUpdates policy rest after

theorem tells_indexChunk (policy : Policy) (deleted ids : List String) (work : Work) :
    (indexChunk policy deleted ids work).Tells [] := by
  apply (Source.tells_readContacts ids).silent_bind
  rintro (e | found)
  · rfl
  · dsimp only
    split
    · rfl
    · refine tells_ask.mpr fun reply => ?_
      rcases reply with e | stored
      · dsimp only
        split <;> rfl
      · exact tells_readClock.mpr fun now => tells_addUpdates ..

theorem tells_conclude (policy : Policy) (reason : FlushReason) (completion : Completion)
    (work : Work) : (conclude policy reason completion work).Tells [] :=
  (Batcher.tells_flush policy reason work).silent_bind fun
    | (.error _, _) => rfl
    | (.ok _, _) => rfl

theorem tells_applyFrom (policy : Policy) (deleted : List String) :
    ∀ (candidates : List Candidate) (chunk : List String) (work : Work),
    (applyFrom policy deleted candidates chunk work).Tells []
  | [], chunk, work => by
    refine tells_isCancelled.mpr fun b => ?_
    split
    · exact tells_conclude ..
    · split
      · exact tells_conclude ..
      · exact (tells_indexChunk ..).silent_bind fun
          | (.error _, _) => rfl
          | (.ok _, _) => tells_conclude ..
  | .deleted id :: rest, chunk, work => by
    refine tells_isCancelled.mpr fun b => ?_
    split
    · exact tells_conclude ..
    · exact (Batcher.tells_addDelete ..).silent_bind fun
        | (.error _, _) => rfl
        | (.ok _, after) => tells_applyFrom policy deleted rest chunk after
  | .updated id :: rest, chunk, work => by
    refine tells_isCancelled.mpr fun b => ?_
    split
    · exact tells_conclude ..
    · dsimp only
      split
      · exact tells_applyFrom policy deleted rest _ _
      · exact (tells_indexChunk ..).silent_bind fun
          | (.error _, _) => rfl
          | (.ok _, after) => tells_applyFrom policy deleted rest [] after

theorem tells_update (policy : Policy) (wanted unwanted : List String) (stats : Stats) :
    (update policy wanted unwanted stats).Tells [] :=
  (tells_applyFrom ..).silent_bind fun _ => rfl

end Corpus

namespace CycleContext

theorem tells_followChanges (context : CycleContext) (stats : Stats) :
    (context.followChanges stats).Tells [] := by
  apply (Source.tells_listBoth ..).silent_bind
  rintro (e | ⟨updated, deleted⟩)
  · rfl
  · exact (Corpus.tells_update ..).silent_bind fun
      | (.error _, _) => rfl
      | (.ok _, _) => rfl

theorem tells_deltaUpdate (context : CycleContext) : context.deltaUpdate.Tells [] := by
  refine tells_readClock.mpr fun began => (context.tells_followChanges _).silent_bind ?_
  rintro ⟨result, stats⟩
  refine tells_readClock.mpr fun ended => ?_
  dsimp only
  split
  · refine tells_ask.mpr fun reply => ?_
    rcases reply with e | _ <;> rfl
  · rfl

theorem tells_rebuild (context : CycleContext) (stats : Stats) : (context.rebuild stats).Tells [] := by
  refine tells_isCancelled.mpr fun b => ?_
  split
  · rfl
  · refine tells_ask.mpr fun reply => ?_
    rcases reply with e | indexed
    · rfl
    · apply (Source.tells_listUpdated 0 _).silent_bind
      rintro (e | current)
      · rfl
      · exact Corpus.tells_update ..

theorem tells_fullUpdate (context : CycleContext) : context.fullUpdate.Tells [] :=
  tells_readClock.mpr fun _ => (context.tells_rebuild _).silent_bind fun _ =>
    tells_readClock.mpr fun _ => tells_record.mpr rfl

end CycleContext

end ContactsIndex
