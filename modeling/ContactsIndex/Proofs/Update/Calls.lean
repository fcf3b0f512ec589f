import ContactsIndex.Proofs.Program.Obeys
import ContactsIndex.Update.Cycle

/-!
# What cycles call and count

A cycle calls the contacts provider, the document store and, to schedule a full update,
the job scheduler; it neither reads nor writes settings. Only a delta update schedules
anything, and nothing but a full update that runs once. Candidates are worked off with
fewer calls, and batches are sent with fewer still. The statistics go on saying from which
watermarks the cycle started, and counting leaves it open whether its listing was cut off.
-/

namespace ContactsIndex

open Program

def Call.Cycling : Call → Prop
  | .updated _ _ | .deleted _ | .contacts _ | .put _ | .remove _ | .entries _ | .listIds | .schedule _ _ => True
  | _ => False

/-- The calls of a cycle that are not about jobs. -/
def Call.Following : Call → Prop
  | .updated _ _ | .deleted _ | .contacts _ | .put _ | .remove _ | .entries _ | .listIds => True
  | _ => False

def Call.Escalating (user : UserId) (c : Call) : Prop :=
  c.Following ∨ c = .schedule user .oneOff

def Call.Indexing : Call → Prop
  | .contacts _ | .put _ | .remove _ | .entries _ => True
  | _ => False

def Call.Batching : Call → Prop
  | .put _ | .remove _ => True
  | _ => False

theorem Call.Following.cycling {c : Call} (h : c.Following) : c.Cycling := by
  cases c <;> trivial

theorem Call.Escalating.cycling {user : UserId} {c : Call} (h : c.Escalating user) : c.Cycling := by
  rcases h with h | rfl
  · exact h.cycling
  · trivial

theorem Call.Indexing.following {c : Call} (h : c.Indexing) : c.Following := by
  cases c <;> trivial

theorem Call.Batching.indexing {c : Call} (h : c.Batching) : c.Indexing := by
  cases c <;> trivial

namespace Stats

structure Kept (before after : Stats) : Prop where
  previous : after.previous = before.previous
  overlapped : after.overlapped = before.overlapped
  truncated : after.truncated = before.truncated

theorem Kept.refl (stats : Stats) : Kept stats stats := ⟨rfl, rfl, rfl⟩

theorem Kept.trans {a b c : Stats} (h : Kept a b) (h' : Kept b c) : Kept a c :=
  ⟨h'.previous.trans h.previous, h'.overlapped.trans h.overlapped, h'.truncated.trans h.truncated⟩

theorem kept_recordUpdate (stats : Stats) (status : Status) :
    Kept stats (stats.recordUpdate status) := by
  unfold recordUpdate
  split <;> exact ⟨rfl, rfl, rfl⟩

theorem kept_recordDelete (stats : Stats) (status : Status) :
    Kept stats (stats.recordDelete status) := by
  unfold recordDelete
  cases status <;> exact ⟨rfl, rfl, rfl⟩

theorem kept_foldl {α : Type} {f : Stats → α → Stats} (hf : ∀ stats a, Kept stats (f stats a)) :
    ∀ (xs : List α) (stats : Stats), Kept stats (xs.foldl f stats)
  | [], stats => .refl stats
  | x :: xs, stats => (hf stats x).trans (kept_foldl hf xs (f stats x))

theorem kept_recordPuts (stats : Stats) (newIds : List String) (outcome : Outcome) :
    Kept stats (stats.recordPuts newIds outcome) := by
  refine kept_foldl (fun stats entry => ?_) outcome stats
  have hone := kept_recordUpdate stats entry.2
  dsimp only
  split
  · exact hone.trans ⟨rfl, rfl, rfl⟩
  · exact hone

theorem kept_recordRemoves (stats : Stats) (outcome : Outcome) :
    Kept stats (stats.recordRemoves outcome) := by
  refine kept_foldl (fun stats entry => ?_) outcome stats
  exact kept_recordDelete stats entry.2

theorem kept_repeat (status : Status) : ∀ (count : Nat) (stats : Stats),
    Kept stats (Nat.repeat (·.recordUpdate status) count stats)
  | 0, stats => .refl stats
  | count + 1, stats => (kept_repeat status count stats).trans (kept_recordUpdate _ status)

end Stats

/-! ## Batches -/

def Counting {α : Type} (before : Stats) (p : Progress α) : Prop :=
  before.Kept p.2.stats

namespace Batcher

theorem obeys_sendDeletes (ids : List String) : (sendDeletes ids).Obeys Call.Batching fun _ => True := by
  unfold sendDeletes
  split
  · trivial
  · refine obeys_ask.mpr ⟨trivial, fun reply => ?_⟩
    rcases reply with e | outcome <;> trivial

theorem obeys_sendUpdates (docs : List Document) :
    (sendUpdates docs).Obeys Call.Batching fun _ => True := by
  unfold sendUpdates
  split
  · trivial
  · refine obeys_ask.mpr ⟨trivial, fun reply => ?_⟩
    rcases reply with e | outcome <;> trivial

theorem obeys_flush (policy : Policy) (reason : FlushReason) (work : Work) :
    (flush policy reason work).Obeys Call.Batching (Counting work.stats) := by
  unfold flush
  dsimp only
  split
  · exact Stats.Kept.refl _
  · refine (obeys_sendDeletes _).bind fun removed _ => (obeys_sendUpdates _).bind fun written _ =>
      obeys_record.mpr ?_
    have hkept := (work.stats.kept_recordPuts work.batcher.newIds written).trans
      (Stats.kept_recordRemoves _ removed)
    split
    · exact hkept
    · exact hkept

theorem obeys_addUpdate (policy : Policy) (diffed : Diffed) (work : Work) :
    (addUpdate policy diffed work).Obeys Call.Batching (Counting work.stats) := by
  unfold addUpdate
  split
  · exact ⟨rfl, rfl, rfl⟩
  · dsimp only
    split
    · exact (obeys_flush ..).mono fun _ hq => hq
    · exact Stats.Kept.refl _

theorem obeys_addDelete (policy : Policy) (id : String) (work : Work) :
    (addDelete policy id work).Obeys Call.Batching (Counting work.stats) := by
  unfold addDelete
  dsimp only
  split
  · exact (obeys_flush ..).mono fun _ hq => hq
  · exact Stats.Kept.refl _

end Batcher

/-! ## Candidates -/

namespace Corpus

theorem obeys_addUpdates (policy : Policy) : ∀ (diffs : List Diffed) (work : Work),
    (addUpdates policy diffs work).Obeys Call.Batching (Counting work.stats)
  | [], _ => Stats.Kept.refl _
  | diffed :: rest, work => by
    apply (Batcher.obeys_addUpdate policy diffed work).bind
    intro p hp
    rcases p with ⟨e | a, after⟩
    · exact hp
    · exact (obeys_addUpdates policy rest after).mono fun _ hq => hp.trans hq

theorem obeys_indexChunk (policy : Policy) (deleted ids : List String) (work : Work) :
    (indexChunk policy deleted ids work).Obeys Call.Indexing (Counting work.stats) := by
  have hread : (Source.readContacts ids).Obeys Call.Indexing fun _ => True := by
    unfold Source.readContacts
    split
    · trivial
    · refine obeys_ask.mpr ⟨trivial, fun reply => ?_⟩
      rcases reply with e | _ | found <;> trivial
  apply hread.bind
  intro result _
  rcases result with e | found
  · exact Stats.Kept.refl _
  · have hmissing : work.stats.Kept
      { work.stats with missing := work.stats.missing + (ids.length - found.length) } :=
      ⟨rfl, rfl, rfl⟩
    dsimp only
    split
    · exact hmissing
    · refine obeys_ask.mpr ⟨trivial, fun reply => ?_⟩
      rcases reply with e | stored
      · have hkept := hmissing.trans (Stats.kept_repeat e.status found.length _)
        dsimp only
        split
        · exact hkept
        · exact hkept
      · exact obeys_readClock.mpr fun now => ((obeys_addUpdates policy _ _).calls
          fun _ => Call.Batching.indexing).mono fun _ hq => hmissing.trans hq

theorem obeys_conclude (policy : Policy) (reason : FlushReason) (completion : Completion)
    (work : Work) :
    (conclude policy reason completion work).Obeys Call.Batching (Counting work.stats) := by
  apply (Batcher.obeys_flush policy reason work).bind
  intro p hp
  rcases p with ⟨e | a, after⟩ <;> exact hp

theorem obeys_applyFrom (policy : Policy) (deleted : List String) :
    ∀ (candidates : List Candidate) (chunk : List String) (work : Work),
    (applyFrom policy deleted candidates chunk work).Obeys Call.Indexing (Counting work.stats)
  | [], chunk, work => by
    apply obeys_isCancelled.mpr
    intro b
    split
    · exact (obeys_conclude ..).calls fun _ => Call.Batching.indexing
    · split
      · exact (obeys_conclude ..).calls fun _ => Call.Batching.indexing
      · apply (obeys_indexChunk policy deleted chunk work).bind
        intro p hp
        rcases p with ⟨e | a, after⟩
        · exact hp
        · exact ((obeys_conclude ..).calls fun _ => Call.Batching.indexing).mono fun _ hq => hp.trans hq
  | .deleted id :: rest, chunk, work => by
    have hcount : work.stats.Kept { work.stats with toDelete := work.stats.toDelete + 1 } := ⟨rfl, rfl, rfl⟩
    apply obeys_isCancelled.mpr
    intro b
    split
    · exact (obeys_conclude ..).calls fun _ => Call.Batching.indexing
    · apply ((Batcher.obeys_addDelete policy id _).calls fun _ => Call.Batching.indexing).bind
      intro p hp
      rcases p with ⟨e | a, after⟩
      · exact hcount.trans hp
      · exact (obeys_applyFrom policy deleted rest chunk after).mono fun _ hq =>
          (hcount.trans hp).trans hq
  | .updated id :: rest, chunk, work => by
    have hcount : work.stats.Kept { work.stats with toUpdate := work.stats.toUpdate + 1 } := ⟨rfl, rfl, rfl⟩
    apply obeys_isCancelled.mpr
    intro b
    split
    · exact (obeys_conclude ..).calls fun _ => Call.Batching.indexing
    · dsimp only
      split
      · exact (obeys_applyFrom policy deleted rest _ _).mono fun _ hq => hcount.trans hq
      · apply (obeys_indexChunk policy deleted _ _).bind
        intro p hp
        rcases p with ⟨e | a, after⟩
        · exact hcount.trans hp
        · exact (obeys_applyFrom policy deleted rest [] after).mono fun _ hq =>
            (hcount.trans hp).trans hq

theorem obeys_update (policy : Policy) (wanted unwanted : List String) (stats : Stats) :
    (update policy wanted unwanted stats).Obeys Call.Indexing fun p => stats.Kept p.2 :=
  (obeys_applyFrom ..).bind fun _ hp => hp

end Corpus

/-! ## Cycles -/

namespace Source

theorem obeys_listing (query : String) (since : Int) (limit : Limit)
    (reply : Except ProviderError (Option (List ChangeRow))) :
    (listing query since limit reply).Obeys Call.Following fun _ => True := by
  rcases reply with e | _ | rows <;> trivial

theorem obeys_listUpdated (since : Int) (limit : Limit) :
    (listUpdated since limit).Obeys Call.Following fun _ => True :=
  obeys_ask.mpr ⟨trivial, fun _ => obeys_listing ..⟩

theorem obeys_listDeleted (since : Int) : (listDeleted since).Obeys Call.Following fun _ => True :=
  obeys_ask.mpr ⟨trivial, fun _ => obeys_listing ..⟩

theorem obeys_listBoth (updatedSince : Int) (limit : Limit) (deletedSince : Int) :
    (listBoth updatedSince limit deletedSince).Obeys Call.Following fun _ => True := by
  refine ⟨trivial, trivial, fun reply => ?_, fun reply => ?_⟩
  · apply (obeys_listing ..).bind
    intro result _
    rcases result with e | updated
    · trivial
    · exact (obeys_listDeleted _).bind fun _ _ => trivial
  · apply (obeys_listing ..).bind
    intro result _
    rcases result with e | deleted
    · trivial
    · exact (obeys_listUpdated ..).bind fun _ _ => trivial

end Source

namespace CycleContext

theorem obeys_followChanges (context : CycleContext) (stats : Stats) :
    (context.followChanges stats).Obeys Call.Following fun p =>
      p.2.previous = stats.previous ∧ p.2.overlapped = stats.overlapped := by
  apply (Source.obeys_listBoth ..).bind
  intro result _
  rcases result with e | ⟨updated, deleted⟩
  · exact ⟨rfl, rfl⟩
  · apply ((Corpus.obeys_update ..).calls fun _ => Call.Indexing.following).bind
    intro p hp
    rcases p with ⟨e | completion, after⟩
    · exact ⟨hp.previous, hp.overlapped⟩
    · exact ⟨hp.previous, hp.overlapped⟩

theorem obeys_escalating (context : CycleContext) :
    context.deltaUpdate.Obeys (Call.Escalating context.user) fun outcome =>
      outcome.stats.previous = context.settings.watermarks := by
  refine obeys_readClock.mpr fun began =>
    ((context.obeys_followChanges _).calls fun _ => Or.inl).bind ?_
  intro p hp
  obtain ⟨result, stats⟩ := p
  apply obeys_readClock.mpr
  intro ended
  have hprevious : (stats.finish ended).previous = context.settings.watermarks := hp.1
  dsimp only
  split
  · refine obeys_ask.mpr ⟨.inr rfl, fun reply => ?_⟩
    rcases reply with e | _ <;> exact hprevious
  · exact hprevious

theorem obeys_deltaUpdate (context : CycleContext) :
    context.deltaUpdate.Obeys Call.Cycling fun outcome =>
      outcome.stats.previous = context.settings.watermarks :=
  context.obeys_escalating.calls fun _ => Call.Escalating.cycling

theorem obeys_rebuild (context : CycleContext) (stats : Stats) :
    (context.rebuild stats).Obeys Call.Following fun p =>
      p.2.previous = stats.previous ∧ p.2.overlapped = stats.overlapped := by
  apply obeys_isCancelled.mpr
  intro b
  split
  · exact ⟨rfl, rfl⟩
  · refine obeys_ask.mpr ⟨trivial, fun reply => ?_⟩
    rcases reply with e | indexed
    · exact ⟨rfl, rfl⟩
    · apply (Source.obeys_listUpdated ..).bind
      intro result _
      rcases result with e | current
      · exact ⟨rfl, rfl⟩
      · exact ((Corpus.obeys_update ..).calls fun _ => Call.Indexing.following).mono fun p hp =>
          ⟨hp.previous, hp.overlapped⟩

theorem obeys_following (context : CycleContext) : context.fullUpdate.Obeys Call.Following fun outcome =>
    outcome.stats.previous = context.settings.watermarks ∧ outcome.stats.overlapped = false := by
  refine obeys_readClock.mpr fun began => (context.obeys_rebuild _).bind ?_
  intro p hp
  obtain ⟨result, stats⟩ := p
  exact obeys_readClock.mpr fun ended => obeys_record.mpr hp

theorem obeys_fullUpdate (context : CycleContext) : context.fullUpdate.Obeys Call.Cycling fun outcome =>
    outcome.stats.previous = context.settings.watermarks ∧ outcome.stats.overlapped = false :=
  context.obeys_following.calls fun _ => Call.Following.cycling

/-! ## The end of an update -/

theorem obeys_clocked_deltaUpdate (context : CycleContext) (last : Option Int) :
    (context.deltaUpdate.clocked last).Obeys (fun _ => True) fun p => p.2 = some p.1.stats.finishedAt := by
  refine obeys_clocked_readClock.mpr fun began => ?_
  rw [clocked_bind]
  refine (obeys_any _).bind fun p _ => obeys_clocked_readClock.mpr fun ended => ?_
  dsimp only
  split
  · refine ⟨trivial, fun reply => ?_⟩
    rcases reply with e | _ <;> exact rfl
  · exact rfl

theorem obeys_clocked_fullUpdate (context : CycleContext) (last : Option Int) :
    (context.fullUpdate.clocked last).Obeys (fun _ => True) fun p => p.2 = some p.1.stats.finishedAt := by
  refine obeys_clocked_readClock.mpr fun began => ?_
  rw [clocked_bind]
  exact (obeys_any _).bind fun p _ => obeys_clocked_readClock.mpr fun ended => rfl

variable {σ : Type} {env : Environment σ} {s t : σ}

theorem lastRead_deltaUpdate {context : CycleContext} {outcome : DeltaOutcome}
    (h : Ends env context.deltaUpdate s outcome t) :
    LastRead env context.deltaUpdate s outcome t outcome.stats.finishedAt :=
  h.lastRead (fun outcome => outcome.stats.finishedAt) (context.obeys_clocked_deltaUpdate none)

theorem lastRead_fullUpdate {context : CycleContext} {outcome : FullOutcome}
    (h : Ends env context.fullUpdate s outcome t) :
    LastRead env context.fullUpdate s outcome t outcome.stats.finishedAt :=
  h.lastRead (fun outcome => outcome.stats.finishedAt) (context.obeys_clocked_fullUpdate none)

end CycleContext

end ContactsIndex
