import ContactsIndex.Bench.Instance
import ContactsIndex.Proofs.Instance.Coalescing
import ContactsIndex.Proofs.Update.Silence

/-!
# Whom a worker answers

A job that asks for a full update while indexing is disabled is answered by the handler of
its message, and one that waits for the full update in flight by the handler of its end.
`Worker.replies` says so for each event without any program, and nobody else is answered
(`tells_handle`). Messages that a worker leaves behind are answered for it.
-/

namespace ContactsIndex

open Program
open Bench (Message)

/-! ## Messages -/

namespace Bench.Message

def event : Message → Worker.Event
  | .command c => .command c
  | .config c => .config c
  | .shutdown => .shutdown

def job? : Message → Option JobId
  | .command (.runFullUpdate job) => job
  | _ => none

end Bench.Message

def jobsOf (inbox : List Message) : List JobId :=
  inbox.filterMap Message.job?

@[simp] theorem jobsOf_nil : jobsOf [] = [] := rfl

@[simp] theorem jobsOf_append (inbox inbox' : List Message) :
    jobsOf (inbox ++ inbox') = jobsOf inbox ++ jobsOf inbox' :=
  List.filterMap_append

@[simp] theorem jobsOf_cons (message : Message) (inbox : List Message) :
    jobsOf (message :: inbox) = message.job?.toList ++ jobsOf inbox := by
  unfold jobsOf
  rw [List.filterMap_cons]
  cases message.job? <;> rfl

/-- The messages with a further one. A configuration takes the place of one that was not looked at yet. -/
def queue (inbox : List Message) (message : Message) : List Message :=
  (if message.isConfig then inbox.filter (!·.isConfig) else inbox) ++ [message]

@[simp] theorem queue_nil (message : Message) : queue [] message = [message] := by
  unfold queue
  split <;> rfl

@[simp] theorem jobsOf_queue (inbox : List Message) (message : Message) :
    jobsOf (queue inbox message) = jobsOf inbox ++ message.job?.toList := by
  have hkept : jobsOf (inbox.filter (!·.isConfig)) = jobsOf inbox := by
    unfold jobsOf
    rw [List.filterMap_filter]
    refine congrArg (List.filterMap · inbox) (funext fun message => ?_)
    rcases message with c | c | _ <;> rfl
  unfold queue
  split <;> simp [hkept]

theorem mem_queue {inbox : List Message} {message other : Message} (h : other ∈ inbox)
    (ho : other.isConfig = false) : other ∈ queue inbox message := by
  unfold queue
  split
  · exact List.mem_append_left _ (List.mem_filter.mpr ⟨h, by rw [ho]; rfl⟩)
  · exact List.mem_append_left _ h

theorem mem_queue_self (inbox : List Message) (message : Message) : message ∈ queue inbox message :=
  List.mem_append_right _ (List.mem_singleton_self _)

/-- What the jobs are told whose messages are not taken up any more. -/
def refusals (inbox : List Message) : List (JobId × JobResult) :=
  (jobsOf inbox).map (·, .cancelled)

theorem jobs_of_told (result : JobResult) (jobs : List JobId) :
    (jobs.map (·, result)).map (·.1) = jobs := by
  rw [List.map_map]
  exact List.map_id jobs

theorem jobs_of_refusals (inbox : List Message) : (refusals inbox).map (·.1) = jobsOf inbox :=
  jobs_of_told ..

theorem mem_refusals {inbox : List Message} {job : JobId} (h : .command (.runFullUpdate (some job)) ∈ inbox) :
    (job, .cancelled) ∈ refusals inbox :=
  List.mem_map_of_mem (List.mem_filterMap.mpr ⟨_, h, rfl⟩)

theorem answers_refuse (inbox : List Message) (scene : Bench.Scene) :
    (Bench.Instance.refuse inbox scene).answers = scene.answers ++ refusals inbox := by
  induction inbox generalizing scene with
  | nil => exact (List.append_nil _).symm
  | cons message inbox ih =>
    refine (ih _).trans ?_
    rcases message with (_ | _ | job) | c | _ <;>
      simp [refusals, jobsOf, List.filterMap_cons, Message.job?, Bench.Scene.answer]

/-! ## Handlers -/

namespace Worker

variable {w : Worker} {event : Event}

def handle (w : Worker) : Event → Program Worker
  | .command c => w.onCommand c
  | .config c => w.onConfig c
  | .deltaDone _ outcome _ => w.onDeltaDone outcome
  | .fullDone _ outcome => w.onFullDone outcome
  | .shutdown => pure w.beginDrain
  | .finish => w.finishDrain

def replies (w : Worker) : Event → List (JobId × JobResult)
  | .command (.runFullUpdate job) => if w.config.enabled then [] else job.toList.map (·, .succeeded)
  | .fullDone _ outcome => w.waiters.map (·, .ofResult outcome.result)
  | .finish => w.waiters.map (·, .cancelled)
  | _ => []

theorem obeys_handle (w : Worker) (event : Event) :
    (w.handle event).Obeys (Handling (w.after event).settings) (· = w.after event) := by
  cases event with
  | command c => exact w.obeys_onCommand _ c
  | config c => exact w.obeys_onConfig _ c
  | deltaDone _ outcome _ => exact w.obeys_onDeltaDone outcome
  | fullDone _ outcome => exact w.obeys_onFullDone outcome
  | shutdown => rfl
  | finish => exact w.obeys_finishDrain _

/-! ### Answers -/

theorem tells_publish (w : Worker) : w.publish.Tells [] := rfl

theorem tells_ensureJob (w : Worker) (replaceOneOff : Bool) : (w.ensureJob replaceOneOff).Tells [] := by
  refine tells_ask.mpr fun pending => ?_
  dsimp only
  split
  · rfl
  · refine tells_ask.mpr fun reply => ?_
    rcases reply with e | _ <;> rfl

theorem tells_cancelJob (w : Worker) : w.cancelJob.Tells [] := by
  refine tells_ask.mpr fun reply => ?_
  rcases reply with e | _ | _ <;> rfl

theorem tells_persist (w : Worker) : w.persist.Tells [] :=
  tells_ask.mpr fun _ => rfl

theorem tells_triggerDelta (w : Worker) : w.triggerDelta.Tells [] := rfl

theorem tells_tellAll (result : JobResult) : ∀ jobs, (tellAll result jobs).Tells (jobs.map (·, result))
  | [] => rfl
  | _ :: jobs => ⟨_, rfl, tells_tellAll result jobs⟩

theorem tells_begin (w : Worker) (initial : InitialCycle) : (w.begin initial).Tells [] := by
  unfold «begin»
  dsimp only
  split
  · refine (tells_ensureJob _ false).silent_bind fun _ => ?_
    cases initial <;> exact tells_publish _
  · exact (tells_cancelJob _).silent_bind fun _ => tells_publish _

theorem tells_onCommand (w : Worker) (c : Command) : (w.onCommand c).Tells (w.replies (.command c)) := by
  cases c with
  | contactsChanged =>
    dsimp only [onCommand, replies]
    split
    · exact (tells_triggerDelta w).silent_bind fun _ => tells_publish _
    · rfl
  | runFullUpdate job =>
    dsimp only [onCommand, replies]
    split
    · exact tells_publish _
    · have hdone : ∀ _ : Unit, Tells (pure w : Program Worker) [] := fun _ => rfl
      have htold := (tells_tellAll .succeeded job.toList).bind hdone
      rwa [List.append_nil] at htold

theorem tells_onConfig (w : Worker) (c : Config) : (w.onConfig c).Tells [] := by
  unfold onConfig
  dsimp only
  cases w.config.enabled <;> cases c.enabled
  · exact tells_publish _
  · exact (tells_ensureJob _ false).silent_bind fun _ =>
      (tells_triggerDelta _).silent_bind fun _ => tells_publish _
  · exact (tells_cancelJob _).silent_bind fun _ => tells_publish _
  · dsimp only
    split
    · exact (tells_ensureJob _ false).silent_bind fun _ => tells_publish _
    · exact tells_publish _

theorem tells_onDeltaDone (w : Worker) (outcome : CycleContext.DeltaOutcome) :
    (w.onDeltaDone outcome).Tells [] := by
  have hsettle : (settleDelta { w with delta := none } outcome).Tells [] := by
    unfold settleDelta
    rcases outcome.result with e | ⟨_ | _, watermarks⟩
    · rfl
    · exact (tells_persist _).silent_bind fun _ => rfl
    · rfl
  exact hsettle.silent_bind fun _ => tells_record.mpr (tells_publish _)

theorem tells_settleFull {α : Type} {f : Worker × String → Program α} {told : List (JobId × JobResult)}
    (w : Worker) (result : JobResult) (stats : Stats)
    (hf : ∀ p, p.1.waiters = w.waiters → (f p).Tells told) : (w.settleFull result stats >>= f).Tells told := by
  cases result with
  | succeeded => exact (tells_persist _).silent_bind fun _ => hf _ rfl
  | failed => exact hf _ rfl
  | cancelled => exact hf _ rfl

theorem tells_onFullDone (w : Worker) (outcome : CycleContext.FullOutcome) :
    (w.onFullDone outcome).Tells (w.waiters.map (·, .ofResult outcome.result)) := by
  refine tells_settleFull _ _ _ fun p hp => tells_record.mpr ?_
  rw [← List.append_nil (w.waiters.map _), ← show p.1.waiters = w.waiters from hp]
  refine (tells_tellAll _ _).bind fun _ => ?_
  dsimp only
  split
  · exact (tells_ensureJob _ true).silent_bind fun _ => tells_publish _
  · exact tells_publish _

theorem tells_finishDrain (w : Worker) : w.finishDrain.Tells (w.waiters.map (·, .cancelled)) := by
  rw [← List.append_nil (w.waiters.map _)]
  exact (tells_tellAll _ _).bind fun _ => tells_publish _

theorem tells_handle (w : Worker) (event : Event) : (w.handle event).Tells (w.replies event) := by
  cases event with
  | command c => exact w.tells_onCommand c
  | config c => exact w.tells_onConfig c
  | deltaDone _ outcome _ => exact w.tells_onDeltaDone outcome
  | fullDone _ outcome => exact w.tells_onFullDone outcome
  | shutdown => rfl
  | finish => exact w.tells_finishDrain

end Worker

end ContactsIndex
