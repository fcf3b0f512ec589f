import ContactsIndex.Instance.Worker
import ContactsIndex.Proofs.Program.Obeys

/-!
# What the handlers make of a worker

The calls that a worker makes while it handles an event have no say in what becomes of
it: each handler ends with one worker, which is written down here without any program.
The calls of a handler go to the job scheduler and to the settings file, and what is
written to the file are the settings that the worker goes on with.
-/

namespace ContactsIndex.Worker

open Program

/-! ## Workers after an event -/

def shown (w : Worker) : Worker :=
  { w with published := w.snapshot }

def triggered (w : Worker) : Worker :=
  if w.delta.isSome then { w with rerun := true } else w.startDelta

def begun (w : Worker) (initial : InitialCycle) : Worker :=
  let w := { w with lifecycle := .running }
  if w.config.enabled then
    match initial with
    | .delta => w.startDelta.shown
    | .full => (w.startFull none).shown
  else w.shown

def afterCommand (w : Worker) : Command → Worker
  | .contactsChanged => if w.config.enabled then w.triggered.shown else w
  | .runFullUpdate job =>
    if w.config.enabled then
      let w := { w with waiters := w.waiters ++ job.toList }
      (if w.full.isSome then w else w.startFull job).shown
    else w

def afterConfig (w : Worker) (config : Config) : Worker :=
  let after := { w with config := config }
  match w.config.enabled, config.enabled with
  | false, true => after.triggered.shown
  | _, _ => after.shown

def deltaLabel (outcome : CycleContext.DeltaOutcome) : String :=
  match outcome.result with
  | .ok ⟨.completed, _⟩ => "completed"
  | .ok ⟨.cancelled, _⟩ => "cancelled"
  | .error _ => "failed"

/-- Only a completed delta update changes the settings. -/
def settledDelta (w : Worker) (outcome : CycleContext.DeltaOutcome) : Worker :=
  match outcome.result with
  | .ok ⟨.completed, watermarks⟩ =>
    { w with
      settings := adopt w.settings watermarks outcome.stats.finishedAt
      completedDelta := w.completedDelta + 1 }
  | _ => w

def afterDelta (w : Worker) (outcome : CycleContext.DeltaOutcome) : Worker :=
  let after := settledDelta { w with delta := none } outcome
  let due := after.rerun && !after.draining && after.config.enabled
  let after := { after with lastDelta := some outcome.stats, rerun := false }
  (if due then after.startDelta else after).shown

/-- The statistics of a full update, which say whether a delta update moved the watermark of
changes meanwhile. -/
def fullStats (w : Worker) (outcome : CycleContext.FullOutcome) : Stats :=
  let moved := w.settings.contactUpdate ≠ outcome.stats.previous.update
  { outcome.stats with overlapped := outcome.stats.overlapped || moved }

def fullLabel : JobResult → String
  | .succeeded => "completed"
  | .cancelled => "cancelled"
  | .failed => "failed"

/-- Only a full update that succeeded changes the settings. -/
def settledFull (w : Worker) (result : JobResult) (stats : Stats) : Worker :=
  match result with
  | .succeeded =>
    { w with settings := w.settings.setLastFull stats.finishedAt
             completedFull := w.completedFull + 1 }
  | _ => w

def afterFull (w : Worker) (outcome : CycleContext.FullOutcome) : Worker :=
  let stats := w.fullStats outcome
  let after := settledFull { w with full := none } (.ofResult outcome.result) stats
  shown { after with lastFull := some stats, waiters := [] }

def finished (w : Worker) : Worker :=
  shown { w with waiters := [], lifecycle := .shutDown }

/-! ## What the handlers do -/

/-- The calls that a handler makes; the settings that it writes are `settings`. -/
def Handling (settings : Settings) : Call → Prop
  | .schedule _ _ | .cancelJob _ | .pendingJob _ => True
  | .persist s => s = settings
  | _ => False

variable (w : Worker) {settings : Settings}

theorem obeys_publish : w.publish.Obeys (Handling settings) (· = w.shown) := rfl

theorem obeys_ensureJob (replaceOneOff : Bool) :
    (w.ensureJob replaceOneOff).Obeys (Handling settings) fun _ => True := by
  refine obeys_ask.mpr ⟨trivial, fun pending => ?_⟩
  dsimp only
  split
  · trivial
  · refine obeys_ask.mpr ⟨trivial, fun reply => ?_⟩
    rcases reply with e | _ <;> trivial

theorem obeys_cancelJob : w.cancelJob.Obeys (Handling settings) fun _ => True := by
  refine obeys_ask.mpr ⟨trivial, fun reply => ?_⟩
  rcases reply with e | _ | _ <;> trivial

theorem obeys_tellAll (result : JobResult) :
    ∀ jobs, (tellAll result jobs).Obeys (Handling settings) fun _ => True
  | [] => trivial
  | _ :: jobs => obeys_tellAll result jobs

theorem obeys_persist : w.persist.Obeys (Handling w.settings) fun _ => True :=
  obeys_ask.mpr ⟨rfl, fun _ => trivial⟩

theorem obeys_triggerDelta : w.triggerDelta.Obeys (Handling settings) (· = w.triggered) :=
  obeys_record.mpr rfl

theorem obeys_begin (settings : Settings) (initial : InitialCycle) :
    (w.begin initial).Obeys (Handling settings) (· = w.begun initial) := by
  unfold «begin» begun
  dsimp only
  split
  · apply (obeys_ensureJob _ false).bind
    intro _ _
    cases initial <;> exact obeys_publish _
  · exact (obeys_cancelJob _).bind fun _ _ => obeys_publish _

theorem obeys_onCommand (settings : Settings) (command : Command) :
    (w.onCommand command).Obeys (Handling settings) (· = w.afterCommand command) := by
  unfold onCommand afterCommand
  cases command with
  | contactsChanged =>
    dsimp only
    split
    · apply w.obeys_triggerDelta.bind
      intro a ha
      subst ha
      exact obeys_publish _
    · rfl
  | runFullUpdate job =>
    dsimp only
    split
    · exact obeys_publish _
    · exact (obeys_tellAll _ _).bind fun _ _ => rfl

theorem obeys_onConfig (settings : Settings) (config : Config) :
    (w.onConfig config).Obeys (Handling settings) (· = w.afterConfig config) := by
  unfold onConfig afterConfig
  dsimp only
  cases hb : w.config.enabled <;> cases ha : config.enabled
  · exact obeys_publish _
  · refine (obeys_ensureJob _ false).bind fun _ _ => (obeys_triggerDelta _).bind ?_
    intro a ha
    subst ha
    exact obeys_publish _
  · exact (obeys_cancelJob _).bind fun _ _ => obeys_publish _
  · dsimp only
    split
    · exact (obeys_ensureJob _ false).bind fun _ _ => obeys_publish _
    · exact obeys_publish _

theorem obeys_settleDelta (outcome : CycleContext.DeltaOutcome) :
    (w.settleDelta outcome).Obeys (Handling (w.settledDelta outcome).settings)
      (· = (w.settledDelta outcome, deltaLabel outcome)) := by
  unfold settleDelta settledDelta deltaLabel
  rcases outcome.result with e | ⟨_ | _, watermarks⟩
  · rfl
  · exact (obeys_persist _).bind fun _ _ => rfl
  · rfl

theorem settings_afterDelta (outcome : CycleContext.DeltaOutcome) :
    (w.afterDelta outcome).settings = (settledDelta { w with delta := none } outcome).settings := by
  unfold afterDelta
  dsimp only
  split <;> rfl

theorem obeys_onDeltaDone (outcome : CycleContext.DeltaOutcome) :
    (w.onDeltaDone outcome).Obeys (Handling (w.afterDelta outcome).settings)
      (· = w.afterDelta outcome) := by
  rw [settings_afterDelta]
  apply (obeys_settleDelta _ outcome).bind
  intro p hp
  subst hp
  exact obeys_record.mpr (obeys_publish _)

theorem obeys_settleFull (result : JobResult) (stats : Stats) :
    (w.settleFull result stats).Obeys (Handling (w.settledFull result stats).settings)
      (· = (w.settledFull result stats, fullLabel result)) := by
  cases result with
  | succeeded => exact (obeys_persist _).bind fun _ _ => rfl
  | failed => rfl
  | cancelled => rfl

theorem obeys_onFullDone (outcome : CycleContext.FullOutcome) :
    (w.onFullDone outcome).Obeys (Handling (w.afterFull outcome).settings)
      (· = w.afterFull outcome) := by
  apply (obeys_settleFull _ _ _).bind
  intro p hp
  subst hp
  refine obeys_record.mpr ((obeys_tellAll _ _).bind fun _ _ => ?_)
  dsimp only
  split
  · exact (obeys_ensureJob _ true).bind fun _ _ => obeys_publish _
  · exact obeys_publish _

theorem obeys_finishDrain (settings : Settings) :
    w.finishDrain.Obeys (Handling settings) (· = w.finished) :=
  (obeys_tellAll _ _).bind fun _ _ => obeys_publish _

/-! ## What becomes of the fields -/

theorem begun_eq (initial : InitialCycle) : (w.begun initial).settings = w.settings ∧
    (w.begun initial).config = w.config ∧
    ((w.begun initial).delta = w.delta ∨ (w.begun initial).delta = some w.context) ∧
      ((w.begun initial).full = w.full ∨ (w.begun initial).full = some ⟨w.context, none⟩) := by
  unfold begun
  dsimp only
  split
  · cases initial
    · exact ⟨rfl, rfl, .inr rfl, .inl rfl⟩
    · exact ⟨rfl, rfl, .inl rfl, .inr rfl⟩
  · exact ⟨rfl, rfl, .inl rfl, .inl rfl⟩

theorem triggered_eq : w.triggered.settings = w.settings ∧ w.triggered.config = w.config ∧
    w.triggered.full = w.full ∧
    ((w.triggered.delta = w.delta ∧ w.delta.isSome) ∨
      (w.delta = none ∧ w.triggered.delta = some w.context)) := by
  unfold triggered
  split
  · next h => exact ⟨rfl, rfl, rfl, .inl ⟨rfl, h⟩⟩
  · next h => exact ⟨rfl, rfl, rfl, .inr ⟨Option.not_isSome_iff_eq_none.mp h, rfl⟩⟩

theorem afterCommand_eq (command : Command) :
    (w.afterCommand command).settings = w.settings ∧ (w.afterCommand command).config = w.config ∧
      ((w.afterCommand command).delta = w.delta ∨
        (w.delta = none ∧ (w.afterCommand command).delta = some w.context)) ∧
      ((w.afterCommand command).full = w.full ∨
        (w.full = none ∧ ∃ job, (w.afterCommand command).full = some ⟨w.context, job⟩)) := by
  unfold afterCommand
  cases command with
  | contactsChanged =>
    obtain ⟨hs, hc, hf, hd⟩ := w.triggered_eq
    dsimp only
    split
    · exact ⟨hs, hc, hd.imp_left (·.1), .inl hf⟩
    · exact ⟨rfl, rfl, .inl rfl, .inl rfl⟩
  | runFullUpdate job =>
    dsimp only
    split
    · split
      · exact ⟨rfl, rfl, .inl rfl, .inl rfl⟩
      · next h => exact ⟨rfl, rfl, .inl rfl, .inr ⟨Option.not_isSome_iff_eq_none.mp h, job, rfl⟩⟩
    · exact ⟨rfl, rfl, .inl rfl, .inl rfl⟩

theorem afterConfig_eq (config : Config) :
    (w.afterConfig config).settings = w.settings ∧ (w.afterConfig config).full = w.full := by
  obtain ⟨hs, _, hf, _⟩ := triggered_eq { w with config := config }
  unfold afterConfig
  dsimp only
  split
  · exact ⟨hs, hf⟩
  · exact ⟨rfl, rfl⟩

theorem settledDelta_eq (outcome : CycleContext.DeltaOutcome) :
    (w.settledDelta outcome).config = w.config ∧ (w.settledDelta outcome).delta = w.delta ∧
      (w.settledDelta outcome).full = w.full := by
  unfold settledDelta
  split <;> exact ⟨rfl, rfl, rfl⟩

theorem afterDelta_eq (outcome : CycleContext.DeltaOutcome) :
    (w.afterDelta outcome).config = w.config ∧ (w.afterDelta outcome).full = w.full ∧
      ((w.afterDelta outcome).delta = none ∨
        (w.afterDelta outcome).delta = some (w.afterDelta outcome).context) := by
  obtain ⟨hc, hd, hf⟩ := settledDelta_eq { w with delta := none } outcome
  unfold afterDelta
  dsimp only
  split
  · exact ⟨hc, hf, .inr rfl⟩
  · exact ⟨hc, hf, .inl hd⟩

theorem settings_afterFull (outcome : CycleContext.FullOutcome) : (w.afterFull outcome).settings =
    match outcome.result with
    | .ok .completed => w.settings.setLastFull outcome.stats.finishedAt
    | .ok .cancelled | .error _ => w.settings := by
  rcases outcome with ⟨e | _ | _, stats⟩ <;> rfl

theorem afterFull_eq (outcome : CycleContext.FullOutcome) :
    (w.afterFull outcome).config = w.config ∧ (w.afterFull outcome).full = none ∧
      (w.afterFull outcome).delta = w.delta ∧
      (w.afterFull outcome).settings.watermarks = w.settings.watermarks := by
  unfold afterFull settledFull
  cases JobResult.ofResult outcome.result <;> exact ⟨rfl, rfl, rfl, rfl⟩

/-! ## What becomes of the flags -/

theorem begun_flags (initial : InitialCycle) :
    (w.begun initial).draining = w.draining ∧ (w.begun initial).rerun = w.rerun := by
  unfold begun
  dsimp only
  split
  · cases initial <;> exact ⟨rfl, rfl⟩
  · exact ⟨rfl, rfl⟩

theorem begun_busy (h : w.config.enabled = true) (initial : InitialCycle) :
    (w.begun initial).full = none → (w.begun initial).delta ≠ none := by
  unfold begun
  dsimp only
  rw [if_pos h]
  cases initial
  · exact fun _ => Option.some_ne_none _
  · exact (nomatch ·)

theorem triggered_flags : w.triggered.draining = w.draining ∧
    (w.delta.isSome → w.triggered.rerun = true) ∧
    w.triggered.delta.isSome := by
  unfold triggered
  split
  · next h => exact ⟨rfl, fun _ => rfl, h⟩
  · next h => exact ⟨rfl, fun hs => absurd hs h, rfl⟩

theorem request_flags (job : Option JobId) :
    (w.afterCommand (.runFullUpdate job)).draining = w.draining ∧
    (w.afterCommand (.runFullUpdate job)).rerun = w.rerun ∧
    (w.afterCommand (.runFullUpdate job)).delta = w.delta := by
  unfold afterCommand
  dsimp only
  split
  · split <;> exact ⟨rfl, rfl, rfl⟩
  · exact ⟨rfl, rfl, rfl⟩

theorem draining_afterCommand (command : Command) : (w.afterCommand command).draining = w.draining := by
  cases command with
  | contactsChanged =>
    unfold afterCommand
    dsimp only
    split
    · exact w.triggered_flags.1
    · rfl
  | runFullUpdate job => exact (w.request_flags job).1

theorem settledDelta_flags (outcome : CycleContext.DeltaOutcome) :
    (w.settledDelta outcome).draining = w.draining ∧ (w.settledDelta outcome).rerun = w.rerun := by
  unfold settledDelta
  split <;> exact ⟨rfl, rfl⟩

theorem draining_afterDelta (outcome : CycleContext.DeltaOutcome) :
    (w.afterDelta outcome).draining = w.draining := by
  have hflags := (settledDelta_flags { w with delta := none } outcome).1
  unfold afterDelta
  dsimp only
  split <;> exact hflags

theorem delta_afterDelta (outcome : CycleContext.DeltaOutcome) : (w.afterDelta outcome).delta =
    if w.rerun && !w.draining && w.config.enabled then some (w.afterDelta outcome).context
      else none := by
  obtain ⟨hd, hr⟩ := settledDelta_flags { w with delta := none } outcome
  obtain ⟨hc, hn, _⟩ := settledDelta_eq { w with delta := none } outcome
  unfold afterDelta
  dsimp only
  rw [hd, hr, hc]
  split
  · rfl
  · exact hn

theorem afterFull_flags (outcome : CycleContext.FullOutcome) :
    (w.afterFull outcome).draining = w.draining ∧ (w.afterFull outcome).rerun = w.rerun := by
  unfold afterFull settledFull
  cases JobResult.ofResult outcome.result <;> exact ⟨rfl, rfl⟩

theorem adopted_watermarks {settings : Settings} {n : Watermarks} {time : Int}
    (hu : settings.watermarks.update ≤ n.update) (hd : settings.watermarks.delete ≤ n.delete) :
    (adopt settings n time).watermarks = n := by
  have hu' : max settings.contactUpdate n.update = n.update := Int.max_eq_right hu
  have hd' : max settings.contactDelete n.delete = n.delete := Int.max_eq_right hd
  unfold adopt Settings.watermarks Settings.advanceUpdate Settings.advanceDelete Settings.setLastDelta
  rw [hu', hd']

end ContactsIndex.Worker
