import ContactsIndex.Proofs.Instance.Session
import ContactsIndex.Proofs.Scheduler.Memory

/-!
# The pending job

Which job is pending for the user of an instance, over the scheduler in memory. Whatever is
pending when an instance begins, a full update is pending at every moment at which indexing
is enabled.
-/

namespace ContactsIndex

open Program
open JobScheduler (environment)

namespace JobScheduler

variable (jobs : JobScheduler) (user : UserId)

/-- The scheduler after a periodic job was asked for, unless the pending one may stay. -/
def ensured (interval : Nat) (replaceOneOff : Bool) : JobScheduler :=
  if Worker.keeps interval replaceOneOff (jobs.pending? user) then jobs
  else jobs.schedule user (.everyInterval interval)

theorem pending?_ensured (interval : Nat) (replaceOneOff : Bool) :
    (jobs.ensured user interval replaceOneOff).pending? user =
      if Worker.keeps interval replaceOneOff (jobs.pending? user) then jobs.pending? user
      else some (.everyInterval interval) := by
  unfold ensured
  split
  · rfl
  · exact jobs.pending?_schedule user _

end JobScheduler

/-! ## What handlers leave pending -/

namespace Worker

variable (w : Worker) (jobs : JobScheduler)

def jobsAfter : Event → JobScheduler
  | .config c =>
    match w.config.enabled, c.enabled with
    | true, false => (jobs.cancel w.user).2
    | false, true => jobs.ensured w.user c.fullInterval false
    | true, true => if w.config.fullInterval ≠ c.fullInterval then jobs.ensured w.user c.fullInterval false else jobs
    | false, false => jobs
  | .fullDone _ outcome =>
    if JobResult.ofResult outcome.result ≠ .cancelled && !w.draining && w.config.enabled
      then jobs.ensured w.user w.config.fullInterval true else jobs
  | _ => jobs

def jobsBegun : JobScheduler :=
  if w.config.enabled then jobs.ensured w.user w.config.fullInterval false else (jobs.cancel w.user).2

theorem always_publish : w.publish.Always environment (fun _ later => later = jobs) jobs :=
  fun _ hd => hd.symm

theorem always_ensureJob (replaceOneOff : Bool) : (w.ensureJob replaceOneOff).Always environment
    (fun _ later => later = jobs.ensured w.user w.config.fullInterval replaceOneOff) jobs := by
  refine always_ask.mpr ?_
  rintro _ rfl _ _ ⟨rfl, rfl⟩
  dsimp only [Except.toOption, Option.join_some]
  unfold JobScheduler.ensured
  split
  · exact fun _ hd => hd.symm
  · refine always_ask.mpr ?_
    rintro _ rfl _ _ ⟨rfl, rfl⟩
    exact fun _ hd => hd.symm

theorem always_cancelJob :
    w.cancelJob.Always environment (fun _ later => later = (jobs.cancel w.user).2) jobs := by
  refine always_ask.mpr ?_
  rintro _ rfl _ _ ⟨rfl, rfl⟩
  cases (jobs.cancel w.user).1 <;> exact fun _ hd => hd.symm

theorem always_persist : w.persist.Always environment (fun _ later => later = jobs) jobs := by
  refine always_ask.mpr ?_
  rintro _ rfl _ _ rfl
  exact fun _ hd => hd.symm

theorem always_triggerDelta : w.triggerDelta.Always environment (fun _ later => later = jobs) jobs :=
  fun _ hd => hd.symm

theorem always_tellAll (result : JobResult) :
    ∀ told, (tellAll result told).Always environment (fun _ later => later = jobs) jobs
  | [] => fun _ hd => hd.symm
  | _ :: told => always_tellAll result told

theorem always_begin (initial : InitialCycle) :
    (w.begin initial).Always environment (fun _ later => later = w.jobsBegun jobs) jobs := by
  unfold «begin» jobsBegun
  dsimp only
  split
  · refine (always_ensureJob _ _ false).bind ?_
    rintro _ _ rfl
    cases initial <;> exact always_publish _ _
  · refine (always_cancelJob _ _).bind ?_
    rintro _ _ rfl
    exact always_publish _ _

theorem always_onCommand (c : Command) :
    (w.onCommand c).Always environment (fun _ later => later = jobs) jobs := by
  cases c with
  | contactsChanged =>
    dsimp only [onCommand]
    split
    · refine (always_triggerDelta _ _).bind ?_
      rintro _ _ rfl
      exact always_publish _ _
    · exact fun _ hd => hd.symm
  | runFullUpdate job =>
    dsimp only [onCommand]
    split
    · exact always_publish _ _
    · refine (always_tellAll jobs _ _).bind ?_
      rintro _ _ rfl
      exact fun _ hd => hd.symm

theorem always_onConfig (c : Config) :
    (w.onConfig c).Always environment (fun _ later => later = w.jobsAfter jobs (.config c)) jobs := by
  unfold onConfig jobsAfter
  dsimp only
  cases w.config.enabled <;> cases c.enabled
  · exact always_publish _ _
  · refine (always_ensureJob _ _ false).bind ?_
    rintro _ _ rfl
    refine (always_triggerDelta _ _).bind ?_
    rintro _ _ rfl
    exact always_publish _ _
  · refine (always_cancelJob _ _).bind ?_
    rintro _ _ rfl
    exact always_publish _ _
  · dsimp only
    split
    · refine (always_ensureJob _ _ false).bind ?_
      rintro _ _ rfl
      exact always_publish _ _
    · exact always_publish _ _

theorem always_settleDelta (outcome : CycleContext.DeltaOutcome) :
    (w.settleDelta outcome).Always environment (fun _ later => later = jobs) jobs := by
  unfold settleDelta
  rcases outcome.result with e | ⟨_ | _, watermarks⟩
  · exact fun _ hd => hd.symm
  · refine (always_persist _ _).bind ?_
    rintro _ _ rfl
    exact fun _ hd => hd.symm
  · exact fun _ hd => hd.symm

theorem always_onDeltaDone (outcome : CycleContext.DeltaOutcome) :
    (w.onDeltaDone outcome).Always environment (fun _ later => later = jobs) jobs := by
  refine (always_settleDelta _ _ outcome).bind ?_
  rintro _ _ rfl
  exact always_record.mpr (always_publish _ _)

theorem always_settleFull (result : JobResult) (stats : Stats) :
    (w.settleFull result stats).Always environment
      (fun p later => (p.1.user = w.user ∧ p.1.config = w.config ∧ p.1.draining = w.draining) ∧ later = jobs)
      jobs := by
  cases result with
  | succeeded =>
    refine (always_persist _ _).bind ?_
    rintro _ _ rfl _ rfl
    exact ⟨⟨rfl, rfl, rfl⟩, rfl⟩
  | failed => exact fun _ hd => ⟨⟨rfl, rfl, rfl⟩, hd.symm⟩
  | cancelled => exact fun _ hd => ⟨⟨rfl, rfl, rfl⟩, hd.symm⟩

theorem always_onFullDone (run : FullRun) (outcome : CycleContext.FullOutcome) :
    (w.onFullDone outcome).Always environment
      (fun _ later => later = w.jobsAfter jobs (.fullDone run outcome)) jobs := by
  refine (always_settleFull _ jobs _ _).bind ?_
  rintro ⟨after, label⟩ _ ⟨⟨hu, hc, hd⟩, rfl⟩
  refine always_record.mpr ((always_tellAll _ _ _).bind ?_)
  rintro _ _ rfl
  dsimp only at hu hc hd ⊢
  rw [hc, hd, jobsAfter]
  split
  · rw [← hu]
    refine (always_ensureJob _ _ true).bind ?_
    rintro _ _ rfl
    exact always_publish _ _
  · exact always_publish _ _

theorem always_finishDrain : w.finishDrain.Always environment (fun _ later => later = jobs) jobs := by
  refine (always_tellAll jobs _ _).bind ?_
  rintro _ _ rfl
  exact always_publish _ _

theorem always_handle (event : Event) :
    (w.handle event).Always environment (fun _ later => later = w.jobsAfter jobs event) jobs := by
  cases event with
  | command c => exact w.always_onCommand jobs c
  | config c => exact w.always_onConfig jobs c
  | deltaDone _ outcome _ => exact w.always_onDeltaDone jobs outcome
  | fullDone run outcome => exact w.always_onFullDone jobs run outcome
  | shutdown => exact fun _ hd => hd.symm
  | finish => exact w.always_finishDrain jobs

/-! ### Enough is pending -/

theorem keeps_false {interval : Nat} {replaceOneOff : Bool} {pending : Option Job}
    (h : keeps interval replaceOneOff pending = true) : keeps interval false pending = true := by
  cases pending with
  | none => cases h
  | some job =>
    simp only [keeps, Bool.or_eq_true, Bool.and_eq_true] at h ⊢
    exact h.imp_right fun hone => ⟨hone.1, rfl⟩

theorem keeps_iff {interval : Nat} {pending : Option Job} : keeps interval false pending = true ↔
    ∃ job, pending = some job ∧ (job.isPeriodicWith interval = true ∨ job.periodic = false) := by
  cases pending <;> simp [keeps]

theorem keeps_ensured (user : UserId) (interval : Nat) (replaceOneOff : Bool) :
    keeps interval false ((jobs.ensured user interval replaceOneOff).pending? user) = true := by
  rw [JobScheduler.pending?_ensured]
  split
  · next h => exact keeps_false h
  · simp [keeps, Job.isPeriodicWith_everyInterval]

theorem ensured_of_periodic {user : UserId} {interval : Nat} {job : Job} (h : jobs.pending? user = some job)
    (hp : job.isPeriodicWith interval = true) (replaceOneOff : Bool) :
    jobs.ensured user interval replaceOneOff = jobs := by
  rw [JobScheduler.ensured, h, if_pos (by simp [keeps, hp])]

theorem keeps_jobsAfter {event : Event}
    (h : w.config.enabled = true → keeps w.config.fullInterval false (jobs.pending? w.user) = true)
    (hen : (w.after event).config.enabled = true) :
    keeps (w.after event).config.fullInterval false ((w.jobsAfter jobs event).pending? w.user) = true := by
  rw [config_after] at hen ⊢
  cases event with
  | config c =>
    simp only [jobsAfter]
    cases hw : w.config.enabled with
    | false =>
      rw [show c.enabled = true from hen]
      exact keeps_ensured ..
    | true =>
      rw [show c.enabled = true from hen]
      dsimp only
      split
      · exact keeps_ensured ..
      · next hsame => exact (Decidable.not_not.mp hsame) ▸ h hw
  | fullDone run outcome =>
    simp only [jobsAfter]
    split
    · exact keeps_ensured ..
    · exact h hen
  | command c => exact h hen
  | deltaDone _ outcome _ => exact h hen
  | shutdown => exact h hen
  | finish => exact h hen

theorem history_jobsAfter {event : Event} {job : Job} (h : jobs.pending? w.user = some job)
    (hp : job.isPeriodicWith (w.after event).config.fullInterval = true) :
    (w.jobsAfter jobs event).history = jobs.history := by
  rw [config_after] at hp
  cases event with
  | config c =>
    simp only [jobsAfter]
    split
    · exact jobs.history_cancel w.user
    · rw [ensured_of_periodic jobs h hp]
    · rw [ensured_of_periodic jobs h hp, ite_self]
    · rfl
  | fullDone run outcome =>
    simp only [jobsAfter]
    rw [ensured_of_periodic jobs h hp, ite_self]
  | _ => rfl

theorem keeps_jobsBegun (hen : w.config.enabled = true) :
    keeps w.config.fullInterval false ((w.jobsBegun jobs).pending? w.user) = true := by
  rw [jobsBegun, if_pos hen]
  exact keeps_ensured ..

theorem history_jobsBegun {job : Job} (h : jobs.pending? w.user = some job)
    (hp : job.isPeriodicWith w.config.fullInterval = true) : (w.jobsBegun jobs).history = jobs.history := by
  unfold jobsBegun
  split
  · rw [ensured_of_periodic jobs h hp]
  · exact jobs.history_cancel w.user

end Worker

/-! ## Along a run -/

namespace Session

/-- The next step of the delta update schedules a full update that runs once. -/
def Turn.Escalates (turn : Turn JobScheduler) : Prop :=
  turn.act = .delta ∧ turn.after.world = turn.before.world.schedule turn.before.worker.user .oneOff

variable {s s' : Session JobScheduler} {event : Worker.Event} {act : Act} {user : UserId} {jobs : JobScheduler}

theorem Step.world_of_handle (h : Step environment s (.handle event) s') :
    s'.world = s.worker.jobsAfter s.world event :=
  (s.worker.always_handle s.world event).ends h.handled.runs.ends

theorem Begins.world_eq (h : Begins environment user jobs s) : s.world = s.worker.jobsBegun jobs := by
  obtain ⟨settings, config, initial, world, hf, rfl⟩ := h.eq
  have hworld := ((Worker.new user settings config).always_begin jobs initial).ends hf.ends
  have hconfig := ((Worker.new user settings config).begun_eq initial).2.1
  have huser := ((Worker.new user settings config).begun_frame initial).1
  rwa [install_world, install_worker, Worker.jobsBegun, hconfig, huser]

/-- The scheduler after the next step, unless a delta update schedules something. -/
def jobsAfter (s : Session JobScheduler) : Act → JobScheduler
  | .handle event => s.worker.jobsAfter s.world event
  | _ => s.world

theorem Step.world_eq (hs : s.Sound) (h : Step environment s act s') :
    Turn.Escalates ⟨s, act, s'⟩ ∨ s'.world = s.jobsAfter act := by
  cases act with
  | handle event => exact .inr h.world_of_handle
  | send message =>
    cases h
    unfold receive
    split <;> exact .inr rfl
  | delta =>
    cases h with
    | delta hp hstep => exact ((hs.delta _ hp).1.jobs_eq hstep).symm.imp_left fun h => ⟨rfl, h⟩
  | full =>
    cases h with
    | full hp hstep => exact .inr ((hs.full _ hp).1.keeps_jobs hstep)

theorem Lives.keeps (h : Lives environment user s) (hen : s.worker.config.enabled = true) :
    Worker.keeps s.worker.config.fullInterval false (s.world.pending? s.worker.user) = true := by
  induction h with
  | «begin» h => exact h.world_eq ▸ Worker.keeps_jobsBegun _ _ hen
  | restart _ h _ => exact h.world_eq ▸ Worker.keeps_jobsBegun _ _ hen
  | @step s act s' hl hstep ih =>
    rcases hstep.world_eq hl.sound.1 with ⟨_, hworld⟩ | hworld
    · rw [hworld, hstep.user, JobScheduler.pending?_schedule]
      simp [Worker.keeps, Job.oneOff]
    · rw [hworld, hstep.user]
      rw [hstep.worker] at hen ⊢
      cases act with
      | handle event => exact s.worker.keeps_jobsAfter s.world ih hen
      | _ => exact ih hen

end Session

/-! ### Runs that there are -/

namespace Session

def opening (user : UserId) (settings : Settings) (config : Config) (initial : InitialCycle) (jobs : JobScheduler) :
    Session JobScheduler :=
  let w := Worker.new user settings config
  install ⟨w, none, none, [], [], jobs⟩ [] (w.begun initial) (w.jobsBegun jobs)

theorem begins_opening (user : UserId) (settings : Settings) (config : Config) (initial : InitialCycle)
    (jobs : JobScheduler) : Begins environment user jobs (opening user settings config initial jobs) := by
  let w := Worker.new user settings config
  obtain ⟨told, after, later, hf⟩ := exists_finishes JobScheduler.responsive_environment (w.begin initial) jobs
  obtain rfl := (w.tells_begin initial).eq hf
  obtain rfl := (w.obeys_begin settings initial).value hf.ends
  obtain rfl := (w.always_begin jobs initial).ends hf.ends
  exact .intro ⟨_, _, _, hf, rfl⟩

theorem handles (s : Session JobScheduler) (w : Worker) (event : Worker.Event) :
    s.Handles environment (w.handle event) (s.install (w.replies event) (w.after event) (w.jobsAfter s.world event)) := by
  obtain ⟨told, after, later, hf⟩ := exists_finishes JobScheduler.responsive_environment (w.handle event) s.world
  obtain rfl := (w.tells_handle event).eq hf
  obtain rfl := (w.obeys_handle event).value hf.ends
  obtain rfl := (w.always_handle s.world event).ends hf.ends
  exact ⟨_, _, _, hf, rfl⟩

def takeUp (s : Session JobScheduler) (message : Bench.Message) : Session JobScheduler :=
  install { s with inbox := [] } (s.worker.replies message.event) (s.worker.after message.event)
    (s.worker.jobsAfter s.world message.event)

theorem Path.takeUp {turns : List (Turn JobScheduler)} (h : Path environment s turns s')
    (hd : s'.worker.draining = false) (hl : s'.worker.lifecycle ≠ .shutDown) (hin : s'.inbox = [])
    (message : Bench.Message) : ∃ more, Path environment s (more ++ turns) (s'.takeUp message) := by
  have hsent : Step environment s' (.send message) { s' with inbox := [message] } := by
    have hstep : Step environment s' (.send message) (s'.receive message) := .send
    rwa [receive, if_neg hl, hin, queue_nil] at hstep
  exact ⟨[_, _], (h.step hsent).step (.takeFirst hd rfl (handles ..))⟩

end Session

/-- At every moment at which indexing is enabled a full update is pending, a periodic one with
the interval of the configuration or one that runs once; and a handler that finds that periodic
one pending schedules nothing, be it the first one of an instance or a later one. -/
theorem full_update_pending {user : UserId} {s : Session JobScheduler} (h : s.Lives environment user) :
    (s.worker.config.enabled = true → ∃ job, s.world.pending? user = some job ∧
      (job.isPeriodicWith s.worker.config.fullInterval = true ∨ job.periodic = false)) ∧
    (∀ event s' job, s.Step environment (.handle event) s' → s.world.pending? user = some job →
      job.isPeriodicWith s'.worker.config.fullInterval = true → s'.world.history = s.world.history) ∧
    ∀ s' job, Session.Begins environment user s.world s' → s.world.pending? user = some job →
      job.isPeriodicWith s'.worker.config.fullInterval = true → s'.world.history = s.world.history := by
  obtain ⟨hsound, rfl⟩ := h.sound
  refine ⟨fun hen => Worker.keeps_iff.mp (h.keeps hen), ?_, ?_⟩
  · intro event s' job hstep hpending hperiodic
    rw [hstep.worker] at hperiodic
    rw [hstep.world_of_handle]
    exact s.worker.history_jobsAfter s.world hpending hperiodic
  · intro s' job hbegins hpending hperiodic
    rw [← (Session.Sound.begins hbegins).2] at hpending
    rw [hbegins.world_eq]
    exact s'.worker.history_jobsBegun s.world hpending hperiodic

/-- An instance whose interval was changed goes away, and the next one finds its job pending. -/
theorem full_update_pending_restarted : ∃ s s' : Session JobScheduler,
    s.Lives environment 1 ∧ Session.Begins environment 1 s.world s' ∧ s'.worker.config.fullInterval = 5 ∧
      s'.world.pending? 1 = some (.everyInterval 5) ∧ s.world.history.length = 2 ∧ s'.world.history.length = 2 := by
  let config : Config := { Config.cautious with fullInterval := 5 }
  let jobs := (JobScheduler.empty.ensured 1 Config.cautious.fullInterval false).ensured 1 5 false
  let s := Session.opening 1 .zero .cautious .delta .empty
  have hbegun : s.Lives environment 1 := .begin (Session.begins_opening ..)
  obtain ⟨_, htaken⟩ := (Session.Path.nil : s.Path environment [] s).takeUp rfl nofun rfl (.config config)
  have hlength : jobs.history.length = 2 := by decide +kernel
  have hpending : jobs.pending? 1 = some (.everyInterval 5) := by decide +kernel
  have hbegins := Session.begins_opening 1 .zero config .delta jobs
  have hchanged := hbegun.path htaken
  have hsame := (full_update_pending hchanged).2.2 _ _ hbegins hpending rfl
  refine ⟨_, _, hchanged, hbegins, rfl, ?_, hlength, (congrArg List.length hsame).trans hlength⟩
  decide +kernel

end ContactsIndex
