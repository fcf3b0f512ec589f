import ContactsIndex.Proofs.Instance.Jobs

/-!
# What becomes of the job of a delta update

A delta update that had to leave out contacts schedules a full update that runs once. It
does so whenever it ends, and so also after indexing was disabled meanwhile: then this job
stays pending (`pending_while_disabled`). And it has no say in what a full update does that
was in flight already: when that one ends its handler puts the periodic job in the place of
the one that is to make up for it (`catchUp_replaced_iff`).
-/

namespace ContactsIndex

open Program
open JobScheduler (environment)

/-! ## While indexing is disabled -/

namespace Worker

variable {w : Worker} {event : Event} (jobs : JobScheduler)

theorem jobsAfter_disabled (hw : w.config.enabled = false) (ha : (w.after event).config.enabled = false) :
    w.jobsAfter jobs event = jobs := by
  rw [config_after] at ha
  cases event with
  | config c => simp only [jobsAfter, hw, show c.enabled = false from ha]
  | fullDone run outcome => simp [jobsAfter, hw]
  | _ => rfl

theorem pending_jobsAfter_disabling (hw : w.config.enabled = true) (ha : (w.after event).config.enabled = false) :
    (w.jobsAfter jobs event).pending? w.user = none := by
  rw [config_after] at ha
  cases event with
  | config c =>
    simp only [jobsAfter, hw, show c.enabled = false from ha]
    exact jobs.pending?_cancel w.user
  | _ => cases hw.symm.trans ha

end Worker

namespace Session

variable {s s₀ t : Session JobScheduler} {turns : List (Turn JobScheduler)} {user : UserId} {jobs : JobScheduler}

def sinceDisabled (turns : List (Turn JobScheduler)) : List (Turn JobScheduler) :=
  turns.takeWhile (!·.before.worker.config.enabled)

theorem sinceDisabled_cons {turn : Turn JobScheduler} : sinceDisabled (turn :: turns) =
    if turn.before.worker.config.enabled then [] else turn :: sinceDisabled turns := by
  unfold sinceDisabled
  rw [List.takeWhile_cons]
  cases turn.before.worker.config.enabled <;> rfl

theorem Step.delta_enabled (hs : s.Sound) (h : Step environment s .delta t) :
    ∃ context, s.worker.delta = some context ∧ context.config.enabled = true := by
  cases h with
  | delta hp _ =>
    obtain ⟨context, hc⟩ := hs.exists_context hp
    exact ⟨context, hc, (hs.following context hc).2⟩

/-- While indexing is disabled nothing is pending but what delta updates have scheduled since. -/
theorem Path.pending_of_disabled (hb : Begins environment user jobs s₀) (h : Path environment s₀ turns s)
    (hd : s.worker.config.enabled = false) :
    ((∃ turn ∈ sinceDisabled turns, turn.Escalates) ∧ s.world.pending? user = some .oneOff) ∨
      (¬(∃ turn ∈ sinceDisabled turns, turn.Escalates) ∧ s.world.pending? user = none) := by
  obtain ⟨hsound, huser⟩ := Sound.begins hb
  induction h with
  | nil =>
    refine .inr ⟨by simp [sinceDisabled], ?_⟩
    rw [hb.world_eq, Worker.jobsBegun, hd, ← huser]
    exact JobScheduler.pending?_cancel ..
  | @step _ before act after hpath hstep ih =>
    have hbefore := hpath.user.trans huser
    rw [sinceDisabled_cons]
    cases hen : before.worker.config.enabled with
    | true =>
      refine .inr ⟨by simp, ?_⟩
      rw [hstep.worker] at hd
      cases act with
      | handle event =>
        rw [hstep.world_of_handle, ← hbefore]
        exact Worker.pending_jobsAfter_disabling _ hen hd
      | _ => cases hen.symm.trans hd
    | false =>
      simp only [Bool.false_eq_true, if_false, List.mem_cons, exists_eq_or_imp]
      -- while indexing stays disabled only a delta update in flight schedules anything
      by_cases he : Turn.Escalates ⟨before, act, after⟩
      · refine .inl ⟨.inl he, ?_⟩
        rw [show after.world = _ from he.2, ← hbefore]
        exact JobScheduler.pending?_schedule ..
      · have hworld : after.world = before.world := by
          rw [((hstep.world_eq (hpath.sound hsound)).resolve_left he)]
          rw [hstep.worker] at hd
          cases act with
          | handle event => exact Worker.jobsAfter_disabled _ hen hd
          | _ => rfl
        simpa only [he, false_or, hworld] using ih hen

end Session

/-- While indexing is disabled the pending job of the user is there exactly if a delta update has
scheduled it since, one that was begun while indexing was still enabled. -/
theorem pending_while_disabled {user : UserId} {jobs : JobScheduler} {s₀ s : Session JobScheduler}
    {turns : List (Session.Turn JobScheduler)} (hb : Session.Begins environment user jobs s₀)
    (h : s₀.Path environment turns s) (hd : s.worker.config.enabled = false) :
    (s.world.pending? user = none ∨ s.world.pending? user = some .oneOff) ∧
    (s.world.pending? user ≠ none ↔ ∃ turn ∈ Session.sinceDisabled turns, turn.Escalates) ∧
    ∀ turn ∈ turns, turn.Escalates →
      ∃ context, turn.before.worker.delta = some context ∧ context.config.enabled = true := by
  refine ⟨?_, ?_, fun turn hturn he => ?_⟩
  · exact (h.pending_of_disabled hb hd).symm.imp (·.2) (·.2)
  · rcases h.pending_of_disabled hb hd with ⟨he, hp⟩ | ⟨he, hp⟩ <;> simp [he, hp]
  · obtain ⟨⟨earlier, hbefore⟩, hstep⟩ := h.step_of_mem hturn
    rw [he.1] at hstep
    exact hstep.delta_enabled (hbefore.sound (Session.Sound.begins hb).1)

/-- The configuration is taken up before the first delta update is over. -/
theorem pending_after_disabling : ∃ turns, ∃ s₀ s : Session JobScheduler,
    Session.Begins environment 1 .empty s₀ ∧ s₀.Path environment turns s ∧ s.worker.config.enabled = false ∧
      s.worker.delta = none ∧ s.worker.full = none ∧ s.world.pending? 1 ≠ none ∧
      ∃ turn ∈ Session.sinceDisabled turns, turn.Escalates := by
  let config : Config := { Config.cautious with firstRunLimit := some 1 }
  let disabled : Config := { config with enabled := false }
  let context : CycleContext := ⟨1, config, .zero⟩
  let s₀ := Session.opening 1 .zero config .delta .empty
  let s₁ := s₀.takeUp (.config disabled)
  let outcome := (context.deltaUpdate.run (JobScheduler.alongside .stocked) s₁.world).1
  have hbegins : Session.Begins environment 1 .empty s₀ := Session.begins_opening ..
  obtain ⟨turns, htaken⟩ := (Session.Path.nil : s₀.Path environment [] s₀).takeUp rfl nofun rfl (.config disabled)
  obtain ⟨more, hcycle, _⟩ := Session.Path.delta (rfl : s₁.delta = some context.deltaUpdate)
    (context.tells_deltaUpdate.finishes (ends_run (JobScheduler.alongside_within .stocked) _ s₁.world))
  have hdone := (htaken.append hcycle).step (.deltaDone rfl rfl (Session.handles _ _ (.deltaDone context outcome [])))
  have hpending := pending_while_disabled hbegins hdone (congrArg Config.enabled (Worker.config_after ..))
  refine ⟨_, _, _, hbegins, hdone, ?_, ?_, ?_, ?_, hpending.2.1.mp ?_⟩ <;> decide +kernel

/-! ## While indexing stays enabled -/

theorem JobResult.ofResult_eq_cancelled {result : Except UpdateError Completion} :
    ofResult result = .cancelled ↔ result = .ok .cancelled := by
  rcases result with e | _ | _ <;> simp [ofResult]

namespace JobScheduler

variable (jobs : JobScheduler) {user : UserId} (interval : Nat)

theorem ensured_of_oneOff (h : jobs.pending? user = some .oneOff) : jobs.ensured user interval false = jobs := by
  rw [ensured, h, if_pos (by rfl)]

theorem pending_replaced (h : jobs.pending? user = some .oneOff) :
    (jobs.ensured user interval true).pending? user = some (.everyInterval interval) := by
  rw [pending?_ensured, h, if_neg (by simp [Worker.keeps, Job.oneOff, Job.isPeriodicWith])]

theorem pending_renewed {other : Nat} (replaceOneOff : Bool)
    (h : jobs.pending? user = some (.everyInterval other)) :
    (jobs.ensured user interval replaceOneOff).pending? user = some (.everyInterval interval) := by
  rw [pending?_ensured, h]
  by_cases hsame : other = interval
  · simp [hsame]
  · rw [if_neg (by simp [Worker.keeps, Job.everyInterval, Job.isPeriodicWith, hsame])]

end JobScheduler

namespace Worker

variable {w : Worker} {event : Event} (jobs : JobScheduler)

/-- The worker puts the periodic job in the place of one that runs once. -/
def Event.Replaces (w : Worker) (event : Event) : Prop :=
  ∃ run outcome, event = .fullDone run outcome ∧ outcome.result ≠ .ok .cancelled ∧ w.draining = false

theorem jobsAfter_keeps_oneOff (hw : w.config.enabled = true) (ha : (w.after event).config.enabled = true)
    (he : ¬event.Replaces w) (h : jobs.pending? w.user = some .oneOff) : w.jobsAfter jobs event = jobs := by
  rw [config_after] at ha
  cases event with
  | config c =>
    simp only [jobsAfter, hw, show c.enabled = true from ha, jobs.ensured_of_oneOff _ h, ite_self]
  | fullDone run outcome =>
    simp only [jobsAfter]
    rw [if_neg]
    intro hdue
    simp only [Bool.and_eq_true, decide_eq_true_eq, Bool.not_eq_true'] at hdue
    exact he ⟨run, outcome, rfl, mt JobResult.ofResult_eq_cancelled.mpr hdue.1.1, hdue.1.2⟩
  | _ => rfl

theorem pending_of_replaces (hw : w.config.enabled = true) (he : event.Replaces w)
    (h : jobs.pending? w.user = some .oneOff) :
    (w.jobsAfter jobs event).pending? w.user = some (.everyInterval w.config.fullInterval) := by
  obtain ⟨run, outcome, rfl, hresult, hd⟩ := he
  simp only [jobsAfter]
  rw [if_pos (by simp [JobResult.ofResult_eq_cancelled, hresult, hd, hw])]
  exact jobs.pending_replaced _ h

theorem pending_jobsAfter_periodic (hw : w.config.enabled = true) (ha : (w.after event).config.enabled = true)
    (h : jobs.pending? w.user = some (.everyInterval w.config.fullInterval)) :
    (w.jobsAfter jobs event).pending? w.user = some (.everyInterval (w.after event).config.fullInterval) := by
  rw [config_after] at ha ⊢
  cases event with
  | config c =>
    simp only [jobsAfter, hw, show c.enabled = true from ha]
    split
    · exact jobs.pending_renewed _ false h
    · next hsame => exact h.trans (by rw [Decidable.not_not.mp hsame])
  | fullDone run outcome =>
    simp only [jobsAfter]
    split
    · exact jobs.pending_renewed _ true h
    · exact h
  | _ => exact h

end Worker

namespace Session

namespace Turn

variable {σ : Type}

def Settles (turn : Turn σ) : Prop :=
  ∃ run outcome, turn.act = .handle (.fullDone run outcome) ∧ outcome.result ≠ .ok .cancelled

def Replaces (turn : Turn σ) : Prop :=
  ∃ event, turn.act = .handle event ∧ event.Replaces turn.before.worker

theorem Replaces.settles {turn : Turn σ} (h : turn.Replaces) : turn.Settles := by
  obtain ⟨_, hact, run, outcome, rfl, hresult, -⟩ := h
  exact ⟨run, outcome, hact, hresult⟩

end Turn

/-- The periodic job was put in the place of the last job that a delta update has scheduled. -/
def Overtaken (turns : List (Turn JobScheduler)) : Prop :=
  ∃ later turn earlier, turns = later ++ turn :: earlier ∧ turn.Replaces ∧ ∀ other ∈ later, ¬other.Escalates

variable {s s₀ t : Session JobScheduler} {turns : List (Turn JobScheduler)} {turn : Turn JobScheduler}

theorem not_overtaken_nil : ¬Overtaken [] := by
  rintro ⟨later, turn, earlier, h, -⟩
  simp at h

theorem overtaken_cons : Overtaken (turn :: turns) ↔ turn.Replaces ∨ (¬turn.Escalates ∧ Overtaken turns) := by
  constructor
  · rintro ⟨later, other, earlier, h, hr, hlater⟩
    cases later with
    | nil =>
      obtain ⟨rfl, -⟩ := List.cons.inj h
      exact .inl hr
    | cons _ later =>
      obtain ⟨rfl, rfl⟩ := List.cons.inj h
      rw [List.forall_mem_cons] at hlater
      exact .inr ⟨hlater.1, later, other, earlier, rfl, hr, hlater.2⟩
  · rintro (hr | ⟨he, later, other, earlier, rfl, hr, hlater⟩)
    · exact ⟨[], turn, turns, rfl, hr, fun _ h => nomatch h⟩
    · exact ⟨turn :: later, other, earlier, rfl, hr, List.forall_mem_cons.mpr ⟨he, hlater⟩⟩

theorem Step.pending_of_handle {event : Worker.Event} {replaced : Prop} (h : Step environment s (.handle event) t)
    (hs : s.worker.config.enabled = true) (ht : t.worker.config.enabled = true)
    (hp : (replaced ∧ s.world.pending? s.worker.user = some (.everyInterval s.worker.config.fullInterval)) ∨
      (¬replaced ∧ s.world.pending? s.worker.user = some .oneOff)) :
    ((event.Replaces s.worker ∨ replaced) ∧
        t.world.pending? s.worker.user = some (.everyInterval t.worker.config.fullInterval)) ∨
      (¬(event.Replaces s.worker ∨ replaced) ∧ t.world.pending? s.worker.user = some .oneOff) := by
  rw [h.world_of_handle]
  rw [h.worker] at ht ⊢
  rcases hp with ⟨hreplaced, hp⟩ | ⟨hreplaced, hp⟩
  · exact .inl ⟨.inr hreplaced, s.worker.pending_jobsAfter_periodic s.world hs ht hp⟩
  · by_cases he : event.Replaces s.worker
    · refine .inl ⟨.inl he, (Worker.pending_of_replaces s.world hs he hp).trans ?_⟩
      obtain ⟨run, outcome, rfl, -⟩ := he
      have hconfig := s.worker.config_after (.fullDone run outcome)
      exact congrArg (fun c : Config => some (Job.everyInterval c.fullInterval)) hconfig.symm
    · rw [Worker.jobsAfter_keeps_oneOff s.world hs ht he hp]
      exact .inr ⟨not_or.mpr ⟨he, hreplaced⟩, hp⟩

theorem Path.pending_of_oneOff (hs : s.Sound) (hp : s.world.pending? s.worker.user = some .oneOff)
    (h : Path environment s turns t) (hen : ∀ turn ∈ turns, turn.before.worker.config.enabled = true)
    (hlast : t.worker.config.enabled = true) :
    (Overtaken turns ∧ t.world.pending? t.worker.user = some (.everyInterval t.worker.config.fullInterval)) ∨
      (¬Overtaken turns ∧ t.world.pending? t.worker.user = some .oneOff) := by
  induction h with
  | nil => exact .inr ⟨not_overtaken_nil, hp⟩
  | @step _ before act after hpath hstep ih =>
    obtain ⟨hbefore, hearlier⟩ := List.forall_mem_cons.mp hen
    have hih := ih hearlier hbefore
    rw [overtaken_cons, hstep.user]
    by_cases he : Turn.Escalates ⟨before, act, after⟩
    · -- a job that is scheduled once more makes up for what has happened to the last one
      refine .inr ⟨?_, ?_⟩
      · rintro (⟨_, hact, -⟩ | ⟨hne, -⟩)
        · cases he.1.symm.trans hact
        · exact hne he
      · rw [show after.world = _ from he.2]
        exact JobScheduler.pending?_schedule ..
    · simp only [he, not_false_eq_true, true_and]
      cases act with
      | handle event =>
        have hreplaces : Turn.Replaces ⟨before, .handle event, after⟩ ↔ event.Replaces before.worker :=
          ⟨fun ⟨_, hact, hr⟩ => Act.handle.inj hact ▸ hr, fun hr => ⟨event, rfl, hr⟩⟩
        rw [hreplaces]
        exact hstep.pending_of_handle hbefore hlast hih
      | _ =>
        rw [(hstep.world_eq (hpath.sound hs)).resolve_left he, hstep.worker]
        simpa only [jobsAfter, workerAfter, Turn.Replaces, reduceCtorEq, false_and, exists_false, false_or] using hih

end Session

/-- A delta update has scheduled a full update while indexing is enabled, indexing stays enabled, and
no full update that was begun since then has ended but by its cancellation. Then the job is pending
still, unless a full update that was in flight already has ended after the last such scheduling, has
not been cancelled and was not awaited by a worker that shuts down: its handler has put the periodic
job in the place of the one that runs once. -/
theorem catchUp_replaced_iff {user : UserId} {s₀ s₁ s : Session JobScheduler}
    {turns : List (Session.Turn JobScheduler)} (h₀ : s₀.Lives environment user)
    (he : s₀.Step environment .delta s₁) (hescalates : s₁.world = s₀.world.schedule user .oneOff)
    (h : s₁.Path environment turns s) (hen : ∀ turn ∈ turns, turn.before.worker.config.enabled = true)
    (hlast : s.worker.config.enabled = true)
    (hnone : ∀ later turn earlier, turns = later ++ turn :: earlier → turn.Settles →
      s₁.worker.full.isSome ∧ ∀ other ∈ earlier, other.act.endsFull = false) :
    (s.world.pending? user = some .oneOff ∨
      s.world.pending? user = some (.everyInterval s.worker.config.fullInterval)) ∧
    (s.world.pending? user ≠ some .oneOff ↔ ∃ later turn earlier run outcome,
      turns = later ++ turn :: earlier ∧ s₁.worker.full = some run ∧
      turn.act = .handle (.fullDone run outcome) ∧ outcome.result ≠ .ok .cancelled ∧
      turn.before.worker.draining = false ∧ ∀ other ∈ later, ¬other.Escalates) := by
  obtain ⟨hsound₀, rfl⟩ := h₀.sound
  have hsound := hsound₀.step he
  have huser := h.user.trans he.user
  have hp : s₁.world.pending? s₁.worker.user = some .oneOff := by
    rw [hescalates, he.user]
    exact JobScheduler.pending?_schedule ..
  have hcases := h.pending_of_oneOff hsound hp hen hlast
  rw [huser] at hcases
  refine ⟨hcases.symm.imp (·.2) (·.2), ?_⟩
  have hiff : s.world.pending? s₀.worker.user ≠ some .oneOff ↔ Session.Overtaken turns := by
    rcases hcases with ⟨ho, hp⟩ | ⟨ho, hp⟩ <;> simp [ho, hp, Job.everyInterval, Job.oneOff]
  rw [hiff]
  constructor
  · rintro ⟨later, turn, earlier, rfl, hr, hlater⟩
    obtain ⟨hsome, hends⟩ := hnone later turn earlier rfl hr.settles
    obtain ⟨run, hrun⟩ := Option.isSome_iff_exists.mp hsome
    obtain ⟨hbefore, hstep, -⟩ := h.split
    -- the full update that ends is the one that was in flight
    have hfull := hbefore.full_stays hrun hends
    obtain ⟨event, hact, run', outcome, rfl, hresult, hd⟩ := hr
    rw [hact] at hstep
    obtain rfl := Option.some.inj (hstep.of_fullDone.2.symm.trans hfull)
    exact ⟨later, turn, earlier, run', outcome, rfl, hrun, hact, hresult, hd, hlater⟩
  · rintro ⟨later, turn, earlier, run, outcome, rfl, -, hact, hresult, hd, hlater⟩
    exact ⟨later, turn, earlier, rfl, ⟨_, hact, run, outcome, rfl, hresult, hd⟩, hlater⟩

theorem Session.Path.exists_escalates {s t : Session JobScheduler} {turns : List (Session.Turn JobScheduler)}
    (hs : s.Sound) (h : s.Path environment turns t) (hact : ∀ turn ∈ turns, turn.act = .delta)
    (hne : t.world ≠ s.world) : ∃ turn ∈ turns, turn.Escalates := by
  induction h with
  | nil => exact absurd rfl hne
  | @step _ before act after hpath hstep ih =>
    obtain ⟨rfl, hearlier⟩ := List.forall_mem_cons.mp hact
    rcases hstep.world_eq (hpath.sound hs) with he | hworld
    · exact ⟨_, List.mem_cons_self .., he⟩
    · obtain ⟨turn, hturn, he⟩ := ih hearlier fun h => hne (hworld.trans h)
      exact ⟨turn, List.mem_cons_of_mem _ hturn, he⟩

theorem Session.Turn.Settles.earlier_eq {σ : Type} {last turn : Session.Turn σ}
    {turns later earlier : List (Session.Turn σ)} (h : turn.Settles)
    (hcycles : ∀ other ∈ turns, ∀ event, other.act ≠ .handle event) (hsplit : last :: turns = later ++ turn :: earlier) :
    earlier = turns := by
  cases later with
  | nil => exact (List.cons.inj hsplit).2.symm
  | cons _ later =>
    obtain ⟨run, outcome, hact, -⟩ := h
    have hturn : turn ∈ turns := (List.cons.inj hsplit).2 ▸ List.mem_append_right _ (List.mem_cons_self ..)
    exact absurd hact (hcycles turn hturn _)

/-- The full update is in flight already when the delta update finds that its listing was cut off. -/
theorem catchUp_replaced_by_earlier : ∃ turns, ∃ s₀ s₁ s : Session JobScheduler,
    s₀.Lives environment 1 ∧ s₀.Step environment .delta s₁ ∧ s₁.world = s₀.world.schedule 1 .oneOff ∧
      s₁.Path environment turns s ∧ (∀ turn ∈ turns, turn.before.worker.config.enabled = true) ∧
      s.worker.full = none ∧ s.world.pending? 1 ≠ some .oneOff := by
  let config : Config := { Config.cautious with firstRunLimit := some 1 }
  let context : CycleContext := ⟨1, config, .zero⟩
  let s₀ := Session.opening 1 .zero config .delta .empty
  let s₁ := s₀.takeUp (.command (.runFullUpdate none))
  let look := JobScheduler.alongside .stocked
  let delta := context.deltaUpdate.run look s₁.world
  let full := context.fullUpdate.run look delta.2
  have hlives : s₀.Lives environment 1 := .begin (Session.begins_opening ..)
  obtain ⟨turns, htaken⟩ :=
    (Session.Path.nil : s₀.Path environment [] s₀).takeUp rfl nofun rfl (.command (.runFullUpdate none))
  have hsound := htaken.sound hlives.sound.1
  obtain ⟨deltas, hdelta, hdeltas⟩ := Session.Path.delta (rfl : s₁.delta = some context.deltaUpdate)
    (context.tells_deltaUpdate.finishes (ends_run (JobScheduler.alongside_within .stocked) _ s₁.world))
  let s₂ : Session JobScheduler := { s₁ with delta := some (.done delta.1), told := s₁.told ++ [], world := delta.2 }
  obtain ⟨fulls, hfull, hfulls⟩ := Session.Path.full (rfl : s₂.full = some context.fullUpdate)
    (context.tells_fullUpdate.finishes (ends_run (JobScheduler.alongside_within .stocked) _ s₂.world))
  have hchanged : delta.2.pending? 1 ≠ s₁.world.pending? 1 := by decide +kernel
  obtain ⟨turn, hturn, he⟩ := hdelta.exists_escalates hsound (fun turn h => (hdeltas turn h).1)
    fun h => hchanged (congrArg (JobScheduler.pending? · 1) h)
  obtain ⟨later, earlier, rfl⟩ := List.append_of_mem hturn
  obtain ⟨hbefore, hstep, hafter⟩ := hdelta.split
  have hworker : turn.before.worker = s₁.worker := (hdeltas turn hturn).2
  have hbegun : turn.before.Lives environment 1 := (hlives.path htaken).path hbefore
  rw [he.1] at hstep
  have hpath := (hafter.append hfull).step (.fullDone rfl rfl (Session.handles _ _ (.fullDone ⟨context, none⟩ full.1)))
  have hcycles : ∀ other ∈ fulls ++ later, other.before.worker = s₁.worker ∧ ∀ event, other.act ≠ .handle event := by
    intro other hother
    rcases List.mem_append.mp hother with h | h
    · obtain ⟨hact, hw⟩ := hfulls other h
      exact ⟨hw, by simp [hact]⟩
    · obtain ⟨hact, hw⟩ := hdeltas other (List.mem_append_left _ h)
      exact ⟨hw, by simp [hact]⟩
  have hescalates : turn.after.world = turn.before.world.schedule 1 .oneOff := by
    rw [he.2, hworker]
    rfl
  have hrun : turn.after.worker.full = some ⟨context, none⟩ := by
    rw [hstep.worker]
    exact congrArg Worker.full hworker
  have hen : ∀ last : Session.Turn JobScheduler, last.before.worker = s₁.worker →
      ∀ other ∈ last :: (fulls ++ later), other.before.worker.config.enabled = true := fun last hlast =>
    List.forall_mem_cons.mpr ⟨congrArg (fun w : Worker => w.config.enabled) hlast,
      fun other h => congrArg (fun w : Worker => w.config.enabled) (hcycles other h).1⟩
  have hnone : ∀ last : Session.Turn JobScheduler, ∀ after other before,
      last :: (fulls ++ later) = after ++ other :: before → other.Settles →
      turn.after.worker.full.isSome ∧ ∀ other ∈ before, other.act.endsFull = false := by
    intro last after other before hsplit hsettles
    obtain rfl := hsettles.earlier_eq (fun other h => (hcycles other h).2) hsplit
    exact ⟨by rw [hrun]; rfl, fun other h => Session.Act.endsFull_of_cycle (hcycles other h).2⟩
  have hreplaced := catchUp_replaced_iff hbegun hstep hescalates hpath (hen _ rfl)
    (congrArg Config.enabled (Worker.config_after ..)) (hnone _)
  have hresult : JobResult.ofResult full.1.result ≠ .cancelled := by decide +kernel
  refine ⟨_, _, _, _, hbegun, hstep, hescalates, hpath, hen _ rfl, (Worker.afterFull_eq ..).2.1, ?_⟩
  exact hreplaced.2.mpr ⟨[], _, _, _, full.1, rfl, hrun, rfl, mt JobResult.ofResult_eq_cancelled.mpr hresult,
    rfl, fun _ h => nomatch h⟩

end ContactsIndex
