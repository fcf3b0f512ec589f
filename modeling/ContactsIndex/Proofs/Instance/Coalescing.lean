import ContactsIndex.Proofs.Instance.Discipline

/-!
# Notifications

Notifications that a worker handles while a delta update is in flight are answered by one
further delta update, and one that is handled at another time starts a delta update at once.
While indexing is disabled they are ignored, and a delta update makes up for them as soon as
indexing is enabled again. So whenever indexing is enabled and no delta update is in flight,
each notification has been answered (`notifications_coalesce`).

Along a run the flag for a further delta update says exactly that something has asked for one
while the present one is in flight; this is what the induction carries (`Coalesced`).
-/

namespace ContactsIndex

open Exchange (free)

namespace Worker

variable {w w' : Worker} {event : Event} {incidents : List Incident}

/-! ## What becomes of a worker -/

def after (w : Worker) : Event → Worker
  | .command c => w.afterCommand c
  | .config c => w.afterConfig c
  | .deltaDone _ outcome _ => w.afterDelta outcome
  | .fullDone _ outcome => w.afterFull outcome
  | .shutdown => w.beginDrain
  | .finish => w.finished

theorem Reacts.eq_after (h : w.Reacts event w') : w' = w.after event := by
  cases h with
  | command _ he => exact (w.obeys_onCommand w.settings _).value he
  | config _ he => exact (w.obeys_onConfig w.settings _).value he
  | deltaDone _ _ he => exact (w.obeys_onDeltaDone _).value he
  | fullDone _ _ he => exact (w.obeys_onFullDone _).value he
  | shutdown => rfl
  | finish _ _ _ he => exact (w.obeys_finishDrain w.settings).value he

def Event.endsDelta : Event → Bool
  | .deltaDone .. => true
  | _ => false

def Event.endsFull : Event → Bool
  | .fullDone .. => true
  | _ => false

/-- Whether the worker takes the event for a request to follow the changes: a notification, or
that indexing is enabled again. -/
def triggers (w : Worker) : Event → Bool
  | .command .contactsChanged => w.config.enabled
  | .config c => !w.config.enabled && c.enabled
  | _ => false

/-! ### Fields after an event -/

@[simp] theorem shown_config (w : Worker) : w.shown.config = w.config := rfl

@[simp] theorem shown_delta (w : Worker) : w.shown.delta = w.delta := rfl

@[simp] theorem shown_rerun (w : Worker) : w.shown.rerun = w.rerun := rfl

@[simp] theorem shown_draining (w : Worker) : w.shown.draining = w.draining := rfl

@[simp] theorem shown_context (w : Worker) : w.shown.context = w.context := rfl

@[simp] theorem triggered_config (w : Worker) : w.triggered.config = w.config :=
  w.triggered_eq.2.1

@[simp] theorem triggered_delta (w : Worker) :
    w.triggered.delta = some (w.delta.getD w.context) := by
  unfold triggered
  cases w.delta
  · simp [startDelta]
  · simp

@[simp] theorem triggered_rerun (w : Worker) : w.triggered.rerun = (w.rerun || w.delta.isSome) := by
  unfold triggered
  cases w.delta <;> simp [startDelta]

@[simp] theorem triggered_draining (w : Worker) : w.triggered.draining = w.draining :=
  w.triggered_flags.1

@[simp] theorem triggered_context (w : Worker) : w.triggered.context = w.context := by
  unfold triggered
  split <;> rfl

/-- Indexing being enabled again counts as a notification; other changes of the configuration
leave the cycles alone. -/
theorem afterConfig_eq_triggered (w : Worker) (c : Config) : w.afterConfig c =
    if w.triggers (.config c) then shown (triggered { w with config := c })
      else shown { w with config := c } := by
  cases hw : w.config.enabled <;> cases hc : c.enabled <;> simp [afterConfig, triggers, hw, hc]

theorem config_after (w : Worker) (event : Event) :
    (w.after event).config = match event with
      | .config c => c
      | _ => w.config := by
  cases event with
  | command c => exact (w.afterCommand_eq c).2.1
  | config c =>
    simp only [after, afterConfig_eq_triggered]
    split <;> simp
  | deltaDone context outcome log => exact (w.afterDelta_eq outcome).1
  | fullDone run outcome => exact (w.afterFull_eq outcome).1
  | shutdown => rfl
  | finish => rfl

theorem draining_after (w : Worker) (event : Event) :
    (w.after event).draining = match event with
      | .shutdown => true
      | _ => w.draining := by
  cases event with
  | command c => exact w.draining_afterCommand c
  | config c =>
    simp only [after, afterConfig_eq_triggered]
    split <;> simp
  | deltaDone context outcome log => exact w.draining_afterDelta outcome
  | fullDone run outcome => exact (w.afterFull_flags outcome).1
  | shutdown => rfl
  | finish => rfl

theorem delta_after (w : Worker) (h : event.endsDelta = false) :
    (w.after event).delta =
      if w.triggers event then some (w.delta.getD (w.after event).context) else w.delta := by
  cases event with
  | command c =>
    cases c with
    | contactsChanged => by_cases he : w.config.enabled <;> simp [after, afterCommand, triggers, he]
    | runFullUpdate job => simp [after, triggers, (w.request_flags job).2.2]
  | config c =>
    simp only [after, afterConfig_eq_triggered]
    split <;> simp
  | deltaDone context outcome log => cases h
  | fullDone run outcome => simp [after, triggers, (w.afterFull_eq outcome).2.2.1]
  | shutdown => rfl
  | finish => rfl

theorem rerun_after (w : Worker) (h : event.endsDelta = false) (hd : (w.after event).draining = false) :
    (w.after event).rerun = (w.rerun || (w.triggers event && w.delta.isSome)) := by
  cases event with
  | command c =>
    cases c with
    | contactsChanged => by_cases he : w.config.enabled <;> simp [after, afterCommand, triggers, he]
    | runFullUpdate job => simp [after, triggers, (w.request_flags job).2.1]
  | config c =>
    simp only [after, afterConfig_eq_triggered]
    split <;> simp [*]
  | deltaDone context outcome log => cases h
  | fullDone run outcome => simp [after, triggers, (w.afterFull_flags outcome).2]
  | shutdown => cases hd
  | finish => simp [after, triggers, finished]

theorem rerun_afterDelta (w : Worker) (outcome : CycleContext.DeltaOutcome) :
    (w.afterDelta outcome).rerun = false := by
  unfold afterDelta
  dsimp only
  split <;> rfl

theorem full_after (w : Worker) {run : FullRun} (h : event.endsFull = false) (hf : w.full = some run) :
    (w.after event).full = some run := by
  cases event with
  | command c =>
    rcases (w.afterCommand_eq c).2.2.2 with hsame | ⟨hnone, _⟩
    · exact hsame.trans hf
    · rw [hf] at hnone
      cases hnone
  | config c => exact (w.afterConfig_eq c).2.trans hf
  | deltaDone context outcome log => exact (w.afterDelta_eq outcome).2.1.trans hf
  | fullDone run outcome => cases h
  | shutdown => exact hf
  | finish => exact hf

/-! ## What observers see -/

/-- Observers see a running worker as it is. -/
structure Observed (w : Worker) : Prop where
  published : w.published = w.snapshot
  running : w.lifecycle = .running

theorem observed_shown (h : w.lifecycle = .running) : Observed w.shown :=
  ⟨rfl, h⟩

theorem Observed.isIdle_iff (h : Observed w) :
    w.published.isIdle = true ↔ w.delta = none ∧ w.full = none := by
  rw [h.published]
  cases hd : w.delta <;> cases hf : w.full <;> cases hr : w.rerun <;>
    simp [Snapshot.isIdle, Snapshot.state, snapshot, phase, h.running, hd, hf, hr]

theorem lifecycle_triggered (w : Worker) : w.triggered.lifecycle = w.lifecycle := by
  unfold triggered
  split <;> rfl

theorem observed_begun (w : Worker) (initial : InitialCycle) : Observed (w.begun initial) := by
  unfold begun
  dsimp only
  split
  · cases initial <;> exact observed_shown rfl
  · exact observed_shown rfl

theorem lifecycle_settledDelta (w : Worker) (outcome : CycleContext.DeltaOutcome) :
    (w.settledDelta outcome).lifecycle = w.lifecycle := by
  unfold settledDelta
  split <;> rfl

theorem Observed.after (h : Observed w) (hd : (w.after event).draining = false)
    (hf : event ≠ .finish) : Observed (w.after event) := by
  cases event with
  | command c =>
    simp only [Worker.after, afterCommand]
    cases c with
    | contactsChanged =>
      dsimp only
      split
      · exact observed_shown (w.lifecycle_triggered.trans h.running)
      · exact h
    | runFullUpdate job =>
      dsimp only
      split
      · split <;> exact observed_shown h.running
      · exact h
  | config c =>
    simp only [Worker.after, afterConfig_eq_triggered]
    split
    · exact observed_shown ((lifecycle_triggered _).trans h.running)
    · exact observed_shown h.running
  | deltaDone context outcome log =>
    have hs := (lifecycle_settledDelta { w with delta := none } outcome).trans h.running
    simp only [Worker.after, afterDelta]
    split <;> exact observed_shown hs
  | fullDone run outcome =>
    simp only [Worker.after, afterFull, settledFull]
    split <;> exact observed_shown h.running
  | shutdown => cases hd
  | finish => exact absurd rfl hf

/-! ## Requests along a run -/

namespace Incident

def Notifies (i : Incident) : Prop :=
  i.event = .command .contactsChanged

def Enables (i : Incident) : Prop :=
  i.before.config.enabled = false ∧ ∃ c, i.event = .config c ∧ c.enabled = true

def Triggers (i : Incident) : Prop :=
  i.before.triggers i.event = true

/-- A delta update is begun, where none was in flight or the one in flight has ended. -/
def BeginsDelta (i : Incident) : Prop :=
  i.after.delta.isSome ∧ (i.before.delta = none ∨ i.event.endsDelta = true)

def Steady (i : Incident) : Prop :=
  (∀ context, i.before.delta = some context → i.event.endsDelta = false →
    i.after.delta = some context) ∧
  ∀ run, i.before.full = some run → i.event.endsFull = false → i.after.full = some run

theorem triggers_iff (i : Incident) :
    i.Triggers ↔ (i.Notifies ∧ i.before.config.enabled = true) ∨ i.Enables := by
  obtain ⟨before, event, after⟩ := i
  unfold Triggers Notifies Enables triggers
  cases event with
  | command c => cases c <;> simp
  | config c => simp
  | _ => simp

end Incident

/-- What was handled since the delta update in flight was begun. -/
def duringDelta (incidents : List Incident) : List Incident :=
  incidents.takeWhile fun i => i.before.delta.isSome && !i.event.endsDelta

/-- Each notification was followed by the beginning of a delta update, or was one itself. -/
def Answered (incidents : List Incident) : Prop :=
  ∀ later i earlier, incidents = later ++ i :: earlier → i.Notifies →
    ∃ j ∈ later ++ [i], j.BeginsDelta

theorem answered_nil : Answered [] := by
  intro later i earlier h
  simp at h

theorem Answered.cons_of_begins {i : Incident} (h : i.BeginsDelta) : Answered (i :: incidents) := by
  intro later j earlier he _
  cases later with
  | nil =>
    obtain ⟨rfl, -⟩ := List.cons.inj he
    exact ⟨i, by simp, h⟩
  | cons k later =>
    obtain ⟨rfl, -⟩ := List.cons.inj he
    exact ⟨i, by simp, h⟩

theorem Answered.cons {i : Incident} (h : Answered incidents) (hi : ¬ i.Notifies) :
    Answered (i :: incidents) := by
  intro later j earlier he hj
  cases later with
  | nil =>
    obtain ⟨rfl, -⟩ := List.cons.inj he
    exact absurd hj hi
  | cons k later =>
    obtain ⟨rfl, htail⟩ := List.cons.inj he
    obtain ⟨b, hb, hbegins⟩ := h later j earlier htail hj
    exact ⟨b, List.mem_cons_of_mem _ hb, hbegins⟩

structure Coalesced (incidents : List Incident) (w : Worker) : Prop where
  observed : Observed w
  rerun_iff : w.rerun = true ↔ ∃ i ∈ duringDelta incidents, i.Triggers
  in_flight : w.rerun = true → w.delta.isSome
  noticed : w.config.enabled = true → (∃ i ∈ duringDelta incidents, i.Notifies) →
    ∃ i ∈ duringDelta incidents, i.Triggers
  answered : w.config.enabled = true → Answered incidents ∨ w.rerun = true

theorem coalesced_begun (w : Worker) (hr : w.rerun = false) (initial : InitialCycle) :
    Coalesced [] (w.begun initial) where
  observed := w.observed_begun initial
  rerun_iff := by simp [(w.begun_flags initial).2, hr, duringDelta]
  in_flight := by simp [(w.begun_flags initial).2, hr]
  noticed := by simp [duringDelta]
  answered := fun _ => .inl answered_nil

theorem calm_of_not_triggers (hen : (w.after event).config.enabled = true)
    (ht : w.triggers event = false) :
    w.config.enabled = true ∧ event ≠ .command .contactsChanged := by
  rw [config_after] at hen
  cases event with
  | command c => cases c <;> simp_all [triggers]
  | config c => simp_all [triggers]
  | _ => simp_all

theorem Coalesced.during (h : Coalesced incidents w) (he : event.endsDelta = false)
    (hd : w.delta.isSome) (hn : (w.after event).draining = false) (hf : event ≠ .finish) :
    Coalesced (⟨w, event, w.after event⟩ :: incidents) (w.after event) := by
  -- the event is one more of those during the delta update
  have hduring : duringDelta (⟨w, event, w.after event⟩ :: incidents) =
      ⟨w, event, w.after event⟩ :: duringDelta incidents :=
    List.takeWhile_cons_of_pos (by simp [hd, he])
  have hrerun := w.rerun_after he hn
  rw [hd, Bool.and_true] at hrerun
  constructor
  · exact h.observed.after hn hf
  · rw [hrerun, hduring]
    simp only [Bool.or_eq_true, h.rerun_iff, List.mem_cons, exists_eq_or_imp]
    exact or_comm
  · intro _
    rw [w.delta_after he]
    split <;> simp [hd]
  · intro hen hex
    rw [hduring] at hex ⊢
    simp only [List.mem_cons, exists_eq_or_imp] at hex ⊢
    -- without a request indexing was enabled before, and the event is no notification
    cases ht : w.triggers event with
    | true => exact .inl ht
    | false =>
      obtain ⟨hw, hne⟩ := calm_of_not_triggers hen ht
      exact .inr (h.noticed hw (hex.resolve_left hne))
  · intro hen
    rw [hrerun]
    cases ht : w.triggers event with
    | true => exact .inr (by simp)
    | false =>
      obtain ⟨hw, hne⟩ := calm_of_not_triggers hen ht
      rcases h.answered hw with ha | hr
      · exact .inl (ha.cons hne)
      · exact .inr (by simp [hr])

theorem Coalesced.resting (h : Coalesced incidents w) (he : event.endsDelta = false)
    (hd : w.delta = none) (hn : (w.after event).draining = false) (hf : event ≠ .finish) :
    Coalesced (⟨w, event, w.after event⟩ :: incidents) (w.after event) := by
  have hduring : duringDelta (⟨w, event, w.after event⟩ :: incidents) = [] :=
    List.takeWhile_cons_of_neg (by simp [hd])
  have hw : w.rerun = false := by
    cases hr : w.rerun with
    | false => rfl
    | true => simpa [hd] using h.in_flight hr
  have hrerun : (w.after event).rerun = false := by simp [w.rerun_after he hn, hw, hd]
  constructor
  · exact h.observed.after hn hf
  · simp [hrerun, hduring]
  · simp [hrerun]
  · simp [hduring]
  · intro hen
    cases ht : w.triggers event with
    | true => exact .inl (.cons_of_begins ⟨by simp [w.delta_after he, ht], .inl hd⟩)
    | false =>
      obtain ⟨hen', hne⟩ := calm_of_not_triggers hen ht
      rcases h.answered hen' with ha | hr
      · exact .inl (ha.cons hne)
      · simp [hw] at hr

theorem Coalesced.ended (h : Coalesced incidents w) (he : event.endsDelta = true)
    (hn : (w.after event).draining = false) (hf : event ≠ .finish) :
    Coalesced (⟨w, event, w.after event⟩ :: incidents) (w.after event) := by
  have hduring : duringDelta (⟨w, event, w.after event⟩ :: incidents) = [] :=
    List.takeWhile_cons_of_neg (by simp [he])
  cases event with
  | deltaDone context outcome log =>
    have hrerun : (w.after (.deltaDone context outcome log)).rerun = false := w.rerun_afterDelta outcome
    constructor
    · exact h.observed.after hn hf
    · simp [hrerun, hduring]
    · simp [hrerun]
    · simp [hduring]
    · intro hen
      rw [config_after] at hen
      rw [draining_after] at hn
      refine .inl ?_
      rcases h.answered hen with ha | hr
      · exact ha.cons (fun hi => nomatch hi)
      · -- what was not answered yet has set the flag, and the next delta update is its answer
        refine .cons_of_begins ⟨?_, .inr rfl⟩
        simp only [after, w.delta_afterDelta outcome]
        simp [hr, hen, show w.draining = false from hn]
  | _ => cases he

theorem Coalesced.step (h : Coalesced incidents w) (hn : (w.after event).draining = false)
    (hf : event ≠ .finish) :
    Coalesced (⟨w, event, w.after event⟩ :: incidents) (w.after event) := by
  cases he : event.endsDelta with
  | true => exact h.ended he hn hf
  | false =>
    cases hd : w.delta with
    | none => exact h.resting he hd hn hf
    | some context => exact h.during he (by simp [hd]) hn hf

theorem Reacts.not_finish (h : w.Reacts event w') (hn : w'.draining = false) :
    event ≠ .finish ∧ w.draining = false := by
  have hw := h.eq_after ▸ w.draining_after event
  cases h with
  | finish hd _ _ _ => simp_all
  | shutdown _ => simp_all
  | _ => simp_all

theorem History.coalesced (h : History incidents w) (hn : w.draining = false) :
    Coalesced incidents w := by
  induction h with
  | @begin user settings config initial l w l' he =>
    have hw := ((Worker.new user settings config).obeys_begin settings initial).value he
    rw [hw]
    exact coalesced_begun _ rfl initial
  | step _ hr ih =>
    obtain ⟨hf, hd⟩ := hr.not_finish hn
    have hw := hr.eq_after
    subst hw
    exact (ih hd).step hn hf

theorem Reacts.steady (h : w.Reacts event w') : Incident.Steady ⟨w, event, w'⟩ := by
  have hw := h.eq_after
  subst hw
  constructor
  · intro context hd he
    simp only at hd he ⊢
    rw [w.delta_after he]
    split <;> simp [hd]
  · intro run hf he
    exact w.full_after he hf

theorem History.steady (h : History incidents w) : ∀ i ∈ incidents, i.Steady := by
  induction h with
  | begin _ => simp
  | step _ hr ih => simpa using ⟨hr.steady, ih⟩

theorem Coalesced.delta_of_ended {context : CycleContext} {outcome : CycleContext.DeltaOutcome}
    {log : List Exchange} (h : Coalesced incidents w) (hn : w.draining = false)
    (hr : w.Reacts (.deltaDone context outcome log) w') : w'.delta.isSome ↔
      w'.config.enabled = true ∧ ∃ i ∈ duringDelta incidents, i.Notifies ∨ i.Enables := by
  have hw := hr.eq_after
  subst hw
  have hasked : w.config.enabled = true → (w.rerun = true ↔
      ∃ i ∈ duringDelta incidents, i.Notifies ∨ i.Enables) := by
    intro hen
    rw [h.rerun_iff]
    constructor
    · rintro ⟨i, hi, ht⟩
      exact ⟨i, hi, (i.triggers_iff.mp ht).imp_left (·.1)⟩
    · rintro ⟨i, hi, hnotifies | henables⟩
      · exact h.noticed hen ⟨i, hi, hnotifies⟩
      · exact ⟨i, hi, i.triggers_iff.mpr (.inr henables)⟩
  rw [config_after]
  simp only [after, w.delta_afterDelta outcome, hn]
  cases hen : w.config.enabled with
  | true => simp [← hasked hen]
  | false => simp

end Worker

/-- In every state before the shutdown: no cycle in flight was begun over another of its kind; a
further delta update is due only while one is in flight, and at the end of that one exactly one is
begun if indexing is enabled and there was a notification meanwhile, or indexing was enabled again;
when indexing is enabled and no delta update is in flight, every notification was followed by the
beginning of one; and observers see the worker idle exactly when nothing is in flight. -/
theorem notifications_coalesce {incidents : List Worker.Incident} {w : Worker}
    (h : Worker.History incidents w) (hn : w.draining = false) :
    (∀ i ∈ incidents, i.Steady) ∧
    (w.rerun = true → w.delta.isSome) ∧
    (∀ context outcome log w', w.Reacts (.deltaDone context outcome log) w' →
      (w'.delta.isSome ↔ w'.config.enabled = true ∧
        ∃ i ∈ Worker.duringDelta incidents, i.Notifies ∨ i.Enables)) ∧
    (w.config.enabled = true → w.delta = none → Worker.Answered incidents) ∧
    (w.published.isIdle = true ↔ w.delta = none ∧ w.full = none) := by
  have hc := h.coalesced hn
  refine ⟨h.steady, hc.in_flight, fun _ _ _ _ hr => hc.delta_of_ended hn hr, ?_,
    hc.observed.isIdle_iff⟩
  intro hen hd
  rcases hc.answered hen with ha | hr
  · exact ha
  · have := hc.in_flight hr
    simp [hd] at this

namespace Worker

theorem reacts_command (w : Worker) (hd : w.draining = false) (c : Command) :
    w.Reacts (.command c) (w.afterCommand c) := by
  have he := Program.ends_canned (w.onCommand c)
  rw [(w.obeys_onCommand w.settings c).value he] at he
  exact .command hd he

def following (config : Config) : Worker :=
  (new 1 .zero config).begun .delta

theorem history_following (config : Config) : History [] (following config) := by
  have he := Program.ends_canned ((new 1 .zero config).begin .delta)
  rw [((new 1 .zero config).obeys_begin .zero .delta).value he] at he
  exact .begin he

end Worker

/-- Two notifications during a delta update are answered by one further delta update. -/
theorem notifications_coalesce_twice : ∃ incidents w w' context outcome log,
    Worker.History incidents w ∧ w.draining = false ∧
    w.Reacts (.deltaDone context outcome log) w' ∧ incidents.length = 2 ∧
    (∀ i ∈ incidents, i.Notifies) ∧ w.published.isIdle = false ∧
    w'.delta.isSome ∧ w'.rerun = false := by
  let w := Worker.following .cautious
  let first := w.afterCommand .contactsChanged
  let second := first.afterCommand .contactsChanged
  have hfirst := (Worker.history_following .cautious).step (w.reacts_command rfl .contactsChanged)
  have hsecond := hfirst.step (first.reacts_command rfl .contactsChanged)
  have hcycle := Program.ends_canned (CycleContext.mk 1 .cautious .zero).deltaUpdate
  have hdone : second.Reacts (.deltaDone _ _ _) _ := .deltaDone rfl hcycle (Program.ends_canned _)
  obtain ⟨-, -, hended, -, hidle⟩ := notifications_coalesce hsecond rfl
  have hasked : ∃ i ∈ Worker.duringDelta [⟨first, .command .contactsChanged, second⟩,
      ⟨w, .command .contactsChanged, first⟩], i.Notifies ∨ i.Enables :=
    ⟨_, List.mem_cons_self .., .inl rfl⟩
  have hw := hdone.eq_after
  refine ⟨_, second, _, _, _, _, hsecond, rfl, hdone, rfl, ?_, ?_, ?_, ?_⟩
  · simp [Worker.Incident.Notifies]
  · exact Bool.eq_false_iff.mpr fun h => nomatch (hidle.mp h).1
  · refine (hended _ _ _ _ hdone).mpr ⟨?_, hasked⟩
    rw [hw, Worker.config_after]
    rfl
  · rw [hw]
    exact second.rerun_afterDelta _

end ContactsIndex
