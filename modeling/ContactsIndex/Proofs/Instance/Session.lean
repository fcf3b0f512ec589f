import ContactsIndex.Proofs.Instance.Replies

/-!
# Instances at work

A `Session` is an instance between two handlers, in any surroundings: its worker, the
cycles in flight as far as they have got, the messages that were not taken up yet and the
jobs that were told a result. Between two handlers the cycles go on, call by call and in
any order; a handler is gone through as a whole. A `Session.Path` is a list of such turns,
the last one first.

Every turn keeps a session `Sound`: the cycles in flight are those that the worker has in
mind, jobs wait only while a full update is in flight, and an instance that has ended has
nothing left to do.
-/

namespace ContactsIndex

open Program
open Bench (Message)

/-! ## Fields after an event -/

namespace Worker

variable (w : Worker) (event : Event)

theorem triggered_frame : w.triggered.user = w.user ∧ w.triggered.lifecycle = w.lifecycle ∧
    w.triggered.waiters = w.waiters := by
  unfold triggered
  split <;> exact ⟨rfl, rfl, rfl⟩

theorem settledDelta_frame (outcome : CycleContext.DeltaOutcome) :
    (w.settledDelta outcome).user = w.user ∧ (w.settledDelta outcome).lifecycle = w.lifecycle ∧
      (w.settledDelta outcome).waiters = w.waiters := by
  unfold settledDelta
  split <;> exact ⟨rfl, rfl, rfl⟩

theorem afterCommand_frame (c : Command) :
    (w.afterCommand c).user = w.user ∧ (w.afterCommand c).lifecycle = w.lifecycle ∧
      (w.afterCommand c).waiters = match c with
        | .contactsChanged => w.waiters
        | .runFullUpdate job => if w.config.enabled then w.waiters ++ job.toList else w.waiters := by
  obtain ⟨hu, hl, hw⟩ := w.triggered_frame
  cases c with
  | contactsChanged =>
    dsimp only [afterCommand]
    split
    · exact ⟨hu, hl, hw⟩
    · exact ⟨rfl, rfl, rfl⟩
  | runFullUpdate job =>
    dsimp only [afterCommand]
    split
    · split <;> exact ⟨rfl, rfl, rfl⟩
    · exact ⟨rfl, rfl, rfl⟩

theorem afterConfig_frame (c : Config) :
    (w.afterConfig c).user = w.user ∧ (w.afterConfig c).lifecycle = w.lifecycle ∧
      (w.afterConfig c).waiters = w.waiters := by
  rw [afterConfig_eq_triggered]
  split
  · exact triggered_frame { w with config := c }
  · exact ⟨rfl, rfl, rfl⟩

theorem afterDelta_frame (outcome : CycleContext.DeltaOutcome) :
    (w.afterDelta outcome).user = w.user ∧ (w.afterDelta outcome).lifecycle = w.lifecycle ∧
      (w.afterDelta outcome).waiters = w.waiters := by
  unfold afterDelta
  dsimp only
  split <;> exact settledDelta_frame { w with delta := none } outcome

theorem afterFull_frame (outcome : CycleContext.FullOutcome) :
    (w.afterFull outcome).user = w.user ∧ (w.afterFull outcome).lifecycle = w.lifecycle ∧
      (w.afterFull outcome).waiters = [] := by
  unfold afterFull settledFull
  cases JobResult.ofResult outcome.result <;> exact ⟨rfl, rfl, rfl⟩

theorem begun_frame (initial : InitialCycle) : (w.begun initial).user = w.user ∧
    (w.begun initial).lifecycle = .running ∧ (w.begun initial).waiters = w.waiters := by
  unfold begun
  dsimp only
  split
  · cases initial <;> exact ⟨rfl, rfl, rfl⟩
  · exact ⟨rfl, rfl, rfl⟩

theorem user_after : (w.after event).user = w.user := by
  cases event with
  | command c => exact (w.afterCommand_frame c).1
  | config c => exact (w.afterConfig_frame c).1
  | deltaDone _ outcome _ => exact (w.afterDelta_frame outcome).1
  | fullDone _ outcome => exact (w.afterFull_frame outcome).1
  | shutdown => rfl
  | finish => rfl

theorem lifecycle_after : (w.after event).lifecycle = match event with
    | .finish => .shutDown
    | _ => w.lifecycle := by
  cases event with
  | command c => exact (w.afterCommand_frame c).2.1
  | config c => exact (w.afterConfig_frame c).2.1
  | deltaDone _ outcome _ => exact (w.afterDelta_frame outcome).2.1
  | fullDone _ outcome => exact (w.afterFull_frame outcome).2.1
  | shutdown => rfl
  | finish => rfl

theorem waiters_after : (w.after event).waiters = match event with
    | .command (.runFullUpdate job) => if w.config.enabled then w.waiters ++ job.toList else w.waiters
    | .fullDone .. | .finish => []
    | _ => w.waiters := by
  cases event with
  | command c => cases c <;> exact (w.afterCommand_frame _).2.2
  | config c => exact (w.afterConfig_frame c).2.2
  | deltaDone _ outcome _ => exact (w.afterDelta_frame outcome).2.2
  | fullDone _ outcome => exact (w.afterFull_frame outcome).2.2
  | shutdown => rfl
  | finish => rfl

theorem full_afterRequest (job : Option JobId) : (w.after (.command (.runFullUpdate job))).full =
    if w.config.enabled then some (w.full.getD ⟨w.context, job⟩) else w.full := by
  dsimp only [after, afterCommand]
  split
  · split
    · next h =>
      obtain ⟨run, hr⟩ := Option.isSome_iff_exists.mp h
      simp [shown, hr]
    · next h => simp [shown, startFull, context, Option.not_isSome_iff_eq_none.mp h]
  · rfl

theorem enabled_of_triggers (h : w.triggers event = true) : (w.after event).config.enabled = true := by
  rw [config_after]
  cases event with
  | command c =>
    cases c with
    | contactsChanged => exact h
    | runFullUpdate job => cases h
  | config c => exact (Bool.and_eq_true_iff.mp h).2
  | _ => cases h

/-- The delta update in flight is one of this user, begun while indexing was enabled. -/
def Following (w : Worker) : Prop :=
  ∀ context, w.delta = some context → context.user = w.user ∧ context.config.enabled = true

theorem Following.begun {w : Worker} (hd : w.delta = none) (initial : InitialCycle) : Following (w.begun initial) := by
  intro context hc
  unfold Worker.begun at hc ⊢
  dsimp only at hc ⊢
  split at hc
  · next hen =>
    cases initial with
    | delta =>
      cases hc
      rw [if_pos hen]
      exact ⟨rfl, hen⟩
    | full => cases hd.symm.trans hc
  · cases hd.symm.trans hc

theorem Following.after {w : Worker} {event : Event} (h : Following w) : Following (w.after event) := by
  intro context hc
  rw [user_after]
  cases he : event.endsDelta with
  | true =>
    cases event with
    | deltaDone _ outcome _ =>
      simp only [Worker.after, w.delta_afterDelta outcome] at hc
      split at hc
      · next hdue =>
        cases hc
        refine ⟨(w.afterDelta_frame outcome).1, ?_⟩
        rw [show ((w.afterDelta outcome).context).config = _ from (w.afterDelta_eq outcome).1]
        exact (Bool.and_eq_true_iff.mp hdue).2
      · cases hc
    | _ => cases he
  | false =>
    rw [w.delta_after he] at hc
    split at hc
    · next ht =>
      cases hd : w.delta with
      | none =>
        rw [hd] at hc
        cases hc
        exact ⟨w.user_after event, w.enabled_of_triggers event ht⟩
      | some context' =>
        rw [hd] at hc
        cases hc
        exact h _ hd
    · exact h context hc

theorem waiting_after (hw : w.full = none → w.waiters = []) (hnone : (w.after event).full = none) :
    (w.after event).waiters = [] := by
  rw [waiters_after]
  cases he : event.endsFull with
  | true => cases event <;> first | rfl | cases he
  | false =>
    have hfull : w.full = none := by
      cases hf : w.full with
      | none => rfl
      | some run => cases (w.full_after he hf).symm.trans hnone
    split
    · next job =>
      rw [w.full_afterRequest job] at hnone
      split at hnone
      · cases hnone
      · next hen => rw [if_neg hen, hw hfull]
    · rfl
    · rfl
    · exact hw hfull

end Worker

/-! ## Sessions -/

structure Session (σ : Type) where
  worker : Worker
  delta : Option (Program CycleContext.DeltaOutcome)
  full : Option (Program CycleContext.FullOutcome)
  inbox : List Message
  told : List (JobId × JobResult)
  world : σ

namespace Session

inductive Act where
  | send (message : Message)
  | handle (event : Worker.Event)
  | delta
  | full

variable {σ : Type}

def install (s : Session σ) (told : List (JobId × JobResult)) (w : Worker) (world : σ) : Session σ where
  worker := w
  delta := s.delta <|> w.delta.map (·.deltaUpdate)
  full := s.full <|> w.full.map (·.context.fullUpdate)
  inbox := s.inbox
  told := s.told ++ told
  world := world

section

variable (s : Session σ) (told : List (JobId × JobResult)) (w : Worker) (world : σ)

@[simp] theorem install_worker : (s.install told w world).worker = w := rfl

@[simp] theorem install_inbox : (s.install told w world).inbox = s.inbox := rfl

@[simp] theorem install_told : (s.install told w world).told = s.told ++ told := rfl

@[simp] theorem install_world : (s.install told w world).world = world := rfl

end

/-- A message comes in. An instance that has ended takes up none. -/
def receive (s : Session σ) (message : Message) : Session σ :=
  if s.worker.lifecycle = .shutDown then { s with told := s.told ++ refusals [message] }
  else { s with inbox := queue s.inbox message }

def close (s : Session σ) : Session σ :=
  { s with inbox := [], told := s.told ++ refusals s.inbox }

def Handles (env : Environment σ) (s : Session σ) (handler : Program Worker) (s' : Session σ) : Prop :=
  ∃ told w world, Finishes env handler s.world told w world ∧ s' = s.install told w world

/-- What may happen next. Commands are taken up in their order, and so are configurations. A worker
that is draining takes up nothing but the ends of its cycles. -/
inductive Step (env : Environment σ) : Session σ → Act → Session σ → Prop
  | send {s message} : Step env s (.send message) (s.receive message)
  | take {s s' before message after} : s.worker.draining = false →
      s.inbox = before ++ message :: after → (∀ other ∈ before, other.isConfig ≠ message.isConfig) →
      Handles env { s with inbox := before ++ after } (s.worker.handle message.event) s' →
      Step env s (.handle message.event) s'
  | delta {s p q world} : s.delta = some p → Program.Step env p s.world q world →
      Step env s .delta { s with delta := some q, told := s.told ++ p.answering, world := world }
  | full {s p q world} : s.full = some p → Program.Step env p s.world q world →
      Step env s .full { s with full := some q, told := s.told ++ p.answering, world := world }
  | deltaDone {s s' context outcome} : s.delta = some (.done outcome) → s.worker.delta = some context →
      Handles env { s with delta := none } (s.worker.handle (.deltaDone context outcome [])) s' →
      Step env s (.handle (.deltaDone context outcome [])) s'
  | fullDone {s s' run outcome} : s.full = some (.done outcome) → s.worker.full = some run →
      Handles env { s with full := none } (s.worker.handle (.fullDone run outcome)) s' →
      Step env s (.handle (.fullDone run outcome)) s'
  | finish {s s'} : s.worker.draining = true → s.delta = none → s.full = none →
      s.worker.lifecycle ≠ .shutDown → Handles env s (s.worker.handle .finish) s' →
      Step env s (.handle .finish) s'.close

inductive Begins (env : Environment σ) (user : UserId) (world : σ) : Session σ → Prop
  | intro {settings config initial s} :
      Handles env ⟨.new user settings config, none, none, [], [], world⟩
        ((Worker.new user settings config).begin initial) s → Begins env user world s

structure Turn (σ : Type) where
  before : Session σ
  act : Act
  after : Session σ

def Act.endsDelta : Act → Bool
  | .handle event => event.endsDelta
  | _ => false

def Act.endsFull : Act → Bool
  | .handle event => event.endsFull
  | _ => false

theorem Act.endsFull_iff {act : Act} :
    act.endsFull = true ↔ ∃ run outcome, act = .handle (.fullDone run outcome) := by
  constructor
  · intro h
    cases act with
    | handle event =>
      cases event with
      | fullDone run outcome => exact ⟨run, outcome, rfl⟩
      | _ => cases h
    | _ => cases h
  · rintro ⟨run, outcome, rfl⟩
    rfl

theorem Act.endsFull_of_cycle {act : Act} (h : ∀ event, act ≠ .handle event) : act.endsFull = false := by
  cases act with
  | handle event => exact absurd rfl (h event)
  | _ => rfl

/-- The session goes on from `s` by these turns, the last one first. -/
inductive Path (env : Environment σ) (s : Session σ) : List (Turn σ) → Session σ → Prop
  | nil : Path env s [] s
  | step {turns t act t'} : Path env s turns t → Step env t act t' → Path env s (⟨t, act, t'⟩ :: turns) t'

/-- The instances of a user one after another, each of which may begin at any moment of the one before it. -/
inductive Lives (env : Environment σ) (user : UserId) : Session σ → Prop
  | begin {world s} : Begins env user world s → Lives env user s
  | step {s act s'} : Lives env user s → Step env s act s' → Lives env user s'
  | restart {s s'} : Lives env user s → Begins env user s.world s' → Lives env user s'

/-! ## What is kept -/

structure Sound (s : Session σ) : Prop where
  delta_isSome : s.delta.isSome = s.worker.delta.isSome
  full_isSome : s.full.isSome = s.worker.full.isSome
  following : s.worker.Following
  delta : ∀ p, s.delta = some p → p.Obeys (Call.Escalating s.worker.user) (fun _ => True) ∧ p.Tells []
  full : ∀ p, s.full = some p → p.Obeys Call.Following (fun _ => True) ∧ p.Tells []
  waiting : s.worker.full = none → s.worker.waiters = []
  closed : s.worker.lifecycle = .shutDown →
    s.worker.draining = true ∧ s.delta = none ∧ s.full = none ∧ s.inbox = []

variable {env : Environment σ} {s s' : Session σ} {event : Worker.Event} {act : Act}

theorem Sound.delta_none (hs : s.Sound) (h : s.delta = none) : s.worker.delta = none := by
  simpa [h] using hs.delta_isSome

theorem Sound.full_none (hs : s.Sound) (h : s.full = none) : s.worker.full = none := by
  simpa [h] using hs.full_isSome

theorem Sound.exists_context {p : Program CycleContext.DeltaOutcome} (hs : s.Sound) (h : s.delta = some p) :
    ∃ context, s.worker.delta = some context := by
  rw [← Option.isSome_iff_exists, ← hs.delta_isSome, h]
  rfl

theorem Sound.exists_run {p : Program CycleContext.FullOutcome} (hs : s.Sound) (h : s.full = some p) :
    ∃ run, s.worker.full = some run := by
  rw [← Option.isSome_iff_exists, ← hs.full_isSome, h]
  rfl

theorem Handles.eq {w : Worker} (h : Handles env s (w.handle event) s') :
    ∃ world, Finishes env (w.handle event) s.world (w.replies event) (w.after event) world ∧
      s' = s.install (w.replies event) (w.after event) world := by
  obtain ⟨told, w', world, hf, rfl⟩ := h
  obtain rfl := (w.tells_handle event).eq hf
  obtain rfl := (w.obeys_handle event).value hf.ends
  exact ⟨world, hf, rfl⟩

/-! ## What a step can do -/

def answers (s : Session σ) : Act → List (JobId × JobResult)
  | .send message => if s.worker.lifecycle = .shutDown then refusals [message] else []
  | .handle .finish => s.worker.replies .finish ++ refusals s.inbox
  | .handle event => s.worker.replies event
  | .delta | .full => []

structure Handled (env : Environment σ) (s : Session σ) (event : Worker.Event) (s' : Session σ) : Prop where
  runs : Finishes env (s.worker.handle event) s.world (s.worker.replies event) (s.worker.after event) s'.world
  worker : s'.worker = s.worker.after event
  told : s'.told = s.told ++ s.answers (.handle event)

theorem Handled.intro {base : Session σ} (h : Handles env base (s.worker.handle event) s')
    (hworld : base.world = s.world) (htold : base.told = s.told)
    (hanswers : s.answers (.handle event) = s.worker.replies event) : Handled env s event s' := by
  obtain ⟨world, hf, rfl⟩ := h.eq
  rw [hworld] at hf
  exact ⟨hf, rfl, by rw [hanswers, ← htold]; rfl⟩

theorem Step.handled (h : Step env s (.handle event) s') : Handled env s event s' := by
  cases h with
  | @take _ _ message _ _ _ _ hh => rcases message with c | c | _ <;> exact .intro hh rfl rfl rfl
  | deltaDone _ _ hh => exact .intro hh rfl rfl rfl
  | fullDone _ _ hh => exact .intro hh rfl rfl rfl
  | finish _ _ _ _ hh =>
    obtain ⟨world, hf, rfl⟩ := hh.eq
    exact ⟨hf, rfl, List.append_assoc ..⟩

theorem Step.takeFirst {message : Message} {after : List Message} (hd : s.worker.draining = false)
    (hin : s.inbox = message :: after)
    (hh : Handles env { s with inbox := after } (s.worker.handle message.event) s') :
    Step env s (.handle message.event) s' :=
  .take hd (show s.inbox = [] ++ message :: after from hin) (fun _ h => nomatch h) hh

theorem Step.of_deltaDone {context : CycleContext} {outcome : CycleContext.DeltaOutcome} {log : List Exchange}
    (h : Step env s (.handle (.deltaDone context outcome log)) s') :
    s.delta = some (.done outcome) ∧ s.worker.delta = some context ∧ log = [] := by
  generalize hact : Act.handle (.deltaDone context outcome log) = act at h
  cases h with
  | @take _ _ message _ _ _ _ _ => rcases message with c | c | _ <;> cases hact
  | deltaDone hd hw _ =>
    cases hact
    exact ⟨hd, hw, rfl⟩
  | _ => cases hact

theorem Step.of_fullDone {run : FullRun} {outcome : CycleContext.FullOutcome}
    (h : Step env s (.handle (.fullDone run outcome)) s') :
    s.full = some (.done outcome) ∧ s.worker.full = some run := by
  generalize hact : Act.handle (.fullDone run outcome) = act at h
  cases h with
  | @take _ _ message _ _ _ _ _ => rcases message with c | c | _ <;> cases hact
  | fullDone hf hw _ =>
    cases hact
    exact ⟨hf, hw⟩
  | _ => cases hact

theorem Step.of_send {message : Message} (h : Step env s (.send message) s') : s' = s.receive message := by
  cases h
  rfl

theorem Step.of_finish (h : Step env s (.handle .finish) s') :
    s.worker.draining = true ∧ s.delta = none ∧ s.full = none ∧ s.worker.lifecycle ≠ .shutDown := by
  generalize hact : Act.handle .finish = act at h
  cases h with
  | @take _ _ message _ _ _ _ _ => rcases message with c | c | _ <;> cases hact
  | finish hdraining hd hf hl _ => exact ⟨hdraining, hd, hf, hl⟩
  | _ => cases hact

def workerAfter (s : Session σ) : Act → Worker
  | .handle event => s.worker.after event
  | _ => s.worker

theorem Step.worker (h : Step env s act s') : s'.worker = s.workerAfter act := by
  cases act with
  | handle event => exact h.handled.worker
  | send message =>
    cases h
    unfold receive
    split <;> rfl
  | delta => cases h; rfl
  | full => cases h; rfl

/-! ## Soundness -/

theorem isSome_orElse_map {α β : Type} {slot : Option α} {begun : Option β} {f : β → α}
    (h : ∀ p, slot = some p → begun.isSome) : (slot <|> begun.map f).isSome = begun.isSome := by
  cases slot with
  | none => simp
  | some p => simp [h p rfl]

/-- What is in flight after a handler was in flight before it, or was begun. -/
theorem orElse_map_eq_some {α β : Type} {slot : Option α} {begun : Option β} {f : β → α} {p : α}
    (h : (slot <|> begun.map f) = some p) : slot = some p ∨ ∃ b, begun = some b ∧ f b = p := by
  cases slot with
  | none => exact .inr (Option.map_eq_some_iff.mp h)
  | some _ => exact .inl h

theorem Sound.install {told : List (JobId × JobResult)} {w : Worker} {world : σ}
    (hdelta : ∀ p, s.delta = some p → w.delta.isSome ∧
      p.Obeys (Call.Escalating w.user) (fun _ => True) ∧ p.Tells [])
    (hfull : ∀ p, s.full = some p → w.full.isSome ∧ p.Obeys Call.Following (fun _ => True) ∧ p.Tells [])
    (hu : w.Following)
    (hw : w.full = none → w.waiters = [])
    (hc : w.lifecycle = .shutDown → w.draining = true ∧ w.delta = none ∧ w.full = none ∧ s.inbox = []) :
    Sound (s.install told w world) where
  delta_isSome := isSome_orElse_map fun p hp => (hdelta p hp).1
  full_isSome := isSome_orElse_map fun p hp => (hfull p hp).1
  following := hu
  delta p hp := by
    rcases orElse_map_eq_some hp with hp | ⟨context, hcontext, rfl⟩
    · exact (hdelta p hp).2
    · have hobeys := context.obeys_escalating.mono fun _ _ => trivial
      rw [(hu context hcontext).1] at hobeys
      exact ⟨hobeys, context.tells_deltaUpdate⟩
  full p hp := by
    rcases orElse_map_eq_some hp with hp | ⟨run, -, rfl⟩
    · exact (hfull p hp).2
    · exact ⟨run.context.obeys_following.mono fun _ _ => trivial, run.context.tells_fullUpdate⟩
  waiting := hw
  closed h := by
    obtain ⟨hdraining, hd, hf, hinbox⟩ := hc h
    have hnodelta : s.delta = none := Option.eq_none_iff_forall_ne_some.mpr fun p hp => by
      simpa [hd] using (hdelta p hp).1
    have hnofull : s.full = none := Option.eq_none_iff_forall_ne_some.mpr fun p hp => by
      simpa [hf] using (hfull p hp).1
    exact ⟨hdraining, by simp [Session.install, hnodelta, hd], by simp [Session.install, hnofull, hf], hinbox⟩

theorem Sound.handle {base : Session σ} {told : List (JobId × JobResult)} {world : σ} (h : s.Sound)
    (hdelta : base.delta = if event.endsDelta then none else s.delta)
    (hfull : base.full = if event.endsFull then none else s.full)
    (hc : (s.worker.after event).lifecycle = .shutDown → (s.worker.after event).draining = true ∧
      (s.worker.after event).delta = none ∧ (s.worker.after event).full = none ∧ base.inbox = []) :
    Sound (base.install told (s.worker.after event) world) := by
  refine .install (fun p hp => ?_) (fun p hp => ?_) h.following.after
    (s.worker.waiting_after event h.waiting) hc
  · rw [hdelta] at hp
    split at hp
    · cases hp
    · next he =>
      rw [Bool.not_eq_true] at he
      obtain ⟨context, hcontext⟩ := h.exists_context hp
      rw [s.worker.user_after]
      refine ⟨?_, h.delta p hp⟩
      rw [s.worker.delta_after he]
      split
      · rfl
      · rw [hcontext]
        rfl
  · rw [hfull] at hp
    split at hp
    · cases hp
    · next he =>
      rw [Bool.not_eq_true] at he
      obtain ⟨run, hrun⟩ := h.exists_run hp
      exact ⟨by rw [s.worker.full_after he hrun]; rfl, h.full p hp⟩

theorem Sound.step (hs : s.Sound) (h : Step env s act s') : s'.Sound := by
  cases h with
  | @send message =>
    unfold receive
    split
    · exact ⟨hs.delta_isSome, hs.full_isSome, hs.following, hs.delta, hs.full, hs.waiting, hs.closed⟩
    · next h =>
      exact ⟨hs.delta_isSome, hs.full_isSome, hs.following, hs.delta, hs.full, hs.waiting,
        fun hc => absurd hc h⟩
  | @take _ _ message _ hd _ _ hh =>
    obtain ⟨world, -, rfl⟩ := hh.eq
    refine hs.handle ?_ ?_ fun hc => ?_
    · rcases message with c | c | _ <;> rfl
    · rcases message with c | c | _ <;> rfl
    · have hl : s.worker.lifecycle = .shutDown := by
        rw [s.worker.lifecycle_after] at hc
        rcases message with c | c | _ <;> exact hc
      cases (hs.closed hl).1.symm.trans hd
  | @delta p q world hp hstep =>
    obtain ⟨hobeys, htells⟩ := hs.delta p hp
    refine ⟨?_, hs.full_isSome, hs.following, ?_, hs.full, hs.waiting, fun hc => ?_⟩
    · rw [← hs.delta_isSome, hp]
      rfl
    · rintro _ ⟨⟩
      exact ⟨(hobeys.step (I := fun _ => True) (fun _ _ _ => trivial) hstep).1, (htells.silent_step hstep).2⟩
    · cases (hs.closed hc).2.1.symm.trans hp
  | @full p q world hp hstep =>
    obtain ⟨hobeys, htells⟩ := hs.full p hp
    refine ⟨hs.delta_isSome, ?_, hs.following, hs.delta, ?_, hs.waiting, fun hc => ?_⟩
    · rw [← hs.full_isSome, hp]
      rfl
    · rintro _ ⟨⟩
      exact ⟨(hobeys.step (I := fun _ => True) (fun _ _ _ => trivial) hstep).1, (htells.silent_step hstep).2⟩
    · cases (hs.closed hc).2.2.1.symm.trans hp
  | deltaDone hd _ hh =>
    obtain ⟨world, -, rfl⟩ := hh.eq
    refine hs.handle rfl rfl fun hc => ?_
    rw [s.worker.lifecycle_after] at hc
    cases (hs.closed hc).2.1.symm.trans hd
  | fullDone hf _ hh =>
    obtain ⟨world, -, rfl⟩ := hh.eq
    refine hs.handle rfl rfl fun hc => ?_
    rw [s.worker.lifecycle_after] at hc
    cases (hs.closed hc).2.2.1.symm.trans hf
  | finish hdraining hd hf _ hh =>
    obtain ⟨world, -, rfl⟩ := hh.eq
    -- what is left behind was let go of before the handler as well as after it
    have hclose : ∀ told w, (s.install told w world).close =
        Session.install { s with inbox := [] } (told ++ refusals s.inbox) w world := fun told w => by
      simp [Session.install, close]
    rw [hclose]
    exact hs.handle rfl rfl fun _ => ⟨hdraining, hs.delta_none hd, hs.full_none hf, rfl⟩

theorem Begins.eq {user : UserId} {world : σ} (h : Begins env user world s) :
    ∃ settings config initial world',
      Finishes env ((Worker.new user settings config).begin initial) world []
        ((Worker.new user settings config).begun initial) world' ∧
      s = (⟨.new user settings config, none, none, [], [], world⟩ : Session σ).install []
        ((Worker.new user settings config).begun initial) world' := by
  obtain @⟨settings, config, initial, _, told, w, world', hf, rfl⟩ := h
  obtain rfl := ((Worker.new user settings config).tells_begin initial).eq hf
  obtain rfl := ((Worker.new user settings config).obeys_begin settings initial).value hf.ends
  exact ⟨settings, config, initial, world', hf, rfl⟩

theorem Sound.begins {user : UserId} {world : σ} (h : Begins env user world s) :
    s.Sound ∧ s.worker.user = user := by
  obtain ⟨settings, config, initial, world', -, rfl⟩ := h.eq
  obtain ⟨hu, hl, hw⟩ := (Worker.new user settings config).begun_frame initial
  exact ⟨.install (fun p hp => nomatch hp) (fun p hp => nomatch hp) (.begun rfl initial) (fun _ => hw)
    (fun h => nomatch hl.symm.trans h), hu⟩

theorem Begins.fresh {user : UserId} {world : σ} (h : Begins env user world s) :
    s.told = [] ∧ s.worker.waiters = [] ∧ s.inbox = [] ∧ s.worker.lifecycle = .running := by
  obtain ⟨settings, config, initial, world', -, rfl⟩ := h.eq
  obtain ⟨-, hl, hw⟩ := (Worker.new user settings config).begun_frame initial
  exact ⟨rfl, hw, rfl, hl⟩

theorem Step.user (h : Step env s act s') : s'.worker.user = s.worker.user := by
  rw [h.worker]
  cases act with
  | handle event => exact s.worker.user_after event
  | _ => rfl

theorem Lives.sound {user : UserId} (h : s.Lives env user) : s.Sound ∧ s.worker.user = user := by
  induction h with
  | «begin» h => exact Sound.begins h
  | step _ hstep ih => exact ⟨ih.1.step hstep, hstep.user.trans ih.2⟩
  | restart _ h _ => exact Sound.begins h

theorem Step.told (hs : s.Sound) (h : Step env s act s') : s'.told = s.told ++ s.answers act := by
  cases act with
  | handle event => exact h.handled.told
  | send message =>
    cases h
    unfold receive answers
    split
    · rfl
    · exact (List.append_nil _).symm
  | delta =>
    cases h with
    | delta hp hstep => exact congrArg (s.told ++ ·) ((hs.delta _ hp).2.silent_step hstep).1
  | full =>
    cases h with
    | full hp hstep => exact congrArg (s.told ++ ·) ((hs.full _ hp).2.silent_step hstep).1

/-! ## Along a path -/

variable {t : Session σ} {turns turns' : List (Turn σ)} {turn : Turn σ}

theorem Path.append (h : Path env s turns s') (h' : Path env s' turns' t) :
    Path env s (turns' ++ turns) t := by
  induction h' with
  | nil => exact h
  | step _ hstep ih => exact ih.step hstep

theorem Path.split (h : Path env s (turns' ++ turn :: turns) t) :
    Path env s turns turn.before ∧ Step env turn.before turn.act turn.after ∧ Path env turn.after turns' t := by
  generalize hall : turns' ++ turn :: turns = all at h
  induction h generalizing turns' with
  | nil => simp at hall
  | step hpath hstep ih =>
    cases turns' with
    | nil =>
      obtain ⟨rfl, rfl⟩ := List.cons.inj hall
      exact ⟨hpath, hstep, .nil⟩
    | cons _ turns' =>
      obtain ⟨rfl, htail⟩ := List.cons.inj hall
      obtain ⟨hbefore, hturn, hafter⟩ := ih htail
      exact ⟨hbefore, hturn, hafter.step hstep⟩

theorem Path.step_of_mem (h : Path env s turns t) (hturn : turn ∈ turns) :
    (∃ earlier, Path env s earlier turn.before) ∧ Step env turn.before turn.act turn.after := by
  obtain ⟨later, earlier, rfl⟩ := List.append_of_mem hturn
  obtain ⟨hbefore, hstep, -⟩ := h.split
  exact ⟨⟨earlier, hbefore⟩, hstep⟩

theorem Path.sound (hs : s.Sound) (h : Path env s turns t) : t.Sound := by
  induction h with
  | nil => exact hs
  | step _ hstep ih => exact ih.step hstep

theorem Lives.path {user : UserId} (hs : s.Lives env user) (h : Path env s turns t) : t.Lives env user := by
  induction h with
  | nil => exact hs
  | step _ hstep ih => exact ih.step hstep

theorem Path.user (h : Path env s turns t) : t.worker.user = s.worker.user := by
  induction h with
  | nil => rfl
  | step _ hstep ih => exact hstep.user.trans ih

theorem Path.full_stays {run : FullRun} (h : Path env s turns t) (hf : s.worker.full = some run)
    (hends : ∀ turn ∈ turns, turn.act.endsFull = false) : t.worker.full = some run := by
  induction h with
  | nil => exact hf
  | @step _ before act after hpath hstep ih =>
    obtain ⟨hend, hearlier⟩ := List.forall_mem_cons.mp hends
    rw [hstep.worker]
    cases act with
    | handle event => exact before.worker.full_after hend (ih hearlier)
    | _ => exact ih hearlier

/-- What some steps of a program do, one kind of step of a session does while nothing else happens. -/
theorem Path.leads {α : Type} {w : Worker} {p q : Program α} {told : List (JobId × JobResult)} {world world' : σ}
    (put : Program α → List (JobId × JobResult) → σ → Session σ)
    (hw : ∀ p told world, (put p told world).worker = w)
    (hstep : ∀ {p q world world'} told, Program.Step env p world q world' →
      Step env (put p told world) act (put q (told ++ p.answering) world'))
    (hl : Leads env p world told q world') (before : List (JobId × JobResult)) :
    ∃ turns, Path env (put p before world) turns (put q (before ++ told) world') ∧
      ∀ turn ∈ turns, turn.act = act ∧ turn.before.worker = w := by
  induction hl generalizing before with
  | refl =>
    rw [List.append_nil]
    exact ⟨[], .nil, fun _ h => nomatch h⟩
  | @step p q _ world _ _ told hs _ ih =>
    obtain ⟨turns, hpath, hturns⟩ := ih (before ++ p.answering)
    rw [List.append_assoc] at hpath
    refine ⟨turns ++ [⟨put p before world, act, _⟩], (Path.nil.step (hstep before hs)).append hpath,
      fun turn hturn => ?_⟩
    rcases List.mem_append.mp hturn with h | h
    · exact hturns turn h
    · rw [List.mem_singleton.mp h]
      exact ⟨rfl, hw ..⟩

theorem Path.delta {p q : Program CycleContext.DeltaOutcome} {told : List (JobId × JobResult)} {world : σ}
    (hd : s.delta = some p) (hl : Leads env p s.world told q world) :
    ∃ turns, Path env s turns { s with delta := some q, told := s.told ++ told, world := world } ∧
      ∀ turn ∈ turns, turn.act = .delta ∧ turn.before.worker = s.worker := by
  obtain ⟨w, _, full, inbox, before, world'⟩ := s
  obtain rfl := hd
  exact Path.leads (fun p told world => ⟨w, some p, full, inbox, told, world⟩) (fun _ _ _ => rfl)
    (fun _ hs => .delta rfl hs) hl before

theorem Path.full {p q : Program CycleContext.FullOutcome} {told : List (JobId × JobResult)} {world : σ}
    (hf : s.full = some p) (hl : Leads env p s.world told q world) :
    ∃ turns, Path env s turns { s with full := some q, told := s.told ++ told, world := world } ∧
      ∀ turn ∈ turns, turn.act = .full ∧ turn.before.worker = s.worker := by
  obtain ⟨w, delta, _, inbox, before, world'⟩ := s
  obtain rfl := hf
  exact Path.leads (fun p told world => ⟨w, delta, some p, inbox, told, world⟩) (fun _ _ _ => rfl)
    (fun _ hs => .full rfl hs) hl before

end Session

end ContactsIndex
