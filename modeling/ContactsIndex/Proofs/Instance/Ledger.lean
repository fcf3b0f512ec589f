import ContactsIndex.Proofs.Instance.Session

/-!
# Jobs and their results

Each job that asks for a full update is told one result. Until then its message is on the
way or it waits for the full update in flight, and every step keeps account of that
(`Step.ledger`). Who waits shares the result of the full update that was in flight when the
message was taken up; whose message is never taken up is told that the job was cancelled.
-/

namespace ContactsIndex

open Program
open Bench (Message)

/-! ## Accounts -/

namespace Worker

variable (w : Worker)

theorem replies_perm (message : Message) :
    ((w.replies message.event).map (·.1) ++ (w.after message.event).waiters).Perm
      (w.waiters ++ jobsOf [message]) := by
  rw [waiters_after]
  rcases message with (_ | job) | c | _
  · simp [Message.event, replies, Message.job?]
  · cases hen : w.config.enabled with
    | true => simp [Message.event, replies, Message.job?, hen]
    | false =>
      simp only [Message.event, replies, hen, Bool.false_eq_true, if_false, jobs_of_told]
      simpa [Message.job?] using List.perm_append_comm
  · simp [Message.event, replies, Message.job?]
  · simp [Message.event, replies, Message.job?]

end Worker

namespace Session

variable {σ : Type} {env : Environment σ} {s s' t : Session σ} {act : Act} {turns : List (Turn σ)}

/-- The jobs that were told a result, those that wait, and those whose messages are on the way. -/
def ledger (s : Session σ) : List JobId :=
  s.told.map (·.1) ++ s.worker.waiters ++ jobsOf s.inbox

def Act.asks : Act → List JobId
  | .send message => jobsOf [message]
  | _ => []

def requested (turns : List (Turn σ)) : List JobId :=
  turns.flatMap (·.act.asks)

theorem ledger_perm {told : List (JobId × JobResult)} {asked : List JobId} (htold : s'.told = s.told ++ told)
    (h : (told.map (·.1) ++ s'.worker.waiters ++ jobsOf s'.inbox).Perm
      (asked ++ s.worker.waiters ++ jobsOf s.inbox)) : s'.ledger.Perm (asked ++ s.ledger) := by
  rw [List.perm_iff_count] at h ⊢
  intro job
  have hcount := h job
  simp only [ledger, htold, List.map_append, List.count_append] at hcount ⊢
  omega

theorem Step.ledger (hs : s.Sound) (h : Step env s act s') : s'.ledger.Perm (act.asks ++ s.ledger) := by
  cases h with
  | @send message =>
    unfold receive
    split
    · refine ledger_perm rfl ?_
      rw [jobs_of_refusals]
      exact .refl _
    · refine ledger_perm (List.append_nil _).symm ?_
      have hcomm : ((s.worker.waiters ++ jobsOf s.inbox) ++ message.job?.toList).Perm _ := List.perm_append_comm
      simpa [Act.asks] using hcomm
  | @take _ before message after _ hin _ hh =>
    obtain ⟨world, -, rfl⟩ := hh.eq
    refine ledger_perm (install_told ..) ?_
    -- the message leaves the inbox, and its job waits or is answered
    have htaken := List.perm_iff_count.mp (s.worker.replies_perm message)
    rw [List.perm_iff_count]
    intro job
    have hcount := htaken job
    simp only [install_worker, install_inbox, hin, Act.asks, jobsOf_append, jobsOf_cons, jobsOf_nil,
      List.count_append, List.count_nil] at hcount ⊢
    omega
  | delta hp hstep =>
    refine ledger_perm (congrArg (s.told ++ ·) ((hs.delta _ hp).2.silent_step hstep).1) ?_
    exact .refl _
  | full hp hstep =>
    refine ledger_perm (congrArg (s.told ++ ·) ((hs.full _ hp).2.silent_step hstep).1) ?_
    exact .refl _
  | deltaDone _ _ hh =>
    obtain ⟨world, -, rfl⟩ := hh.eq
    refine ledger_perm (install_told ..) ?_
    simp [Act.asks, Worker.replies, Worker.waiters_after]
  | fullDone _ _ hh =>
    obtain ⟨world, -, rfl⟩ := hh.eq
    refine ledger_perm (install_told ..) ?_
    rw [Worker.replies, jobs_of_told]
    simp [Act.asks, Worker.waiters_after]
  | finish _ _ _ _ hh =>
    obtain ⟨world, -, rfl⟩ := hh.eq
    refine ledger_perm (List.append_assoc ..) ?_
    rw [List.map_append, jobs_of_refusals, Worker.replies, jobs_of_told]
    simp [Act.asks, close, Worker.waiters_after]

theorem Path.ledger (hs : s.Sound) (h : Path env s turns t) : t.ledger.Perm (requested turns ++ s.ledger) := by
  induction h with
  | nil => exact .refl _
  | step hpath hstep ih =>
    refine (hstep.ledger (hpath.sound hs)).trans ?_
    simpa [requested] using ih.append_left _

/-! ## What a job is told -/

namespace Turn

def Tells (turn : Turn σ) (job : JobId) (result : JobResult) : Prop :=
  ∃ told, turn.after.told = turn.before.told ++ told ∧ (job, result) ∈ told

end Turn

/-- Since it was taken up, the job has waited for this full update; and if that one has ended
meanwhile, the job was told whether it completed, was cancelled or met an error. -/
def Shares (s : Session σ) (turns : List (Turn σ)) (run : FullRun) (job : JobId) : Prop :=
  ((∀ other ∈ turns, other.act.endsFull = false) ∧ s.worker.full = some run ∧ job ∈ s.worker.waiters) ∨
    ∃ later last between outcome, turns = later ++ last :: between ∧
      (∀ other ∈ between, other.act.endsFull = false) ∧ last.act = .handle (.fullDone run outcome) ∧
      last.Tells job (match outcome.result with
        | .ok .completed => .succeeded
        | .ok .cancelled => .cancelled
        | .error _ => .failed)

variable {job : JobId} {run : FullRun}

theorem Step.waits (hs : s.Sound) (h : Step env s act s') (hf : s.worker.full = some run)
    (hw : job ∈ s.worker.waiters) (hend : act.endsFull = false) : job ∈ s'.worker.waiters := by
  rw [h.worker]
  cases act with
  | handle event =>
    rw [workerAfter, s.worker.waiters_after]
    cases event with
    | command c =>
      cases c with
      | contactsChanged => exact hw
      | runFullUpdate other =>
        dsimp only
        split
        · exact List.mem_append_left _ hw
        · exact hw
    | fullDone run outcome => cases hend
    | finish =>
      have hsome := hs.full_isSome
      rw [h.of_finish.2.2.1, hf] at hsome
      cases hsome
    | _ => exact hw
  | _ => exact hw

theorem Step.tells {outcome : CycleContext.FullOutcome} (h : Step env s (.handle (.fullDone run outcome)) s')
    (hw : job ∈ s.worker.waiters) :
    Turn.Tells ⟨s, .handle (.fullDone run outcome), s'⟩ job (match outcome.result with
      | .ok .completed => .succeeded
      | .ok .cancelled => .cancelled
      | .error _ => .failed) := by
  refine ⟨_, h.handled.told, ?_⟩
  rcases outcome with ⟨e | _ | _, stats⟩ <;> exact List.mem_map_of_mem hw

theorem Path.waits (hs : s.Sound) (h : Path env s turns t) (hf : s.worker.full = some run)
    (hw : job ∈ s.worker.waiters) :
    t.Shares turns run job := by
  induction h with
  | nil => exact .inl ⟨List.forall_mem_nil _, hf, hw⟩
  | @step _ before act after hpath hstep ih =>
    rcases ih with ⟨hends, hfull, hwaits⟩ | ⟨later, last, between, outcome, rfl, hlast⟩
    · cases hend : act.endsFull with
      | true =>
        obtain ⟨run', outcome, rfl⟩ := Act.endsFull_iff.mp hend
        obtain rfl := Option.some.inj (hstep.of_fullDone.2.symm.trans hfull)
        exact .inr ⟨[], _, _, outcome, rfl, hends, rfl, hstep.tells hwaits⟩
      | false =>
        have hstays := (Path.nil.step hstep).full_stays hfull (List.forall_mem_singleton.mpr hend)
        exact .inl ⟨List.forall_mem_cons.mpr ⟨hend, hends⟩, hstays, hstep.waits (hpath.sound hs) hfull hwaits hend⟩
    · exact .inr ⟨_ :: later, last, between, outcome, rfl, hlast⟩

/-- A job whose message is taken up while indexing is enabled waits for the full update that is in
flight then, or for one that is begun for it. -/
theorem Step.attaches (h : Step env s (.handle (.command (.runFullUpdate (some job)))) s')
    (hen : s.worker.config.enabled = true) : job ∈ s'.worker.waiters ∧
      s'.worker.full = some (s.worker.full.getD ⟨s.worker.context, some job⟩) := by
  rw [h.worker, workerAfter, s.worker.waiters_after, s.worker.full_afterRequest]
  simp [hen]

theorem Step.skips (h : Step env s (.handle (.command (.runFullUpdate (some job)))) s')
    (hen : s.worker.config.enabled = false) :
    Turn.Tells ⟨s, .handle (.command (.runFullUpdate (some job))), s'⟩ job .succeeded ∧ s'.worker = s.worker := by
  refine ⟨⟨_, h.handled.told, ?_⟩, ?_⟩
  · simp [answers, Worker.replies, hen]
  · rw [h.worker]
    simp [workerAfter, Worker.after, Worker.afterCommand, hen]

theorem Path.refuses (h : Path env s turns t) (hin : .command (.runFullUpdate (some job)) ∈ s.inbox)
    (hno : ∀ turn ∈ turns, turn.act ≠ .handle (.command (.runFullUpdate (some job)))) :
    .command (.runFullUpdate (some job)) ∈ t.inbox ∨ ∃ turn ∈ turns, turn.Tells job .cancelled := by
  induction h with
  | nil => exact .inl hin
  | @step _ before act after hpath hstep ih =>
    obtain ⟨hact, hearlier⟩ := List.forall_mem_cons.mp hno
    rcases ih hearlier with hmem | ⟨turn, hturn, htells⟩
    · cases hstep with
      | send =>
        refine .inl ?_
        unfold receive
        split
        · exact hmem
        · exact mem_queue hmem rfl
      | take _ hinbox _ hh =>
        obtain ⟨world, -, rfl⟩ := hh.eq
        refine .inl ?_
        rw [hinbox, List.mem_append, List.mem_cons] at hmem
        rcases hmem with hmem | rfl | hmem
        · exact List.mem_append_left _ hmem
        · exact absurd rfl hact
        · exact List.mem_append_right _ hmem
      | finish _ _ _ _ hh =>
        obtain ⟨world, -, rfl⟩ := hh.eq
        refine .inr ⟨_, List.mem_cons_self .., _, List.append_assoc .., ?_⟩
        exact List.mem_append_right _ (mem_refusals hmem)
      | delta _ _ => exact .inl hmem
      | full _ _ => exact .inl hmem
      | deltaDone _ _ hh =>
        obtain ⟨world, -, rfl⟩ := hh.eq
        exact .inl hmem
      | fullDone _ _ hh =>
        obtain ⟨world, -, rfl⟩ := hh.eq
        exact .inl hmem
    · exact .inr ⟨turn, List.mem_cons_of_mem _ hturn, htells⟩

theorem Path.cancels {later earlier : List (Turn σ)} {turn : Turn σ} (hs : s.Sound)
    (h : Path env s (later ++ turn :: earlier) t) (hclosed : t.worker.lifecycle = .shutDown)
    (hsent : turn.act = .send (.command (.runFullUpdate (some job))))
    (hno : ∀ other ∈ later, other.act ≠ .handle (.command (.runFullUpdate (some job)))) :
    ∃ other ∈ later ++ [turn], other.Tells job .cancelled := by
  have hsound := h.sound hs
  obtain ⟨hbefore, hstep, hafter⟩ := h.split
  by_cases hopen : turn.before.worker.lifecycle = .shutDown
  · have htold := hstep.told (hbefore.sound hs)
    rw [hsent, answers, if_pos hopen] at htold
    exact ⟨turn, by simp, _, htold, by simp [refusals, Message.job?]⟩
  · have hin : .command (.runFullUpdate (some job)) ∈ turn.after.inbox := by
      rw [hsent] at hstep
      rw [hstep.of_send, receive, if_neg hopen]
      exact mem_queue_self ..
    rcases hafter.refuses hin hno with hmem | ⟨other, hother, htells⟩
    · rw [(hsound.closed hclosed).2.2.2] at hmem
      cases hmem
    · exact ⟨other, List.mem_append_left _ hother, htells⟩

/-! ## Shutting down -/

namespace Turn

/-- A cycle is begun, where none of its kind was in flight or the one in flight has ended. -/
def Begins (turn : Turn σ) : Prop :=
  (turn.after.worker.delta.isSome ∧ (turn.before.worker.delta = none ∨ turn.act.endsDelta = true)) ∨
  (turn.after.worker.full.isSome ∧ (turn.before.worker.full = none ∨ turn.act.endsFull = true))

end Turn

theorem Step.draining (h : Step env s act s') (hd : s.worker.draining = true) : s'.worker.draining = true := by
  rw [h.worker]
  cases act with
  | handle event =>
    rw [workerAfter, s.worker.draining_after]
    cases event <;> first | rfl | exact hd
  | _ => exact hd

theorem Path.draining (h : Path env s turns t) (hd : s.worker.draining = true) :
    t.worker.draining = true ∧ ∀ turn ∈ turns, turn.before.worker.draining = true := by
  induction h with
  | nil => exact ⟨hd, List.forall_mem_nil _⟩
  | step _ hstep ih => exact ⟨hstep.draining ih.1, List.forall_mem_cons.mpr ih⟩

/-- A cycle in flight stays in flight until it has come to its end and that is handled, and when the
instance has ended there are none. -/
structure Turn.Awaits (turn : Turn σ) : Prop where
  delta : ∀ context, turn.before.worker.delta = some context → turn.after.worker.delta = some context ∨
    ∃ outcome, turn.before.delta = some (.done outcome) ∧ turn.act = .handle (.deltaDone context outcome [])
  full : ∀ run, turn.before.worker.full = some run → turn.after.worker.full = some run ∨
    ∃ outcome, turn.before.full = some (.done outcome) ∧ turn.act = .handle (.fullDone run outcome)
  closed : turn.after.worker.lifecycle = .shutDown → turn.after.worker.delta = none ∧ turn.after.worker.full = none

theorem Step.awaits (hs : s.Sound) (h : Step env s act s') : Turn.Awaits ⟨s, act, s'⟩ where
  delta context hd := by
    dsimp only at hd ⊢
    rw [h.worker]
    cases act with
    | handle event =>
      cases he : event.endsDelta with
      | true =>
        cases event with
        | deltaDone context' outcome log =>
          obtain ⟨hp, hw, rfl⟩ := h.of_deltaDone
          obtain rfl := Option.some.inj (hw.symm.trans hd)
          exact .inr ⟨outcome, hp, rfl⟩
        | _ => cases he
      | false =>
        refine .inl ?_
        rw [workerAfter, s.worker.delta_after he, hd]
        exact ite_self _
    | _ => exact .inl hd
  full run hf := by
    dsimp only at hf ⊢
    rw [h.worker]
    cases act with
    | handle event =>
      cases he : event.endsFull with
      | true =>
        obtain ⟨run', outcome, hact⟩ := Act.endsFull_iff.mp (show Act.endsFull (.handle event) = true from he)
        rw [hact] at h ⊢
        obtain ⟨hp, hw⟩ := h.of_fullDone
        obtain rfl := Option.some.inj (hw.symm.trans hf)
        exact .inr ⟨outcome, hp, rfl⟩
      | false => exact .inl (s.worker.full_after he hf)
    | _ => exact .inl hf
  closed hc := by
    obtain ⟨-, hd, hf, -⟩ := (hs.step h).closed hc
    exact ⟨(hs.step h).delta_none hd, (hs.step h).full_none hf⟩

theorem Step.winds_down (h : Step env s act s') (hd : s.worker.draining = true) :
    s'.worker.delta = (if act.endsDelta then none else s.worker.delta) ∧
      s'.worker.full = if act.endsFull then none else s.worker.full := by
  have hworker := h.worker
  cases h with
  | send => exact ⟨congrArg Worker.delta hworker, congrArg Worker.full hworker⟩
  | take hrunning _ _ _ => cases hd.symm.trans hrunning
  | delta _ _ => exact ⟨rfl, rfl⟩
  | full _ _ => exact ⟨rfl, rfl⟩
  | @deltaDone _ context outcome _ _ _ =>
    rw [hworker]
    exact ⟨(s.worker.delta_afterDelta outcome).trans (if_neg (by simp [hd])), (s.worker.afterDelta_eq outcome).2.1⟩
  | @fullDone _ run outcome _ _ _ =>
    rw [hworker]
    exact ⟨(s.worker.afterFull_eq outcome).2.2.1, (s.worker.afterFull_eq outcome).2.1⟩
  | finish _ _ _ _ _ =>
    rw [hworker]
    exact ⟨rfl, rfl⟩

theorem Step.calm (h : Step env s act s') (hd : s.worker.draining = true) : ¬Turn.Begins ⟨s, act, s'⟩ := by
  obtain ⟨hdelta, hfull⟩ := h.winds_down hd
  rintro (⟨hsome, hbegun⟩ | ⟨hsome, hbegun⟩)
  · dsimp only at hsome hbegun
    rw [hdelta] at hsome
    rcases hbegun with hnone | hends
    · simp [hnone] at hsome
    · simp [hends] at hsome
  · dsimp only at hsome hbegun
    rw [hfull] at hsome
    rcases hbegun with hnone | hends
    · simp [hnone] at hsome
    · simp [hends] at hsome

def Ended (s : Session σ) : Prop :=
  s.worker.lifecycle = .shutDown → s.worker.published.lifecycle = .shutDown ∧
    s.worker.published.delta = .idle ∧ s.worker.published.fullRunning = false

theorem Step.of_closed (hs : s.Sound) (h : Step env s act s') (hc : s.worker.lifecycle = .shutDown) :
    (∃ message, act = .send message) ∧ s'.worker = s.worker := by
  obtain ⟨hdraining, hd, hf, -⟩ := hs.closed hc
  have hworker := h.worker
  cases h with
  | send => exact ⟨⟨_, rfl⟩, hworker⟩
  | take hrunning _ _ _ => cases hdraining.symm.trans hrunning
  | delta hp _ => cases hd.symm.trans hp
  | full hp _ => cases hf.symm.trans hp
  | deltaDone hp _ _ => cases hd.symm.trans hp
  | fullDone hp _ _ => cases hf.symm.trans hp
  | finish _ _ _ hopen _ => exact absurd hc hopen

theorem Step.ended (hs : s.Sound) (he : s.Ended) (h : Step env s act s') : s'.Ended := by
  intro hc
  by_cases hclosed : s.worker.lifecycle = .shutDown
  · rw [(h.of_closed hs hclosed).2]
    exact he hclosed
  · rw [h.worker] at hc ⊢
    cases act with
    | handle event =>
      rw [workerAfter, s.worker.lifecycle_after] at hc
      cases event with
      | finish =>
        obtain ⟨-, hd, hf, -⟩ := h.of_finish
        refine ⟨rfl, ?_, congrArg Option.isSome (hs.full_none hf)⟩
        change Worker.phase _ = .idle
        unfold Worker.phase
        rw [hs.delta_none hd]
      | _ => exact absurd hc hclosed
    | _ => exact absurd hc hclosed

theorem Path.ended (hs : s.Sound) (he : s.Ended) (h : Path env s turns t) : t.Ended := by
  induction h with
  | nil => exact he
  | step hpath hstep ih => exact hstep.ended (hpath.sound hs) ih

end Session

end ContactsIndex
