import ContactsIndex.Proofs.Instance.Jobs
import ContactsIndex.Proofs.Instance.Ledger

/-!
# What goes on by itself

Where every call is answered, an instance that nobody sends anything goes on until nothing is
left to do: it has taken up its messages or refused them, its cycles have come to their ends,
and if it was to shut down it has ended. There is always a step to take until then
(`Sound.goes`), and no run of such steps is infinite (`Goes.less`), since programs are
finite, a message starts few cycles and a cycle is followed by at most one that is due.
-/

namespace ContactsIndex

open Program

namespace Program

variable {σ α : Type} {env : Environment σ}

theorem exists_step (h : env.Responsive) (p : Program α) (s : σ) :
    (∃ a, p = .done a) ∨ ∃ q t, Step env p s q t := by
  cases p with
  | done a => exact .inl ⟨a, rfl⟩
  | now next =>
    obtain ⟨time, ht⟩ := h.clock
    exact .inr ⟨_, _, .now ht⟩
  | cancelled next =>
    obtain ⟨b, hb⟩ := h.token
    exact .inr ⟨_, _, .cancelled hb⟩
  | note event next => exact .inr ⟨_, _, .note⟩
  | answer job result next => exact .inr ⟨_, _, .answer⟩
  | call c next =>
    obtain ⟨r, t, ha⟩ := h.answers c s
    exact .inr ⟨_, _, .call ha⟩
  | both c d next later =>
    obtain ⟨r, t, ha⟩ := h.answers c s
    exact .inr ⟨_, _, .first ha⟩

/-- What is left of a program after one of its steps, or after its end. -/
inductive Shorter (env : Environment σ) : Option (Program α) → Option (Program α) → Prop
  | ended {p} : Shorter env none (some p)
  | step {p q s t} : Step env p s q t → Shorter env (some q) (some p)

theorem wellFounded_shorter (env : Environment σ) : WellFounded (Shorter env (α := α)) := by
  have hnone : Acc (Shorter env) (none : Option (Program α)) := ⟨_, fun _ h => nomatch h⟩
  have hsome (p : Program α) (hp : ∀ q s t, Step env p s q t → Acc (Shorter env) (some q)) :
      Acc (Shorter env) (some p) := by
    refine ⟨_, fun left h => ?_⟩
    cases h with
    | ended => exact hnone
    | step hs => exact hp _ _ _ hs
  refine ⟨fun p => ?_⟩
  cases p with
  | none => exact hnone
  | some p =>
    induction p with
    | done a => exact hsome _ fun _ _ _ hs => nomatch hs
    | now next ih => exact hsome _ fun | _, _, _, .now _ => ih _
    | cancelled next ih => exact hsome _ fun | _, _, _, .cancelled _ => ih _
    | note event next ih => exact hsome _ fun | _, _, _, .note => ih
    | answer job result next ih => exact hsome _ fun | _, _, _, .answer => ih
    | call c next ih => exact hsome _ fun | _, _, _, .call _ => ih _
    | both c d next later ih ih' =>
      exact hsome _ fun
        | _, _, _, .first _ => ih _
        | _, _, _, .second _ _ => ih' _

end Program

namespace Session

variable {σ : Type} {env : Environment σ}

/-- The session goes on by itself: nobody sends it anything. -/
def Goes (env : Environment σ) (s s' : Session σ) : Prop :=
  ∃ act, Step env s act s' ∧ ∀ message, act ≠ .send message

/-- Whatever the session does by itself, it gets to such a state. -/
inductive Inevitably (env : Environment σ) (P : Session σ → Prop) : Session σ → Prop
  | now {s} : P s → Inevitably env P s
  | later {s s'} : Goes env s s' → (∀ s', Goes env s s' → Inevitably env P s') → Inevitably env P s

structure Settled (s : Session σ) : Prop where
  inbox : s.inbox = []
  waiters : s.worker.waiters = []
  delta : s.worker.delta = none
  full : s.worker.full = none
  ended : s.worker.draining = true → s.worker.lifecycle = .shutDown

variable {s s' : Session σ}

/-! ## There is a step to take -/

theorem exists_handles (hr : env.Responsive) (s : Session σ) (handler : Program Worker) :
    ∃ s', Handles env s handler s' := by
  obtain ⟨told, w, world, hf⟩ := exists_finishes hr handler s.world
  exact ⟨_, told, w, world, hf, rfl⟩

theorem Sound.delta_goes {p : Program CycleContext.DeltaOutcome} (hr : env.Responsive) (hs : s.Sound)
    (hp : s.delta = some p) : ∃ s', Goes env s s' := by
  rcases exists_step hr p s.world with ⟨outcome, rfl⟩ | ⟨q, world, hstep⟩
  · obtain ⟨context, hc⟩ := hs.exists_context hp
    obtain ⟨s', hh⟩ := exists_handles hr { s with delta := none } (s.worker.handle (.deltaDone context outcome []))
    exact ⟨s', _, .deltaDone hp hc hh, nofun⟩
  · exact ⟨_, _, .delta hp hstep, nofun⟩

theorem Sound.full_goes {p : Program CycleContext.FullOutcome} (hr : env.Responsive) (hs : s.Sound)
    (hp : s.full = some p) : ∃ s', Goes env s s' := by
  rcases exists_step hr p s.world with ⟨outcome, rfl⟩ | ⟨q, world, hstep⟩
  · obtain ⟨run, hrun⟩ := hs.exists_run hp
    obtain ⟨s', hh⟩ := exists_handles hr { s with full := none } (s.worker.handle (.fullDone run outcome))
    exact ⟨s', _, .fullDone hp hrun hh, nofun⟩
  · exact ⟨_, _, .full hp hstep, nofun⟩

theorem Sound.goes (hr : env.Responsive) (hs : s.Sound) (hleft : ¬s.Settled) : ∃ s', Goes env s s' := by
  cases hd : s.delta with
  | some p => exact hs.delta_goes hr hd
  | none =>
    cases hf : s.full with
    | some p => exact hs.full_goes hr hf
    | none =>
      have hdelta := hs.delta_none hd
      have hfull := hs.full_none hf
      have hwaiters := hs.waiting hfull
      cases hdraining : s.worker.draining with
      | true =>
        by_cases hclosed : s.worker.lifecycle = .shutDown
        · exact absurd ⟨(hs.closed hclosed).2.2.2, hwaiters, hdelta, hfull, fun _ => hclosed⟩ hleft
        · obtain ⟨s', hh⟩ := exists_handles hr s (s.worker.handle .finish)
          exact ⟨_, _, .finish hdraining hd hf hclosed hh, nofun⟩
      | false =>
        cases hin : s.inbox with
        | nil => exact absurd ⟨hin, hwaiters, hdelta, hfull, fun h => nomatch hdraining.symm.trans h⟩ hleft
        | cons message inbox =>
          obtain ⟨s', hh⟩ := exists_handles hr { s with inbox := inbox } (s.worker.handle message.event)
          exact ⟨_, _, .takeFirst hdraining hin hh, nofun⟩

/-! ## There are only so many -/

/-- How often something may still be begun. -/
def due (s : Session σ) : Nat :=
  (if s.worker.lifecycle = .shutDown then 0 else 1) + 2 * s.inbox.length + s.worker.rerun.toNat

def left (s : Session σ) :
    Nat × Option (Program CycleContext.DeltaOutcome) × Option (Program CycleContext.FullOutcome) :=
  (s.due, s.delta, s.full)

/-- Fewer things may still be begun, or else less is left of the delta update, or else of the full update. -/
def Less (env : Environment σ) (s' s : Session σ) : Prop :=
  Prod.Lex (· < ·) (Prod.Lex (Shorter env) (Shorter env)) s'.left s.left

theorem wellFounded_less (env : Environment σ) : WellFounded (Less env) :=
  InvImage.wf left (Prod.lex Nat.lt_wfRel
    (Prod.lex ⟨_, wellFounded_shorter env⟩ ⟨_, wellFounded_shorter env⟩)).wf

theorem Less.of_due (h : s'.due < s.due) : Less env s' s :=
  .left _ _ h

theorem Less.of_delta (hdue : s'.due = s.due) (h : Shorter env s'.delta s.delta) : Less env s' s := by
  unfold Less left
  rw [hdue]
  exact .right _ (.left _ _ h)

theorem Less.of_full (hdue : s'.due = s.due) (hdelta : s'.delta = s.delta) (h : Shorter env s'.full s.full) :
    Less env s' s := by
  unfold Less left
  rw [hdue, hdelta]
  exact .right _ (.right _ h)

theorem Goes.sound (hs : s.Sound) (h : Goes env s s') : s'.Sound := by
  obtain ⟨act, hstep, -⟩ := h
  exact hs.step hstep

theorem Goes.less (hs : s.Sound) (h : Goes env s s') : Less env s' s := by
  obtain ⟨act, hstep, hact⟩ := h
  cases hstep with
  | send => exact absurd rfl (hact _)
  | @take _ before message after hdraining hin _ hh =>
    obtain ⟨world, -, rfl⟩ := hh.eq
    have hl : (s.worker.after message.event).lifecycle = s.worker.lifecycle := by
      rw [s.worker.lifecycle_after]
      rcases message with c | c | _ <;> rfl
    -- a message may set the flag for a further delta update, which is why it counts twice
    have hr := (s.worker.after message.event).rerun.toNat_le
    refine .of_due ?_
    simp only [due, install_worker, install_inbox, hl, hin, List.length_append, List.length_cons]
    omega
  | delta hp hstep => exact .of_delta rfl (hp ▸ .step hstep)
  | full hp hstep => exact .of_full rfl rfl (hp ▸ .step hstep)
  | @deltaDone _ context outcome hp _ hh =>
    obtain ⟨world, -, rfl⟩ := hh.eq
    have hl := s.worker.lifecycle_after (.deltaDone context outcome [])
    have hr : (s.worker.after (.deltaDone context outcome [])).rerun = false := s.worker.rerun_afterDelta outcome
    cases hrerun : s.worker.rerun with
    | true =>
      refine .of_due ?_
      simp only [due, install_worker, install_inbox, hl, hr, hrerun, Bool.toNat_false, Bool.toNat_true]
      omega
    | false =>
      have hnone : (s.worker.after (.deltaDone context outcome [])).delta = none :=
        (s.worker.delta_afterDelta outcome).trans (if_neg (by simp [hrerun]))
      refine .of_delta ?_ ?_
      · simp only [due, install_worker, install_inbox, hl, hr, hrerun]
      · rw [hp, Session.install, hnone]
        exact .ended
  | @fullDone _ run outcome hp _ hh =>
    obtain ⟨world, -, rfl⟩ := hh.eq
    have hl := s.worker.lifecycle_after (.fullDone run outcome)
    have hr : (s.worker.after (.fullDone run outcome)).rerun = _ := (s.worker.afterFull_flags outcome).2
    have hfull : (s.worker.after (.fullDone run outcome)).full = none := (s.worker.afterFull_eq outcome).2.1
    have hdelta : (s.worker.after (.fullDone run outcome)).delta = _ := (s.worker.afterFull_eq outcome).2.2.1
    refine .of_full ?_ ?_ ?_
    · simp only [due, install_worker, install_inbox, hl, hr]
    · rw [Session.install, hdelta]
      cases hd : s.delta with
      | some p => rfl
      | none => rw [hs.delta_none hd]; rfl
    · rw [hp, Session.install, hfull]
      exact .ended
  | finish _ _ _ hopen hh =>
    obtain ⟨world, -, rfl⟩ := hh.eq
    have hl := s.worker.lifecycle_after .finish
    have hr : (s.worker.after .finish).rerun = s.worker.rerun := rfl
    refine .of_due ?_
    simp only [due, close, install_worker, hl, hr, hopen, if_true, if_false, List.length_nil]
    omega

theorem Sound.inevitably_settled (hs : s.Sound) (hr : env.Responsive) : Inevitably env Settled s := by
  induction s using (wellFounded_less env).induction with
  | _ s ih =>
    by_cases hsettled : s.Settled
    · exact .now hsettled
    · obtain ⟨s', hgoes⟩ := hs.goes hr hsettled
      exact .later hgoes fun s' hgoes => ih s' (hgoes.less hs) (hgoes.sound hs)

end Session

/-- Each job that has asked for a full update was told one result, or waits, or its message is on the
way; and jobs wait only while a full update is in flight. A job whose message was taken up while
indexing was enabled shares the result of the full update that was in flight or was begun then; while
indexing was disabled it was told that it succeeded, and nothing was begun. A job whose message was not
taken up when the instance has ended was told that it was cancelled. After the shutdown was handled no
cycle is begun, those in flight are awaited, and observers see that the instance has ended for good.
And where all calls are answered nothing is left in the end but to send further messages. -/
theorem jobs_answered_once {σ : Type} {env : Environment σ} {user : UserId} {world : σ} {s₀ s : Session σ}
    {turns : List (Session.Turn σ)} (hb : Session.Begins env user world s₀) (h : s₀.Path env turns s) :
    (s.told.map (·.1) ++ s.worker.waiters ++ jobsOf s.inbox).Perm (Session.requested turns) ∧
    (s.worker.waiters ≠ [] → s.worker.full.isSome) ∧
    (∀ later turn earlier job, turns = later ++ turn :: earlier →
      turn.act = .handle (.command (.runFullUpdate (some job))) →
      if turn.before.worker.config.enabled then
        s.Shares later (turn.before.worker.full.getD ⟨turn.before.worker.context, some job⟩) job
      else turn.Tells job .succeeded ∧ turn.after.worker = turn.before.worker) ∧
    (∀ later turn earlier job, turns = later ++ turn :: earlier →
      turn.act = .send (.command (.runFullUpdate (some job))) →
      (∀ other ∈ later, other.act ≠ .handle (.command (.runFullUpdate (some job)))) →
      s.worker.lifecycle = .shutDown → ∃ other ∈ later ++ [turn], other.Tells job .cancelled) ∧
    (∀ later turn earlier, turns = later ++ turn :: earlier → turn.act = .handle .shutdown →
      ∀ other ∈ later, ¬other.Begins) ∧
    (∀ turn ∈ turns, turn.Awaits) ∧
    (s.worker.lifecycle = .shutDown → s.worker.published.lifecycle = .shutDown ∧
      s.worker.published.delta = .idle ∧ s.worker.published.fullRunning = false ∧
      ∀ act s', s.Step env act s' → s'.worker = s.worker) ∧
    (env.Responsive → s.Inevitably env Session.Settled) := by
  have hs₀ := (Session.Sound.begins hb).1
  have hs := h.sound hs₀
  obtain ⟨htold, hwaiters, hinbox, hrunning⟩ := hb.fresh
  refine ⟨?_, ?_, ?_, ?_, ?_, ?_, ?_, hs.inevitably_settled⟩
  · have hledger := h.ledger hs₀
    rwa [show s₀.ledger = [] by simp [Session.ledger, htold, hwaiters, hinbox], List.append_nil] at hledger
  · intro hw
    exact Option.isSome_iff_ne_none.mpr fun hf => hw (hs.waiting hf)
  · rintro later turn earlier job rfl hact
    obtain ⟨hbefore, hstep, hafter⟩ := h.split
    have hsound := hbefore.sound hs₀
    rw [hact] at hstep
    cases hen : turn.before.worker.config.enabled with
    | true =>
      obtain ⟨hw, hf⟩ := hstep.attaches hen
      exact hafter.waits (hsound.step hstep) hf hw
    | false =>
      obtain ⟨htells, hsame⟩ := hstep.skips hen
      exact ⟨htells, hsame⟩
  · rintro later turn earlier job rfl hact hno hclosed
    exact h.cancels hs₀ hclosed hact hno
  · rintro later turn earlier rfl hact other hother
    obtain ⟨-, hstep, hafter⟩ := h.split
    have hdraining : turn.after.worker.draining = true := by
      rw [hstep.worker, hact]
      rfl
    exact (hafter.step_of_mem hother).2.calm ((hafter.draining hdraining).2 other hother)
  · intro turn hturn
    obtain ⟨⟨earlier, hbefore⟩, hstep⟩ := h.step_of_mem hturn
    exact hstep.awaits (hbefore.sound hs₀)
  · intro hclosed
    have hopen : s₀.Ended := fun hc => by simp [hrunning] at hc
    obtain ⟨hl, hd, hf⟩ := h.ended hs₀ hopen hclosed
    exact ⟨hl, hd, hf, fun act s' hstep => (hstep.of_closed hs hclosed).2⟩

/-- Two jobs share a full update that finds no source to list, and both are told that it failed. -/
theorem jobs_answered_once_shared : ∃ turns, ∃ s₀ s : Session JobScheduler,
    Session.Begins JobScheduler.environment 1 .empty s₀ ∧ s₀.Path JobScheduler.environment turns s ∧
      s.told = [(7, .failed), (8, .failed)] ∧ (Session.requested turns).Perm [7, 8] ∧
      s.Inevitably JobScheduler.environment Session.Settled := by
  let context : CycleContext := ⟨1, .cautious, .zero⟩
  let s₀ := Session.opening 1 .zero .cautious .delta .empty
  let s₁ := s₀.takeUp (.command (.runFullUpdate (some 7)))
  let s₂ := s₁.takeUp (.command (.runFullUpdate (some 8)))
  let look : Collaborators := { Collaborators.stocked with book := { Collaborators.stocked.book with available := false } }
  let outcome := (context.fullUpdate.run (JobScheduler.alongside look) s₂.world).1
  have hbegins : Session.Begins JobScheduler.environment 1 .empty s₀ := Session.begins_opening ..
  obtain ⟨first, hfirst⟩ := (Session.Path.nil : s₀.Path JobScheduler.environment [] s₀).takeUp rfl nofun rfl
    (.command (.runFullUpdate (some 7)))
  obtain ⟨second, hsecond⟩ := hfirst.takeUp rfl nofun rfl (.command (.runFullUpdate (some 8)))
  obtain ⟨fulls, hfull, -⟩ := Session.Path.full (rfl : s₂.full = some context.fullUpdate)
    (context.tells_fullUpdate.finishes (Program.ends_run (JobScheduler.alongside_within look) _ s₂.world))
  have hdone := (hsecond.append hfull).step
    (.fullDone rfl rfl (Session.handles _ _ (.fullDone ⟨context, some 7⟩ outcome)))
  obtain ⟨hledger, -, -, -, -, -, -, hsettles⟩ := jobs_answered_once hbegins hdone
  refine ⟨_, _, _, hbegins, hdone, by decide +kernel, hledger.symm.trans (.of_eq ?_),
    hsettles JobScheduler.responsive_environment⟩
  decide +kernel

end ContactsIndex
