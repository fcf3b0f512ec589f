import ContactsIndex.Proofs.Instance.Session

/-!
# Settings that were not written

When an update has completed, the worker goes on with its new settings whether they could be
written or not, and shows them. So observers see the settings of the last write that was
tried. Those are the last ones written unless the last write failed, and the completed delta
updates are counted whether their watermarks were written or not (`published_settings`).
-/

namespace ContactsIndex

open Program
open Exchange (free)

/-! ## Writes -/

structure Write where
  settings : Settings
  succeeded : Bool
  deriving DecidableEq

def Call.write? : (c : Call) → c.Reply → Option Write
  | .persist settings, .ok () => some ⟨settings, true⟩
  | .persist settings, .error _ => some ⟨settings, false⟩
  | _, _ => none

/-- The settings of the last of the writes; without any, those from before. -/
def Write.last (start : Settings) (writes : List Write) : Settings :=
  (writes.map (·.settings)).getLastD start

theorem Write.last_concat (start : Settings) (writes : List Write) (write : Write) :
    last start (writes ++ [write]) = write.settings := by
  simp [last]

theorem Write.last_eq_succeeded_iff (start : Settings) (writes : List Write) :
    last start writes = last start (writes.filter (·.succeeded)) ↔ ∀ write, writes.getLast? = some write →
      write.succeeded = true ∨ write.settings = last start (writes.filter (·.succeeded)) := by
  rcases List.eq_nil_or_concat writes with rfl | ⟨earlier, write, rfl⟩
  · simp
  · rw [List.concat_eq_append, last_concat, List.getLast?_concat, List.filter_append]
    cases hw : write.succeeded with
    | true => simp [hw, last_concat]
    | false => simp [hw]

namespace Exchange

def writes (log : List Exchange) : List Write :=
  log.filterMap fun x => x.call.write? x.reply

variable {log log' log'' : List Exchange} {written written' : List Settings}

theorem writes_append (log log' : List Exchange) : writes (log ++ log') = writes log ++ writes log' :=
  List.filterMap_append

/-- The log has grown, and these settings were written or should have been. -/
def Wrote (written : List Settings) (log log' : List Exchange) : Prop :=
  ∃ new, log' = log ++ new ∧ (writes new).map (·.settings) = written

theorem Wrote.refl (log : List Exchange) : Wrote [] log log :=
  ⟨[], (List.append_nil log).symm, rfl⟩

theorem Wrote.trans (h : Wrote written log log') (h' : Wrote written' log' log'') :
    Wrote (written ++ written') log log'' := by
  obtain ⟨new, rfl, rfl⟩ := h
  obtain ⟨new', rfl, rfl⟩ := h'
  exact ⟨new ++ new', List.append_assoc .., by rw [writes_append, List.map_append]⟩

theorem wrote_of_answers {settings : Settings} {reply : (Call.persist settings).Reply}
    (h : free.answers (.persist settings) log reply log') : Wrote [settings] log log' := by
  refine ⟨_, h, ?_⟩
  rcases reply with e | _ <;> rfl

theorem Wrote.last_eq (h : Wrote written log log') (start : Settings) :
    Write.last start (writes log') = written.getLastD (Write.last start (writes log)) := by
  obtain ⟨new, rfl, rfl⟩ := h
  rw [writes_append]
  unfold Write.last
  rw [List.map_append, List.getLastD_eq_getLast?, List.getLastD_eq_getLast?, List.getLastD_eq_getLast?,
    List.getLast?_append]
  cases ((writes new).map (·.settings)).getLast? <;> rfl

end Exchange

namespace Program

variable {α ι : Type} {P : ι → Call → Prop} {Q : α → Prop} {p : Program α}

theorem Obeys.all (i : ι) (h : ∀ i, p.Obeys (P i) Q) : p.Obeys (fun c => ∀ i, P i c) Q := by
  induction p with
  | done a => exact h i
  | now next ih => exact fun time => ih time fun i => h i time
  | cancelled next ih => exact fun b => ih b fun i => h i b
  | note event next ih => exact ih h
  | answer job result next ih => exact ih h
  | call c next ih => exact ⟨fun i => (h i).1, fun r => ih r fun i => (h i).2 r⟩
  | both c d next later ih ih' =>
    exact ⟨fun i => (h i).1, fun i => (h i).2.1, fun r => ih r fun i => (h i).2.2.1 r,
      fun r => ih' r fun i => (h i).2.2.2 r⟩

end Program

theorem Exchange.wrote_of_grew {P : Call → Prop} {log log' : List Exchange} (h : Grew P log log')
    (hP : ∀ settings, ¬ P (.persist settings)) : Wrote [] log log' := by
  obtain ⟨new, rfl, hnew⟩ := h
  refine ⟨new, rfl, ?_⟩
  have hnone : writes new = [] := by
    refine List.filterMap_eq_nil_iff.mpr fun ⟨c, reply⟩ hx => ?_
    cases c with
    | persist settings => exact absurd (hnew _ hx) (hP settings)
    | _ => rfl
  rw [hnone, List.map_nil]

/-! ## What a handler writes -/

def CycleContext.DeltaOutcome.completed (outcome : CycleContext.DeltaOutcome) : Bool :=
  match outcome.result with
  | .ok ⟨.completed, _⟩ => true
  | _ => false

def CycleContext.FullOutcome.completed (outcome : CycleContext.FullOutcome) : Bool :=
  match outcome.result with
  | .ok .completed => true
  | _ => false

theorem CycleContext.FullOutcome.completed_iff {outcome : CycleContext.FullOutcome} :
    outcome.completed = true ↔ JobResult.ofResult outcome.result = .succeeded := by
  rcases outcome with ⟨e | _ | _, stats⟩ <;> simp [completed, JobResult.ofResult]

namespace Worker

def Event.completes : Event → Bool
  | .deltaDone _ outcome _ => outcome.completed
  | .fullDone _ outcome => outcome.completed
  | _ => false

variable {α : Type} {Q : α → Prop} {p : Program α} (w : Worker) (event : Event) (log : List Exchange)

def written : List Settings :=
  if event.completes then [(w.after event).settings] else []

theorem settings_after : (w.after event).settings = (w.written event).getLastD w.settings := by
  unfold written
  split
  · rfl
  · next hnot =>
    cases event with
    | command c => exact (w.afterCommand_eq c).1
    | config c => exact (w.afterConfig_eq c).1
    | deltaDone _ outcome _ =>
      rcases outcome with ⟨e | ⟨_ | _, _⟩, stats⟩
      · exact w.settings_afterDelta _
      · exact absurd rfl hnot
      · exact w.settings_afterDelta _
    | fullDone _ outcome =>
      rcases outcome with ⟨e | _ | _, stats⟩
      · exact w.settings_afterFull _
      · exact absurd rfl hnot
      · exact w.settings_afterFull _
    | shutdown => rfl
    | finish => rfl

variable {log} in
/-- A program that might write any settings at all writes none. -/
theorem wrote_nothing (h : ∀ settings, p.Obeys (Handling settings) Q) :
    p.Always free (fun _ log' => Exchange.Wrote [] log log') log := by
  apply (Exchange.always_grew (Obeys.all .zero h)).mono
  rintro a log' ⟨-, hgrew⟩
  refine Exchange.wrote_of_grew hgrew fun settings hall => ?_
  have hzero : settings = .zero := hall .zero
  have hone : settings = ⟨1, 0, 0, 0⟩ := hall _
  exact absurd (hzero.symm.trans hone) (by decide)

theorem pure_wrote {written : List Settings} {log' : List Exchange} (h : Exchange.Wrote written log log') (a : α) :
    (Program.done a).Always free (fun _ log'' => Exchange.Wrote written log log'') log' :=
  always_pure.mpr fun log'' hd => (show log' = log'' from hd) ▸ h

theorem persist_wrote : w.persist.Always free (fun _ log' => Exchange.Wrote [w.settings] log log') log := by
  apply always_ask.mpr
  intro log₁ hd reply log₂ ha
  obtain rfl : log = log₁ := hd
  exact pure_wrote log (Exchange.wrote_of_answers ha) _

theorem settleDelta_wrote (outcome : CycleContext.DeltaOutcome) : (w.settleDelta outcome).Always free
    (fun _ log' => Exchange.Wrote (if outcome.completed then [(w.settledDelta outcome).settings] else []) log log')
    log := by
  unfold settleDelta settledDelta CycleContext.DeltaOutcome.completed
  rcases outcome.result with e | ⟨_ | _, watermarks⟩
  · exact pure_wrote log (.refl log) _
  · exact (persist_wrote _ log).bind fun _ _ h => pure_wrote log h _
  · exact pure_wrote log (.refl log) _

theorem settleFull_wrote (result : JobResult) (stats : Stats) : (w.settleFull result stats).Always free
    (fun _ log' => Exchange.Wrote (if result = .succeeded then [(w.settledFull result stats).settings] else []) log log')
    log := by
  cases result with
  | succeeded =>
    exact (persist_wrote _ log).bind fun _ _ h => pure_wrote log h _
  | failed => exact pure_wrote log (.refl log) _
  | cancelled => exact pure_wrote log (.refl log) _

theorem handle_wrote : (w.handle event).Always free
    (fun _ log' => Exchange.Wrote (w.written event) log log') log := by
  cases event with
  | command c => exact wrote_nothing fun settings => w.obeys_onCommand settings c
  | config c => exact wrote_nothing fun settings => w.obeys_onConfig settings c
  | deltaDone context outcome _ =>
    apply (settleDelta_wrote { w with delta := none } log outcome).bind
    intro p log₁ h₁
    apply (wrote_nothing fun settings => obeys_record.mpr (obeys_publish _)).mono
    intro _ log₂ h₂
    have hboth := h₁.trans h₂
    rw [List.append_nil, ← settings_afterDelta] at hboth
    exact hboth
  | fullDone _ outcome =>
    apply (settleFull_wrote { w with full := none } log (.ofResult outcome.result) (w.fullStats outcome)).bind
    intro p log₁ h₁
    refine (wrote_nothing (Q := fun _ => True) fun settings => ?_).mono fun _ log₂ h₂ => ?_
    · refine obeys_record.mpr ((obeys_tellAll _ _).bind fun _ _ => ?_)
      dsimp only
      split
      · exact (obeys_ensureJob _ true).bind fun _ _ => (obeys_publish _).mono fun _ _ => trivial
      · exact (obeys_publish _).mono fun _ _ => trivial
    · have hboth := h₁.trans h₂
      rw [List.append_nil] at hboth
      simp only [written, Event.completes, CycleContext.FullOutcome.completed_iff]
      exact hboth
  | shutdown => exact pure_wrote log (.refl log) _
  | finish => exact wrote_nothing fun settings => w.obeys_finishDrain settings

/-! ### What is shown -/

structure Candid (w : Worker) : Prop where
  settings : w.published.settings = w.settings
  completedDelta : w.published.completedDelta = w.completedDelta

variable {w}

theorem candid_shown (w : Worker) : w.shown.Candid :=
  ⟨rfl, rfl⟩

theorem candid_begun (w : Worker) (initial : InitialCycle) : (w.begun initial).Candid := by
  unfold begun
  dsimp only
  split
  · cases initial <;> exact candid_shown _
  · exact candid_shown _

theorem Candid.after (h : w.Candid) (event : Event) : (w.after event).Candid := by
  cases event with
  | command c =>
    cases c with
    | contactsChanged =>
      dsimp only [Worker.after, afterCommand]
      split
      · exact candid_shown _
      · exact h
    | runFullUpdate job =>
      dsimp only [Worker.after, afterCommand]
      split
      · exact candid_shown _
      · exact h
  | config c =>
    dsimp only [Worker.after]
    rw [afterConfig_eq_triggered]
    split <;> exact candid_shown _
  | deltaDone _ outcome _ => exact candid_shown _
  | fullDone _ outcome => exact candid_shown _
  | shutdown => exact ⟨h.settings, h.completedDelta⟩
  | finish => exact candid_shown _

theorem completedDelta_begun (w : Worker) (initial : InitialCycle) :
    (w.begun initial).completedDelta = w.completedDelta := by
  unfold begun
  dsimp only
  split
  · cases initial <;> rfl
  · rfl

def Event.completesDelta : Event → Bool
  | .deltaDone _ outcome _ => outcome.completed
  | _ => false

theorem Event.completes_of_completesDelta {event : Event} (h : event.completesDelta = true) : event.completes = true := by
  cases event with
  | deltaDone _ outcome _ => exact h
  | _ => cases h

theorem completedDelta_triggered (w : Worker) : w.triggered.completedDelta = w.completedDelta := by
  unfold triggered
  split <;> rfl

theorem completedDelta_after (w : Worker) (event : Event) :
    (w.after event).completedDelta = w.completedDelta + if event.completesDelta then 1 else 0 := by
  cases event with
  | command c =>
    cases c with
    | contactsChanged =>
      dsimp only [Worker.after, afterCommand]
      split
      · exact w.completedDelta_triggered
      · rfl
    | runFullUpdate job =>
      dsimp only [Worker.after, afterCommand]
      split
      · split <;> rfl
      · rfl
  | config c =>
    dsimp only [Worker.after]
    rw [afterConfig_eq_triggered]
    split
    · exact completedDelta_triggered _
    · rfl
  | deltaDone _ outcome _ =>
    dsimp only [Worker.after, afterDelta]
    rcases outcome with ⟨e | ⟨_ | _, _⟩, stats⟩
    · split <;> rfl
    · split <;> rfl
    · split <;> rfl
  | fullDone _ outcome =>
    dsimp only [Worker.after, afterFull, settledFull]
    cases JobResult.ofResult outcome.result <;> rfl
  | shutdown => rfl
  | finish => rfl

end Worker

/-! ## Along a run -/

namespace Session

def written (s : Session (List Exchange)) : Act → List Settings
  | .handle event => s.worker.written event
  | _ => []

def Act.completesDelta : Act → Bool
  | .handle event => event.completesDelta
  | _ => false

def Turn.writes (turn : Turn (List Exchange)) : List Write :=
  Exchange.writes (turn.after.world.drop turn.before.world.length)

variable {s s' : Session (List Exchange)} {act : Act}

theorem Step.wrote (hs : s.Sound) (h : Step free s act s') : Exchange.Wrote (s.written act) s.world s'.world := by
  have hcycle : ∀ {α : Type} {P : Call → Prop} {p q : Program α} {log : List Exchange}, p.Obeys P (fun _ => True) →
      (∀ settings, ¬ P (.persist settings)) → Program.Step free p s.world q log → Exchange.Wrote [] s.world log := by
    intro α P p q log hobeys hP hstep
    have hgrew := (hobeys.step (I := fun log => Exchange.Grew P s.world log)
      (fun hc hlog ha => hlog.trans (Exchange.grew_of_answers hc ha)) hstep).2 (.refl _)
    exact Exchange.wrote_of_grew hgrew hP
  cases act with
  | handle event => exact (s.worker.handle_wrote event s.world).ends h.handled.runs.ends
  | send message =>
    cases h
    unfold receive
    split <;> exact .refl _
  | delta =>
    cases h with
    | delta hp hstep =>
      refine hcycle (hs.delta _ hp).1 (fun settings hc => ?_) hstep
      rcases hc with hc | hc <;> cases hc
  | full =>
    cases h with
    | full hp hstep => exact hcycle (hs.full _ hp).1 (fun settings hc => nomatch hc) hstep

/-- The writes of the turns so far, and what has come of them. -/
structure Kept (start : Settings) (turns : List (Turn (List Exchange))) (t : Session (List Exchange)) : Prop where
  candid : t.worker.Candid
  settings : t.worker.settings = Write.last start (Exchange.writes t.world)
  completedDelta : t.worker.completedDelta = turns.countP (·.act.completesDelta)
  written : ∀ turn ∈ turns, turn.act.completesDelta = true →
    ∃ write, turn.writes = [write] ∧ write.settings = turn.after.worker.settings

variable {user : UserId} {start : Settings} {t : Session (List Exchange)} {turns : List (Turn (List Exchange))}

theorem Kept.begins (h : Begins free user [] s) : Kept s.worker.settings [] s := by
  obtain ⟨settings, config, initial, world, hf, rfl⟩ := h.eq
  have hwrote : Exchange.Wrote [] [] world :=
    (Worker.wrote_nothing fun settings => Worker.obeys_begin _ settings initial).ends hf.ends
  refine ⟨Worker.candid_begun _ initial, (hwrote.last_eq _).symm, ?_, List.forall_mem_nil _⟩
  exact Worker.completedDelta_begun _ initial

theorem writes_of_wrote {turn : Turn (List Exchange)} {settings : List Settings}
    (h : Exchange.Wrote settings turn.before.world turn.after.world) : turn.writes.map (·.settings) = settings := by
  obtain ⟨new, hworld, hnew⟩ := h
  rw [Turn.writes, hworld, List.drop_left, hnew]

theorem Kept.step (h : Kept start turns s) (hs : s.Sound) (hstep : Step free s act s') :
    Kept start (⟨s, act, s'⟩ :: turns) s' := by
  have hwrote := hstep.wrote hs
  have hworker := hstep.worker
  have hsettings : s'.worker.settings = (s.written act).getLastD s.worker.settings := by
    rw [hworker]
    cases act with
    | handle event => exact s.worker.settings_after event
    | _ => rfl
  refine ⟨?_, ?_, ?_, List.forall_mem_cons.mpr ⟨fun hcompletes => ?_, h.written⟩⟩
  · rw [hworker]
    cases act with
    | handle event => exact h.candid.after event
    | _ => exact h.candid
  · rw [hsettings, hwrote.last_eq, ← h.settings]
  · rw [List.countP_cons, ← h.completedDelta, hworker]
    cases act with
    | handle event => exact s.worker.completedDelta_after event
    | _ => rfl
  · cases act with
    | handle event =>
      have hcompleted : event.completes = true := Worker.Event.completes_of_completesDelta hcompletes
      have hwritten : (Turn.writes ⟨s, .handle event, s'⟩).map (·.settings) = s.worker.written event :=
        writes_of_wrote hwrote
      rw [Worker.written, if_pos hcompleted] at hwritten
      obtain ⟨write, hone, hset⟩ := List.map_eq_singleton_iff.mp hwritten
      exact ⟨write, hone, by rw [hset, hworker]; rfl⟩
    | _ => cases hcompletes

theorem Kept.path (hb : Begins free user [] s) (hp : Path free s turns t) : Kept s.worker.settings turns t := by
  induction hp with
  | nil => exact .begins hb
  | step hpath hstep ih => exact ih.step (hpath.sound (Sound.begins hb).1) hstep

end Session

/-- Observers see the settings of the last write that was tried. They are those last written exactly when that
write succeeded, or had nothing else in it; and the completed delta updates are those that were
written exactly when no write for one has failed. -/
theorem published_settings {user : UserId} {s t : Session (List Exchange)}
    {turns : List (Session.Turn (List Exchange))} (hb : Session.Begins free user [] s) (hp : s.Path free turns t) :
    let writes := Exchange.writes t.world
    let persisted := Write.last s.worker.settings (writes.filter (·.succeeded))
    let completed := turns.filter (·.act.completesDelta)
    t.worker.published.settings = Write.last s.worker.settings writes ∧
      (t.worker.published.settings = persisted ↔
        ∀ write, writes.getLast? = some write → write.succeeded = true ∨ write.settings = persisted) ∧
      (∀ turn ∈ completed, ∃ write, turn.writes = [write] ∧ write.settings = turn.after.worker.settings) ∧
      t.worker.published.completedDelta = completed.length ∧
      (t.worker.published.completedDelta = completed.countP (·.writes.all (·.succeeded)) ↔
        ∀ turn ∈ completed, ∀ write ∈ turn.writes, write.succeeded = true) := by
  intro writes persisted completed
  have hkept := Session.Kept.path hb hp
  have hsettings : t.worker.published.settings = Write.last s.worker.settings writes :=
    hkept.candid.settings.trans hkept.settings
  have hcompleted : t.worker.published.completedDelta = completed.length := by
    rw [hkept.candid.completedDelta, hkept.completedDelta, List.countP_eq_length_filter]
  refine ⟨hsettings, ?_, fun turn hturn => ?_, hcompleted, ?_⟩
  · rw [hsettings]
    exact Write.last_eq_succeeded_iff _ _
  · obtain ⟨hmem, hcompletes⟩ := List.mem_filter.mp hturn
    exact hkept.written turn hmem hcompletes
  · rw [hcompleted, eq_comm, List.countP_eq_length]
    simp only [List.all_eq_true]

theorem Session.handles_canned (look : Collaborators) (s : Session (List Exchange)) (w : Worker) (event : Worker.Event) :
    s.Handles free (w.handle event)
      (s.install (w.replies event) (w.after event) ((w.handle event).run (Exchange.canned look) s.world).2) := by
  have hends := ends_run (canned_within_free look) (w.handle event) s.world
  rw [(w.obeys_handle event).value hends] at hends
  exact ⟨_, _, _, (w.tells_handle event).finishes hends, rfl⟩

theorem Session.begins_canned (look : Collaborators) (user : UserId) (settings : Settings) (config : Config)
    (initial : InitialCycle) :
    let w := Worker.new user settings config
    Begins free user [] (install ⟨w, none, none, [], [], []⟩ [] (w.begun initial)
      ((w.begin initial).run (Exchange.canned look) []).2) := by
  intro w
  have hends := ends_run (canned_within_free look) (w.begin initial) []
  rw [(w.obeys_begin settings initial).value hends] at hends
  exact .intro ⟨_, _, _, (w.tells_begin initial).finishes hends, rfl⟩

def Collaborators.unsaved : Collaborators :=
  { stocked with place := .blocked }

/-- A delta update completes, and its watermarks cannot be written. -/
theorem published_settings_unsaved : ∃ s t turns, Session.Begins free 1 [] s ∧ s.Path free turns t ∧
    t.worker.published.settings = Write.last s.worker.settings (Exchange.writes t.world) ∧
      t.worker.published.settings ≠ Write.last s.worker.settings ((Exchange.writes t.world).filter (·.succeeded)) ∧
      t.worker.published.completedDelta = 1 ∧
      (turns.filter (·.act.completesDelta)).countP (·.writes.all (·.succeeded)) = 0 := by
  let env := Exchange.canned .unsaved
  let w := Worker.new 1 .zero .cautious
  let context : CycleContext := ⟨1, .cautious, .zero⟩
  let s : Session (List Exchange) :=
    .install ⟨w, none, none, [], [], []⟩ [] (w.begun .delta) ((w.begin .delta).run env []).2
  let cycle := context.deltaUpdate.run env s.world
  let ended : Session (List Exchange) := { s with delta := some (.done cycle.1), world := cycle.2 }
  let event : Worker.Event := .deltaDone context cycle.1 []
  let t := Session.install { ended with delta := none } [] (s.worker.after event) ((s.worker.handle event).run env cycle.2).2
  have hbegins : Session.Begins free 1 [] s := Session.begins_canned .unsaved 1 .zero .cautious .delta
  obtain ⟨deltas, hdeltas, -⟩ := Session.Path.delta (rfl : s.delta = some context.deltaUpdate)
    (context.tells_deltaUpdate.finishes (ends_run (canned_within_free .unsaved) _ s.world))
  have hpath : s.Path free (⟨ended, .handle event, t⟩ :: deltas) t :=
    hdeltas.step (.deltaDone rfl rfl (Session.handles_canned .unsaved _ s.worker event))
  obtain ⟨hsettings, -, -, hcompleted, hcounted⟩ := published_settings hbegins hpath
  have hone : t.worker.published.completedDelta = 1 := by decide +kernel
  have hcompletes : event.completesDelta = true := by decide +kernel
  have hfailed : (Session.Turn.writes ⟨ended, .handle event, t⟩).all (·.succeeded) = false := by decide +kernel
  refine ⟨s, t, _, hbegins, hpath, hsettings, by decide +kernel, hone, ?_⟩
  refine Nat.lt_one_iff.mp (Nat.lt_of_le_of_ne ?_ fun heq => ?_)
  · rw [← hone, hcompleted]
    exact List.countP_le_length
  · have hall := hcounted.mp (hone.trans heq.symm) _ (List.mem_filter.mpr ⟨List.mem_cons_self .., hcompletes⟩)
    exact Bool.false_ne_true (hfailed.symm.trans (List.all_eq_true.mpr hall))

end ContactsIndex
