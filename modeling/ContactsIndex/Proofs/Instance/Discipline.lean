import ContactsIndex.Proofs.Instance.Handlers
import ContactsIndex.Proofs.Program.Exchanges
import ContactsIndex.Proofs.Source.Query
import ContactsIndex.Proofs.Update.Calls

/-!
# The discipline of settings

A worker handles events in any order, its cycles overlap and end in any way, and any call
may be answered in any way. Along every such run the settings change only when a cycle
that succeeded is handled, and only in what the cycle is to answer for
(`settings_discipline`). A full update that ends is marked as overlapped exactly when the
watermark of changes was moved while it was in flight.
-/

namespace ContactsIndex

open Program

open Exchange (free)

variable {log log' : List Exchange}

theorem passes_free : free.Passes (· <+: ·) :=
  ⟨List.prefix_refl, .trans, Exchange.prefix_of_drift, Exchange.prefix_of_answers,
    Exchange.prefix_of_answers⟩

theorem Exchange.mem_of_answered {c : Call} {log log' : List Exchange} {reply : c.Reply}
    (h : free.Answered (· <+: ·) c log reply log') : (⟨c, reply⟩ : Exchange) ∈ log' := by
  obtain ⟨before, after, _, rfl, hafter⟩ := h
  exact hafter.subset (List.mem_append_right _ (List.mem_singleton.mpr rfl))

/-! ## What a delta update has listed -/

def CycleContext.deltaLimit (context : CycleContext) : Limit :=
  context.config.limitOfDelta context.settings.isFirstRun

/-- The listings that a delta update has made of the answers it got. -/
def CycleContext.Listed (context : CycleContext) (log : List Exchange)
    (updated deleted : Listing) : Prop :=
  let limit := context.config.limitOfDelta context.settings.isFirstRun
  (∃ rows, ⟨.updated context.settings.contactUpdate limit, .ok (some rows)⟩ ∈ log ∧
    updated = .ofRows context.settings.contactUpdate rows limit) ∧
  ∃ rows, ⟨.deleted context.settings.contactDelete, .ok (some rows)⟩ ∈ log ∧
    deleted = .ofRows context.settings.contactDelete rows .unlimited

theorem CycleContext.Listed.mono {context : CycleContext} {updated deleted : Listing}
    (h : context.Listed log updated deleted) (hlog : log <+: log') :
    context.Listed log' updated deleted := by
  obtain ⟨⟨rows, hr, hu⟩, rows', hr', hd⟩ := h
  exact ⟨⟨rows, hlog.subset hr, hu⟩, rows', hlog.subset hr', hd⟩

def CycleContext.Reports (context : CycleContext)
    (result : Except UpdateError CycleContext.DeltaProgress) (log : List Exchange) : Prop :=
  ∀ n, result = .ok ⟨.completed, n⟩ → ∃ updated deleted, context.Listed log updated deleted ∧
    n = ⟨updated.watermark, deleted.watermark⟩

theorem CycleContext.always_followChanges (context : CycleContext) (stats : Stats) :
    (context.followChanges stats).Always free (fun p log => context.Reports p.1 log) log := by
  apply (Source.always_listBoth passes_free).bind
  intro result log₁ hgot
  rcases hgot.2 with ⟨e, rfl, _⟩ | ⟨⟨updated, deleted⟩, rfl, ⟨rows, hrows, rfl⟩, rows', hrows', rfl⟩
  · exact Program.always_pure.mpr fun _ _ _ => (nomatch ·)
  · have hlisted : context.Listed log₁ _ _ :=
      ⟨⟨rows, Exchange.mem_of_answered hrows, rfl⟩, rows', Exchange.mem_of_answered hrows', rfl⟩
    apply (Exchange.always_prefix (Corpus.obeys_update ..)).bind
    intro p log₂ hp
    rcases p with ⟨e | completion, stats⟩
    · exact Program.always_pure.mpr fun _ _ _ => (nomatch ·)
    · refine Program.always_pure.mpr ?_
      intro log₃ hd n hn
      cases hn
      exact ⟨_, _, hlisted.mono (hp.2.trans (Exchange.prefix_of_drift hd)), rfl⟩

theorem CycleContext.always_deltaUpdate (context : CycleContext) :
    context.deltaUpdate.Always free (fun outcome log => context.Reports outcome.result log) log := by
  unfold CycleContext.deltaUpdate
  refine Program.always_readClock.mpr fun began _ =>
    (context.always_followChanges _).bind fun p log₁ hp => ?_
  obtain ⟨result, stats⟩ := p
  have hrest : ∀ {log₂}, log₁ <+: log₂ → context.Reports result log₂ := fun hlog n hn => by
    obtain ⟨updated, deleted, hl, hn⟩ := hp n hn
    exact ⟨updated, deleted, hl.mono hlog, hn⟩
  apply Program.always_readClock.mpr
  intro ended _
  dsimp only
  split
  · apply Program.always_ask.mpr
    intro _ hd reply log₂ ha
    have hlog : log₁ <+: log₂ := (Exchange.prefix_of_drift hd).trans (Exchange.prefix_of_answers ha)
    rcases reply with e | _ <;> exact fun _ hd => hrest (hlog.trans (Exchange.prefix_of_drift hd))
  · exact fun _ hd => hrest (Exchange.prefix_of_drift hd)

/-! ## Events -/

namespace Worker

inductive Event where
  | command (c : Command)
  | config (c : Config)
  | deltaDone (context : CycleContext) (outcome : CycleContext.DeltaOutcome) (log : List Exchange)
  | fullDone (run : FullRun) (outcome : CycleContext.FullOutcome)
  | shutdown
  | finish

/-- What a worker makes of an event. A cycle ends as one that was begun with its context may
end; once the worker is draining it takes up nothing but the ends of cycles, and when these have
all ended it finishes. -/
inductive Reacts : Worker → Event → Worker → Prop
  | command {w c l w' l'} : w.draining = false → Ends free (w.onCommand c) l w' l' →
      Reacts w (.command c) w'
  | config {w c l w' l'} : w.draining = false → Ends free (w.onConfig c) l w' l' →
      Reacts w (.config c) w'
  | deltaDone {w context outcome log l w' l'} : w.delta = some context →
      Ends free context.deltaUpdate [] outcome log →
      Ends free (w.onDeltaDone outcome) l w' l' → Reacts w (.deltaDone context outcome log) w'
  | fullDone {w run l outcome l' k w' k'} : w.full = some run →
      Ends free run.context.fullUpdate l outcome l' →
      Ends free (w.onFullDone outcome) k w' k' → Reacts w (.fullDone run outcome) w'
  | shutdown {w} : w.draining = false → Reacts w .shutdown w.beginDrain
  | finish {w l w' l'} : w.draining = true → w.delta = none → w.full = none →
      Ends free w.finishDrain l w' l' → Reacts w .finish w'

/-- What an event may do to the settings. An update that completed is dated with the time that it
has read off the clock last. -/
def Event.Lawful (before after : Settings) : Event → Prop
  | .deltaDone context outcome log =>
    match outcome.result with
    | .ok ⟨.completed, _⟩ => ∃ updated deleted ended, context.Listed log updated deleted ∧
        LastRead free context.deltaUpdate [] outcome log ended ∧
        after = { before with
          contactUpdate := max before.contactUpdate updated.watermark
          contactDelete := max before.contactDelete deleted.watermark
          lastDelta := ended }
    | .ok ⟨.cancelled, _⟩ | .error _ => after = before
  | .fullDone run outcome =>
    match outcome.result with
    | .ok .completed => ∃ log log' ended, LastRead free run.context.fullUpdate log outcome log' ended ∧
        after = { before with lastFull := ended }
    | .ok .cancelled | .error _ => after = before
  | _ => after = before

variable {w w' : Worker} {event : Event}

theorem Reacts.lawful (h : w.Reacts event w') : event.Lawful w.settings w'.settings := by
  cases h with
  | @command c l _ l' _ he =>
    obtain rfl := (w.obeys_onCommand w.settings c).value he
    exact (w.afterCommand_eq c).1
  | @config c l _ l' _ he =>
    obtain rfl := (w.obeys_onConfig w.settings c).value he
    exact (w.afterConfig_eq c).1
  | @deltaDone context outcome log l _ l' hd hcycle he =>
    obtain rfl := (w.obeys_onDeltaDone outcome).value he
    have hreports := context.always_deltaUpdate.ends hcycle
    rw [settings_afterDelta]
    unfold Event.Lawful settledDelta
    dsimp only
    rcases hresult : outcome.result with e | ⟨_ | _, n⟩
    · rfl
    · obtain ⟨updated, deleted, hlisted, rfl⟩ := hreports n hresult
      exact ⟨updated, deleted, _, hlisted, CycleContext.lastRead_deltaUpdate hcycle, rfl⟩
    · rfl
  | @fullDone run l outcome l' k _ k' hf hcycle he =>
    obtain rfl := (w.obeys_onFullDone outcome).value he
    rw [settings_afterFull]
    unfold Event.Lawful
    dsimp only
    rcases outcome.result with e | _ | _
    · rfl
    · exact ⟨l, l', _, CycleContext.lastRead_fullUpdate hcycle, rfl⟩
    · rfl
  | shutdown => rfl
  | @finish l _ l' _ _ _ he =>
    obtain rfl := (w.obeys_finishDrain w.settings).value he
    rfl

theorem Event.Lawful.watermarks_eq {before after : Settings} (h : event.Lawful before after)
    (he : ∀ context outcome log, event ≠ .deltaDone context outcome log) : after.watermarks = before.watermarks := by
  cases event with
  | deltaDone context outcome log => exact absurd rfl (he context outcome log)
  | fullDone run outcome =>
    unfold Lawful at h
    dsimp only at h
    split at h
    · obtain ⟨_, _, ended, _, rfl⟩ := h
      rfl
    · exact congrArg Settings.watermarks h
    · exact congrArg Settings.watermarks h
  | _ => exact congrArg Settings.watermarks h

theorem Event.Lawful.mono {before after : Settings} (h : event.Lawful before after) :
    before.contactUpdate ≤ after.contactUpdate ∧ before.contactDelete ≤ after.contactDelete := by
  have hrefl : after.watermarks = before.watermarks → before.contactUpdate ≤ after.contactUpdate ∧
      before.contactDelete ≤ after.contactDelete := fun hsame =>
    ⟨Int.le_of_eq (congrArg Watermarks.update hsame.symm), Int.le_of_eq (congrArg Watermarks.delete hsame.symm)⟩
  cases event with
  | deltaDone context outcome log =>
    unfold Lawful at h
    dsimp only at h
    split at h
    · obtain ⟨updated, deleted, ended, _, _, rfl⟩ := h
      exact ⟨Int.le_max_left .., Int.le_max_left ..⟩
    · exact hrefl (congrArg Settings.watermarks h)
    · exact hrefl (congrArg Settings.watermarks h)
  | _ => exact hrefl (h.watermarks_eq fun _ _ _ he => nomatch he)

/-! ## Histories -/

structure Incident where
  before : Worker
  event : Event
  after : Worker

def Incident.Raises (i : Incident) : Prop :=
  (∃ context outcome log, i.event = .deltaDone context outcome log) ∧
    i.before.settings.contactUpdate < i.after.settings.contactUpdate

/-- A run of a worker, the last event first. -/
inductive History : List Incident → Worker → Prop
  | begin {user settings config initial l w l'} :
      Ends free ((Worker.new user settings config).begin initial) l w l' →
      History [] w
  | step {incidents w event w'} : History incidents w → w.Reacts event w' →
      History (⟨w, event, w'⟩ :: incidents) w'

/-- What was handled while the full update in flight has been in flight. -/
def duringFull (incidents : List Incident) : List Incident :=
  incidents.takeWhile (·.before.full.isSome)

/-- The full update in flight knows the watermark of changes as it was when it was begun. -/
def Tracked (incidents : List Incident) (w : Worker) : Prop :=
  ∀ run, w.full = some run → run.context.settings.contactUpdate ≤ w.settings.contactUpdate ∧
    (run.context.settings.contactUpdate < w.settings.contactUpdate ↔
      ∃ i ∈ duringFull incidents, i.Raises)

theorem Reacts.full_cases (h : w.Reacts event w') {run : FullRun} (hr : w'.full = some run) :
    w.full = some run ∨ (w.full = none ∧ run.context.settings = w'.settings) := by
  cases h with
  | @command c l _ l' _ he =>
    obtain rfl := (w.obeys_onCommand w.settings c).value he
    obtain ⟨hs, _, _, hsame | ⟨hnone, job, hnew⟩⟩ := w.afterCommand_eq c
    · exact .inl (hsame.symm.trans hr)
    · rw [hnew] at hr
      cases hr
      exact .inr ⟨hnone, hs.symm⟩
  | @config c l _ l' _ he =>
    obtain rfl := (w.obeys_onConfig w.settings c).value he
    exact .inl ((w.afterConfig_eq c).2.symm.trans hr)
  | @deltaDone context outcome log l _ l' hd hcycle he =>
    obtain rfl := (w.obeys_onDeltaDone outcome).value he
    exact .inl ((w.afterDelta_eq outcome).2.1.symm.trans hr)
  | @fullDone run l outcome l' k _ k' hf hcycle he =>
    obtain rfl := (w.obeys_onFullDone outcome).value he
    rw [(w.afterFull_eq outcome).2.1] at hr
    cases hr
  | shutdown => exact .inl hr
  | @finish l _ l' _ _ hnone he =>
    obtain rfl := (w.obeys_finishDrain w.settings).value he
    rw [show w.finished.full = none from hnone] at hr
    cases hr

theorem Reacts.raises_iff (h : w.Reacts event w') :
    Incident.Raises ⟨w, event, w'⟩ ↔ w.settings.contactUpdate < w'.settings.contactUpdate := by
  refine ⟨fun hr => hr.2, fun hlt => ⟨?_, hlt⟩⟩
  cases event with
  | deltaDone context outcome log => exact ⟨context, outcome, log, rfl⟩
  | _ =>
    have hsame := h.lawful.watermarks_eq fun _ _ _ he => nomatch he
    exact absurd (congrArg Watermarks.update hsame) (Int.ne_of_gt hlt)

theorem Tracked.step {incidents : List Incident} (ht : Tracked incidents w) (h : w.Reacts event w') :
    Tracked (⟨w, event, w'⟩ :: incidents) w' := by
  intro run hr
  have hmono := h.lawful.mono.1
  rcases h.full_cases hr with hbefore | ⟨hnone, hsettings⟩
  · obtain ⟨hle, hiff⟩ := ht run hbefore
    have hduring : duringFull (⟨w, event, w'⟩ :: incidents) = ⟨w, event, w'⟩ :: duringFull incidents :=
      List.takeWhile_cons_of_pos (by rw [hbefore]; rfl)
    refine ⟨Int.le_trans hle hmono, ?_⟩
    simp only [hduring, List.mem_cons, exists_eq_or_imp, h.raises_iff, ← hiff]
    omega
  · have hduring : duringFull (⟨w, event, w'⟩ :: incidents) = [] :=
      List.takeWhile_cons_of_neg (by rw [hnone]; exact Bool.false_ne_true)
    rw [hduring, hsettings]
    exact ⟨Int.le_refl _, fun hlt => absurd hlt (Int.lt_irrefl _), fun ⟨_, hi, _⟩ => nomatch hi⟩

theorem History.tracked {incidents : List Incident} (h : History incidents w) :
    Tracked incidents w := by
  induction h with
  | @begin user settings config initial l w l' he =>
    obtain rfl := ((Worker.new user settings config).obeys_begin settings initial).value he
    obtain ⟨hs, _, _, hnone | hnew⟩ := (Worker.new user settings config).begun_eq initial
    · intro run hr
      cases hnone.symm.trans hr
    · intro run hr
      rw [hnew] at hr
      cases hr
      rw [hs]
      exact ⟨Int.le_refl _, fun hlt => absurd hlt (Int.lt_irrefl _), fun ⟨_, hi, _⟩ => nomatch hi⟩
  | step _ hr ih => exact ih.step hr

theorem History.overlapped_iff {incidents : List Incident} {run : FullRun}
    {outcome : CycleContext.FullOutcome} (h : History incidents w)
    (hr : w.Reacts (.fullDone run outcome) w') : ∃ stats, w'.lastFull = some stats ∧
      (stats.overlapped = true ↔ ∃ i ∈ duringFull incidents, i.Raises) := by
  cases hr with
  | @fullDone _ l _ l' k _ k' hf hcycle he =>
    obtain rfl := (w.obeys_onFullDone outcome).value he
    obtain ⟨hprevious, hoverlapped⟩ := run.context.obeys_fullUpdate.value hcycle
    obtain ⟨hle, hiff⟩ := h.tracked run hf
    refine ⟨w.fullStats outcome, rfl, ?_⟩
    have hmoved : (w.fullStats outcome).overlapped = true ↔
        w.settings.contactUpdate ≠ run.context.settings.contactUpdate := by
      simp [fullStats, hprevious, hoverlapped, Settings.watermarks]
    rw [hmoved, ← hiff]
    omega

end Worker

/-- Along every run, a watermark never goes back, each event changes the settings as it may, and the
statistics of a full update are marked exactly when the watermark of changes was moved meanwhile. -/
theorem settings_discipline {incidents : List Worker.Incident} {w w' : Worker} {event : Worker.Event}
    (h : Worker.History incidents w) (hr : w.Reacts event w') :
    w.settings.contactUpdate ≤ w'.settings.contactUpdate ∧
      w.settings.contactDelete ≤ w'.settings.contactDelete ∧
      event.Lawful w.settings w'.settings ∧
      ∀ run outcome, event = .fullDone run outcome → ∃ stats, w'.lastFull = some stats ∧
        (stats.overlapped = true ↔ ∃ i ∈ Worker.duringFull incidents, i.Raises) := by
  obtain ⟨hupdate, hdelete⟩ := hr.lawful.mono
  refine ⟨hupdate, hdelete, hr.lawful, ?_⟩
  rintro run outcome rfl
  exact h.overlapped_iff hr

def Exchange.canned (look : Collaborators) : Surroundings (List Exchange) where
  clock := fun _ => 1000
  token := fun _ => false
  note := fun _ log => log
  answer := fun _ _ log => log
  reply := fun c log => ((look.serve c).1, log ++ [⟨c, (look.serve c).1⟩])

theorem canned_within_free (look : Collaborators) : (Exchange.canned look).Within free :=
  ⟨fun _ => trivial, fun _ => trivial, fun _ _ => rfl, fun _ _ _ => rfl, fun _ _ => rfl⟩

def Program.canned {α : Type} (p : Program α) : α :=
  (p.run (Exchange.canned .stocked) []).1

theorem Program.ends_canned {α : Type} (p : Program α) :
    Ends free p [] p.canned (p.run (Exchange.canned .stocked) []).2 :=
  ends_run (canned_within_free .stocked) p []

namespace Worker

def busy : Worker :=
  (((Worker.new 1 .zero .cautious).begin .delta).canned.onCommand (.runFullUpdate none)).canned

def deltaOutcome : CycleContext.DeltaOutcome :=
  (CycleContext.mk 1 .cautious .zero).deltaUpdate.canned

def fullOutcome : CycleContext.FullOutcome :=
  (CycleContext.mk 1 .cautious .zero).fullUpdate.canned

end Worker

theorem settings_discipline_overlapped :
    ∃ incidents w w' run outcome stats, Worker.History incidents w ∧
    w.Reacts (.fullDone run outcome) w' ∧ w.settings.contactUpdate ≤ w'.settings.contactUpdate ∧
    w.settings.contactDelete ≤ w'.settings.contactDelete ∧
    (Worker.Event.fullDone run outcome).Lawful w.settings w'.settings ∧ w'.lastFull = some stats ∧
    stats.overlapped = true ∧ ∃ i ∈ Worker.duringFull incidents, i.Raises := by
  have hbegin := Worker.History.begin (ends_canned ((Worker.new 1 .zero .cautious).begin .delta))
  have hbusy := hbegin.step
    (.command rfl (ends_canned _) : Worker.Reacts _ (.command (.runFullUpdate none)) Worker.busy)
  have hdelta := hbusy.step
    (.deltaDone rfl (ends_canned (CycleContext.mk 1 .cautious .zero).deltaUpdate)
    (ends_canned (Worker.busy.onDeltaDone Worker.deltaOutcome)))
  have hflight : (Worker.busy.onDeltaDone Worker.deltaOutcome).canned.full = Worker.busy.full := by
    rw [(Worker.busy.obeys_onDeltaDone Worker.deltaOutcome).value (ends_canned _)]
    exact (Worker.busy.afterDelta_eq Worker.deltaOutcome).2.1
  have hfull : Worker.Reacts (Worker.busy.onDeltaDone Worker.deltaOutcome).canned
      (.fullDone ⟨⟨1, .cautious, .zero⟩, none⟩ Worker.fullOutcome)
      ((Worker.busy.onDeltaDone Worker.deltaOutcome).canned.onFullDone Worker.fullOutcome).canned :=
    .fullDone hflight (ends_canned (CycleContext.mk 1 .cautious .zero).fullUpdate) (ends_canned _)
  obtain ⟨hu, hd, hlawful, hstats⟩ := settings_discipline hdelta hfull
  obtain ⟨stats, hlast, hiff⟩ := hstats _ _ rfl
  have hmarked : ((Worker.busy.onDeltaDone Worker.deltaOutcome).canned.onFullDone
    Worker.fullOutcome).canned.lastFull.map
      (·.overlapped) = some true := by decide +kernel
  rw [hlast] at hmarked
  have hoverlapped : stats.overlapped = true := Option.some.inj hmarked
  exact ⟨_, _, _, _, _, stats, hdelta, hfull, hu, hd, hlawful, hlast, hoverlapped, hiff.mp hoverlapped⟩

end ContactsIndex
