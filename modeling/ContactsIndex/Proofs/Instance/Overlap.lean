import ContactsIndex.Proofs.Instance.Stage

/-!
# Overlapping cycles

Every move of a machine keeps what the cycles have promised: a delta update in flight
ends with everything indexed up to its listings, among whatever the full update writes;
what is indexed afterwards can only be lost to a stale write. When every change was told
and nothing is in flight any more, the index is right under each id that is not lost.
-/

namespace ContactsIndex

open Program
open Stage (amid)

/-! ## What is kept of the cycles -/

/-- The delta update in flight, if any; `context?` is the one that the worker has in mind, and
`m` are its watermarks. -/
structure DeltaKept (p? : Option (Program CycleContext.DeltaOutcome))
    (context? : Option CycleContext) (m : Watermarks) (s : Stage) : Prop where
  context : ∀ context, context? = some context → context.settings.watermarks = m ∧
    context.config.limitOfDelta context.settings.isFirstRun = .unlimited
  idle : p? = none → Indexed .lost m s ∧ (s.begun ≠ [] → s.look.book.Covered m s.begunAt)
  running : ∀ p, p? = some p → context?.isSome ∧ m ∈ s.begun ∧ p.Obeys Call.Cycling (fun _ => True) ∧
    ∃ keepGoing, p.Always (amid .lost false (m ∈ ·.begun))
      (fun outcome => DeltaEnded .lost (amid .lost false (m ∈ ·.begun))
      m s.begunAt keepGoing outcome.result) s

/-- The full update in flight, if any. As long as nobody begins a delta update, everything is
indexed once none is in flight or in mind. -/
structure FullKept (p? : Option (Program CycleContext.FullOutcome)) (run? : Option FullRun)
    (quiet : Prop) (s : Stage) : Prop where
  run : ∀ run, run? = some run → run.context.config.limitOfFull = .unlimited
  idle : p? = none → Indexed .disturbed ⟨0, 0⟩ s ∧ (run? = none → quiet → s.begun = [] →
    ∃ n : Watermarks, s.begunAt ≤ n.update ∧ s.begunAt ≤ n.delete ∧ Indexed .disturbed n s)
  running : ∀ p, p? = some p → run?.isSome ∧ p.Obeys Call.Cycling (fun _ => True) ∧
    ∃ since, (s.begun = [] → s.begunAt ≤ since) ∧ p.Always (amid .disturbed true fun _ => True)
      (fun outcome =>
        FullEnded .disturbed (amid .disturbed true fun _ => True) ⟨0, 0⟩ since outcome.result) s

section

variable {delta? : Option (Program CycleContext.DeltaOutcome)}
  {full? : Option (Program CycleContext.FullOutcome)}
  {context? : Option CycleContext} {run? : Option FullRun} {m : Watermarks} {quiet : Prop}
  {s t : Stage} {tick : Tick}

theorem DeltaKept.onward (h : DeltaKept delta? context? m s) (ho : s.Onward t)
    (hle : s.begunAt ≤ s.look.book.lastStamp) :
    DeltaKept delta? context? m t where
  context := h.context
  idle hn := by
    obtain ⟨hi, hc⟩ := h.idle hn
    refine ⟨hi.moved ho.lost, fun hne => ?_⟩
    rw [ho.begunAt]
    rw [ho.begun] at hne
    exact (hc hne).later ho.lost.later hle
  running p hp := by
    obtain ⟨hsome, hm, hobeys, keepGoing, halways⟩ := h.running p hp
    refine ⟨hsome, by rwa [ho.begun], hobeys, keepGoing, ?_⟩
    rw [ho.begunAt]
    exact halways.drift ho.lost

theorem FullKept.moved (h : FullKept full? run? quiet s) (hm : Moved .disturbed s t)
    (hb : t.begun = [] → s.begun = [] ∧ t.begunAt = s.begunAt) : FullKept full? run? quiet t where
  run := h.run
  idle hn := by
    obtain ⟨hi, hall⟩ := h.idle hn
    refine ⟨hi.moved hm, fun hr hq hnil => ?_⟩
    obtain ⟨hnil', hat⟩ := hb hnil
    obtain ⟨n, hu, hd, hin⟩ := hall hr hq hnil'
    rw [hat]
    exact ⟨n, hu, hd, hin.moved hm⟩
  running p hp := by
    obtain ⟨hsome, hobeys, since, hs, halways⟩ := h.running p hp
    refine ⟨hsome, hobeys, since, fun hnil => ?_, halways.drift hm⟩
    obtain ⟨hnil', hat⟩ := hb hnil
    rw [hat]
    exact hs hnil'

theorem DeltaKept.adopt {context'? : Option CycleContext} (h : DeltaKept delta? context? m s)
    (hc : ∀ context, context'? = some context → context.settings.watermarks = m ∧
      context.config.limitOfDelta context.settings.isFirstRun = .unlimited)
    (hsome : context?.isSome → context'?.isSome) : DeltaKept delta? context'? m s where
  context := hc
  idle := h.idle
  running p hp := by
    obtain ⟨hs, hrest⟩ := h.running p hp
    exact ⟨hsome hs, hrest⟩

theorem FullKept.adopt {run'? : Option FullRun} {quiet' : Prop} (h : FullKept full? run? quiet s)
    (hr : ∀ run, run'? = some run → run.context.config.limitOfFull = .unlimited)
    (hsome : run?.isSome → run'?.isSome) (hnone : run'? = none → run? = none)
    (hq : quiet' → quiet) : FullKept full? run'? quiet' s where
  run := hr
  idle hn := by
    obtain ⟨hi, hall⟩ := h.idle hn
    exact ⟨hi, fun hr hq' => hall (hnone hr) (hq hq')⟩
  running p hp := by
    obtain ⟨hs, hrest⟩ := h.running p hp
    exact ⟨hsome hs, hrest⟩

/-! ## Beginning and advancing -/

theorem DeltaKept.begin {context : CycleContext} (h : DeltaKept none (some context) m s) :
    DeltaKept (some context.deltaUpdate) (some context) m (s.begin context) where
  context := h.context
  idle hn := nomatch hn
  running p hp := by
    cases hp
    obtain ⟨hm, hlimit⟩ := h.context context rfl
    have hi := (h.idle rfl).1.moved (Stage.moved_begin s context).1
    refine ⟨rfl, ?_, context.obeys_deltaUpdate.mono fun _ _ => trivial,
      context.config.keepUpdatingOnError, ?_⟩
    · rw [← hm]; exact List.mem_cons_self ..
    · exact (faithful_lost m fun hd => hd).deltaUpdate hm hlimit hi (Int.le_refl _)

theorem FullKept.begin {run : FullRun} (h : FullKept none (some run) quiet s)
    (hle : s.begunAt ≤ s.look.book.lastStamp) :
    FullKept (some run.context.fullUpdate) (some run) quiet s where
  run := h.run
  idle hn := nomatch hn
  running p hp := by
    cases hp
    refine ⟨rfl, run.context.obeys_fullUpdate.mono fun _ _ => trivial, s.begunAt,
      fun _ => Int.le_refl _, ?_⟩
    exact faithful_disturbed.fullUpdate (h.run run rfl) (h.idle rfl).1 hle

theorem DeltaKept.advance {p q : Program CycleContext.DeltaOutcome}
    (h : DeltaKept (some p) context? m s) (hp : p.advance false tick s = some (q, t)) :
    DeltaKept (some q) context? m t ∧ s.Carried t ∧ s.begun ≠ [] := by
  obtain ⟨hsome, hm, hobeys, keepGoing, halways⟩ := h.running p rfl
  obtain ⟨hobeys', hc⟩ := advance_keeps (I := s.Carried)
    (fun hc hok hi => hi.trans (Stage.carried_serve hc hok)) hobeys hp
    ⟨.refl _, rfl, rfl, fun hr => hr⟩
  refine ⟨⟨h.context, (nomatch ·), fun _ hq => ?_⟩, hc, List.ne_nil_of_mem hm⟩
  cases hq
  refine ⟨hsome, by rwa [hc.begun], hobeys', keepGoing, ?_⟩
  rw [hc.begunAt]
  exact halways.step ((advance_step hp hm).among ..)

theorem FullKept.advance {p q : Program CycleContext.FullOutcome} (h : FullKept (some p) run? quiet s)
    (hp : p.advance true tick s = some (q, t)) : FullKept (some q) run? quiet t ∧ s.Onward t ∧
    s.look.book.Same t.look.book := by
  obtain ⟨hsome, hobeys, since, hs, halways⟩ := h.running p rfl
  obtain ⟨hobeys', ho, hb⟩ := advance_keeps (I := fun u => s.Onward u ∧ s.Carried u)
    (fun hc hok hi => ⟨hi.1.trans (Stage.onward_full hc.keeps_schema hok),
      hi.2.trans (Stage.carried_serve hc hok)⟩) hobeys hp
    ⟨.refl s, .refl _, rfl, rfl, fun hr => hr⟩
  refine ⟨⟨h.run, (nomatch ·), fun _ hq => ?_⟩, ho, hb.book⟩
  cases hq
  refine ⟨hsome, hobeys', since, fun hnil => ?_, halways.step ((advance_step hp trivial).among ..)⟩
  rw [ho.begunAt]
  exact hs (ho.begun.symm.trans hnil)

/-! ## Ending -/

theorem DeltaKept.ended {outcome : CycleContext.DeltaOutcome}
    (h : DeltaKept (some (.done outcome)) context? m s) :
    s.begun ≠ [] ∧ ∃ n, outcome.result = .ok ⟨.completed, n⟩ ∧
      m.update ≤ n.update ∧ m.delete ≤ n.delete ∧
      Indexed .lost n s ∧ s.look.book.Covered n s.begunAt := by
  obtain ⟨_, hm, _, keepGoing, halways⟩ := h.running _ rfl
  obtain ⟨_, _, hreached, hcompleted⟩ := halways.done
  obtain ⟨n, hn⟩ := hcompleted smooth_calm
  have hr := hreached n hn
  refine ⟨List.ne_nil_of_mem hm, n, hn, hr.update_mono, hr.delete_mono, ?_, hr.covered⟩
  exact hr.indexed fun _ hf => hf.not_smooth smooth_calm

theorem FullKept.ended {outcome : CycleContext.FullOutcome}
    (h : FullKept (some (.done outcome)) run? quiet s) :
    FullKept none none quiet s where
  run _ hr := nomatch hr
  idle _ := by
    obtain ⟨_, _, since, hs, halways⟩ := h.running _ rfl
    obtain ⟨hi, hsmooth⟩ := halways.done
    obtain ⟨_, n, hu, hd, hin⟩ := hsmooth smooth_calm
    exact ⟨hi, fun _ _ hnil => ⟨n, Int.le_trans (hs hnil) hu, Int.le_trans (hs hnil) hd, hin⟩⟩
  running _ hp := nomatch hp

end

/-! ## What is kept of the machine -/

structure Worker.Open (w : Worker) : Prop where
  enabled : w.config.enabled = true
  draining : w.draining = false
  limitOfDelta : ∀ first, w.config.limitOfDelta first = .unlimited
  limitOfFull : w.config.limitOfFull = .unlimited

theorem Worker.Open.congr {w w' : Worker} (h : w.Open) (hc : w'.config = w.config)
    (hd : w'.draining = w.draining) :
    w'.Open := by
  refine ⟨?_, hd.trans h.draining, ?_, ?_⟩
  · rw [hc]; exact h.enabled
  · rw [hc]; exact h.limitOfDelta
  · rw [hc]; exact h.limitOfFull

namespace Machine

/-- What every move keeps; `w` is the worker that the handler at work ends with. -/
structure Kept (m : Machine) (w : Worker) : Prop where
  opened : w.Open
  handler : ∀ p, m.handler = some p → p.Obeys (Worker.Handling w.settings) (· = w)
  resting : m.handler = none → w = m.worker ∧ (m.delta = none → w.delta = none) ∧
    (m.full = none → w.full = none)
  recorded : m.stage.Recorded
  sound : m.stage.look.book.Sound
  begunAt_le : m.stage.begunAt ≤ m.stage.look.book.lastStamp
  toldAt_le : m.toldAt ≤ m.stage.look.book.lastStamp
  told : m.toldAt ≤ m.stage.begunAt ∨ (m.delta = none ∧ w.delta.isSome) ∨
    (m.delta.isSome ∧ w.rerun = true)
  delta : DeltaKept m.delta w.delta w.settings.watermarks m.stage
  full : FullKept m.full w.full (w.delta = none) m.stage

variable {m m' : Machine} {w : Worker} {tick : Tick} {s : Stage}

theorem Kept.onward (h : m.Kept w) (ho : m.stage.Onward s) (hm : Moved .disturbed m.stage s) :
    Kept { m with stage := s } w where
  opened := h.opened
  handler := h.handler
  resting := h.resting
  recorded := ho.recorded h.recorded
  sound := ho.lost.later.sound h.sound
  begunAt_le := by rw [ho.begunAt]; exact Int.le_trans h.begunAt_le ho.lost.later.last
  toldAt_le := Int.le_trans h.toldAt_le ho.lost.later.last
  told := by rw [ho.begunAt]; exact h.told
  delta := h.delta.onward ho h.begunAt_le
  full := h.full.moved hm fun hnil => ⟨ho.begun.symm.trans hnil, ho.begunAt⟩

theorem Kept.change (h : m.Kept w) (now : Int) (ch : AddressBook.Change) :
    Kept { m with stage := m.stage.change now ch } w :=
  h.onward (Stage.onward_change h.sound now ch).1 (Stage.onward_change h.sound now ch).2

theorem Kept.handle {p q : Program Worker} (h : m.Kept w) (hp : m.handler = some p)
    (hq : p.advance false tick m.stage = some (q, s)) :
    Kept { m with handler := some q, stage := s } w := by
  obtain ⟨hobeys, ho, hm⟩ := advance_keeps (I := fun u => m.stage.Onward u ∧ Moved .disturbed m.stage u)
    (fun {c u} hc hok hi => by
      obtain ⟨ho, hm⟩ := Stage.onward_still hc.writes_eq_false hok
      exact ⟨hi.1.trans ho, hi.2.trans hm⟩) (h.handler p hp) hq ⟨.refl _, .refl _⟩
  exact { h.onward ho hm with
    handler := fun _ hq' => Option.some.inj hq' ▸ hobeys
    resting := (nomatch ·) }

theorem Kept.command {command : Command} {toldAt : Int} (h : m.Kept w) (hn : m.handler = none)
    (hle : toldAt ≤ m.stage.look.book.lastStamp) (htold : toldAt ≤ m.stage.begunAt ∨
      (m.delta = none ∧ (w.afterCommand command).delta.isSome) ∨
      (m.delta.isSome ∧ (w.afterCommand command).rerun = true)) :
    Kept { m with toldAt := toldAt, handler := some (m.worker.onCommand command) }
    (w.afterCommand command) := by
  obtain ⟨hs, hc, hdelta, hfull⟩ := w.afterCommand_eq command
  refine {
    opened := h.opened.congr hc (w.draining_afterCommand command)
    handler := fun p hp => ?_
    resting := (nomatch ·)
    recorded := h.recorded
    sound := h.sound
    begunAt_le := h.begunAt_le
    toldAt_le := hle
    told := htold
    delta := ?_
    full := ?_ }
  · cases hp
    rw [← (h.resting hn).1]
    exact w.obeys_onCommand _ command
  · rw [hs]
    rcases hdelta with hsame | ⟨hnone, hnew⟩
    · rw [hsame]
      exact h.delta
    · rw [hnew]
      refine h.delta.adopt (fun context hcontext => ?_) fun hsome => rfl
      cases hcontext
      exact ⟨rfl, h.opened.limitOfDelta _⟩
  -- a command may begin a delta update, and ends none
  · have hquiet : (w.afterCommand command).delta = none → w.delta = none := by
      rcases hdelta with hsame | ⟨hnone, _⟩
      · rw [hsame]; exact fun hd => hd
      · exact fun _ => hnone
    rcases hfull with hsame | ⟨hnone, job, hnew⟩
    · rw [hsame]
      exact h.full.adopt h.full.run (fun hr => hr) (fun hr => hr) hquiet
    · rw [hnew]
      refine h.full.adopt (fun run hrun => ?_) (fun _ => rfl) (fun _ => hnone) hquiet
      cases hrun
      exact h.opened.limitOfFull

theorem Kept.notify (h : m.Kept w) (hn : m.handler = none) : Kept
    { m with
      toldAt := m.stage.look.book.lastStamp
      handler := some (m.worker.onCommand .contactsChanged) }
    (w.afterCommand .contactsChanged) := by
  refine h.command hn (Int.le_refl _) (.inr ?_)
  have htriggered : w.afterCommand .contactsChanged = w.triggered.shown := if_pos h.opened.enabled
  obtain ⟨_, hrerun, hsome⟩ := w.triggered_flags
  rw [htriggered]
  cases hd : m.delta with
  | none => exact .inl ⟨rfl, hsome⟩
  | some p => exact .inr ⟨rfl, hrerun (h.delta.running p hd).1⟩

theorem Kept.request (h : m.Kept w) (hn : m.handler = none) (job : Option JobId) :
    Kept { m with handler := some (m.worker.onCommand (.runFullUpdate job)) }
    (w.afterCommand (.runFullUpdate job)) := by
  obtain ⟨_, hrerun, hdelta⟩ := w.request_flags job
  refine h.command hn h.toldAt_le ?_
  rw [hrerun, hdelta]
  exact h.told

theorem Kept.install {v : Worker} (h : m.Kept w) (hp : m.handler = some (.done v)) :
    Kept (m.install v) v := by
  obtain rfl : v = w := h.handler _ hp
  -- the full update first, for the stage as it is and as it is when a delta update has been begun
  have hfull : ∀ s, FullKept m.full v.full (v.delta = none) s → s.begunAt ≤ s.look.book.lastStamp →
      FullKept (m.install v).full v.full (v.delta = none) s ∧
        ((m.install v).full = none → v.full = none) := by
    intro s hf hle
    rcases install_full m v with ⟨hsame, hnone⟩ | ⟨run, hnone, hsome, hnew⟩
    · rw [hsame]; exact ⟨hf, hnone⟩
    · rw [hnew, hsome]
      rw [hnone, hsome] at hf
      exact ⟨hf.begin hle, (nomatch ·)⟩
  rcases install_delta m v with ⟨hdelta, hstage, hnone⟩ | ⟨context, hnone, hsome, hdelta, hstage⟩
  · obtain ⟨hkept, hrest⟩ := hfull m.stage h.full h.begunAt_le
    exact {
      opened := h.opened
      handler := fun p hp => nomatch hp
      resting := fun _ => ⟨rfl, fun hd => hnone (hdelta.symm.trans hd), hrest⟩
      recorded := by rw [hstage]; exact h.recorded
      sound := by rw [hstage]; exact h.sound
      begunAt_le := by rw [hstage]; exact h.begunAt_le
      toldAt_le := by rw [hstage]; exact h.toldAt_le
      told := by rw [hstage, hdelta]; exact h.told
      delta := by rw [hstage, hdelta]; exact h.delta
      full := by rw [hstage]; exact hkept }
  · have hd := h.delta
    rw [hnone, hsome] at hd
    have hmoved := h.full.moved (Stage.moved_begin m.stage context).2 fun hnil => nomatch hnil
    obtain ⟨hkept, hrest⟩ := hfull _ hmoved (Int.le_refl _)
    exact {
      opened := h.opened
      handler := fun p hp => nomatch hp
      resting := fun _ => ⟨rfl, fun hd => (nomatch hdelta.symm.trans hd), hrest⟩
      recorded := by rw [hstage]; exact h.recorded
      sound := by rw [hstage]; exact h.sound
      begunAt_le := by rw [hstage]; exact Int.le_refl _
      toldAt_le := by rw [hstage]; exact h.toldAt_le
      told := by rw [hstage]; exact .inl h.toldAt_le
      delta := by rw [hstage, hdelta, hsome]; exact hd.begin
      full := by rw [hstage]; exact hkept }

/-! ## Moves of the cycles -/

theorem Kept.advanceDelta {p q : Program CycleContext.DeltaOutcome} (h : m.Kept w)
    (hp : m.delta = some p) (hq : p.advance false tick m.stage = some (q, s)) :
    Kept { m with delta := some q, stage := s } w := by
  have hd := h.delta
  rw [hp] at hd
  obtain ⟨hd, hc, hne⟩ := hd.advance hq
  -- a full update does not mind, for a delta update was begun
  have hmoved : Moved .disturbed m.stage s :=
    ⟨hc.book.later, fun _ =>
      .inr (.inr (.inr (Stage.Disturbed.later (.inl hne) hc.book.later hc.begun hc.begunAt)))⟩
  exact {
    opened := h.opened
    handler := h.handler
    resting := fun hn => ⟨(h.resting hn).1, (nomatch ·), (h.resting hn).2.2⟩
    recorded := hc.recorded h.recorded
    sound := hc.book.sound h.sound
    begunAt_le := by rw [hc.begunAt]; exact Int.le_trans h.begunAt_le hc.book.later.last
    toldAt_le := Int.le_trans h.toldAt_le hc.book.later.last
    told := by rw [hc.begunAt]; simpa [hp] using h.told
    delta := hd
    full := h.full.moved hmoved fun hnil => absurd (hc.begun.symm.trans hnil) hne }

theorem Kept.advanceFull {p q : Program CycleContext.FullOutcome} (h : m.Kept w) (hp : m.full = some p)
    (hq : p.advance true tick m.stage = some (q, s)) :
    Kept { m with full := some q, stage := s } w := by
  have hf := h.full
  rw [hp] at hf
  obtain ⟨hf, ho, hb⟩ := hf.advance hq
  exact {
    opened := h.opened
    handler := h.handler
    resting := fun hn => ⟨(h.resting hn).1, (h.resting hn).2.1, (nomatch ·)⟩
    recorded := ho.recorded h.recorded
    sound := hb.sound h.sound
    begunAt_le := by rw [ho.begunAt]; exact Int.le_trans h.begunAt_le hb.later.last
    toldAt_le := Int.le_trans h.toldAt_le hb.later.last
    told := by rw [ho.begunAt]; exact h.told
    delta := h.delta.onward ho h.begunAt_le
    full := hf }

theorem Kept.endDelta {outcome : CycleContext.DeltaOutcome} (h : m.Kept w)
    (hp : m.delta = some (.done outcome)) (hn : m.handler = none) :
    Kept { m with delta := none, handler := some (m.worker.onDeltaDone outcome) }
    (w.afterDelta outcome) := by
  have hd := h.delta
  rw [hp] at hd
  obtain ⟨hne, n, hresult, hu, hdl, hi, hcovered⟩ := hd.ended
  obtain ⟨hc, hf, _⟩ := w.afterDelta_eq outcome
  have hopened : (w.afterDelta outcome).Open := h.opened.congr hc (w.draining_afterDelta outcome)
  have hmarks : (w.afterDelta outcome).settings.watermarks = n := by
    rw [Worker.settings_afterDelta]
    unfold Worker.settledDelta
    rw [hresult]
    exact Worker.adopted_watermarks hu hdl
  have hdue := w.delta_afterDelta outcome
  rw [h.opened.draining, h.opened.enabled, Bool.not_false, Bool.and_true, Bool.and_true] at hdue
  refine {
    opened := hopened
    handler := fun p hp => ?_
    resting := (nomatch ·)
    recorded := h.recorded
    sound := h.sound
    begunAt_le := h.begunAt_le
    toldAt_le := h.toldAt_le
    told := ?_
    delta := ⟨fun context hcontext => ?_, fun _ => ?_, fun _ hp => nomatch hp⟩
    full := ?_ }
  · cases hp
    rw [← (h.resting hn).1]
    exact w.obeys_onDeltaDone outcome
  · -- what was told during the update has made the next one due
    rcases h.told with hle | ⟨hnone, _⟩ | ⟨_, hrerun⟩
    · exact .inl hle
    · rw [hp] at hnone; cases hnone
    · refine .inr (.inl ⟨rfl, ?_⟩)
      rw [hdue, hrerun]
      rfl
  · rw [hdue] at hcontext
    split at hcontext
    · cases hcontext
      exact ⟨rfl, hopened.limitOfDelta _⟩
    · cases hcontext
  · rw [hmarks]
    exact ⟨hi, fun _ => hcovered⟩
  · rw [hf]
    exact ⟨h.full.run, fun hn => ⟨(h.full.idle hn).1, fun _ _ hnil => absurd hnil hne⟩, h.full.running⟩

theorem Kept.endFull {outcome : CycleContext.FullOutcome} (h : m.Kept w)
    (hp : m.full = some (.done outcome)) (hn : m.handler = none) :
    Kept { m with full := none, handler := some (m.worker.onFullDone outcome) }
    (w.afterFull outcome) := by
  have hf := h.full
  rw [hp] at hf
  obtain ⟨hc, hfull, hdelta, hmarks⟩ := w.afterFull_eq outcome
  obtain ⟨hdraining, hrerun⟩ := w.afterFull_flags outcome
  refine {
    opened := h.opened.congr hc hdraining
    handler := fun p hp => ?_
    resting := (nomatch ·)
    recorded := h.recorded
    sound := h.sound
    begunAt_le := h.begunAt_le
    toldAt_le := h.toldAt_le
    told := by rw [hdelta, hrerun]; exact h.told
    delta := by rw [hdelta, hmarks]; exact h.delta
    full := by rw [hfull, hdelta]; exact hf.ended }
  cases hp
  rw [← (h.resting hn).1]
  exact w.obeys_onFullDone outcome

/-! ## Runs -/

/-- Where a run begins: everything is indexed up to the watermarks of the worker, as it is when
nothing was ever indexed and they are zeros. -/
structure Launched (w : Worker) (look : Collaborators) : Prop where
  opened : w.Open
  fresh : w.delta = none ∧ w.full = none
  indexed : Indexed .plain w.settings.watermarks look
  nonneg : 0 ≤ w.settings.contactUpdate ∧ 0 ≤ w.settings.contactDelete

theorem kept_launch {look : Collaborators} (h : Launched w look) (initial : InitialCycle) :
    Kept (launch w initial look) (w.begun initial) := by
  obtain ⟨hs, hc, hdelta, hfull⟩ := w.begun_eq initial
  have hopened : (w.begun initial).Open := h.opened.congr hc (w.begun_flags initial).1
  refine {
    opened := hopened
    handler := fun p hp => ?_
    resting := (nomatch ·)
    recorded := fun _ _ hl => nomatch hl
    sound := h.indexed.sound
    begunAt_le := Int.le_refl _
    toldAt_le := Int.le_refl _
    told := .inl (Int.le_refl _)
    delta := ⟨fun context hcontext => ?_, fun _ => ⟨?_, fun hne => absurd rfl hne⟩,
      fun _ hp => nomatch hp⟩
    full := ⟨fun run hrun => ?_,
      fun _ => ⟨?_, fun hf hd => absurd hd (w.begun_busy h.opened.enabled initial hf)⟩,
      fun _ hp => nomatch hp⟩ }
  · cases hp
    exact w.obeys_begin _ initial
  · rw [h.fresh.1] at hdelta
    rcases hdelta with hnone | hnew
    · rw [hnone] at hcontext; cases hcontext
    · rw [hnew] at hcontext
      cases hcontext
      exact ⟨by rw [hs]; rfl, h.opened.limitOfDelta _⟩
  · rw [hs]
    exact h.indexed.viewed rfl fun _ hx => nomatch hx
  · rw [h.fresh.2] at hfull
    rcases hfull with hnone | hnew
    · rw [hnone] at hrun; cases hrun
    · rw [hnew] at hrun
      cases hrun
      exact h.opened.limitOfFull
  · exact (h.indexed.mono h.nonneg.1 h.nonneg.2).viewed rfl fun _ hx => nomatch hx

theorem Kept.step {move : Move} (h : m.Kept w) (hs : m.step move = some m') : ∃ w', m'.Kept w' := by
  cases move with
  | change now ch =>
    cases hs
    exact ⟨w, h.change now ch⟩
  | notify =>
    obtain ⟨hn, rfl⟩ := take?_eq hs
    exact ⟨_, h.notify hn⟩
  | request job =>
    obtain ⟨hn, rfl⟩ := take?_eq hs
    exact ⟨_, h.request hn job⟩
  | handler tick =>
    rcases step_handler hs with ⟨v, hp, rfl⟩ | ⟨p, q, s, hp, hq, rfl⟩
    · exact ⟨v, h.install hp⟩
    · exact ⟨w, h.handle hp hq⟩
  | delta tick =>
    rcases step_delta hs with ⟨outcome, hp, hn, rfl⟩ | ⟨p, q, s, hp, hq, rfl⟩
    · exact ⟨_, h.endDelta hp hn⟩
    · exact ⟨w, h.advanceDelta hp hq⟩
  | full tick =>
    rcases step_full hs with ⟨outcome, hp, hn, rfl⟩ | ⟨p, q, s, hp, hq, rfl⟩
    · exact ⟨_, h.endFull hp hn⟩
    · exact ⟨w, h.advanceFull hp hq⟩

theorem kept_run {look : Collaborators} {initial : InitialCycle} {moves : List Move}
    (h : Launched w look) (hr : (launch w initial look).run moves = some m) : ∃ w', m.Kept w' :=
  run_induction (I := fun m => ∃ w', m.Kept w') (P := fun _ => True)
    (fun _ ⟨_, hk⟩ hs => hk.step hs) (fun _ _ => trivial)
    ⟨_, kept_launch h initial⟩ hr

theorem not_right_of_lost {id : String} (hr : s.Recorded) (hl : s.Lost id) : ¬ s.look.Right id := by
  obtain ⟨l, hl, hne, hsource, _⟩ := hl
  intro hright
  refine hne ((hr id l hl).symm.trans (hright.trans ?_))
  rw [AddressBook.fingerprint?, hsource]

theorem Kept.right_or_lost (h : m.Kept w) (hn : m.handler = none) (hd : m.delta = none)
    (hf : m.full = none) (ht : m.stage.look.book.lastStamp ≤ m.toldAt) (id : String) :
    m.stage.look.Right id ∨ m.stage.Lost id := by
  obtain ⟨_, hdelta, hfull⟩ := h.resting hn
  have hlast : m.stage.look.book.lastStamp ≤ m.stage.begunAt := by
    rcases h.told with hle | ⟨_, hsome⟩ | ⟨hsome, _⟩
    · exact Int.le_trans ht hle
    · rw [hdelta hd] at hsome; cases hsome
    · rw [hd] at hsome; cases hsome
  by_cases hb : m.stage.begun = []
  · obtain ⟨_, hall⟩ := h.full.idle hf
    obtain ⟨n, hu, hdl, hi⟩ := hall (hfull hf) (hdelta hd) hb
    refine .inl ((hi.right_of_covered (AddressBook.covered_of_le hu hdl) hlast id).resolve_right ?_)
    rintro (hne | hlt)
    · exact hne hb
    · exact absurd hlt (Int.not_lt.mpr hlast)
  · obtain ⟨hi, hcovered⟩ := h.delta.idle hd
    exact hi.right_of_covered (hcovered hb) hlast id

end Machine

/-- A full update runs among delta updates while the source changes, and every change is followed by
a notification. At the end the index holds what the source has under each id, except where the last
write was stale: one of the full update, or a removal because of skewed watermarks, with the same
contact in the source since. -/
theorem right_iff_not_lost {w : Worker} {look : Collaborators} {initial : InitialCycle}
    {moves : List Move} {m : Machine} (h : Machine.Launched w look)
    (hr : (Machine.launch w initial look).run moves = some m) (hn : m.handler = none)
    (hd : m.delta = none) (hf : m.full = none) (ht : m.stage.look.book.lastStamp ≤ m.toldAt)
    (id : String) :
    m.stage.look.store.fingerprint? id = m.stage.look.book.fingerprint? id ↔ ¬ m.stage.Lost id := by
  obtain ⟨w', hk⟩ := Machine.kept_run h hr
  constructor
  · exact fun hright hl => Machine.not_right_of_lost hk.recorded hl hright
  · exact (hk.right_or_lost hn hd hf ht id).resolve_right

theorem launched_stocked : Machine.Launched (.new 1 .zero .cautious) .stocked where
  opened := ⟨rfl, rfl, fun first => by cases first <;> rfl, rfl⟩
  fresh := ⟨rfl, rfl⟩
  indexed := .unindexed (AddressBook.sound_empty.change 1000 (.upsert (.named "a" "Ada"))) fun _ => rfl
  nonneg := ⟨Int.le_refl 0, Int.le_refl 0⟩

/-- A full update reads the contact after a first change and writes it after a delta update has
followed a second one. -/
def overlapping : List Move :=
  let tick := ⟨1000, false⟩
  List.replicate 5 (.handler tick) ++ List.replicate 13 (.delta tick) ++
    List.replicate 4 (.handler tick) ++
    [.change 1000 (.upsert (.named "a" "Ada B")), .request none] ++ List.replicate 2 (.handler tick) ++
    List.replicate 9 (.full tick) ++ [.change 1000 (.upsert (.named "a" "Ada")), .notify] ++
    List.replicate 3 (.handler tick) ++ List.replicate 11 (.delta tick) ++
      List.replicate 4 (.handler tick) ++
    List.replicate 5 (.full tick) ++ List.replicate 5 (.handler tick)

theorem lost_to_full_update : ∃ m,
    (Machine.launch (.new 1 .zero .cautious) .delta .stocked).run overlapping = some m ∧
    m.handler = none ∧ m.delta = none ∧ m.full = none ∧ m.stage.look.book.lastStamp ≤ m.toldAt ∧
    m.stage.look.store.fingerprint? "a" ≠ m.stage.look.book.fingerprint? "a" ∧ m.stage.Lost "a" := by
  have hrun : ((Machine.launch (.new 1 .zero .cautious) .delta .stocked).run overlapping).any (fun m =>
      m.handler.isNone && m.delta.isNone && m.full.isNone &&
        decide (m.stage.look.book.lastStamp ≤ m.toldAt) &&
        decide (m.stage.look.store.fingerprint? "a" ≠ m.stage.look.book.fingerprint? "a")) = true := by
    decide +kernel
  obtain ⟨m, hm, hp⟩ := (Option.any_eq_true _ _).mp hrun
  simp only [Bool.and_eq_true, Option.isNone_iff_eq_none, decide_eq_true_eq] at hp
  obtain ⟨⟨⟨⟨hn, hd⟩, hf⟩, ht⟩, hne⟩ := hp
  have hiff := right_iff_not_lost launched_stocked hm hn hd hf ht "a"
  exact ⟨m, hm, hn, hd, hf, ht, hne, Classical.not_not.mp fun hl => hne (hiff.mpr hl)⟩

end ContactsIndex
