import ContactsIndex.Proofs.Instance.Overlap

/-!
# Delta updates on their own

A delta update that begins with watermarks that are skewed for a contact lists its
deletion without the contact, and removes it. No later one lists the contact, for none
goes back behind the watermarks of another. So without full updates a contact is missing
at the end exactly when some delta update was begun with watermarks skewed for it.
-/

namespace ContactsIndex

open Program
open Stage (calm)

variable {m : Watermarks} {ms prev : List Watermarks} {s t : Stage} {r u : List String}
  {d : List Document}

namespace Stage

/-! ## What others do -/

structure Quiet (s t : Stage) : Prop where
  later : s.look.book.Later t.look.book
  slots : ∀ id, t.look.store.fingerprint? id = s.look.store.fingerprint? id
  landed : t.landed = s.landed
  begun : t.begun = s.begun

theorem Quiet.refl (s : Stage) : Quiet s s :=
  ⟨.refl _, fun _ => rfl, rfl, rfl⟩

theorem Quiet.trans {v : Stage} (h : Quiet s t) (h' : Quiet t v) : Quiet s v :=
  ⟨h.later.trans h'.later, fun id => (h'.slots id).trans (h.slots id), h'.landed.trans h.landed,
    h'.begun.trans h.begun⟩

theorem Quiet.moved (h : Quiet s t) : Moved .lost s t := by
  refine ⟨h.later, fun id => ?_⟩
  rcases h.later.touched_or_same id with ht | hsame
  · exact .inl ht
  · refine .inr (.inl ⟨h.slots id, fun hx => Lost.later hx (congrFun h.landed id) h.later hsame
      fun n hn => ?_⟩)
    rwa [h.begun]

theorem quiet_serve {byFull : Bool} {c : Call} (hc : c.writes = false) :
    Quiet s (s.serve byFull c).2 := by
  refine ⟨(serve_same s _ c).later, fun id => congrArg (·.fingerprint? id) (s.look.serve_store hc),
    ?_, rfl⟩
  exact funext fun id => if_neg (by rw [Call.written_eq_nil hc]; exact List.not_mem_nil)

theorem quiet_change (h : s.look.book.Sound) (now : Int) (ch : AddressBook.Change) :
    Quiet s (s.change now ch) :=
  ⟨AddressBook.later_change h now ch, fun _ => rfl, rfl, rfl⟩

def alone (m : Watermarks) : Environment Stage :=
  (calm false (m ∈ ·.begun)).among Quiet .refl .trans

def Astray (s : Stage) (ms : List Watermarks) (id : String) : Prop :=
  ∃ m ∈ ms, s.look.book.Skewed m id

theorem Astray.of_later {id : String} (h : t.Astray ms id) (hb : s.look.book.Later t.look.book)
    (hs : s.look.book.Sound) (hle : ∀ m ∈ ms, m.update ≤ s.look.book.lastStamp) : s.Astray ms id := by
  obtain ⟨m, hm, hsk⟩ := h
  exact ⟨m, hm, hsk.of_later hb hs (hle m hm)⟩

end Stage

open Stage (alone)

theorem quiet_of_answers {c : Call} {reply : c.Reply} (hc : c.writes = false)
    (ha : (alone m).answers c s reply t) : s.Quiet t := by
  obtain ⟨_, _, he⟩ := ha
  cases he
  exact Stage.quiet_serve hc

theorem passes_alone : (alone m).Passes Stage.Quiet :=
  ⟨.refl, .trans, fun h => h, quiet_of_answers rfl, quiet_of_answers rfl⟩

theorem faithful_alone (m : Watermarks) : Faithful .lost (alone m) m :=
  faithful_lost m Stage.Quiet.moved

/-! ## Purging -/

/-- A contact that is astray is not going to be read or written, and it is removed or going to be. -/
structure Purging (ms : List Watermarks) (r u : List String) (d : List Document)
    (s : Stage) : Prop where
  sound : s.look.book.Sound
  le : ∀ m ∈ ms, m.update ≤ s.look.book.lastStamp
  astray : ∀ id, s.Astray ms id → id ∉ u ∧ (∀ doc ∈ d, doc.id ≠ id) ∧
    (id ∈ r ∨ s.look.store.fingerprint? id = none)

namespace Purging

theorem later {r' u' : List String} {d' : List Document} (h : Purging ms r u d s)
    (hb : s.look.book.Later t.look.book) (hp : ∀ id, s.Astray ms id → id ∉ u' ∧
      (∀ doc ∈ d', doc.id ≠ id) ∧ (id ∈ r' ∨ t.look.store.fingerprint? id = none)) :
    Purging ms r' u' d' t where
  sound := hb.sound h.sound
  le m hm := Int.le_trans (h.le m hm) hb.last
  astray id hx := hp id (hx.of_later hb h.sound h.le)

theorem quiet (h : Purging ms r u d s) (hq : s.Quiet t) : Purging ms r u d t := by
  apply h.later hq.later
  intro id hx
  obtain ⟨hu, hd, hr⟩ := h.astray id hx
  exact ⟨hu, hd, hr.imp_right (hq.slots id).trans⟩

theorem removed {ids : List String} {outcome : Outcome} (h : Purging ms (ids ++ r) u d s)
    (ha : (alone m).answers (.remove ids) s (.ok outcome) t) : Purging ms r u d t := by
  have F := faithful_alone m
  apply h.later (F.same ha).later
  intro id hx
  obtain ⟨hu, hd, hr⟩ := h.astray id hx
  refine ⟨hu, hd, ?_⟩
  by_cases hid : id ∈ ids
  · exact .inr (F.removed_of_mem ha hid)
  · rcases F.remove_each ha id with ⟨hslot, _⟩ | ⟨hid', _⟩
    · exact hr.imp (fun hr => (List.mem_append.mp hr).resolve_left hid) hslot.trans
    · exact absurd hid' hid

theorem written {docs : List Document} {reply : (Call.put docs).Reply}
    (h : Purging ms r u (docs ++ d) s) (ha : (alone m).answers (.put docs) s reply t) :
    Purging ms r u d t := by
  have F := faithful_alone m
  apply h.later (F.same ha).later
  intro id hx
  obtain ⟨hu, hd, hr⟩ := h.astray id hx
  refine ⟨hu, fun doc hdoc => hd doc (List.mem_append_right _ hdoc), hr.imp_right fun hnone => ?_⟩
  rcases F.put_each ha id with ⟨hslot, _⟩ | ⟨doc, hdoc, hid, _⟩
  · exact hslot.trans hnone
  · exact absurd hid (hd doc (List.mem_append_left _ hdoc))

theorem read {ids : List String} {found : List Contact} (h : Purging ms r (ids ++ u) d s)
    (ha : (alone m).answers (.contacts ids) s (.ok (some found)) t) :
    Purging ms r u (d ++ found.map (Document.ofContact · 0)) t := by
  have F := faithful_alone m
  have hafter := h.quiet (quiet_of_answers rfl ha)
  refine { hafter with astray := fun id hx => ?_ }
  obtain ⟨hu, hd, hr⟩ := hafter.astray id hx
  refine ⟨fun hin => hu (List.mem_append_right _ hin), fun doc hdoc => ?_, hr⟩
  rcases List.mem_append.mp hdoc with hdoc | hdoc
  · exact hd doc hdoc
  · obtain ⟨c, hc, rfl⟩ := List.mem_map.mp hdoc
    rw [F.contacts_eq ha] at hc
    obtain ⟨id', hin, hg⟩ := AddressBook.mem_contactsOf.mp hc
    intro hid
    rw [← hid, Document.id_ofContact, h.sound.id_eq hg] at hu
    exact hu (List.mem_append_left _ hin)

theorem compared {found : List Contact} {unwanted : List String} {stored : List (Option Entry)}
    {now : Int} (h : Purging ms r u (d ++ found.map (Document.ofContact · 0)) s)
    (ha : (alone m).answers (.entries (found.map (·.id))) s (.ok stored) t) :
    Purging ms r u (d ++ (Corpus.compare unwanted now found stored).filterMap Diffed.indexable) t := by
  have F := faithful_alone m
  have hafter := h.quiet (quiet_of_answers rfl ha)
  refine { hafter with astray := fun id hx => ?_ }
  obtain ⟨hu, hd, hr⟩ := hafter.astray id hx
  refine ⟨hu, fun doc hdoc => ?_, hr⟩
  rcases List.mem_append.mp hdoc with hdoc | hdoc
  · exact hd doc (List.mem_append_left _ hdoc)
  · rw [(F.entries_eq ha).1] at hdoc
    obtain ⟨c, hc, hid, _⟩ := Corpus.mem_compared hdoc
    rw [hid]
    exact hd _ (List.mem_append_right _ (List.mem_map_of_mem hc))

theorem begin {b b' : AddressBook} (hs : s.look.book.Sound) (hle : ∀ n ∈ prev, n.update ≤ m.update)
    (hlast : m.update ≤ s.look.book.lastStamp)
    (hprev : ∀ id, s.Astray prev id → s.look.store.fingerprint? id = none) (hq : s.Quiet t)
    (hb : s.look.book.Later b) (hbt : b.Later t.look.book) (hb' : s.look.book.Later b')
    (hbt' : b'.Later t.look.book) :
    Purging (m :: prev) (b'.erasures m.delete).ids (b.changes m.update).ids [] t where
  sound := hq.later.sound hs
  le n hn := by
    have hlast' := Int.le_trans hlast hq.later.last
    rcases List.mem_cons.mp hn with rfl | hn
    · exact hlast'
    · exact Int.le_trans (hle n hn) hlast'
  astray id hx := by
    obtain ⟨n, hn, hsk⟩ := hx
    have hnm : n.update ≤ m.update := by
      rcases List.mem_cons.mp hn with rfl | hn
      · exact Int.le_refl _
      · exact hle n hn
    obtain ⟨c, hc, hcle, row, hrow, hid, hlt⟩ := hsk
    have hcm : c.lastUpdated ≤ m.update := Int.le_trans hcle hnm
    refine ⟨fun hin => ?_, fun doc hdoc => (nomatch hdoc), ?_⟩
    -- the contact is no newer than the watermark, so the listing of changes left it out
    · obtain ⟨c', hc', hnew⟩ := (AddressBook.mem_changes (hb.sound hs)).mp hin
      have hold := hbt.live hc (Int.le_trans hcm (Int.le_trans hlast hb.last))
      rw [hold] at hc'
      cases hc'
      exact absurd hnew (Int.not_lt.mpr hcm)
    -- astray because of this delta update: its deletion is listed; because of an earlier one: it is gone
    · rcases List.mem_cons.mp hn with rfl | hn
      · have hrow_lt := (hq.later.sound hs).row_lt hc row hrow hid
        have := hb'.last
        exact .inl (AddressBook.mem_erasures.mpr ⟨row, hbt'.rows row hrow (by omega), hid, hlt⟩)
      · have hbefore := Stage.Astray.of_later ⟨n, hn, c, hc, hcle, row, hrow, hid, hlt⟩ hq.later hs
          fun n hn => Int.le_trans (hle n hn) hlast
        exact .inr ((hq.slots id).trans (hprev id hbefore))

theorem upkeep (m : Watermarks) (ms : List Watermarks) (policy : Policy) (unwanted : List String) :
    Upkeep (alone m) policy unwanted (Purging ms)
      (fun r u d found s => Purging ms r u (d ++ found.map (Document.ofContact · 0)) s)
      (fun _ _ => True) where
  inv_drift h hq := h.quiet hq
  seen_drift h hq := h.quiet hq
  safe_drift _ _ := trivial
  safe_of_inv _ := trivial
  safe_nil _ := trivial
  recover _ ha hf := absurd hf ha.2.1
  removed _ h ha _ := h.removed ha
  unremoved _ _ _ := trivial
  written h ha _ := h.written ha
  unwritten _ _ := trivial
  read h ha := h.read ha
  unread _ _ := trivial
  seen_nil h := by simpa using h
  compared h ha _ := h.compared ha
  uncompared _ _ := trivial

end Purging

theorem purging_deltaUpdate {context : CycleContext} (hm : context.settings.watermarks = m)
    (hlimit : context.config.limitOfDelta context.settings.isFirstRun = .unlimited)
    (hs : s.look.book.Sound) (hle : ∀ n ∈ prev, n.update ≤ m.update)
    (hlast : m.update ≤ s.look.book.lastStamp)
    (hprev : ∀ id, s.Astray prev id → s.look.store.fingerprint? id = none) :
    context.deltaUpdate.Always (alone m) (fun _ t => Purging (m :: prev) [] [] [] t) s := by
  have F := faithful_alone m
  have hfollow : ∀ stats, (context.followChanges stats).Always (alone m)
    (fun _ t => Purging (m :: prev) [] [] [] t) s := by
    intro stats
    subst hm
    unfold CycleContext.followChanges
    simp only [hlimit]
    apply (Source.always_listBoth passes_alone).bind
    intro result t hgot
    obtain ⟨hq, ⟨e, _, hno⟩ | ⟨⟨updated, deleted⟩, rfl, hupdated, hdeleted⟩⟩ := hgot
    · exact absurd smooth_calm hno
    · obtain ⟨b, hb, hbt, rfl⟩ := F.listed_changes Stage.Quiet.later hupdated
      obtain ⟨b', hb', hbt', rfl⟩ := F.listed_erasures Stage.Quiet.later hdeleted
      have hbegin := Purging.begin hs hle hlast hprev hq hb hbt hb' hbt'
      apply ((Purging.upkeep _ _ _ _).update hbegin).bind
      intro p t hp
      have hcompleted := hp.2.2 smooth_calm
      have hpurged := hp.2.1 hcompleted
      obtain ⟨_, stats⟩ := p
      subst hcompleted
      exact Program.always_pure.mpr fun t hd => hpurged.quiet hd
  unfold CycleContext.deltaUpdate
  refine Program.always_readClock.mpr fun began _ => (hfollow _).bind ?_
  intro p t hp
  obtain ⟨result, stats⟩ := p
  apply Program.always_readClock.mpr
  intro ended _
  dsimp only
  split
  · apply Program.always_ask.mpr
    intro t₁ hd reply t₂ ha
    have hp := (hp.quiet hd).quiet (quiet_of_answers rfl ha)
    rcases reply with e | _ <;> exact fun t hd => hp.quiet hd
  · exact fun t hd => hp.quiet hd

/-! ## Runs without full updates -/

namespace Machine

/-- What every move keeps, besides, as long as nobody requests a full update. -/
structure Alone (m : Machine) (w : Worker) : Prop where
  full : m.full = none ∧ w.full = none
  byDelta : ∀ id l, m.stage.landed id = some l → l.byFull = false
  behind : ∀ n ∈ m.stage.begun, n.update ≤ w.settings.watermarks.update
  idle : m.delta = none → ∀ id, m.stage.Astray m.stage.begun id →
    m.stage.look.store.fingerprint? id = none
  running : ∀ p, m.delta = some p →
    p.Always (alone w.settings.watermarks) (fun _ t => Purging m.stage.begun [] [] [] t) m.stage

variable {m m' : Machine} {w : Worker} {tick : Tick} {s : Stage}

theorem Alone.quiet (h : m.Alone w) (hk : m.Kept w) (hq : m.stage.Quiet s) :
    Alone { m with stage := s } w where
  full := h.full
  byDelta := by rw [hq.landed]; exact h.byDelta
  behind := by rw [hq.begun]; exact h.behind
  idle hd id hx := by
    rw [hq.begun] at hx
    refine (hq.slots id).trans (h.idle hd id (hx.of_later hq.later hk.sound fun n hn => ?_))
    exact Int.le_trans (h.behind n hn) (hk.delta.idle hd).1.update_le
  running p hp := by
    rw [hq.begun]
    exact (h.running p hp).drift hq

theorem Alone.handle {p q : Program Worker} (h : m.Alone w) (hk : m.Kept w) (hp : m.handler = some p)
    (hq : p.advance false tick m.stage = some (q, s)) :
    Alone { m with handler := some q, stage := s } w := by
  obtain ⟨_, hquiet⟩ := advance_keeps (I := m.stage.Quiet)
    (fun hc _ hi => hi.trans (Stage.quiet_serve hc.writes_eq_false)) (hk.handler p hp) hq (.refl _)
  obtain ⟨hfull, hby, hbehind, hidle, hrunning⟩ := h.quiet hk hquiet
  exact ⟨hfull, hby, hbehind, hidle, hrunning⟩

theorem Alone.notify (h : m.Alone w) : Alone
    { m with
      toldAt := m.stage.look.book.lastStamp
      handler := some (m.worker.onCommand .contactsChanged) }
    (w.afterCommand .contactsChanged) := by
  obtain ⟨hs, _, _, _⟩ := w.afterCommand_eq .contactsChanged
  refine ⟨⟨h.full.1, ?_⟩, h.byDelta, by rw [hs]; exact h.behind, h.idle, by rw [hs]; exact h.running⟩
  unfold Worker.afterCommand
  dsimp only
  split
  · exact w.triggered_eq.2.2.1.trans h.full.2
  · exact h.full.2

theorem Alone.install {v : Worker} (h : m.Alone w) (hk : m.Kept w) (hp : m.handler = some (.done v)) :
    Alone (m.install v) v := by
  obtain rfl : v = w := hk.handler _ hp
  have hfull : (m.install v).full = none := by
    rcases install_full m v with ⟨hsame, _⟩ | ⟨run, _, hsome, _⟩
    · exact hsame.trans h.full.1
    · rw [h.full.2] at hsome; cases hsome
  rcases install_delta m v with ⟨hdelta, hstage, _⟩ | ⟨context, hnone, hsome, hdelta, hstage⟩
  · constructor
    · exact ⟨hfull, h.full.2⟩
    · rw [hstage]; exact h.byDelta
    · rw [hstage]; exact h.behind
    · rw [hstage, hdelta]; exact h.idle
    · rw [hstage, hdelta]; exact h.running
  · obtain ⟨hm, hlimit⟩ := hk.delta.context context hsome
    have hbegun : (m.install v).stage.begun = v.settings.watermarks :: m.stage.begun := by
      rw [hstage, ← hm]; rfl
    constructor
    · exact ⟨hfull, h.full.2⟩
    · rw [hstage]; exact h.byDelta
    · rw [hbegun]; exact List.forall_mem_cons.mpr ⟨Int.le_refl _, h.behind⟩
    · rw [hdelta]; exact (nomatch ·)
    · intro p hp
      rw [hdelta] at hp
      cases hp
      rw [hbegun, hstage]
      exact purging_deltaUpdate hm hlimit hk.sound h.behind (hk.delta.idle hnone).1.update_le
        (h.idle hnone)

theorem Alone.advance {p q : Program CycleContext.DeltaOutcome} (h : m.Alone w) (hk : m.Kept w)
    (hp : m.delta = some p) (hq : p.advance false tick m.stage = some (q, s)) :
    Alone { m with delta := some q, stage := s } w := by
  obtain ⟨_, hm, hobeys, _⟩ := hk.delta.running p hp
  obtain ⟨_, hby, hbegun⟩ := advance_keeps
    (I := fun u => (∀ id l, u.landed id = some l → l.byFull = false) ∧ u.begun = m.stage.begun)
    (fun {c u} hc hok hi => by
      refine ⟨fun id l hl => ?_, hi.2⟩
      rcases Stage.serve_each hc.keeps_schema hok id with ⟨hsame, _⟩ | hnew
      · exact hi.1 id l (hsame.symm.trans hl)
      · rw [hnew] at hl
        cases hl
        rfl) hobeys hq ⟨h.byDelta, rfl⟩
  refine ⟨h.full, hby, by rw [hbegun]; exact h.behind, (nomatch ·), fun _ hq' => ?_⟩
  cases hq'
  rw [hbegun]
  exact (h.running p hp).step ((advance_step hq hm).among ..)

theorem Alone.endDelta {outcome : CycleContext.DeltaOutcome} (h : m.Alone w)
    (hp : m.delta = some (.done outcome)) :
    Alone { m with delta := none, handler := some (m.worker.onDeltaDone outcome) }
    (w.afterDelta outcome) := by
  have hpurged := (h.running _ hp).done
  obtain ⟨_, hfull, _⟩ := w.afterDelta_eq outcome
  refine ⟨⟨h.full.1, hfull.trans h.full.2⟩, h.byDelta, fun n hn => ?_, fun _ id hx => ?_,
    fun _ hp => nomatch hp⟩
  · have hmono : w.settings.watermarks.update ≤ (w.afterDelta outcome).settings.watermarks.update := by
      rw [Worker.settings_afterDelta]
      unfold Worker.settledDelta
      split
      · exact Int.le_max_left ..
      · exact Int.le_refl _
    exact Int.le_trans (h.behind n hn) hmono
  · exact (hpurged.astray id hx).2.2.resolve_left List.not_mem_nil

theorem alone_launch {look : Collaborators} (h : Launched w look) :
    Alone (launch w .delta look) (w.begun .delta) where
  full := by
    refine ⟨rfl, ?_⟩
    unfold Worker.begun
    dsimp only
    split
    · exact h.fresh.2
    · exact h.fresh.2
  byDelta _ _ hl := nomatch hl
  behind _ hn := nomatch hn
  idle _ _ hx := by
    obtain ⟨_, hn, _⟩ := hx
    cases hn
  running _ hp := nomatch hp

theorem Alone.step {move : Move} (h : m.Alone w) (hk : m.Kept w) (hm : move.isRequest = false)
    (hs : m.step move = some m') : ∃ w', m'.Kept w' ∧ m'.Alone w' := by
  cases move with
  | change now ch =>
    cases hs
    exact ⟨w, hk.change now ch, h.quiet hk (Stage.quiet_change hk.sound now ch)⟩
  | notify =>
    obtain ⟨hn, rfl⟩ := take?_eq hs
    exact ⟨_, hk.notify hn, h.notify⟩
  | request job => cases hm
  | handler tick =>
    rcases step_handler hs with ⟨v, hp, rfl⟩ | ⟨p, q, s, hp, hq, rfl⟩
    · exact ⟨v, hk.install hp, h.install hk hp⟩
    · exact ⟨w, hk.handle hp hq, h.handle hk hp hq⟩
  | delta tick =>
    rcases step_delta hs with ⟨outcome, hp, hn, rfl⟩ | ⟨p, q, s, hp, hq, rfl⟩
    · exact ⟨_, hk.endDelta hp hn, h.endDelta hp⟩
    · exact ⟨w, hk.advanceDelta hp hq, h.advance hk hp hq⟩
  | full tick =>
    rcases step_full hs with ⟨outcome, hp, _⟩ | ⟨p, q, s, hp, _⟩
    · rw [h.full.1] at hp; cases hp
    · rw [h.full.1] at hp; cases hp

theorem alone_run {look : Collaborators} {moves : List Move} (h : Launched w look)
    (hmoves : ∀ move ∈ moves, move.isRequest = false) (hr : (launch w .delta look).run moves = some m) :
    ∃ w', m.Kept w' ∧ m.Alone w' :=
  run_induction (I := fun m => ∃ w', m.Kept w' ∧ m.Alone w') (P := (·.isRequest = false))
    (fun hm ⟨_, hk, ha⟩ hs => ha.step hk hm hs) hmoves ⟨_, kept_launch h .delta, alone_launch h⟩ hr

end Machine

/-- Delta updates run while the source changes. When one that was begun after the last change has
ended, the index has a document for every contact and for nothing else, except that a contact is
missing for which some delta update was begun with skewed watermarks. -/
theorem stored_iff_not_skewed {w : Worker} {look : Collaborators} {moves : List Move} {m : Machine}
    (h : Machine.Launched w look) (hmoves : ∀ move ∈ moves, move.isRequest = false)
    (hr : (Machine.launch w .delta look).run moves = some m) (hd : m.delta = none)
    (hb : m.stage.begun ≠ []) (ht : m.stage.look.book.lastStamp ≤ m.stage.begunAt) (id : String) :
    (m.stage.look.store.get? id).isSome ↔
      (m.stage.look.book.get? id).isSome ∧ ¬ ∃ n ∈ m.stage.begun, m.stage.look.book.Skewed n id := by
  obtain ⟨w', hk, ha⟩ := Machine.alone_run h hmoves hr
  obtain ⟨hi, hcovered⟩ := hk.delta.idle hd
  have hpurged : (∃ n ∈ m.stage.begun, m.stage.look.book.Skewed n id) →
    m.stage.look.store.get? id = none := fun hx =>
    DocumentStore.fingerprint?_eq_none.mp (ha.idle hd id hx)
  -- what is lost was lost to a delta update
  have hright : m.stage.look.Right id ∨ ∃ n ∈ m.stage.begun, m.stage.look.book.Skewed n id := by
    refine (hi.right_of_covered (hcovered hb) ht id).imp_right ?_
    rintro ⟨l, hl, _, _, hby⟩
    apply hby.resolve_left
    intro hfull
    rw [ha.byDelta id l hl] at hfull
    cases hfull
  constructor
  · intro hs
    have hnot : ¬ ∃ n ∈ m.stage.begun, m.stage.look.book.Skewed n id := fun hx => by
      rw [hpurged hx] at hs
      cases hs
    exact ⟨(hright.resolve_right hnot).isSome_iff.mp hs, hnot⟩
  · rintro ⟨hlive, hnot⟩
    exact (hright.resolve_right hnot).isSome_iff.mpr hlive

/-- A contact is deleted and entered again between the two queries of a delta update, and the
deletions are answered first. -/
def swapped : List Move :=
  let tick := ⟨1000, false⟩
  List.replicate 5 (.handler tick) ++ [.delta tick, .delta ⟨1000, true⟩] ++
    [.change 1000 (.delete "a"), .change 1000 (.upsert (.named "a" "Ada"))] ++
    List.replicate 11 (.delta tick) ++ List.replicate 4 (.handler tick) ++ [.notify] ++
    List.replicate 3 (.handler tick) ++ List.replicate 10 (.delta tick)

theorem missing_after_swapped : ∃ m,
    (Machine.launch (.new 1 .zero .cautious) .delta .stocked).run swapped = some m ∧
    (∀ move ∈ swapped, move.isRequest = false) ∧ m.delta = none ∧ m.stage.begun ≠ [] ∧
    m.stage.look.book.lastStamp ≤ m.stage.begunAt ∧ (m.stage.look.book.get? "a").isSome ∧
    m.stage.look.store.get? "a" = none ∧ ∃ n ∈ m.stage.begun, m.stage.look.book.Skewed n "a" := by
  have hmoves : ∀ move ∈ swapped, move.isRequest = false := by decide +kernel
  have hrun : ((Machine.launch (.new 1 .zero .cautious) .delta .stocked).run swapped).any (fun m =>
      m.delta.isNone && !m.stage.begun.isEmpty &&
        decide (m.stage.look.book.lastStamp ≤ m.stage.begunAt) &&
        (m.stage.look.book.get? "a").isSome && (m.stage.look.store.get? "a").isNone) = true := by
    decide +kernel
  obtain ⟨m, hm, hp⟩ := (Option.any_eq_true _ _).mp hrun
  simp only [Bool.and_eq_true, Option.isNone_iff_eq_none, decide_eq_true_eq, Bool.not_eq_true',
    List.isEmpty_eq_false_iff]
    at hp
  obtain ⟨⟨⟨⟨hd, hb⟩, ht⟩, hlive⟩, hnone⟩ := hp
  have hiff := stored_iff_not_skewed launched_stocked hmoves hm hd hb ht "a"
  refine ⟨m, hm, hmoves, hd, hb, ht, hlive, hnone, Classical.not_not.mp fun hx => ?_⟩
  have hs := hiff.mpr ⟨hlive, hx⟩
  rw [hnone] at hs
  cases hs

end ContactsIndex
