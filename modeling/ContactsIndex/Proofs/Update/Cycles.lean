import ContactsIndex.Proofs.Source.Query
import ContactsIndex.Proofs.Update.Faithful
import ContactsIndex.Update.Cycle

/-!
# What the cycles leave

Both kinds of cycles keep everything indexed up to the watermarks they started from.
A delta update that completes has everything indexed up to the watermarks of its own
listings, and these cover all that was in the source when it started
(`Faithful.deltaUpdate`); the order in which the two listings are answered does not
matter. A full update that completes has indexed all that was in the source when it
listed it (`Faithful.fullUpdate`).
-/

namespace ContactsIndex

variable {σ : Type} {view : View σ} {env : Environment σ} {m : Watermarks} {s t : σ} {since : Int}

/-! ## After the listings -/

theorem AddressBook.covered_listings {b b' after : AddressBook} (hb : b.Later after)
    (hb' : b'.Later after) (hs : b.Sound) (hc : since ≤ b.lastStamp) (hc' : since ≤ b'.lastStamp) :
    after.Covered ⟨(b.changes m.update).watermark, (b'.erasures m.delete).watermark⟩ since where
  live {id c} hg := by
    by_cases hcb : c.lastUpdated ≤ b.lastStamp
    · exact .inl (stamp_le_changes hs (hb.live hg hcb))
    · exact .inr (by omega)
  rows row hr := by
    by_cases hrb : row.stamp ≤ b'.lastStamp
    · exact .inl (row_le_erasures (hb'.rows row hr hrb))
    · exact .inr (by omega)

theorem Indexed.begin_delta {b b' : AddressBook} (h : Indexed view m t)
    (hb : b.Later (view.look t).book) (hb' : b'.Later (view.look t).book) (hs : b.Sound)
    (hs' : b'.Sound) (hu : m.update ≤ b.lastStamp) (hd : m.delete ≤ b'.lastStamp)
    (hc : since ≤ b.lastStamp) (hc' : since ≤ b'.lastStamp) :
    Safe view m ⟨(b.changes m.update).watermark, (b'.erasures m.delete).watermark⟩
        (b'.erasures m.delete).ids since [] t ∧
      Owing view m ⟨(b.changes m.update).watermark, (b'.erasures m.delete).watermark⟩
        (b'.erasures m.delete).ids (b'.erasures m.delete).ids (b.changes m.update).ids [] t := by
  have hle := AddressBook.changes_le hs hu
  have hle' := AddressBook.erasures_le hs' hd
  -- a deletion that is listed is still there
  have hdropped : ∀ id ∈ (b'.erasures m.delete).ids, (view.look t).book.Dropped m.delete id := by
    intro id hid
    obtain ⟨row, hr, hrid, hlt⟩ := AddressBook.mem_erasures.mp hid
    exact ⟨row, hb'.kept row hr, hrid, hlt⟩
  have hskewed : ∀ {id c}, id ∈ (b'.erasures m.delete).ids → (view.look t).book.get? id = some c →
      c.lastUpdated ≤ m.update → (view.look t).book.Skewed m id := by
    intro id c hid hg hcle
    exact ⟨c, hg, hcle, hdropped id hid⟩
  constructor
  · exact {
      indexed := h
      update_mono := AddressBook.since_le_changes b m.update
      delete_mono := AddressBook.since_le_erasures b' m.delete
      update_le := Int.le_trans hle hb.last
      delete_le := Int.le_trans hle' hb'.last
      since_le := Int.le_trans hc hb.last
      covered := AddressBook.covered_listings hb hb' hs hc hc'
      fits := fun _ hdoc => nomatch hdoc
      doomed := fun id hid c hg hcle => hskewed hid hg hcle }
  · refine ⟨fun _ hid => hid, fun {id c} hg hcle => ?_, fun {id} hn => ?_⟩
    · by_cases hnew : m.update < c.lastUpdated
      · exact .inl ((AddressBook.mem_changes hs).mpr ⟨c, hb.live hg (Int.le_trans hcle hle), hnew⟩)
      · have hold := Int.not_lt.mp hnew
        by_cases hid : id ∈ (b'.erasures m.delete).ids
        · exact .inr (.inr (.inl ⟨hid, hskewed hid hg hold⟩))
        · exact .inr (.inr (.inr ⟨hid, h.live hg hold⟩))
    · rcases h.gone hn with hnone | ⟨row, hr, hid, hlt⟩ | hx
      · exact .inr (.inl hnone)
      · by_cases hrb : row.stamp ≤ b'.lastStamp
        · exact .inl (AddressBook.mem_erasures.mpr ⟨row, hb'.rows row hr hrb, hid, hlt⟩)
        · exact .inr (.inr (.inl ⟨row, hr, hid, Int.lt_of_le_of_lt hle' (Int.not_le.mp hrb)⟩))
      · exact .inr (.inr (.inr hx))

/-- A full update owes the whole listing of the source `b`. The index `indexed` was listed
when the source was `b₀`, and what is neither in it nor in the source was stored later. -/
theorem Indexed.begin_full {b₀ b : AddressBook} {indexed : List String} (h : Indexed view m t)
    (hb₀ : b₀.Later b) (hb : b.Later (view.look t).book) (hs : b.Sound)
    (hu : m.update ≤ b₀.lastStamp) (hd : m.delete ≤ b₀.lastStamp)
    (hlisted : ∀ id ∉ indexed, (view.look t).book.get? id = none →
      (view.look t).store.fingerprint? id = none ∨
      (view.look t).book.Dropped b₀.lastStamp id ∨ view.excused t id) {unwanted : List String}
    (hunwanted : ∀ id, id ∈ unwanted ↔ id ∈ indexed ∧ id ∉ (b.changes 0).ids) :
    Safe view m ⟨b.lastStamp, b₀.lastStamp⟩ unwanted b₀.lastStamp [] t ∧
      Owing view m ⟨b.lastStamp, b₀.lastStamp⟩ unwanted unwanted (b.changes 0).ids [] t := by
  have hlive : ∀ {id c}, (view.look t).book.get? id = some c → c.lastUpdated ≤ b.lastStamp →
    id ∈ (b.changes 0).ids := by
    intro id c hg hcle
    have hold := hb.live hg hcle
    exact (AddressBook.mem_changes hs).mpr ⟨c, hold, hs.stamp_pos hold⟩
  constructor
  · exact {
      indexed := h
      update_mono := Int.le_trans hu hb₀.last
      delete_mono := hd
      update_le := hb.last
      delete_le := Int.le_trans hb₀.last hb.last
      since_le := Int.le_trans hb₀.last hb.last
      covered := {
        live := fun {id c} _ => by
          have := hb₀.last
          -- what is newer than the listing is newer than both watermarks
          by_cases hcb : c.lastUpdated ≤ b.lastStamp
          · exact .inl hcb
          · exact .inr (by omega)
        rows := fun row _ => by
          by_cases hrb : row.stamp ≤ b₀.lastStamp
          · exact .inl hrb
          · exact .inr (by omega) }
      fits := fun _ hdoc => nomatch hdoc
      doomed := fun id hid c hg hcle =>
        absurd (hlive hg (Int.le_trans hcle (Int.le_trans hu hb₀.last))) ((hunwanted id).mp hid).2 }
  · refine ⟨fun _ hid => hid, fun {id c} hg hcle => .inl (hlive hg hcle), fun {id} hn => ?_⟩
    by_cases hid : id ∈ indexed
    · by_cases hin : id ∈ (b.changes 0).ids
      · obtain ⟨c, hc, _⟩ := (AddressBook.mem_changes hs).mp hin
        obtain ⟨row, hr, hrid, hlt⟩ := hb.gone hn (by simp [hc])
        exact .inr (.inr (.inl ⟨row, hr, hrid, Int.lt_of_le_of_lt hb₀.last hlt⟩))
      · exact .inl ((hunwanted id).mpr ⟨hid, hin⟩)
    · exact .inr (hlisted id hid hn)

/-! ## How cycles end -/

structure Reached (view : View σ) (env : Environment σ) (m n : Watermarks) (since : Int)
    (keepGoing : Bool) (t : σ) : Prop where
  update_mono : m.update ≤ n.update
  delete_mono : m.delete ≤ n.delete
  covered : (view.look t).book.Covered n since
  indexed : (keepGoing = true → ¬ Upkeep.Fallible env) → Indexed view n t

/-- What a delta update leaves that began with the watermarks `m`. -/
def DeltaEnded (view : View σ) (env : Environment σ) (m : Watermarks) (since : Int) (keepGoing : Bool)
    (result : Except UpdateError CycleContext.DeltaProgress) (t : σ) : Prop :=
  Indexed view m t ∧ since ≤ (view.look t).book.lastStamp ∧
    (∀ n, result = .ok ⟨.completed, n⟩ → Reached view env m n since keepGoing t) ∧
    (env.Smooth → ∃ n, result = .ok ⟨.completed, n⟩)

theorem DeltaEnded.moved {keepGoing : Bool} {result : Except UpdateError CycleContext.DeltaProgress}
    (h : DeltaEnded view env m since keepGoing result s) (hm : Moved view s t) :
    DeltaEnded view env m since keepGoing result t := by
  obtain ⟨hi, hs, hr, hsm⟩ := h
  refine ⟨hi.moved hm, Int.le_trans hs hm.later.last, fun n hn => ?_, hsm⟩
  have hn := hr n hn
  exact { hn with
    covered := hn.covered.later hm.later hs
    indexed := fun hk => (hn.indexed hk).moved hm }

/-- A full update keeps what is indexed, and has indexed all that was there before it when
nothing fails. -/
def FullEnded (view : View σ) (env : Environment σ) (m : Watermarks) (since : Int)
    (result : Except UpdateError Completion) (t : σ) : Prop :=
  Indexed view m t ∧ (env.Smooth → result = .ok .completed ∧
    ∃ n : Watermarks, since ≤ n.update ∧ since ≤ n.delete ∧ Indexed view n t)

theorem FullEnded.moved {result : Except UpdateError Completion}
    (h : FullEnded view env m since result s) (hm : Moved view s t) :
    FullEnded view env m since result t := by
  refine ⟨h.1.moved hm, fun hs => ?_⟩
  obtain ⟨hr, n, hu, hd, hi⟩ := h.2 hs
  exact ⟨hr, n, hu, hd, hi.moved hm⟩

/-! ## Listing -/

namespace Faithful

variable (F : Faithful view env m)

include F

theorem passes : env.Passes (Moved view) :=
  ⟨.refl, .trans, F.drift, F.moved rfl, F.moved rfl⟩

theorem updated_eq {rows : List ChangeRow}
    (ha : env.answers (.updated since .unlimited) s (.ok (some rows)) t) :
    Listing.ofRows since rows .unlimited = (view.look s).book.changes since := by
  rcases F.answered ha with ⟨hr, _⟩ | he
  · exact absurd rfl (hr rows)
  · have hreply := congrArg Prod.fst he
    simp only [Collaborators.serve, AddressBook.queryUpdated, Except.ok.injEq] at hreply
    split at hreply
    · rw [← Option.some.inj hreply]; rfl
    · cases hreply

theorem deleted_eq {rows : List ChangeRow} (ha : env.answers (.deleted since) s (.ok (some rows)) t) :
    Listing.ofRows since rows .unlimited = (view.look s).book.erasures since := by
  rcases F.answered ha with ⟨hr, _⟩ | he
  · exact absurd rfl (hr rows)
  · have hreply := congrArg Prod.fst he
    simp only [Collaborators.serve, AddressBook.queryDeleted, Except.ok.injEq] at hreply
    split at hreply
    · rw [← Option.some.inj hreply]; rfl
    · cases hreply

theorem listed_changes {R : σ → σ → Prop} {listing : Listing}
    (hR : ∀ {s t}, R s t → (view.look s).book.Later (view.look t).book)
    (h : Source.Listed env R s since .unlimited (.updated since .unlimited) (.ok ∘ some) listing t) :
    ∃ b : AddressBook, (view.look s).book.Later b ∧ b.Later (view.look t).book ∧
    listing = b.changes since := by
  obtain ⟨rows, ⟨u, v, hu, ha, hv⟩, rfl⟩ := h
  exact ⟨(view.look u).book, hR hu, (F.same ha).later.trans (hR hv), F.updated_eq ha⟩

theorem listed_erasures {R : σ → σ → Prop} {listing : Listing}
    (hR : ∀ {s t}, R s t → (view.look s).book.Later (view.look t).book)
    (h : Source.Listed env R s since .unlimited (.deleted since) (.ok ∘ some) listing t) :
    ∃ b : AddressBook, (view.look s).book.Later b ∧ b.Later (view.look t).book ∧
    listing = b.erasures since := by
  obtain ⟨rows, ⟨u, v, hu, ha, hv⟩, rfl⟩ := h
  exact ⟨(view.look u).book, hR hu, (F.same ha).later.trans (hR hv), F.deleted_eq ha⟩

def BothListed (view : View σ) (env : Environment σ) (m : Watermarks) (since : Int)
    (result : Except SourceError (Listing × Listing)) (t : σ) : Prop :=
  Indexed view m t ∧ since ≤ (view.look t).book.lastStamp ∧ match result with
    | .error _ => ¬ env.Smooth
    | .ok (updated, deleted) =>
      Safe view m ⟨updated.watermark, deleted.watermark⟩ deleted.ids since [] t ∧
        Owing view m ⟨updated.watermark, deleted.watermark⟩ deleted.ids deleted.ids updated.ids [] t

theorem listBoth (h : Indexed view m s) (hs : since ≤ (view.look s).book.lastStamp) :
    (Source.listBoth m.update .unlimited m.delete).Always env (BothListed view env m since) s := by
  apply (Source.always_listBoth F.passes).mono
  intro result t hgot
  obtain ⟨hm, hgot⟩ := hgot
  have hi := h.moved hm
  refine ⟨hi, Int.le_trans hs hm.later.last, ?_⟩
  rcases hgot with ⟨e, rfl, hno⟩ | ⟨⟨updated, deleted⟩, rfl, hupdated, hdeleted⟩
  · exact hno
  · obtain ⟨b, hb, hbt, rfl⟩ := F.listed_changes Moved.later hupdated
    obtain ⟨b', hb', hbt', rfl⟩ := F.listed_erasures Moved.later hdeleted
    exact hi.begin_delta hbt hbt' (hb.sound h.sound) (hb'.sound h.sound)
      (Int.le_trans h.update_le hb.last)
      (Int.le_trans h.delete_le hb'.last) (Int.le_trans hs hb.last) (Int.le_trans hs hb'.last)

/-! ## Delta updates -/

theorem followChanges {context : CycleContext} {stats : Stats} (hm : context.settings.watermarks = m)
    (hlimit : context.config.limitOfDelta context.settings.isFirstRun = .unlimited)
    (h : Indexed view m s) (hs : since ≤ (view.look s).book.lastStamp) :
    (context.followChanges stats).Always env
      (fun p t => DeltaEnded view env m since context.config.keepUpdatingOnError p.1 t) s := by
  subst hm
  unfold CycleContext.followChanges
  simp only [hlimit]
  apply (F.listBoth h hs).bind
  intro result s₁ hl
  obtain ⟨hi, hs₁, hl⟩ := hl
  rcases result with e | ⟨updated, deleted⟩
  · refine Program.always_pure.mpr ?_
    intro t hd
    have hm := F.drift hd
    exact ⟨hi.moved hm, Int.le_trans hs₁ hm.later.last, (nomatch ·, ·), fun hsm => absurd hsm hl⟩
  · apply (F.update hl.1 hl.2).bind
    intro p s₂ hp
    obtain ⟨hsafe, hdone, hsm⟩ := hp
    rcases p with ⟨e | completion, stats⟩
    · refine Program.always_pure.mpr ?_
      intro t hd
      have hsafe := hsafe.moved (F.drift hd)
      exact ⟨hsafe.indexed, hsafe.since_le, (nomatch ·, ·), fun hs => nomatch hsm hs⟩
    · refine Program.always_pure.mpr ?_
      intro t hd
      have hm := F.drift hd
      have hsafe := hsafe.moved hm
      refine ⟨hsafe.indexed, hsafe.since_le, fun n hn => ?_, fun hs => ?_⟩
      · cases hn
        exact {
          update_mono := hsafe.update_mono
          delete_mono := hsafe.delete_mono
          covered := hsafe.covered
          indexed := fun hk => (hdone rfl hk).moved hm }
      · cases hsm hs
        exact ⟨_, rfl⟩

theorem deltaUpdate {context : CycleContext} (hm : context.settings.watermarks = m)
    (hlimit : context.config.limitOfDelta context.settings.isFirstRun = .unlimited)
    (h : Indexed view m s) (hs : since ≤ (view.look s).book.lastStamp) :
    context.deltaUpdate.Always env
      (fun outcome t =>
        DeltaEnded view env m since context.config.keepUpdatingOnError outcome.result t) s := by
  unfold CycleContext.deltaUpdate
  apply Program.always_readClock.mpr
  intro began _
  apply (F.followChanges hm hlimit h hs).bind
  intro p s₁ hp
  obtain ⟨result, stats⟩ := p
  apply Program.always_readClock.mpr
  intro ended _
  have hrest : ∀ {s₂ : σ}, Moved view s₁ s₂ →
      ∀ outcome : CycleContext.DeltaOutcome, outcome.result = result →
      (do Program.record (.timer "delta" "cycle"); return outcome : Program CycleContext.DeltaOutcome).Always env
        (fun outcome t =>
          DeltaEnded view env m since context.config.keepUpdatingOnError outcome.result t) s₂ := by
    rintro s₂ hm outcome rfl t hd
    exact hp.moved (hm.trans (F.drift hd))
  dsimp only
  split
  · apply Program.always_ask.mpr
    intro s₂ hd reply s₃ ha
    have hm := (F.drift hd).trans (F.moved rfl ha)
    rcases reply with e | _
    · exact hrest hm _ rfl
    · exact hrest hm _ rfl
  · exact hrest (.refl s₁) _ rfl

/-! ## Full updates -/

theorem full_failed {α : Type} {result : Except UpdateError Completion} {extra : α}
    (h : Indexed view m s) (hs : ¬ env.Smooth) :
    (pure (result, extra) : Program (Except UpdateError Completion × α)).Always env
      (fun p t => FullEnded view env m since p.1 t) s :=
  Program.always_pure.mpr fun _ hd => ⟨h.moved (F.drift hd), fun hs' => absurd hs' hs⟩

theorem listIds_eq {indexed : List String} (ha : env.answers .listIds s (.ok indexed) t) :
    indexed = (view.look s).store.ids ∧ (view.look t).store = (view.look s).store := by
  rcases F.answered ha with ⟨hr, _⟩ | he
  · exact absurd rfl (hr indexed)
  · exact ⟨(Except.ok.inj (congrArg Prod.fst he)).symm, (congrArg (·.2.store) he).symm⟩

theorem rebuild {context : CycleContext} {stats : Stats}
    (hlimit : context.config.limitOfFull = .unlimited) (h : Indexed view m s)
    (hs : since ≤ (view.look s).book.lastStamp) :
    (context.rebuild stats).Always env (fun p t => FullEnded view env m since p.1 t) s := by
  apply Program.always_isCancelled.mpr
  intro b hb
  cases b with
  | true => exact F.full_failed h fun hs => hs.uncancelled hb
  | false =>
    apply Program.always_ask.mpr
    intro s₀ hd₀ reply s₁ ha
    have hm₀ := F.drift hd₀
    have hm₁ := F.moved rfl ha
    have hi₀ := h.moved hm₀
    rcases reply with e | indexed
    · exact F.full_failed (hi₀.moved hm₁) fun hs => hs.answered ha fun _ hr => nomatch hr
    · dsimp only
      rw [hlimit]
      apply (Source.always_listUpdated F.passes).bind
      intro result s₂ hl
      have hi₂ := (hi₀.moved hm₁).moved hl.1
      rcases hl.2 with ⟨e, rfl, hno⟩ | ⟨current, rfl, hlisting⟩
      · exact F.full_failed hi₂ hno
      · obtain ⟨source, hb, hb', rfl⟩ := F.listed_changes Moved.later hlisting
        -- what was not in the index is not there now, or was stored meanwhile
        have hlisted : ∀ id ∉ indexed, (view.look s₂).book.get? id = none →
            (view.look s₂).store.fingerprint? id = none ∨
              (view.look s₂).book.Dropped (view.look s₀).book.lastStamp id ∨ view.excused s₂ id := by
          intro id hid hn
          refine hl.1.gone_or hn hm₁.later.last fun _ => .inl ?_
          rw [(F.listIds_eq ha).2, DocumentStore.fingerprint?_eq_none, ← Option.not_isSome_iff_eq_none,
            ← DocumentStore.mem_ids, ← (F.listIds_eq ha).1]
          exact hid
        have hunwanted : ∀ id,
            id ∈ (indexed.filter fun id => !(source.changes 0).ids.contains id).mergeSort (· ≤ ·) ↔
            id ∈ indexed ∧ id ∉ (source.changes 0).ids := by
          simp [List.mem_mergeSort, List.mem_filter]
        have hlater := hm₁.later.trans hb
        obtain ⟨hsafe, howing⟩ := hi₂.begin_full hlater hb' (hlater.sound hi₀.sound) hi₀.update_le
          hi₀.delete_le
          hlisted hunwanted
        refine (F.update hsafe howing).mono fun p t hp => ⟨hp.1.indexed, fun hsm => ⟨hp.2.2 hsm, ?_⟩⟩
        refine ⟨⟨source.lastStamp, (view.look s₀).book.lastStamp⟩, ?_, ?_, ?_⟩
        · exact Int.le_trans hs (Int.le_trans hm₀.later.last hlater.last)
        · exact Int.le_trans hs hm₀.later.last
        · exact hp.2.1 (hp.2.2 hsm) fun _ hf => hf.not_smooth hsm

theorem fullUpdate {context : CycleContext} (hlimit : context.config.limitOfFull = .unlimited)
    (h : Indexed view m s) (hs : since ≤ (view.look s).book.lastStamp) :
    context.fullUpdate.Always env (fun outcome t => FullEnded view env m since outcome.result t) s := by
  unfold CycleContext.fullUpdate
  apply Program.always_readClock.mpr
  intro began _
  apply (F.rebuild hlimit h hs).bind
  intro p s₁ hp
  obtain ⟨result, stats⟩ := p
  refine Program.always_readClock.mpr fun ended _ => Program.always_record.mpr ?_
  exact Program.always_pure.mpr fun t hd => hp.moved (F.drift hd)

end Faithful

end ContactsIndex
