import ContactsIndex.Proofs.Registry.Traffic

/-!
# What holds of the registry in every state

`Sound.run`: whatever the callers do, a slot is for one user only, an instance stays in the slot
that it was put into, and the registry has the slot of a user until a failed start discards it or
the instance in it is stopped.
-/

namespace ContactsIndex

/-! ## Slots -/

namespace Registry

variable {r : Registry} {user : UserId} {id id' : SlotId} {i : InstanceId}

@[simp] theorem slot_setSlot (r : Registry) (id id' : SlotId) (x : Slot) :
    (r.setSlot id x).slot id' = if id' = id then x else r.slot id' := by
  unfold setSlot slot
  dsimp only
  rw [Std.TreeMap.getElem?_insert]
  by_cases h : id' = id
  · simp [h]
  · simp [h, Ne.symm h]

@[simp] theorem users_setSlot (r : Registry) (id : SlotId) (x : Slot) :
    (r.setSlot id x).users = r.users := rfl

@[simp] theorem nextSlot_setSlot (r : Registry) (id : SlotId) (x : Slot) :
    (r.setSlot id x).nextSlot = r.nextSlot := rfl

theorem users_insert (r : Registry) (user user' : UserId) (id : SlotId) :
    (r.users.insert user id)[user']? = if user' = user then some id else r.users[user']? := by
  rw [Std.TreeMap.getElem?_insert]
  by_cases h : user' = user
  · simp [h]
  · simp [h, Ne.symm h]

theorem users_erase (r : Registry) (user user' : UserId) :
    (r.users.erase user)[user']? = if user' = user then none else r.users[user']? := by
  rw [Std.TreeMap.getElem?_erase]
  by_cases h : user' = user
  · simp [h]
  · simp [h, Ne.symm h]

theorem slotOf_cases (r : Registry) (user : UserId) :
    (∃ id, r.users[user]? = some id ∧ r.slotOf user = (id, r)) ∨
    (r.users[user]? = none ∧ r.slotOf user = (r.nextSlot,
      { r with users := r.users.insert user r.nextSlot, nextSlot := r.nextSlot + 1 })) := by
  unfold slotOf
  split
  · next id h => exact .inl ⟨id, h, rfl⟩
  · next h => exact .inr ⟨h, rfl⟩

theorem instance?_eq_some : r.instance? user = some i ↔
    ∃ id, r.users[user]? = some id ∧ r.slot id = .filled i := by
  unfold instance?
  split
  · next h => simp [h]
  · next id h =>
    simp only [h, Option.some.injEq, exists_eq_left']
    split <;> simp_all

theorem stop_cases (r : Registry) (user : UserId) :
    r.stop user = (none, r) ∨ ∃ id i, r.users[user]? = some id ∧ r.slot id = .filled i ∧
      r.stop user = (some i, { r with users := r.users.erase user }) := by
  unfold stop
  split
  · exact .inl rfl
  · next i h =>
    obtain ⟨id, hu, hs⟩ := instance?_eq_some.mp h
    exact .inr ⟨id, i, hu, hs, rfl⟩

theorem discard_cases (r : Registry) (user : UserId) (id : SlotId) :
    r.discard user id = r ∨ (r.users[user]? = some id ∧ (∀ i, r.slot id ≠ .filled i) ∧
      r.discard user id = { r with users := r.users.erase user }) := by
  unfold discard
  split
  · exact .inl rfl
  · next h =>
    split
    · next hu => exact .inr ⟨hu, h, rfl⟩
    · exact .inl rfl

end Registry

namespace Traffic

variable {userOf : CallerId → UserId} {t t' : Traffic} {c : CallerId} {s id : SlotId} {i : InstanceId}

def Stopped (t : Traffic) (s : SlotId) : Prop :=
  ∃ (i : InstanceId) (x : Installed), t.instances[i]? = some x ∧ x.slot = s ∧ x.life ≠ .running

/-- A slot in hand belongs to the user; of those who want it, one is starting and others queue. -/
structure Orderly (userOf : CallerId → UserId) (t : Traffic) : Prop where
  starting : ∀ {c s}, t.stage c = .starting s → ∃ queue, t.registry.slot s = .starting c queue
  queued : ∀ {s c queue}, t.registry.slot s = .starting c queue →
    queue.Nodup ∧ ∀ d ∈ queue, t.stage d = .waiting s
  held : ∀ {c s}, (t.stage c).slot? = some s → s < t.registry.nextSlot ∧ t.owner s = userOf c

/-- What is known of every state. A slot is made for one user, and callers of other users never
get hold of it; it stays with its user until a failed start takes it away or its instance is
stopped. -/
structure Sound (userOf : CallerId → UserId) (t : Traffic) : Prop extends Orderly userOf t where
  got : ∀ {c s i}, t.stage c = .found s i ∨ t.stage c = .told s i → t.registry.slot s = .filled i
  mapped : ∀ {user s}, t.registry.users[user]? = some s → s < t.registry.nextSlot ∧ t.owner s = user
  installed : ∀ {i x}, t.instances[i]? = some x →
    t.registry.slot x.slot = .filled i ∧ x.slot < t.registry.nextSlot ∧ t.owner x.slot = x.user
  filled : ∀ {s i}, t.registry.slot s = .filled i → ∃ x, t.instances[i]? = some x ∧ x.slot = s
  discarded_lt : ∀ {s}, s ∈ t.discarded → s < t.registry.nextSlot
  mapped_iff : ∀ {s}, s < t.registry.nextSlot →
    (t.registry.users[t.owner s]? = some s ↔ s ∉ t.discarded ∧ ¬ t.Stopped s)

theorem sound_quiet : Sound userOf quiet where
  starting h := nomatch h
  queued h := by simp [quiet, Registry.empty, Registry.slot] at h
  got h := by rcases h with h | h <;> cases h
  held h := nomatch h
  mapped h := by simp [quiet, Registry.empty] at h
  installed h := by simp [quiet] at h
  filled h := by simp [quiet, Registry.empty, Registry.slot] at h
  discarded_lt h := nomatch h
  mapped_iff h := by simp [quiet, Registry.empty] at h

/-! ## Callers -/

theorem moved_self (t : Traffic) (c : CallerId) (stage : CallStage) : t.moved c stage c = stage :=
  if_pos rfl

theorem moved_of_ne {d : CallerId} (h : d ≠ c) (stage : CallStage) : t.moved c stage d = t.stage d :=
  if_neg h

theorem Sound.moved (h : Sound userOf t) (hc : ∀ s, t.stage c ≠ .waiting s) {stage : CallStage}
    (hstarting : ∀ s, stage ≠ .starting s)
    (hgot : ∀ s i, stage = .found s i ∨ stage = .told s i → t.registry.slot s = .filled i)
    (hheld : ∀ s, stage.slot? = some s → s < t.registry.nextSlot ∧ t.owner s = userOf c) :
    Sound userOf { t with stage := t.moved c stage } := by
  refine { h with starting := ?_, queued := ?_, held := ?_, got := ?_ }
  · intro d s hd
    by_cases hdc : d = c
    · simp only [hdc, moved_self] at hd
      exact absurd hd (hstarting s)
    · simp only [moved_of_ne hdc] at hd
      exact h.starting hd
  · intro s first queue hq
    obtain ⟨hnodup, hall⟩ := h.queued hq
    refine ⟨hnodup, fun d hd => ?_⟩
    have hdc : d ≠ c := by
      rintro rfl
      exact hc s (hall d hd)
    simp only [moved_of_ne hdc]
    exact hall d hd
  · intro d s hd
    by_cases hdc : d = c
    · simp only [hdc, moved_self] at hd
      exact hdc ▸ hheld s hd
    · simp only [moved_of_ne hdc] at hd
      exact h.held hd
  · intro d s i hd
    by_cases hdc : d = c
    · simp only [hdc, moved_self] at hd
      exact hgot s i hd
    · simp only [moved_of_ne hdc] at hd
      exact h.got hd

theorem Sound.tell (h : Sound userOf t) (hc : t.stage c = .found s i) :
    Sound userOf (t.tell c s i) := by
  refine h.moved (by simp [hc]) (by simp) (fun s' i' he => ?_) (fun s' he => ?_)
  · rcases he with he | he <;> cases he
    exact h.got (.inl hc)
  · cases he
    exact h.held (by rw [hc]; rfl)

theorem Orderly.starter_eq (h : Orderly userOf t) {d : CallerId} (hc : t.stage c = .starting id)
    (hd : t.stage d = .starting id) : d = c := by
  obtain ⟨queue, hs⟩ := h.starting hc
  obtain ⟨queue', hs'⟩ := h.starting hd
  rw [hs] at hs'
  exact (Slot.starting.inj hs').1.symm

/-- Those who have a slot in hand arrange themselves, and nobody else notices. -/
theorem Orderly.arrange (h : Orderly userOf t) {x : Slot} {stage : CallerId → CallStage}
    (hstarting : ∀ d, stage d = .starting id → ∃ queue, x = .starting d queue)
    (hqueued : ∀ first queue, x = .starting first queue →
      queue.Nodup ∧ ∀ e ∈ queue, stage e = .waiting id)
    (hothers : ∀ d, stage d = t.stage d ∨ ((t.stage d).slot? = some id ∧ (stage d).slot? = some id)) :
    Orderly userOf { t with registry := t.registry.setSlot id x, stage := stage } where
  starting {d s} hd := by
    by_cases hs : s = id
    · subst hs
      obtain ⟨queue, hq⟩ := hstarting d hd
      exact ⟨queue, by simp [hq]⟩
    · rcases hothers d with hsame | ⟨_, hslot⟩
      · obtain ⟨queue, hq⟩ := h.starting (hsame.symm.trans hd)
        exact ⟨queue, by simp [hs, hq]⟩
      · rw [show stage d = _ from hd] at hslot
        exact absurd (Option.some.inj hslot) hs
  queued {s first queue} hq := by
    by_cases hs : s = id
    · simp only [Registry.slot_setSlot, hs, if_pos] at hq
      exact hs ▸ hqueued first queue hq
    · simp only [Registry.slot_setSlot, hs, if_neg, not_false_eq_true] at hq
      obtain ⟨hnodup, hall⟩ := h.queued hq
      refine ⟨hnodup, fun e he => ?_⟩
      rcases hothers e with hsame | ⟨hslot, _⟩
      · exact hsame.trans (hall e he)
      · rw [hall e he] at hslot
        exact absurd (Option.some.inj hslot) hs
  held {d s} hd := by
    rcases hothers d with hsame | ⟨hslot, hslot'⟩
    · exact h.held (hsame ▸ hd)
    · exact h.held (hslot.trans (hslot'.symm.trans hd))

theorem Sound.unfilled (h : Sound userOf t) {x : Slot} {stage : CallerId → CallStage}
    (hid : ∀ i, t.registry.slot id ≠ .filled i) (hx : ∀ i, x ≠ .filled i)
    (hstarting : ∀ d, stage d = .starting id → ∃ queue, x = .starting d queue)
    (hqueued : ∀ first queue, x = .starting first queue →
      queue.Nodup ∧ ∀ e ∈ queue, stage e = .waiting id)
    (hothers : ∀ d, stage d = t.stage d ∨
      ((t.stage d).slot? = some id ∧ (stage d).slot? = some id ∧ (stage d).instance? = none)) :
    Sound userOf { t with registry := t.registry.setSlot id x, stage := stage } := by
  have horderly := h.toOrderly.arrange hstarting hqueued fun d =>
    (hothers d).imp_right fun ⟨hslot, hslot', _⟩ => ⟨hslot, hslot'⟩
  refine { h with
    starting := horderly.starting
    queued := horderly.queued
    held := horderly.held
    got := ?_
    installed := ?_
    filled := ?_ }
  · -- nobody has an instance of this slot
    intro d s i hd
    have hsome : (stage d).instance? = some i := by
      rcases hd with hd | hd
      · rw [show stage d = _ from hd]
        rfl
      · rw [show stage d = _ from hd]
        rfl
    rcases hothers d with hsame | ⟨_, _, hnone⟩
    · have hs : t.registry.slot s = .filled i := by
        apply h.got
        rw [← hsame]
        exact hd
      have hne : s ≠ id := by
        rintro rfl
        exact hid i hs
      simp [hne, hs]
    · rw [hnone] at hsome
      cases hsome
  · intro i y hy
    obtain ⟨hs, hlt⟩ := h.installed hy
    have hne : y.slot ≠ id := by
      intro he
      exact hid i (he ▸ hs)
    exact ⟨by simp [hne, hs], hlt⟩
  · intro s i hs
    by_cases hne : s = id
    · simp only [Registry.slot_setSlot, hne, if_pos] at hs
      exact absurd hs (hx i)
    · simp only [Registry.slot_setSlot, hne, if_neg, not_false_eq_true] at hs
      exact h.filled hs

theorem Sound.join (h : Sound userOf t) (hc : t.stage c = .holding id) :
    Sound userOf (t.join c id) := by
  have hothers : ∀ {stage : CallStage} d, stage.slot? = some id → stage.instance? = none →
      t.moved c stage d = t.stage d ∨ ((t.stage d).slot? = some id ∧
        (t.moved c stage d).slot? = some id ∧ (t.moved c stage d).instance? = none) := by
    intro stage d hslot hnone
    by_cases hdc : d = c
    · rw [hdc, moved_self, hc]
      exact .inr ⟨rfl, hslot, hnone⟩
    · exact .inl (moved_of_ne hdc stage)
  cases hs : t.registry.slot id with
  | filled i =>
    have hjoin : t.join c id = { t with stage := t.moved c (.found id i) } := by
      simp [Traffic.join, Registry.join, hs]
    rw [hjoin]
    refine h.moved (by simp [hc]) (by simp) (fun s' i' he => ?_) (fun s' he => ?_)
    · rcases he with he | he <;> cases he
      exact hs
    · cases he
      exact h.held (by rw [hc]; rfl)
  | empty =>
    have hjoin : t.join c id = { t with
        registry := t.registry.setSlot id (.starting c [])
        stage := t.moved c (.starting id) } := by
      simp [Traffic.join, Registry.join, hs]
    rw [hjoin]
    refine h.unfilled (by simp [hs]) (by simp) (fun d hd => ?_) (fun first queue hq => ?_)
      fun d => hothers d rfl rfl
    · by_cases hdc : d = c
      · exact ⟨[], by rw [hdc]⟩
      · rw [moved_of_ne hdc] at hd
        obtain ⟨queue, hq⟩ := h.starting hd
        simp [hs] at hq
    · cases hq
      simp
  | starting first queue =>
    have hjoin : t.join c id = { t with
        registry := t.registry.setSlot id (.starting first (queue ++ [c]))
        stage := t.moved c (.waiting id) } := by
      simp [Traffic.join, Registry.join, hs]
    obtain ⟨hnodup, hall⟩ := h.queued hs
    -- those in the queue wait already, and this caller did not
    have hnew : c ∉ queue := by
      intro hmem
      simp [hall c hmem] at hc
    rw [hjoin]
    refine h.unfilled (by simp [hs]) (by simp) (fun d hd => ?_) (fun first' queue' hq => ?_)
      fun d => hothers d rfl rfl
    · by_cases hdc : d = c
      · simp [hdc, moved_self] at hd
      · rw [moved_of_ne hdc] at hd
        obtain ⟨queue', hq⟩ := h.starting hd
        rw [hs] at hq
        cases hq
        exact ⟨_, rfl⟩
    · cases hq
      have hconcat : (queue ++ [c]).Nodup := by
        refine List.nodup_append.mpr ⟨hnodup, by simp, fun a ha b hb hab => ?_⟩
        rw [hab, List.mem_singleton.mp hb] at ha
        exact hnew ha
      refine ⟨hconcat, fun e he => ?_⟩
      by_cases hec : e = c
      · rw [hec, moved_self]
      · rw [moved_of_ne hec]
        exact hall e (by simpa [hec] using he)

theorem Sound.fail (h : Sound userOf t) (hc : t.stage c = .starting id) :
    Sound userOf (t.fail c id) := by
  obtain ⟨queue, hs⟩ := h.starting hc
  obtain ⟨hnodup, hall⟩ := h.queued hs
  have hwaits : ∀ {d}, d ∈ queue → d ≠ c := by
    rintro d hd rfl
    simp [hall d hd] at hc
  cases queue with
  | nil =>
    have hfail : t.fail c id = { t with
        registry := t.registry.setSlot id .empty
        stage := t.moved c (.failing id) } := by
      simp [Traffic.fail, Registry.release, hs]
      rfl
    rw [hfail]
    refine h.unfilled (by simp [hs]) (by simp) (fun d hd => ?_) (by simp) (fun d => ?_)
    · by_cases hdc : d = c
      · simp [hdc, moved_self] at hd
      · rw [moved_of_ne hdc] at hd
        exact absurd (h.starter_eq hc hd) hdc
    · by_cases hdc : d = c
      · rw [hdc, moved_self, hc]
        exact .inr ⟨rfl, rfl, rfl⟩
      · exact .inl (moved_of_ne hdc _)
  | cons next queue =>
    have hfail : t.fail c id = { t with
        registry := t.registry.setSlot id (.starting next queue)
        stage := fun d => if d = c then .failing id else if d = next then .starting id else t.stage d } := by
      simp [Traffic.fail, Registry.release, hs, eq_comm]
    -- the first in the queue starts in its turn, and the others go on waiting
    have hnext : next ≠ c := hwaits (List.mem_cons_self ..)
    rw [List.nodup_cons] at hnodup
    rw [hfail]
    refine h.unfilled (by simp [hs]) (by simp) (fun d hd => ?_) (fun first queue' hq => ?_) (fun d => ?_)
    · by_cases hdc : d = c
      · simp [hdc] at hd
      · by_cases hdn : d = next
        · exact ⟨queue, by rw [hdn]⟩
        · simp only [hdc, hdn, if_neg, not_false_eq_true] at hd
          exact absurd (h.starter_eq hc hd) hdc
    · cases hq
      refine ⟨hnodup.2, fun e he => ?_⟩
      have hec : e ≠ c := hwaits (List.mem_cons_of_mem _ he)
      have hen : e ≠ next := by
        rintro rfl
        exact hnodup.1 he
      simp only [hec, hen, if_neg, not_false_eq_true]
      exact hall e (List.mem_cons_of_mem _ he)
    · by_cases hdc : d = c
      · simp [hdc, hc, CallStage.slot?, CallStage.instance?]
      · by_cases hdn : d = next
        · subst hdn
          simp [hdc, hall d (List.mem_cons_self ..), CallStage.slot?, CallStage.instance?]
        · simp [hdc, hdn]

/-! ## Users -/

theorem Sound.users_erase_iff (h : Sound userOf t) {user : UserId} (hu : t.registry.users[user]? = some id) :
    (t.registry.users.erase user)[t.owner s]? = some s ↔
      t.registry.users[t.owner s]? = some s ∧ s ≠ id := by
  rw [Registry.users_erase]
  by_cases huser : t.owner s = user
  · simp [huser, hu, eq_comm]
  · have hne : s ≠ id := by
      rintro rfl
      exact huser (h.mapped hu).2
    simp [huser, hne]

theorem Sound.mapped_erase (h : Sound userOf t) {user user' : UserId}
    (hs : (t.registry.users.erase user)[user']? = some s) : s < t.registry.nextSlot ∧ t.owner s = user' := by
  rw [Registry.users_erase] at hs
  split at hs
  · cases hs
  · exact h.mapped hs

theorem Sound.make (h : Sound userOf t) {user : UserId} (hu : t.registry.users[user]? = none) :
    Sound userOf { t with
      registry := { t.registry with
        users := t.registry.users.insert user t.registry.nextSlot
        nextSlot := t.registry.nextSlot + 1 }
      owner := fun s => if s = t.registry.nextSlot then user else t.owner s } := by
  have howner : ∀ {s}, s < t.registry.nextSlot →
      (if s = t.registry.nextSlot then user else t.owner s) = t.owner s :=
    fun hlt => if_neg (Nat.ne_of_lt hlt)
  refine { h with
    held := ?_
    mapped := ?_
    installed := ?_
    discarded_lt := ?_
    mapped_iff := ?_ }
  · intro d s hd
    obtain ⟨hlt, ho⟩ := h.held hd
    exact ⟨Nat.lt_succ_of_lt hlt, (howner hlt).trans ho⟩
  · intro user' s hs
    dsimp only at hs ⊢
    rw [Registry.users_insert] at hs
    split at hs
    · next huser =>
      cases hs
      exact ⟨Nat.lt_succ_self _, (if_pos rfl).trans huser.symm⟩
    · obtain ⟨hlt, ho⟩ := h.mapped hs
      exact ⟨Nat.lt_succ_of_lt hlt, (howner hlt).trans ho⟩
  · intro i x hx
    obtain ⟨hs, hlt, ho⟩ := h.installed hx
    exact ⟨hs, Nat.lt_succ_of_lt hlt, (howner hlt).trans ho⟩
  · exact fun hs => Nat.lt_succ_of_lt (h.discarded_lt hs)
  · intro s hs
    dsimp only
    rw [Registry.users_insert]
    rcases Nat.lt_succ_iff_lt_or_eq.mp hs with hlt | rfl
    · rw [howner hlt]
      split
      · next huser =>
        -- the user has lost all slots of before
        have hold := h.mapped_iff hlt
        rw [huser, hu] at hold
        have hne : some t.registry.nextSlot ≠ some s := by simp [Nat.ne_of_gt hlt]
        exact (iff_of_false hne (nomatch ·)).trans hold
      · exact h.mapped_iff hlt
    · simp only [if_pos, true_iff]
      refine ⟨fun hd => Nat.lt_irrefl _ (h.discarded_lt hd), ?_⟩
      intro ⟨i, x, hx, hslot, _⟩
      exact Nat.lt_irrefl _ (hslot ▸ (h.installed hx).2.1)

theorem Sound.call (h : Sound userOf t) (hc : t.stage c = .away) :
    Sound userOf (t.call userOf c) := by
  rcases t.registry.slotOf_cases (userOf c) with ⟨id, hu, he⟩ | ⟨hu, he⟩
  · have howner : (fun s => if s = id then userOf c else t.owner s) = t.owner := by
      funext s
      split
      · next hs => rw [hs, (h.mapped hu).2]
      · rfl
    have hcall : t.call userOf c = { t with stage := t.moved c (.holding id) } := by
      simp only [Traffic.call, he, howner]
    rw [hcall]
    refine h.moved (by simp [hc]) (by simp) (by simp) (fun s hs => ?_)
    cases hs
    exact h.mapped hu
  · unfold Traffic.call
    rw [he]
    refine (h.make hu).moved (by simp [hc]) (by simp) (by simp) (fun s hs => ?_)
    cases hs
    exact ⟨Nat.lt_succ_self _, if_pos rfl⟩

theorem getElem?_concat {xs : List Installed} {x y : Installed} :
    (xs ++ [x])[i]? = some y ↔ xs[i]? = some y ∨ (i = xs.length ∧ x = y) := by
  rw [List.getElem?_append]
  split
  · next hlt => simp [Nat.ne_of_lt hlt]
  · next hle =>
    have hnone : xs[i]? = none := List.getElem?_eq_none (Nat.not_lt.mp hle)
    have hzero : i - xs.length = 0 ↔ i = xs.length := by
      rw [Nat.sub_eq_zero_iff_le]
      exact ⟨fun hge => Nat.le_antisymm hge (Nat.not_lt.mp hle), Nat.le_of_eq⟩
    simp [hnone, List.getElem?_singleton, hzero]

theorem Sound.start (h : Sound userOf t) (hc : t.stage c = .starting id) :
    Sound userOf (t.start userOf c id) := by
  obtain ⟨queue, hs⟩ := h.starting hc
  obtain ⟨-, hall⟩ := h.queued hs
  obtain ⟨hlt, howner⟩ := h.held (c := c) (s := id) (by rw [hc]; rfl)
  have hstart : t.start userOf c id = { t with
      registry := t.registry.setSlot id (.filled t.instances.length)
      stage := fun d => if d = c ∨ d ∈ queue then .found id t.instances.length else t.stage d
      instances := t.instances ++ [⟨userOf c, id, .running⟩] } := by
    simp [Traffic.start, Registry.succeed, hs]
  have hslot : ∀ {s x}, t.registry.slot s = .filled x → s ≠ id := by
    rintro s x hx rfl
    simp [hs] at hx
  rw [hstart]
  have horderly : Orderly userOf { t with
      registry := t.registry.setSlot id (.filled t.instances.length)
      stage := fun d => if d = c ∨ d ∈ queue then .found id t.instances.length else t.stage d } := by
    refine h.toOrderly.arrange (fun d hd => ?_) (by simp) (fun d => ?_)
    · split at hd
      · cases hd
      · next hnot => exact absurd (.inl (h.starter_eq hc hd)) hnot
    · split
      · next hgiven =>
        refine .inr ⟨?_, rfl⟩
        rcases hgiven with rfl | hmem
        · rw [hc]
          rfl
        · rw [hall d hmem]
          rfl
      · exact .inl rfl
  refine { h with
    starting := horderly.starting
    queued := horderly.queued
    held := horderly.held
    got := ?_
    installed := ?_
    filled := ?_
    mapped_iff := ?_ }
  · intro d s i hd
    dsimp only at hd
    split at hd
    · rcases hd with hd | hd <;> cases hd
      simp
    · have hs' := h.got hd
      simp [hslot hs', hs']
  · intro i x hx
    rcases getElem?_concat.mp hx with hx | ⟨rfl, rfl⟩
    · obtain ⟨hs', hlt'⟩ := h.installed hx
      exact ⟨by simp [hslot hs', hs'], hlt'⟩
    · exact ⟨by simp, hlt, howner⟩
  · intro s i hs'
    by_cases hne : s = id
    · simp only [Registry.slot_setSlot, hne, if_pos, Slot.filled.injEq] at hs'
      exact ⟨⟨userOf c, id, .running⟩, by simp [← hs'], hne.symm⟩
    · simp only [Registry.slot_setSlot, hne, if_neg, not_false_eq_true] at hs'
      obtain ⟨x, hx, hxs⟩ := h.filled hs'
      exact ⟨x, getElem?_concat.mpr (.inl hx), hxs⟩
  · intro s hs'
    -- the new instance is running, so it is none that has lost its slot
    refine (h.mapped_iff hs').trans (and_congr_right fun _ => not_congr ?_)
    constructor
    · intro ⟨i, x, hx, hrest⟩
      exact ⟨i, x, getElem?_concat.mpr (.inl hx), hrest⟩
    · intro ⟨i, x, hx, hxs, hlife⟩
      rcases getElem?_concat.mp hx with hx | ⟨rfl, rfl⟩
      · exact ⟨i, x, hx, hxs, hlife⟩
      · exact absurd rfl hlife

theorem Sound.discard (h : Sound userOf t) (hc : t.stage c = .failing id) :
    Sound userOf (t.discard userOf c id) := by
  have hmoved : ∀ {u : Traffic}, Sound userOf u → u.stage = t.stage →
      Sound userOf { u with stage := u.moved c .refused } := fun hu hsame =>
    hu.moved (by simp [hsame, hc]) (by simp) (by simp) (fun _ he => nomatch he)
  rcases t.registry.discard_cases (userOf c) id with he | ⟨hu, hunfilled, he⟩
  · have hdiscard : t.discard userOf c id = { t with stage := t.moved c .refused } := by
      simp [Traffic.discard, he]
    rw [hdiscard]
    exact hmoved h rfl
  · have hgone : (t.registry.users.erase (userOf c))[userOf c]? = none := by
      simp
    let dropped : Traffic := { t with
      registry := { t.registry with users := t.registry.users.erase (userOf c) }
      discarded := id :: t.discarded }
    have hdiscard : t.discard userOf c id = { dropped with stage := dropped.moved c .refused } := by
      simp only [Traffic.discard, he, hgone, hu]
      rfl
    have hdropped : Sound userOf dropped := by
      refine { h with
        mapped := ?_
        discarded_lt := ?_
        mapped_iff := ?_ }
      · exact h.mapped_erase
      · intro s hs
        rcases List.mem_cons.mp hs with rfl | hs
        · exact (h.mapped hu).1
        · exact h.discarded_lt hs
      · intro s hs
        rw [h.users_erase_iff hu, h.mapped_iff hs, List.mem_cons, not_or]
        exact and_right_comm.trans (and_congr_left' and_comm)
    rw [hdiscard]
    exact hmoved hdropped rfl

/-! ## Instances -/

theorem getElem?_setLife (t : Traffic) (i j : InstanceId) (life : Life) : (t.setLife i life)[j]? =
    if i = j then t.instances[j]?.map fun x => { x with life := life } else t.instances[j]? := by
  unfold setLife
  rw [List.getElem?_modify]
  split <;> simp

theorem exists_of_setLife {j : InstanceId} {life : Life} {x : Installed}
    (hx : (t.setLife i life)[j]? = some x) :
    ∃ y, t.instances[j]? = some y ∧ x.slot = y.slot ∧ x.user = y.user ∧
      x.life = if i = j then life else y.life := by
  rw [getElem?_setLife] at hx
  split at hx
  · next hij =>
    obtain ⟨y, hy, rfl⟩ := Option.map_eq_some_iff.mp hx
    exact ⟨y, hy, rfl, rfl, by simp [hij]⟩
  · next hij => exact ⟨x, hx, rfl, rfl, by simp [hij]⟩

theorem exists_setLife {j : InstanceId} (life : Life) {y : Installed} (hy : t.instances[j]? = some y) :
    ∃ x, (t.setLife i life)[j]? = some x ∧ x.slot = y.slot ∧ x.user = y.user ∧
      x.life = if i = j then life else y.life := by
  rw [getElem?_setLife, hy]
  split
  · exact ⟨_, rfl, rfl, rfl, rfl⟩
  · exact ⟨_, rfl, rfl, rfl, rfl⟩

theorem stopped_setLife {life : Life} {x : Installed} (hi : t'.instances = t.setLife i life)
    (hx : t.instances[i]? = some x) (hlife : life ≠ .running) : t'.Stopped s ↔ t.Stopped s ∨ s = x.slot := by
  unfold Stopped
  rw [hi]
  constructor
  · intro ⟨j, x', hx', hslot, hlife'⟩
    obtain ⟨y, hy, hsame, _, hy'⟩ := exists_of_setLife hx'
    by_cases hij : i = j
    · subst hij
      rw [hx] at hy
      cases hy
      exact .inr (hslot.symm.trans hsame)
    · rw [hy', if_neg hij] at hlife'
      exact .inl ⟨j, y, hy, hsame.symm.trans hslot, hlife'⟩
  · rintro (⟨j, y, hy, hslot, hy'⟩ | rfl)
    · obtain ⟨x', hx', hsame, _, hlife'⟩ := exists_setLife (i := i) life hy
      refine ⟨j, x', hx', hsame.trans hslot, ?_⟩
      rw [hlife']
      split
      · exact hlife
      · exact hy'
    · obtain ⟨x', hx', hsame, _, hlife'⟩ := exists_setLife (i := i) life hx
      refine ⟨i, x', hx', hsame, ?_⟩
      rw [hlife', if_pos rfl]
      exact hlife

theorem Sound.installed_setLife (h : Sound userOf t) {life : Life} {j : InstanceId} {x : Installed}
    (hx : (t.setLife i life)[j]? = some x) :
    t.registry.slot x.slot = .filled j ∧ x.slot < t.registry.nextSlot ∧ t.owner x.slot = x.user := by
  obtain ⟨y, hy, hslot, huser, _⟩ := exists_of_setLife hx
  rw [hslot, huser]
  exact h.installed hy

theorem Sound.filled_setLife (h : Sound userOf t) {life : Life} {j : InstanceId}
    (hs : t.registry.slot s = .filled j) : ∃ x, (t.setLife i life)[j]? = some x ∧ x.slot = s := by
  obtain ⟨y, hy, hslot⟩ := h.filled hs
  obtain ⟨x, hx, hxs, _⟩ := exists_setLife life hy
  exact ⟨x, hx, hxs.trans hslot⟩

theorem Sound.stop (h : Sound userOf t) (user : UserId) : Sound userOf (t.stop user) := by
  rcases t.registry.stop_cases user with he | ⟨id, i, hu, hs, he⟩
  · have hstop : t.stop user = t := by simp [Traffic.stop, he]
    rwa [hstop]
  · have hstop : t.stop user = { t with
        registry := { t.registry with users := t.registry.users.erase user }
        instances := t.setLife i .stopping } := by
      simp [Traffic.stop, he]
    obtain ⟨x, hx, hslot⟩ := h.filled hs
    rw [hstop]
    refine { h with
      mapped := ?_
      installed := ?_
      filled := ?_
      mapped_iff := ?_ }
    · exact h.mapped_erase
    · exact h.installed_setLife
    · exact h.filled_setLife
    · intro s hs'
      rw [h.users_erase_iff hu, h.mapped_iff hs', and_assoc, ← not_or, ← hslot]
      exact and_congr_right' (not_congr (stopped_setLife rfl hx (by simp)).symm)

theorem Sound.finish (h : Sound userOf t) (hi : t.instances[i]?.map (·.life) = some .stopping) :
    Sound userOf (t.finish i) := by
  refine { h with
    installed := ?_
    filled := ?_
    mapped_iff := ?_ }
  · exact h.installed_setLife
  · exact h.filled_setLife
  · intro s hs
    obtain ⟨x, hx, hlife⟩ := Option.map_eq_some_iff.mp hi
    have hstopped : (t.finish i).Stopped s ↔ t.Stopped s ∨ s = x.slot := stopped_setLife rfl hx (by simp)
    rw [or_iff_left_of_imp] at hstopped
    · exact (h.mapped_iff hs).trans (and_congr_right' (not_congr hstopped.symm))
    · rintro rfl
      exact ⟨i, x, hx, rfl, by simp [hlife]⟩

/-! ## Runs -/

theorem Sound.step {event : Event} (h : Sound userOf t) (hs : t.step userOf event = some t') :
    Sound userOf t' := by
  cases event with
  | call c =>
    simp only [Traffic.step] at hs
    split at hs
    · next hc => exact Option.some.inj hs ▸ h.call hc
    · cases hs
  | join c =>
    simp only [Traffic.step] at hs
    split at hs
    · next hc => exact Option.some.inj hs ▸ h.join hc
    · cases hs
  | started c =>
    simp only [Traffic.step] at hs
    split at hs
    · next hc => exact Option.some.inj hs ▸ h.start hc
    · cases hs
  | failed c =>
    simp only [Traffic.step] at hs
    split at hs
    · next hc => exact Option.some.inj hs ▸ h.fail hc
    · cases hs
  | discarded c =>
    simp only [Traffic.step] at hs
    split at hs
    · next hc => exact Option.some.inj hs ▸ h.discard hc
    · cases hs
  | told c =>
    simp only [Traffic.step] at hs
    split at hs
    · next hc => exact Option.some.inj hs ▸ h.tell hc
    · cases hs
  | stop user => exact Option.some.inj hs ▸ h.stop user
  | ended i =>
    simp only [Traffic.step] at hs
    split at hs
    · next hi => exact Option.some.inj hs ▸ h.finish hi
    · cases hs

theorem Sound.run : ∀ {events : List Event} {t : Traffic}, Sound userOf t →
    t.run userOf events = some t' → Sound userOf t'
  | [], _, h, hr => Option.some.inj hr ▸ h
  | _ :: _, _, h, hr => by
    obtain ⟨u, hu, hr⟩ := Option.bind_eq_some_iff.mp hr
    exact (h.step hu).run hr

end Traffic

end ContactsIndex
