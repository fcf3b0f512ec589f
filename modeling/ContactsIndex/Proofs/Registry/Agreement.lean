import ContactsIndex.Proofs.Registry.Sound

/-!
# Agreement with the registry

`agreement_iff`: the instance that a start returned and the instance that the registry has for the
user are one and the same, and there is no other, until it has come to its end; except where an
instance of the user goes on that the registry does not have. A start that fails can bring that
about: it takes out of the registry the slot that it has just passed on.
-/

namespace ContactsIndex

namespace Traffic

variable {userOf : CallerId → UserId} {t : Traffic} {c : CallerId} {id : SlotId} {i : InstanceId}

def Alive (t : Traffic) (user : UserId) (i : InstanceId) : Prop :=
  ∃ (x : Installed), t.instances[i]? = some x ∧ x.user = user ∧ x.life ≠ .ended

def reached? (t : Traffic) (user : UserId) : Option InstanceId :=
  (t.registry.instance? user).filter fun i => t.instances[i]?.map (·.life) = some .running

/-- An instance of the user goes on that has been stopped, or whose slot a failed start has taken
out of the registry before the instance came into it. -/
def Astray (t : Traffic) (user : UserId) : Prop :=
  ∃ (j : InstanceId) (x : Installed), t.instances[j]? = some x ∧ x.user = user ∧
    (x.life = .stopping ∨ (x.life = .running ∧ x.slot ∈ t.discarded))

structure Agrees (t : Traffic) (user : UserId) (i : InstanceId) : Prop where
  registered : t.registry.instance? user = some i
  reached : t.reached? user = some i
  alone : ∀ j, t.Alive user j → j = i

theorem Sound.registered_iff (h : Sound userOf t) {x : Installed} (hx : t.instances[i]? = some x) :
    t.registry.instance? x.user = some i ↔ x.life = .running ∧ x.slot ∉ t.discarded := by
  obtain ⟨hs, hlt, howner⟩ := h.installed hx
  have hiff := h.mapped_iff hlt
  rw [howner] at hiff
  -- the slot is stopped by no other instance, as it is filled with this one
  have hstopped : t.Stopped x.slot ↔ x.life ≠ .running := by
    constructor
    · intro ⟨j, y, hy, hslot, hlife⟩
      have hj := (h.installed hy).1
      rw [hslot, hs] at hj
      cases hj
      rw [hx] at hy
      cases hy
      exact hlife
    · exact fun hlife => ⟨i, x, hx, rfl, hlife⟩
  rw [hstopped, Decidable.not_not] at hiff
  rw [Registry.instance?_eq_some, and_comm, ← hiff]
  constructor
  · intro ⟨id, hu, hid⟩
    obtain ⟨y, hy, hslot⟩ := h.filled hid
    rw [hx] at hy
    cases hy
    rwa [hslot]
  · exact fun hu => ⟨x.slot, hu, hs⟩

theorem Sound.agrees_iff (h : Sound userOf t) (hc : t.stage c = .told id i) :
    t.Agrees (userOf c) i ↔ t.Alive (userOf c) i ∧ ¬ t.Astray (userOf c) := by
  obtain ⟨x, hx, hslot⟩ := h.filled (h.got (.inr hc))
  have huser : x.user = userOf c := by
    obtain ⟨_, howner⟩ := h.held (c := c) (s := id) (by rw [hc]; rfl)
    rw [← (h.installed hx).2.2, hslot, howner]
  have hregistered := h.registered_iff hx
  rw [huser] at hregistered
  constructor
  · intro hagrees
    obtain ⟨hlife, hkept⟩ := hregistered.mp hagrees.registered
    refine ⟨⟨x, hx, huser, by simp [hlife]⟩, ?_⟩
    intro ⟨j, y, hy, hy', hstray⟩
    have hend : y.life ≠ .ended := by
      rcases hstray with hstopping | ⟨hrunning, _⟩
      · simp [hstopping]
      · simp [hrunning]
    obtain rfl := hagrees.alone j ⟨y, hy, hy', hend⟩
    rw [hx] at hy
    cases hy
    rcases hstray with hstopping | ⟨_, hdiscarded⟩
    · simp [hlife] at hstopping
    · exact hkept hdiscarded
  · intro ⟨⟨x', hx', _, hend⟩, hstray⟩
    rw [hx] at hx'
    cases hx'
    have hfine : ∀ {j : InstanceId} {y : Installed}, t.instances[j]? = some y → y.user = userOf c →
        y.life ≠ .ended → y.life = .running ∧ y.slot ∉ t.discarded := by
      intro j y hy hy' hend
      cases hlife : y.life with
      | running => exact ⟨rfl, fun hmem => hstray ⟨j, y, hy, hy', .inr ⟨hlife, hmem⟩⟩⟩
      | stopping => exact absurd ⟨j, y, hy, hy', .inl hlife⟩ hstray
      | ended => exact absurd hlife hend
    have hi := hregistered.mpr (hfine hx huser hend)
    refine ⟨hi, by simp [reached?, hi, hx, (hfine hx huser hend).1, Option.filter], ?_⟩
    intro j ⟨y, hy, hy', hend'⟩
    have hj := (h.registered_iff hy).mpr (hfine hy hy' hend')
    rw [hy', hi] at hj
    exact (Option.some.inj hj).symm

end Traffic

/-- In every state that any interleaving leads to, the instance that a caller was given is the
registered one, gets the notifications and is alone, unless it has come to its end, or the user
has an instance astray. -/
theorem agreement_iff {userOf : CallerId → UserId} {events : List Traffic.Event} {t : Traffic}
    {c : CallerId} {id : SlotId} {i : InstanceId} (h : Traffic.quiet.run userOf events = some t)
    (hc : t.stage c = .told id i) :
    t.Agrees (userOf c) i ↔ t.Alive (userOf c) i ∧ ¬ t.Astray (userOf c) :=
  (Traffic.sound_quiet.run h).agrees_iff hc

/-- The first start fails while a second caller waits, who then starts an instance in a slot that
is no longer in the registry. -/
def handedOver : List Traffic.Event :=
  [.call 0, .call 1, .join 0, .join 1, .failed 0, .discarded 0, .started 1, .told 1]

theorem agreement_lost_handedOver : ∃ t, Traffic.quiet.run (fun _ => 0) handedOver = some t ∧
    t.stage 1 = .told 0 0 ∧ t.Alive 0 0 ∧ ¬ t.Agrees 0 0 := by
  have hrun : Traffic.quiet.run (fun _ => 0) handedOver = some _ := rfl
  refine ⟨_, hrun, rfl, ⟨⟨0, 0, .running⟩, rfl, rfl, nofun⟩, fun hagrees => ?_⟩
  have hstray := ((agreement_iff hrun (c := 1) rfl).mp hagrees).2
  exact hstray ⟨0, ⟨0, 0, .running⟩, rfl, rfl, .inr ⟨rfl, List.mem_cons_self ..⟩⟩

end ContactsIndex
