import ContactsIndex.Proofs.Update.Desk

/-!
# What a cycle keeps up

While candidates are worked off there are ids that are still to be removed, ids that
are still to be read, and documents that are still to be written. `Upkeep` asks for an
invariant that speaks of these three: what it has to survive is what others do, and the
calls of a cycle. When a call has failed the invariant may be lost, and only what is
`safe` stays. This is an invariant of desks (`Upkeep.invariant`), and so it goes through
the whole cycle: what is safe stays so, a cycle that completes has nothing left to do, and
without failures it completes (`Upkeep.update`).
-/

namespace ContactsIndex

variable {σ : Type}

structure Upkeep (env : Environment σ) (policy : Policy) (unwanted : List String)
    (inv : List String → List String → List Document → σ → Prop)
    (seen : List String → List String → List Document → List Contact → σ → Prop)
    (safe : List Document → σ → Prop) : Prop where
  inv_drift : ∀ {r u d s t}, inv r u d s → env.drift s t → inv r u d t
  seen_drift : ∀ {r u d cs s t}, seen r u d cs s → env.drift s t → seen r u d cs t
  safe_drift : ∀ {d s t}, safe d s → env.drift s t → safe d t
  safe_of_inv : ∀ {r u d s}, inv r u d s → safe d s
  safe_nil : ∀ {d s}, safe d s → safe [] s
  recover : ∀ {c s₀ reply t₀}, policy.keepGoing = true → env.answers c s₀ reply t₀ → c.Failed reply →
    ∀ {r u d s}, safe d s → inv r u d s
  removed : ∀ {ids r u d s outcome t}, (∀ id ∈ ids, id ∈ unwanted) → inv (ids ++ r) u d s →
    env.answers (.remove ids) s (.ok outcome) t → outcome.cleared = true → inv r u d t
  unremoved : ∀ {ids r u d s reply t}, (∀ id ∈ ids, id ∈ unwanted) → inv (ids ++ r) u d s →
    env.answers (.remove ids) s reply t → safe d t
  written : ∀ {docs u d s outcome t}, inv [] u (docs ++ d) s →
    env.answers (.put docs) s (.ok outcome) t →
    outcome.success = true → inv [] u d t
  unwritten : ∀ {docs d s reply t}, safe (docs ++ d) s → env.answers (.put docs) s reply t → safe d t
  read : ∀ {ids r u d s found t}, inv r (ids ++ u) d s →
    env.answers (.contacts ids) s (.ok (some found)) t →
    seen r u d found t
  unread : ∀ {ids r u d s reply t}, inv r u d s → env.answers (.contacts ids) s reply t → safe d t
  seen_nil : ∀ {r u d s}, seen r u d [] s → inv r u d s
  compared : ∀ {r u d found s stored t now}, seen r u d found s →
    env.answers (.entries (found.map (·.id))) s (.ok stored) t → env.clock now →
    inv r u (d ++ (Corpus.compare unwanted now found stored).filterMap Diffed.indexable) t
  uncompared : ∀ {r u d found ids s reply t}, seen r u d found s →
    env.answers (.entries ids) s reply t → safe d t

namespace Upkeep

variable {env : Environment σ} {policy : Policy} {unwanted : List String}
  {inv : List String → List String → List Document → σ → Prop}
  {seen : List String → List String → List Document → List Contact → σ → Prop}
  {safe : List Document → σ → Prop}
  {coming : List Candidate} {chunk removals : List String} {writes : List Document} {failed : Prop} {s t : σ}

def Fallible (env : Environment σ) : Prop :=
  ∃ (c : Call) (s : σ) (reply : c.Reply) (t : σ), env.answers c s reply t ∧ c.Failed reply

theorem Fallible.not_smooth (h : Fallible env) : ¬ env.Smooth := by
  obtain ⟨c, s, reply, t, ha, hf⟩ := h
  exact fun hs => hs.answered ha hf

/-- What is kept up, as an invariant of desks. The ids `ds` and `us` are not yet taken up. -/
structure Holds (env : Environment σ) (policy : Policy) (unwanted : List String)
    (inv : List String → List String → List Document → σ → Prop) (safe : List Document → σ → Prop)
    (ds us : List String) (desk : Desk) (s : σ) : Prop where
  left : desk.Left ds us
  doomed : ∀ id ∈ desk.removals ++ ds, id ∈ unwanted
  fallible : desk.failed → Fallible env
  safe : safe desk.writes s
  /-- The invariant is lost when a cycle is to end after a failure. -/
  inv : (desk.failed → policy.keepGoing = true) → inv (desk.removals ++ ds) (desk.chunk ++ us) desk.writes s

variable (h : Upkeep env policy unwanted inv seen safe)

include h

theorem holds_failed {ds us : List String} {c : Call} {s₀ t₀ : σ} {reply : c.Reply} {desk : Desk}
    (hleft : desk.Left ds us)
    (hdoomed : ∀ id ∈ desk.removals ++ ds, id ∈ unwanted) (hsafe : safe desk.writes s)
    (ha : env.answers c s₀ reply t₀) (hfail : c.Failed reply) (hf : desk.failed) :
    Holds env policy unwanted inv safe ds us desk s :=
  ⟨hleft, hdoomed, fun _ => ⟨c, s₀, reply, t₀, ha, hfail⟩, hsafe, fun hgo => h.recover (hgo hf) ha hfail hsafe⟩

theorem holds_removed {ds us ids : List String} {reply : (Call.remove ids).Reply}
    (hi : Holds env policy unwanted inv safe ds us ⟨coming, chunk, ids, writes, failed⟩ s)
    (hgo : failed → policy.keepGoing = true) (ha : env.answers (.remove ids) s reply t) :
    Holds env policy unwanted inv safe ds us
      ⟨coming, chunk, [], writes, failed ∨ (Call.remove ids).Failed reply⟩ t := by
  have hinv := hi.inv hgo
  have hids : ∀ id ∈ ids, id ∈ unwanted := fun id hm => hi.doomed id (List.mem_append_left _ hm)
  have hds : ∀ id ∈ ds, id ∈ unwanted := fun id hm => hi.doomed id (List.mem_append_right _ hm)
  have hleft : Desk.Left ⟨coming, chunk, [], writes, failed ∨ (Call.remove ids).Failed reply⟩ ds us := hi.left.mono id
  by_cases hfail : (Call.remove ids).Failed reply
  · exact h.holds_failed hleft hds (h.unremoved hids hinv ha) ha hfail (.inr hfail)
  · obtain ⟨outcome, rfl, hc⟩ : ∃ outcome, reply = .ok outcome ∧ outcome.cleared = true := by
      simpa [Call.Failed] using hfail
    have hafter := h.removed hids hinv ha hc
    exact ⟨hleft, hds, fun hf => hi.fallible (hf.resolve_right hfail), h.safe_of_inv hafter, fun _ => hafter⟩

theorem holds_written {ds us : List String} {docs : List Document} {reply : (Call.put docs).Reply} (hne : docs ≠ [])
    (hi : Holds env policy unwanted inv safe ds us ⟨coming, chunk, [], docs ++ writes, failed⟩ s)
    (ha : env.answers (.put docs) s reply t) :
    Holds env policy unwanted inv safe ds us
      ⟨coming, chunk, [], writes, failed ∨ (Call.put docs).Failed reply⟩ t := by
  have hleft : Desk.Left ⟨coming, chunk, [], writes, failed ∨ (Call.put docs).Failed reply⟩ ds us :=
    hi.left.mono (Or.imp_right fun hw => by simp [hw])
  have hsafe := h.unwritten hi.safe ha
  by_cases hfail : (Call.put docs).Failed reply
  · exact h.holds_failed hleft hi.doomed hsafe ha hfail (.inr hfail)
  · obtain ⟨outcome, rfl, hs⟩ : ∃ outcome, reply = .ok outcome ∧ outcome.success = true := by
      simpa [Call.Failed] using hfail
    refine ⟨hleft, hi.doomed, fun hf => hi.fallible (hf.resolve_right hfail), hsafe, fun hgo => ?_⟩
    obtain rfl : ds = [] := hi.left.ordered (.inr (by simp [hne]))
    exact h.written (hi.inv fun hf => hgo (.inl hf)) ha hs

theorem invariant : Desk.Invariant env policy unwanted fun desk s =>
    ∃ ds us, Holds env policy unwanted inv safe ds us desk s where
  drift hi hd := by
    obtain ⟨ds, us, hi⟩ := hi
    exact ⟨ds, us, hi.left, hi.doomed, hi.fallible, h.safe_drift hi.safe hd, fun hgo => h.inv_drift (hi.inv hgo) hd⟩
  deletion hi := by
    obtain ⟨ds, us, hi⟩ := hi
    obtain ⟨rest, rfl, hleft⟩ := hi.left.deletion
    exact ⟨rest, us, hleft, by simpa using hi.doomed, hi.fallible, hi.safe, by simpa using hi.inv⟩
  update hi := by
    obtain ⟨ds, us, hi⟩ := hi
    obtain ⟨rfl, rest, rfl, hleft⟩ := hi.left.update
    exact ⟨[], rest, hleft, hi.doomed, hi.fallible, hi.safe, by simpa using hi.inv⟩
  removed hi hgo ha := by
    obtain ⟨ds, us, hi⟩ := hi
    exact ⟨ds, us, h.holds_removed hi hgo ha⟩
  written hne hi ha := by
    obtain ⟨ds, us, hi⟩ := hi
    exact ⟨ds, us, h.holds_written hne hi ha⟩
  unread hne hi hgo ha hfail := by
    obtain ⟨ds, us, hi⟩ := hi
    have hsafe := h.unread (hi.inv hgo) ha
    exact ⟨ds, us, h.holds_failed (hi.left.mono fun _ => .inl hne) hi.doomed hsafe ha hfail trivial⟩
  vanished hne hi hgo ha := by
    obtain ⟨ds, us, hi⟩ := hi
    have hafter := h.seen_nil (h.read (hi.inv hgo) ha)
    exact ⟨ds, us, hi.left.mono fun _ => .inl hne, hi.doomed, hi.fallible, h.safe_of_inv hafter, fun _ => hafter⟩
  compared hne hi hgo ha hd ha' hnow := by
    obtain ⟨ds, us, hi⟩ := hi
    have hafter := h.compared (h.seen_drift (h.read (hi.inv hgo) ha) hd) ha' hnow
    exact ⟨ds, us, hi.left.mono fun _ => .inl hne, hi.doomed, hi.fallible, h.safe_of_inv hafter, fun _ => hafter⟩
  uncompared hne hi hgo ha hd ha' := by
    obtain ⟨ds, us, hi⟩ := hi
    have hsafe := h.uncompared (h.seen_drift (h.read (hi.inv hgo) ha) hd) ha'
    exact ⟨ds, us, h.holds_failed (hi.left.mono fun _ => .inl hne) hi.doomed hsafe ha' (fun _ hr => nomatch hr) trivial⟩

/-! ## A whole cycle -/

/-- How a cycle ends: what is safe is so still, nothing is left of a completed cycle, and
without failures it is completed. -/
def Ended {α : Type} (env : Environment σ) (inv : List String → List String → List Document → σ → Prop)
    (safe : List Document → σ → Prop) (p : Except UpdateError Completion × α) (t : σ) : Prop :=
  safe [] t ∧ (p.1 = .ok .completed → inv [] [] [] t) ∧ (env.Smooth → p.1 = .ok .completed)

theorem update {wanted : List String} {stats : Stats} (hi : inv unwanted wanted [] s) :
    (Corpus.update policy wanted unwanted stats).Always env (Ended env inv safe) s := by
  have hstart : Holds env policy unwanted inv safe unwanted wanted
      ⟨unwanted.map .deleted ++ wanted.map .updated, [], [], [], False⟩ s :=
    ⟨.start .., fun _ hid => hid, False.elim, h.safe_of_inv hi, fun _ => hi⟩
  apply (h.invariant.apply (Candidate.deletedIds_update unwanted wanted) ⟨_, _, hstart⟩).mono
  intro p t hp
  rcases p with ⟨e | _ | _, stats⟩
  · obtain ⟨desk, ⟨ds, us, hi⟩, hf⟩ := hp
    exact ⟨h.safe_nil hi.safe, (nomatch ·), fun hs => absurd hs (hi.fallible hf).not_smooth⟩
  · obtain ⟨failed, ⟨ds, us, hi⟩, hgo, -⟩ := hp
    obtain ⟨rfl, rfl⟩ : ds = [] ∧ us = [] := by simpa using hi.left.coming
    exact ⟨hi.safe, fun _ => hi.inv hgo, fun _ => rfl⟩
  · obtain ⟨htoken, coming, chunk, failed, ds, us, hi⟩ := hp
    exact ⟨hi.safe, (nomatch ·), fun hs => absurd htoken hs.uncancelled⟩

end Upkeep

end ContactsIndex
