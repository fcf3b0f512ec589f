import ContactsIndex.Proofs.Program.Environment
import ContactsIndex.Proofs.Store.Documents
import ContactsIndex.Update.Batcher

/-!
# Failed calls

A call is refused when it is answered with an error, or by a provider with nothing to
read from. It fails also when some document of a batch did not make it. The statistics
of a cycle count a failure for a batch exactly when the call for it failed.
-/

namespace ContactsIndex

/-- The call fails as a whole. -/
def Call.Refused : (c : Call) → c.Reply → Prop
  | .updated _ _, reply => ∀ rows, reply ≠ .ok (some rows)
  | .deleted _, reply => ∀ rows, reply ≠ .ok (some rows)
  | .contacts _, reply => ∀ found, reply ≠ .ok (some found)
  | .put _, reply => ∀ outcome, reply ≠ .ok outcome
  | .remove _, reply => ∀ outcome, reply ≠ .ok outcome
  | .entries _, reply => ∀ stored, reply ≠ .ok stored
  | .listIds, reply => ∀ ids, reply ≠ .ok ids
  | .getSchema, reply => ∀ schema, reply ≠ .ok schema
  | .setSchema _ _, reply => ∀ types, reply ≠ .ok types
  | .schedule _ _, reply => reply ≠ .ok ()
  | .cancelJob _, reply => ∀ found, reply ≠ .ok found
  | .pendingJob _, reply => ∀ job, reply ≠ .ok job
  | .makeFolder, reply => reply ≠ .ok ()
  | .loadSettings, _ => False
  | .persist _, reply => reply ≠ .ok ()

/-- The call is refused, or some document of it is. -/
def Call.Failed : (c : Call) → c.Reply → Prop
  | .put _, reply => ∀ outcome, reply = .ok outcome → outcome.success = false
  | .remove _, reply => ∀ outcome, reply = .ok outcome → outcome.cleared = false
  | c, reply => c.Refused reply

structure Environment.Smooth {σ : Type} (env : Environment σ) : Prop where
  answered : ∀ {c s r t}, env.answers c s r t → ¬ c.Failed r
  uncancelled : ¬ env.token true

/-! ## Counting failures -/

namespace Stats

theorem failed_recordUpdate (stats : Stats) (status : Status) :
    (stats.recordUpdate status).failed = stats.failed + (if status.isOk then 0 else 1) := by
  unfold recordUpdate failed
  split <;> simp
  omega

theorem failed_recordDelete (stats : Stats) (status : Status) :
    (stats.recordDelete status).failed =
      stats.failed + (if status.isOk || status = .notFound then 0 else 1) := by
  unfold recordDelete failed
  cases status <;> simp [Status.isOk] <;> omega

theorem failed_recordPuts (newIds : List String) : ∀ (outcome : Outcome) (stats : Stats),
    (stats.recordPuts newIds outcome).failed = stats.failed + outcome.countP fun entry => !entry.2.isOk
  | [], _ => rfl
  | entry :: rest, stats => by
    have ih := failed_recordPuts newIds rest
    unfold recordPuts at ih ⊢
    rw [List.foldl_cons, ih, List.countP_cons]
    have hone := failed_recordUpdate stats entry.2
    have hkept : ∀ s : Stats, ({ s with inserted := s.inserted + 1 } : Stats).failed = s.failed :=
      fun _ => rfl
    split <;> cases hs : entry.2.isOk <;> simp_all
    omega

theorem failed_recordRemoves : ∀ (outcome : Outcome) (stats : Stats),
    (stats.recordRemoves outcome).failed =
      stats.failed + outcome.countP fun entry => !(entry.2.isOk || entry.2 = .notFound)
  | [], _ => rfl
  | entry :: rest, stats => by
    have ih := failed_recordRemoves rest
    unfold recordRemoves at ih ⊢
    rw [List.foldl_cons, ih, List.countP_cons, failed_recordDelete]
    cases entry.2.isOk || entry.2 = .notFound <;> simp
    omega

end Stats

namespace Outcome

theorem countP_eq_zero_iff_success {outcome : Outcome} :
    (outcome.countP fun entry => !entry.2.isOk) = 0 ↔ outcome.success = true := by
  simp [List.countP_eq_zero, success]

theorem countP_eq_zero_iff_cleared {outcome : Outcome} :
    (outcome.countP fun entry => !(entry.2.isOk || entry.2 = .notFound)) = 0 ↔
    outcome.cleared = true := by
  simp only [List.countP_eq_zero, cleared, List.all_eq_true, Bool.not_eq_true, Bool.not_eq_false']

theorem not_success_ofError {ids : List String} (h : ids ≠ []) (e : StorageError) :
    (ofError ids e).success = false := by
  cases ids with
  | nil => exact absurd rfl h
  | cons id ids => cases e <;> rfl

theorem not_cleared_ofError {ids : List String} (h : ids ≠ []) (e : StorageError) :
    (ofError ids e).cleared = false := by
  cases ids with
  | nil => exact absurd rfl h
  | cons id ids => cases e <;> rfl

end Outcome

/-! ## Statistics of what did not fail -/

namespace Stats

structure Unfailed (stats : Stats) : Prop where
  updates : ∀ status ∈ stats.updateStatuses, status = .ok
  deletes : ∀ status ∈ stats.deleteStatuses, status = .ok ∨ status = .notFound
  failed : stats.failed = 0

theorem unfailed_start (kind : UpdateKind) (now : Int) : (start kind now).Unfailed :=
  ⟨by simp [start], by simp [start], rfl⟩

theorem Unfailed.of_eq {stats other : Stats} (h : stats.Unfailed) (hu : other.updateStatuses = stats.updateStatuses)
    (hd : other.deleteStatuses = stats.deleteStatuses) (hf : other.failed = stats.failed) : other.Unfailed :=
  ⟨hu ▸ h.updates, hd ▸ h.deletes, hf ▸ h.failed⟩

theorem Unfailed.outOfSpace {stats : Stats} (h : stats.Unfailed) : stats.outOfSpace = false := by
  have hu : Status.outOfSpace ∉ stats.updateStatuses := fun hm => nomatch h.updates _ hm
  have hd : Status.outOfSpace ∉ stats.deleteStatuses := fun hm => nomatch h.deletes _ hm
  simp [Stats.outOfSpace, hu, hd]

theorem Unfailed.recordUpdate {stats : Stats} (h : stats.Unfailed) : (stats.recordUpdate .ok).Unfailed where
  updates status hs := by
    have hadd : status ∈ stats.updateStatuses.add .ok := hs
    cases StatusSet.mem_add.mp hadd with
    | inl he => exact he
    | inr hm => exact h.updates status hm
  deletes := h.deletes
  failed := by rw [failed_recordUpdate, h.failed]; rfl

theorem Unfailed.recordDelete {stats : Stats} (h : stats.Unfailed) {status : Status}
    (hs : status = .ok ∨ status = .notFound) : (stats.recordDelete status).Unfailed := by
  have hset : ∀ s ∈ stats.deleteStatuses.add status, s = .ok ∨ s = .notFound := by
    intro s hm
    cases StatusSet.mem_add.mp hm with
    | inl he => exact he ▸ hs
    | inr hm => exact h.deletes s hm
  have hfailed : (stats.recordDelete status).failed = 0 := by
    rw [failed_recordDelete, h.failed]
    cases hs with
    | inl he => simp [he, Status.isOk]
    | inr he => simp [he]
  cases hs with
  | inl he => subst he; exact ⟨h.updates, hset, hfailed⟩
  | inr he => subst he; exact ⟨h.updates, hset, hfailed⟩

theorem Unfailed.recordPuts {newIds : List String} : ∀ {outcome : Outcome} {stats : Stats}, stats.Unfailed →
    outcome.success = true → (stats.recordPuts newIds outcome).Unfailed
  | [], _, h, _ => h
  | entry :: rest, stats, h, hs => by
    simp only [Outcome.success, List.all_cons, Bool.and_eq_true, Status.isOk, decide_eq_true_eq] at hs
    have hone : (stats.recordUpdate entry.2).Unfailed := hs.1 ▸ h.recordUpdate
    have hcounted : ({ stats.recordUpdate entry.2 with
        inserted := (stats.recordUpdate entry.2).inserted + 1 } : Stats).Unfailed := hone.of_eq rfl rfl rfl
    unfold Stats.recordPuts
    rw [List.foldl_cons]
    dsimp only
    split
    · exact hcounted.recordPuts hs.2
    · exact hone.recordPuts hs.2

theorem Unfailed.recordRemoves : ∀ {outcome : Outcome} {stats : Stats}, stats.Unfailed →
    outcome.cleared = true → (stats.recordRemoves outcome).Unfailed
  | [], _, h, _ => h
  | entry :: rest, stats, h, hc => by
    simp only [Outcome.cleared, List.all_cons, Bool.and_eq_true, Bool.or_eq_true, Status.isOk, decide_eq_true_eq] at hc
    exact (h.recordDelete hc.1).recordRemoves hc.2

theorem failed_flush (stats : Stats) (newIds : List String) (written removed : Outcome) :
    ((stats.recordPuts newIds written).recordRemoves removed).failed - stats.failed = 0 ↔
      written.success = true ∧ removed.cleared = true := by
  rw [failed_recordRemoves, failed_recordPuts, ← Outcome.countP_eq_zero_iff_success,
    ← Outcome.countP_eq_zero_iff_cleared]
  omega

end Stats

end ContactsIndex
