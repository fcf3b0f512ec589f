import ContactsIndex.Proofs.Program.Firing
import ContactsIndex.Proofs.Program.Straight
import ContactsIndex.Proofs.Update.Calls
import ContactsIndex.Proofs.Update.Desk

/-!
# Cycles that are cancelled

A cycle looks at the token only between two candidates. So wherever the token fires, a cycle that is
cancelled has taken up the first candidates as any other would, and then it sends what it had
gathered. What it sends does not depend on why it ends, and an unread chunk is dropped: the store is
left as by a cycle over those candidates without the unread ones.
-/

namespace ContactsIndex

open Program

variable {σ : Type}

def Call.Storing : Call → Prop
  | .put _ | .remove _ | .entries _ => True
  | _ => False

theorem Call.Batching.storing {c : Call} (h : c.Batching) : c.Storing := by
  cases c <;> trivial

/-! ## Where a cycle looks at the token -/

namespace Batcher

theorem heedless_sendDeletes (ids : List String) : (sendDeletes ids).Heedless := by
  unfold sendDeletes
  split
  · exact heedless_pure _
  · refine heedless_ask.mpr fun reply => ?_
    cases reply <;> exact heedless_pure _

theorem heedless_sendUpdates (docs : List Document) : (sendUpdates docs).Heedless := by
  unfold sendUpdates
  split
  · exact heedless_pure _
  · refine heedless_ask.mpr fun reply => ?_
    cases reply <;> exact heedless_pure _

theorem heedless_flush (policy : Policy) (reason : FlushReason) (work : Work) :
    (flush policy reason work).Heedless := by
  unfold flush
  dsimp only
  split
  · exact heedless_pure _
  · refine (heedless_sendDeletes _).bind fun removed => (heedless_sendUpdates _).bind fun written => ?_
    refine heedless_record.mpr ?_
    split <;> exact heedless_pure _

theorem heedless_addUpdate (policy : Policy) (diffed : Diffed) (work : Work) :
    (addUpdate policy diffed work).Heedless := by
  unfold addUpdate
  split
  · exact heedless_pure _
  · dsimp only
    split
    · exact heedless_flush ..
    · exact heedless_pure _

theorem heedless_addDelete (policy : Policy) (id : String) (work : Work) : (addDelete policy id work).Heedless := by
  unfold addDelete
  dsimp only
  split
  · exact heedless_flush ..
  · exact heedless_pure _

end Batcher

namespace Source

theorem heedless_readContacts (ids : List String) : (readContacts ids).Heedless := by
  unfold readContacts
  split
  · exact heedless_pure _
  · refine heedless_ask.mpr fun reply => ?_
    rcases reply with e | _ | found <;> trivial

theorem late_readContacts {env : Surroundings σ} {w : Firing σ} (ids : List String) (hleft : w.left.isSome) :
    ((readContacts ids).runFiring env w).2.late = w.late := by
  unfold readContacts
  split
  · rfl
  · have hcall := Firing.late_call_of_left env (.contacts ids) hleft
    rw [runFiring_bind, show (ask (.contacts ids)).runFiring env w = w.call env (.contacts ids) from rfl]
    rcases (w.call env (.contacts ids)).1 with e | _ | found <;> exact hcall

end Source

namespace Corpus

theorem heedless_addUpdates (policy : Policy) : ∀ (diffs : List Diffed) (work : Work),
    (addUpdates policy diffs work).Heedless
  | [], _ => heedless_pure _
  | diffed :: rest, work => (Batcher.heedless_addUpdate policy diffed work).bind fun p => by
    rcases p with ⟨e | a, after⟩
    · exact heedless_pure _
    · exact heedless_addUpdates policy rest after

theorem heedless_indexChunk (policy : Policy) (deleted ids : List String) (work : Work) :
    (indexChunk policy deleted ids work).Heedless := by
  unfold indexChunk
  apply (Source.heedless_readContacts ids).bind
  intro result
  rcases result with e | found
  · exact heedless_pure _
  · dsimp only
    split
    · exact heedless_pure _
    · refine heedless_ask.mpr fun reply => ?_
      rcases reply with e | stored
      · dsimp only
        split <;> exact heedless_pure _
      · exact heedless_readClock.mpr fun now => heedless_addUpdates ..

theorem heedless_takeUp (policy : Policy) (deleted : List String) (candidate : Candidate) (chunk : List String)
    (work : Work) : (takeUp policy deleted candidate chunk work).Heedless := by
  unfold takeUp
  cases candidate with
  | deleted id =>
    apply (Batcher.heedless_addDelete ..).bind
    rintro ⟨_ | _, _⟩ <;> exact heedless_pure _
  | updated id =>
    dsimp only
    split
    · exact heedless_pure _
    · apply (heedless_indexChunk ..).bind
      rintro ⟨_ | _, _⟩ <;> exact heedless_pure _

theorem heedless_conclude (policy : Policy) (reason : FlushReason) (completion : Completion) (work : Work) :
    (conclude policy reason completion work).Heedless := by
  apply (Batcher.heedless_flush ..).bind
  rintro ⟨_ | _, _⟩ <;> exact heedless_pure _

/-! ## What is begun after the token has fired -/

variable {env : Surroundings σ} {w : Firing σ}

theorem late_indexChunk (policy : Policy) (deleted ids : List String) (work : Work) (hleft : w.left.isSome)
    (hlate : ∀ c ∈ w.late, c.Storing) :
    ∀ c ∈ ((indexChunk policy deleted ids work).runFiring env w).2.late, c.Storing := by
  rw [indexChunk, runFiring_bind]
  refine Obeys.late (Q := fun _ => True) ?_ (by rwa [Source.late_readContacts ids hleft])
  split
  · trivial
  · dsimp only
    split
    · trivial
    · refine obeys_ask.mpr ⟨trivial, fun reply => ?_⟩
      rcases reply with e | stored
      · dsimp only
        split <;> trivial
      · exact obeys_readClock.mpr fun now => ((obeys_addUpdates ..).calls fun _ => Call.Batching.storing).mono
          fun _ _ => trivial

theorem late_takeUp (policy : Policy) (deleted : List String) (candidate : Candidate) (chunk : List String)
    (work : Work) (hleft : w.left.isSome) (hlate : ∀ c ∈ w.late, c.Storing) :
    ∀ c ∈ ((takeUp policy deleted candidate chunk work).runFiring env w).2.late, c.Storing := by
  unfold takeUp
  cases candidate with
  | deleted id =>
    refine Obeys.late (Q := fun _ => True) (((Batcher.obeys_addDelete ..).calls
      fun _ => Call.Batching.storing).bind ?_) hlate
    rintro ⟨_ | _, _⟩ _ <;> trivial
  | updated id =>
    dsimp only
    split
    · exact hlate
    · let counted : Work := { work with stats := { work.stats with toUpdate := work.stats.toUpdate + 1 } }
      have hchunk : ∀ c ∈ ((indexChunk policy deleted (chunk ++ [id]) counted).runFiring env w).2.late, c.Storing :=
        late_indexChunk _ _ _ _ hleft hlate
      rw [runFiring_bind]
      generalize (indexChunk policy deleted (chunk ++ [id]) counted).runFiring env w = out at *
      obtain ⟨⟨_ | _, _⟩, w'⟩ := out <;> exact hchunk

theorem late_conclude (policy : Policy) (reason : FlushReason) (completion : Completion) (work : Work)
    (hlate : ∀ c ∈ w.late, c.Storing) :
    ∀ c ∈ ((conclude policy reason completion work).runFiring env w).2.late, c.Storing :=
  ((obeys_conclude ..).calls fun _ => Call.Batching.storing).late hlate

theorem late_applyFrom (policy : Policy) (deleted : List String) : ∀ (candidates : List Candidate) (chunk : List String)
    (work : Work) (w : Firing σ), (∀ c ∈ w.late, c.Storing) →
    ∀ c ∈ ((applyFrom policy deleted candidates chunk work).runFiring env w).2.late, c.Storing
  | [], chunk, work, w, hlate => by
    unfold applyFrom
    rw [runFiring_bind, show isCancelled.runFiring env w = w.look from rfl]
    cases hlook : w.look.1 with
    | true => exact late_conclude _ _ _ _ hlate
    | false =>
      simp only [Bool.false_eq_true, ↓reduceIte]
      split
      · exact late_conclude _ _ _ _ hlate
      · have hchunk : ∀ c ∈ ((indexChunk policy deleted chunk work).runFiring env w.look.2).2.late, c.Storing :=
          late_indexChunk _ _ _ _ (Firing.left_look hlook) hlate
        rw [runFiring_bind]
        generalize (indexChunk policy deleted chunk work).runFiring env w.look.2 = out at *
        obtain ⟨⟨e | a, after⟩, w'⟩ := out
        · exact hchunk
        · exact late_conclude _ _ _ _ hchunk
  | candidate :: rest, chunk, work, w, hlate => by
    rw [applyFrom_cons, runFiring_bind, show isCancelled.runFiring env w = w.look from rfl]
    cases hlook : w.look.1 with
    | true => exact late_conclude _ _ _ _ hlate
    | false =>
      have htaken : ∀ c ∈ ((takeUp policy deleted candidate chunk work).runFiring env w.look.2).2.late, c.Storing :=
        late_takeUp _ _ _ _ _ (Firing.left_look hlook) hlate
      simp only [Bool.false_eq_true, ↓reduceIte]
      rw [runFiring_bind]
      generalize (takeUp policy deleted candidate chunk work).runFiring env w.look.2 = out at *
      obtain ⟨⟨e | chunk, after⟩, w'⟩ := out
      · exact htaken
      · exact late_applyFrom policy deleted rest chunk after w' htaken

/-! ## What a cancelled cycle has taken up -/

variable {policy : Policy} {reason : FlushReason} {completion completion' : Completion} {work after : Work} {s t : σ}

theorem run_conclude_ok : (conclude policy reason completion work).run env s = ((.ok completion', after), t) ↔
    completion' = completion ∧ ∃ a, (Batcher.flush policy reason work).run env s = ((.ok a, after), t) := by
  unfold conclude
  rw [run_bind]
  rcases (Batcher.flush policy reason work).run env s with ⟨⟨e | a, after'⟩, t'⟩
  · simp
  · simp only [run_pure, Prod.mk.injEq, Except.ok.injEq]
    constructor
    · rintro ⟨⟨rfl, rfl⟩, rfl⟩
      exact ⟨rfl, a, ⟨rfl, rfl⟩, rfl⟩
    · rintro ⟨rfl, _, ⟨-, rfl⟩, rfl⟩
      exact ⟨⟨rfl, rfl⟩, rfl⟩

theorem flush_of_conclude {w w' : Firing σ}
    (h : (conclude policy reason completion work).runFiring env w = ((.ok completion', after), w')) :
    completion' = completion ∧
      ∃ a, (Batcher.flush policy reason work).run env w.state = ((.ok a, after), w'.state) := by
  have heq : _ = (conclude policy reason completion work).run env w.state :=
    (heedless_conclude policy reason completion work).runFiring_eq w
  rw [h] at heq
  exact run_conclude_ok.mp heq.symm

/-- A cycle that is cancelled has taken up the first candidates, and then it sends what is gathered. -/
theorem taken_of_cancelled (policy : Policy) (deleted : List String) : ∀ (candidates : List Candidate)
    (chunk : List String) (work : Work) (w : Firing σ) {after : Work} {w' : Firing σ},
    (applyFrom policy deleted candidates chunk work).runFiring env w = ((.ok .cancelled, after), w') →
    ∃ taken chunk' work' s' a, taken <+: candidates ∧
      (takeAll policy deleted taken chunk work).run env w.state = ((.ok chunk', work'), s') ∧
      (Batcher.flush policy .cancelled work').run env s' = ((.ok a, after), w'.state)
  | [], chunk, work, w, after, w', h => by
    unfold applyFrom at h
    rw [runFiring_bind, show isCancelled.runFiring env w = w.look from rfl] at h
    cases hlook : w.look.1 with
    | true =>
      rw [hlook] at h
      obtain ⟨-, a, hflush⟩ := flush_of_conclude h
      exact ⟨[], chunk, work, w.state, a, List.prefix_refl _, rfl, hflush⟩
    | false =>
      simp only [hlook, Bool.false_eq_true, ↓reduceIte] at h
      split at h
      · exact nomatch (flush_of_conclude h).1
      · rw [runFiring_bind] at h
        rcases hout : (indexChunk policy deleted chunk work).runFiring env w.look.2 with ⟨⟨e | a, after'⟩, w₁⟩
        · rw [hout] at h
          cases h
        · rw [hout] at h
          exact nomatch (flush_of_conclude h).1
  | candidate :: rest, chunk, work, w, after, w', h => by
    rw [applyFrom_cons, runFiring_bind, show isCancelled.runFiring env w = w.look from rfl] at h
    cases hlook : w.look.1 with
    | true =>
      rw [hlook] at h
      obtain ⟨-, a, hflush⟩ := flush_of_conclude h
      exact ⟨[], chunk, work, w.state, a, List.nil_prefix, rfl, hflush⟩
    | false =>
      -- taking up a candidate never looks at the token, so it runs as if nothing were to fire
      have hheedless := heedless_takeUp policy deleted candidate chunk work
      have hone : _ = (takeUp policy deleted candidate chunk work).run env w.state := hheedless.runFiring_eq w.look.2
      simp only [hlook, Bool.false_eq_true, ↓reduceIte] at h
      rw [runFiring_bind] at h
      generalize (takeUp policy deleted candidate chunk work).runFiring env w.look.2 = out at *
      obtain ⟨⟨e | chunk₁, work₁⟩, w₁⟩ := out
      · cases h
      · obtain ⟨taken, chunk', work', s', a, htaken, hrun, hflush⟩ :=
          taken_of_cancelled policy deleted rest chunk₁ work₁ w₁ h
        refine ⟨candidate :: taken, chunk', work', s', a, List.cons_prefix_cons.mpr ⟨rfl, htaken⟩, ?_, hflush⟩
        rw [takeAll, run_bind, ← hone]
        exact hrun

/-! ## Without the unread chunk -/

variable {deleted : List String} {chunk chunk' : List String} {work' : Work} {s' : σ}

theorem run_takeAll_cons {candidate : Candidate} {rest : List Candidate} :
    (takeAll policy deleted (candidate :: rest) chunk work).run env s = ((.ok chunk', work'), s') ↔
      ∃ chunk₁ work₁ s₁, (takeUp policy deleted candidate chunk work).run env s = ((.ok chunk₁, work₁), s₁) ∧
        (takeAll policy deleted rest chunk₁ work₁).run env s₁ = ((.ok chunk', work'), s') := by
  rw [takeAll, run_bind]
  rcases (takeUp policy deleted candidate chunk work).run env s with ⟨⟨e | chunk₁, work₁⟩, s₁⟩
  · simp
  · constructor
    · intro h
      exact ⟨chunk₁, work₁, s₁, rfl, h⟩
    · rintro ⟨_, _, _, h₁, h⟩
      cases h₁
      exact h

theorem run_takeAll_append {coming : List Candidate} : ∀ (taken : List Candidate) {chunk : List String} {work : Work}
    {s : σ}, (takeAll policy deleted (taken ++ coming) chunk work).run env s = ((.ok chunk', work'), s') ↔
      ∃ chunk₁ work₁ s₁, (takeAll policy deleted taken chunk work).run env s = ((.ok chunk₁, work₁), s₁) ∧
        (takeAll policy deleted coming chunk₁ work₁).run env s₁ = ((.ok chunk', work'), s')
  | [], chunk, work, s => by
    constructor
    · intro h
      exact ⟨chunk, work, s, rfl, h⟩
    · rintro ⟨_, _, _, h₁, h⟩
      cases h₁
      exact h
  | candidate :: rest, chunk, work, s => by
    simp only [List.cons_append, run_takeAll_cons, run_takeAll_append rest]
    constructor
    · rintro ⟨chunk₁, work₁, s₁, hone, chunk₂, work₂, s₂, hrest, hcoming⟩
      exact ⟨chunk₂, work₂, s₂, ⟨chunk₁, work₁, s₁, hone, hrest⟩, hcoming⟩
    · rintro ⟨chunk₂, work₂, s₂, ⟨chunk₁, work₁, s₁, hone, hrest⟩, hcoming⟩
      exact ⟨chunk₁, work₁, s₁, hone, chunk₂, work₂, s₂, hrest, hcoming⟩

theorem takeAll_deleted (policy : Policy) (deleted deleted' : List String) : ∀ (ids chunk : List String) (work : Work),
    takeAll policy deleted (ids.map .deleted) chunk work = takeAll policy deleted' (ids.map .deleted) chunk work
  | [], _, _ => rfl
  | id :: rest, chunk, work => by
    have hone : takeUp policy deleted (.deleted id) chunk work = takeUp policy deleted' (.deleted id) chunk work := rfl
    rw [List.map_cons, takeAll, takeAll, hone]
    congr; funext p
    rcases p with ⟨e | chunk₁, work₁⟩
    · rfl
    · exact takeAll_deleted policy deleted deleted' rest chunk₁ work₁

theorem chunk_takeUp_deleted {id : String}
    (h : (takeUp policy deleted (.deleted id) chunk work).run env s = ((.ok chunk', work'), s')) : chunk' = chunk := by
  rw [takeUp, run_bind] at h
  rcases hout : (Batcher.addDelete policy id { work with
    stats := { work.stats with toDelete := work.stats.toDelete + 1 } }).run env s with ⟨⟨e | a, after⟩, t⟩
  · rw [hout] at h
    cases h
  · rw [hout] at h
    cases h
    rfl

theorem chunk_takeAll_deleted : ∀ {ids chunk : List String} {work : Work} {s : σ},
    (takeAll policy deleted (ids.map .deleted) chunk work).run env s = ((.ok chunk', work'), s') → chunk' = chunk
  | [], _, _, _, h => by
    cases h
    rfl
  | id :: rest, chunk, work, s, h => by
    obtain ⟨chunk₁, work₁, s₁, hone, hrest⟩ := run_takeAll_cons.mp h
    obtain rfl := chunk_takeUp_deleted hone
    exact chunk_takeAll_deleted hrest

theorem takeUp_short {id : String} (h : (chunk ++ [id]).length < chunkSize policy) :
    takeUp policy deleted (.updated id) chunk work =
      pure (.ok (chunk ++ [id]), { work with stats := { work.stats with toUpdate := work.stats.toUpdate + 1 } }) :=
  if_pos h

theorem chunk_takeUp_full {id : String} (hfull : ¬ (chunk ++ [id]).length < chunkSize policy)
    (h : (takeUp policy deleted (.updated id) chunk work).run env s = ((.ok chunk', work'), s')) : chunk' = [] := by
  simp only [takeUp, if_neg hfull] at h
  rw [run_bind] at h
  rcases hout : (indexChunk policy deleted (chunk ++ [id]) { work with
    stats := { work.stats with toUpdate := work.stats.toUpdate + 1 } }).run env s with ⟨⟨e | a, after⟩, t⟩
  · rw [hout] at h
    cases h
  · rw [hout] at h
    cases h
    rfl

theorem length_takeAll_updated : ∀ {ids chunk : List String} {work : Work} {s : σ}, chunk.length < chunkSize policy →
    (takeAll policy deleted (ids.map .updated) chunk work).run env s = ((.ok chunk', work'), s') →
    chunk'.length = (chunk.length + ids.length) % chunkSize policy
  | [], chunk, work, s, hchunk, h => by
    cases h
    exact (Nat.mod_eq_of_lt hchunk).symm
  | id :: rest, chunk, work, s, hchunk, h => by
    obtain ⟨chunk₁, work₁, s₁, hone, hrest⟩ := run_takeAll_cons.mp h
    by_cases hshort : (chunk ++ [id]).length < chunkSize policy
    · rw [takeUp_short hshort] at hone
      cases hone
      rw [length_takeAll_updated hshort hrest, List.length_append, List.length_singleton, List.length_cons,
        Nat.add_assoc, Nat.add_comm 1]
    · obtain rfl := chunk_takeUp_full hshort hone
      have hempty : ([] : List String).length < chunkSize policy := Nat.zero_lt_of_lt hchunk
      have hsize : chunk.length + 1 = chunkSize policy := by
        rw [List.length_append, List.length_singleton] at hshort
        omega
      rw [length_takeAll_updated hempty hrest, List.length_cons, List.length_nil, Nat.zero_add,
        Nat.add_comm rest.length, ← Nat.add_assoc, hsize, Nat.add_mod_left]

theorem run_takeAll_short : ∀ {ids chunk : List String} {work : Work} {s : σ},
    (chunk ++ ids).length < chunkSize policy →
    (takeAll policy deleted (ids.map .updated) chunk work).run env s = ((.ok chunk', work'), s') →
    s' = s ∧ work'.batcher = work.batcher
  | [], chunk, work, s, _, h => by
    cases h
    exact ⟨rfl, rfl⟩
  | id :: rest, chunk, work, s, hshort, h => by
    rw [List.append_cons] at hshort
    obtain ⟨chunk₁, work₁, s₁, hone, hrest⟩ := run_takeAll_cons.mp h
    rw [takeUp_short (by rw [List.length_append] at hshort; omega)] at hone
    cases hone
    obtain ⟨hstate, hbatcher⟩ := run_takeAll_short hshort hrest
    exact ⟨hstate, hbatcher⟩

/-- The ids that are left over when full chunks are taken up leave no trace but in the statistics. -/
theorem run_takeAll_whole {unwanted wanted : List String}
    (h : (takeAll policy deleted (unwanted.map .deleted ++ wanted.map .updated) [] work).run env s =
      ((.ok chunk', work'), s')) :
    ∃ whole work₁, whole <+: wanted ∧ chunkSize policy ∣ whole.length ∧ work'.batcher = work₁.batcher ∧
      (takeAll policy deleted (unwanted.map .deleted ++ whole.map .updated) [] work).run env s =
        ((.ok [], work₁), s') := by
  have hpos : ([] : List String).length < chunkSize policy := Nat.lt_of_lt_of_le Nat.zero_lt_one (Nat.le_max_left ..)
  let count := chunkSize policy * (wanted.length / chunkSize policy)
  have hcount : count ≤ wanted.length := Nat.mul_div_le ..
  have hwhole : (wanted.take count).length = count := List.length_take_of_le hcount
  have hdvd : chunkSize policy ∣ (wanted.take count).length := by
    rw [hwhole]
    exact Nat.dvd_mul_right ..
  rw [← List.take_append_drop count wanted, List.map_append, ← List.append_assoc] at h
  obtain ⟨chunk₁, work₁, s₁, htaken, hleft⟩ := (run_takeAll_append _).mp h
  have hchunk : chunk₁ = [] := by
    obtain ⟨chunk₀, work₀, s₀, hdeleted, hupdated⟩ := (run_takeAll_append _).mp htaken
    obtain rfl := chunk_takeAll_deleted hdeleted
    rw [← List.length_eq_zero_iff, length_takeAll_updated hpos hupdated, List.length_nil, Nat.zero_add]
    exact Nat.mod_eq_zero_of_dvd hdvd
  subst hchunk
  have hshort : ([] ++ wanted.drop count).length < chunkSize policy := by
    rw [List.nil_append, List.length_drop]
    have hmod : wanted.length % chunkSize policy < chunkSize policy := Nat.mod_lt _ hpos
    have hdiv := Nat.div_add_mod wanted.length (chunkSize policy)
    omega
  obtain ⟨rfl, hbatcher⟩ := run_takeAll_short hshort hleft
  exact ⟨wanted.take count, work₁, List.take_prefix .., hdvd, hbatcher, htaken⟩

end Corpus

/-! ## The last flush -/

theorem Stats.failed_flush_sub (stats : Stats) (newIds : List String) (written removed : Outcome) :
    ((stats.recordPuts newIds written).recordRemoves removed).failed - stats.failed =
      (written.countP fun entry => !entry.2.isOk) +
        removed.countP fun entry => !(entry.2.isOk || entry.2 = .notFound) := by
  rw [failed_recordRemoves, failed_recordPuts]
  omega

theorem Batcher.run_flush {env : Surroundings σ} (hplain : env.Plain) {policy : Policy} {reason : FlushReason}
    (reason' : FlushReason) {work other after : Work} (hbatcher : work.batcher = other.batcher) {s t : σ}
    {a : Option FlushReason} (h : (flush policy reason work).run env s = ((.ok a, after), t)) :
    ∃ a' after', (flush policy reason' other).run env s = ((.ok a', after'), t) := by
  unfold flush at h ⊢
  rw [hbatcher] at h
  dsimp only at h ⊢
  split at h
  · next hnil =>
    cases h
    rw [if_pos hnil]
    exact ⟨none, other, rfl⟩
  · next hsome =>
    rw [if_neg hsome]
    simp only [run_bind, record, run, hplain.note, Stats.failed_flush_sub] at h ⊢
    split at h
    · cases h
    · next hstay =>
      rw [if_neg hstay]
      cases h
      exact ⟨_, _, rfl⟩

/-! ## Cancelled updates -/

namespace Corpus

variable {env : Surroundings σ} {policy : Policy} {stats : Stats} {unwanted wanted : List String} {s s' t : σ}

theorem run_update {work after : Work} {a : Option FlushReason} (hlive : ∀ s, env.token s = false)
    (htaken : (takeAll policy unwanted (unwanted.map .deleted ++ wanted.map .updated) [] ⟨.empty, stats⟩).run env s =
      ((.ok [], work), s'))
    (hflush : (Batcher.flush policy .endOfCycle work).run env s' = ((.ok a, after), t)) :
    (update policy wanted unwanted stats).run env s = ((.ok .completed, after.stats), t) := by
  have hconclude : (conclude policy .endOfCycle .completed work).run env s' = ((.ok .completed, after), t) :=
    run_conclude_ok.mpr ⟨rfl, a, hflush⟩
  have hgo : isCancelled.run env s' = (false, s') := by
    rw [← hlive s']; rfl
  have hrun := run_applyFrom_append hlive policy unwanted [] (unwanted.map .deleted ++ wanted.map .updated) []
    ⟨.empty, stats⟩ s
  rw [List.append_nil, run_bind, htaken] at hrun
  dsimp only at hrun
  rw [applyFrom, run_bind, hgo] at hrun
  simp only [Bool.false_eq_true, ↓reduceIte, hconclude] at hrun
  rw [update, apply, Candidate.deletedIds_update, run_bind, hrun]
  rfl

end Corpus

theorem Candidate.prefix_update {taken : List Candidate} {wanted unwanted : List String}
    (h : taken <+: unwanted.map .deleted ++ wanted.map .updated) :
    ∃ us ds, taken = ds.map .deleted ++ us.map .updated ∧
      (us = [] ∧ ds <+: unwanted ∨ ds = unwanted ∧ us <+: wanted) := by
  obtain ⟨rest, hrest⟩ := h
  rcases List.append_eq_append_iff.mp hrest with ⟨as, hdeleted, -⟩ | ⟨as, htaken, hupdated⟩
  · obtain ⟨ds, ds', hds, rfl, -⟩ := List.map_eq_append_iff.mp hdeleted
    exact ⟨[], ds, by simp, .inl ⟨rfl, ds', hds.symm⟩⟩
  · obtain ⟨us, us', hus, rfl, -⟩ := List.map_eq_append_iff.mp hupdated
    exact ⟨us, unwanted, htaken, .inr ⟨rfl, us', hus.symm⟩⟩

/-- An update that is cancelled leaves what a completed one leaves that is about some of the ids, and
once the token has fired no contacts are asked for. -/
theorem cancelled_update_prefix {env : Surroundings σ} (hplain : env.Plain) (hlive : ∀ s, env.token s = false)
    (policy : Policy) (wanted unwanted : List String) (stats : Stats) (moment : Nat) (s : σ) :
    let out := (Corpus.update policy wanted unwanted stats).runFiring env (.start s moment)
    (out.1.1 = .ok .cancelled → ∃ us ds,
      (us = [] ∧ ds <+: unwanted ∨ ds = unwanted ∧ us <+: wanted ∧ Corpus.chunkSize policy ∣ us.length) ∧
      ∃ after, (Corpus.update policy us ds stats).run env s = ((.ok .completed, after), out.2.state)) ∧
    ∀ ids, Call.contacts ids ∉ out.2.late := by
  intro out
  let candidates : List Candidate := unwanted.map .deleted ++ wanted.map .updated
  let cycle := Corpus.applyFrom policy unwanted candidates [] ⟨.empty, stats⟩
  have hout : out = (((cycle.runFiring env (.start s moment)).1.1, (cycle.runFiring env (.start s moment)).1.2.stats),
      (cycle.runFiring env (.start s moment)).2) := by
    unfold out
    rw [Corpus.update, Corpus.apply, Candidate.deletedIds_update, runFiring_bind]
    rfl
  constructor
  · intro hcancelled
    rcases hrun : cycle.runFiring env (.start s moment) with ⟨⟨result, after⟩, w⟩
    rw [hout, hrun] at hcancelled
    obtain rfl : result = .ok .cancelled := hcancelled
    obtain ⟨taken, chunk, work, s', a, hprefix, htaken, hflush⟩ := Corpus.taken_of_cancelled _ _ _ _ _ _ hrun
    obtain ⟨us, ds, rfl, hids⟩ := Candidate.prefix_update hprefix
    rw [hout, hrun]
    -- the ids of the chunk that was never read are left out; a completed update of the others sends the same
    obtain ⟨whole, work', hwhole, hdvd, hbatcher, hall⟩ := Corpus.run_takeAll_whole htaken
    obtain ⟨a', after', hlast⟩ := Batcher.run_flush hplain .endOfCycle hbatcher hflush
    rcases hids with ⟨rfl, hds⟩ | ⟨rfl, hus⟩
    · obtain rfl := List.prefix_nil.mp hwhole
      refine ⟨[], ds, .inl ⟨rfl, hds⟩, after'.stats, Corpus.run_update hlive ?_ hlast⟩
      rw [List.map_nil, List.append_nil] at hall ⊢
      rwa [Corpus.takeAll_deleted policy ds unwanted]
    · exact ⟨whole, ds, .inr ⟨rfl, hwhole.trans hus, hdvd⟩, after'.stats, Corpus.run_update hlive hall hlast⟩
  · intro ids hlate
    rw [hout] at hlate
    exact Corpus.late_applyFrom policy unwanted candidates [] _ _ (fun _ hc => absurd hc List.not_mem_nil) _ hlate

/-- The token fires while the first chunk is read. -/
theorem cancelled_update_prefix_stocked :
    let env := Collaborators.surroundings 1000
    let policy : Policy := ⟨⟨2, 5⟩, true⟩
    let out := (Corpus.update policy ["a", "b", "c"] ["d"] (.start .full 0)).runFiring env (.start .stocked 3)
    out.1.1 = .ok .cancelled ∧ out.2.late.length = 3 ∧ (∀ ids, Call.contacts ids ∉ out.2.late) ∧
      ∃ us ds, (us = [] ∧ ds <+: ["d"] ∨ ds = ["d"] ∧ us <+: ["a", "b", "c"] ∧ 2 ∣ us.length) ∧
        ∃ after, (Corpus.update policy us ds (.start .full 0)).run env .stocked =
          ((.ok .completed, after), out.2.state) := by
  intro env policy out
  have hplain : env.Plain := ⟨fun _ _ => rfl, fun _ _ _ => rfl⟩
  have h := cancelled_update_prefix hplain (fun _ => rfl) policy ["a", "b", "c"] ["d"] (.start .full 0) 3 .stocked
  obtain ⟨hcancelled, hlate⟩ : out.1.1.toOption = some .cancelled ∧ out.2.late.length = 3 := by decide +kernel
  dsimp only [out] at hcancelled hlate ⊢
  generalize (Corpus.update _ _ _ _).runFiring env (.start .stocked 3) = cancelled at h hcancelled hlate ⊢
  exact ⟨eq_ok_of_toOption hcancelled, hlate, h.2, h.1 (eq_ok_of_toOption hcancelled)⟩

end ContactsIndex
