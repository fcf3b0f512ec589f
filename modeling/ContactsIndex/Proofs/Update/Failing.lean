import ContactsIndex.Proofs.Update.Account
import ContactsIndex.Proofs.Update.Alone

/-!
# Cycles whose store fails

A cycle that is not to go on after failures completes exactly when nothing has failed. Otherwise it
stops with its first failure: the lookup or the flush that met it is the last that it sends. A cycle
that is to go on completes whatever the store answers, and it has read all chunks and sent all
removals.
-/

namespace ContactsIndex

open Program
open Corpus (chunkSize)

variable {σ : Type}

def Exchange.FailsLast (log : List Exchange) : Prop :=
  ∃ clean last, log = clean ++ last ∧ (∀ x ∈ clean, ¬ x.Failed) ∧ (∃ x ∈ last, x.Failed) ∧ Attempt last

def Program.Surroundings.Reads (env : Surroundings σ) : Prop :=
  ∀ ids s, ∃ found, (env.reply (.contacts ids) s).1 = .ok (some found)

namespace Account

variable {policy : Policy} {kind : UpdateKind} {now : Int} {wanted unwanted : List String} {stats : Stats}
  {log : List Exchange}

theorem halted {e : UpdateError} (h : Halted policy (.start kind now) e stats log)
    (hread : ∀ ids reply, ⟨.contacts ids, reply⟩ ∈ log → ¬ (Call.contacts ids).Failed reply) :
    policy.keepGoing = false ∧ e = .aborted stats.failed ∧ 0 < stats.failed ∧ Exchange.FailsLast log := by
  cases h with
  | unread mem failed => exact absurd failed (hread _ _ mem)
  | aborted stop counted unfailed failed attempt =>
    exact ⟨stop, rfl, Nat.zero_lt_of_lt counted, _, _, rfl, unfailed, failed, attempt⟩

/-- A cycle that is not cancelled and whose provider answers does all its work, or some failure
stops it. -/
theorem finished_or_halted {env : Environment (σ × List Exchange)} {result : Except UpdateError Completion}
    {batcher : Batcher} {t : σ} (hlive : ¬ env.token true)
    (hread : ∀ ids reply, ⟨.contacts ids, reply⟩ ∈ log → ¬ (Call.contacts ids).Failed reply)
    (h : Ended env Prod.snd [] policy (.start kind now) (unwanted.map .deleted ++ wanted.map .updated) result
      ⟨batcher, stats⟩ (t, log)) :
    (result = .ok .completed ∧ (policy.keepGoing = false → stats.failed = 0) ∧
      Corpus.Chunked (chunkSize policy) wanted (Exchange.chunks log) ∧ Exchange.removedIds log = unwanted) ∨
    (policy.keepGoing = false ∧ result = .error (.aborted stats.failed) ∧ 0 < stats.failed ∧
      Exchange.FailsLast log) := by
  rcases result with e | _ | _
  · obtain ⟨sent, rfl, hhalted⟩ := h
    obtain ⟨hstop, hresult, hrest⟩ := halted hhalted hread
    exact .inr ⟨hstop, congrArg Except.error hresult, hrest⟩
  · obtain ⟨hidle, reads, hchunked, sent, rfl, haccount⟩ := h
    obtain rfl : Exchange.chunks log = reads := haccount.reads
    rw [Candidate.updatedIds_update] at hchunked
    have hremoved := haccount.removed
    rw [hidle.2, List.append_nil, Candidate.deletedIds_update] at hremoved
    refine .inl ⟨rfl, fun hstop => Nat.eq_zero_of_not_pos fun hpos => ?_, hchunked, hremoved⟩
    obtain ⟨x, hx, hf⟩ := haccount.failed.mpr hpos
    exact haccount.clean hstop x hx hf
  · exact absurd h.1 hlive

end Account

/-- Without failures to go on after, an update completes or stops with its first failure; with them,
it completes. The store may fail in any way, as long as the provider can be read and nobody
cancels. -/
theorem update_stops_or_completes {env : Surroundings σ} (hplain : env.Plain) (hlive : ∀ s, env.token s = false)
    (hread : env.Reads) (policy : Policy) (wanted unwanted : List String) (kind : UpdateKind) (now : Int) (s : σ) :
    let out := (Corpus.update policy wanted unwanted (.start kind now)).run env.logging (s, [])
    (policy.keepGoing = false → (out.1.1 = .ok .completed ↔ out.1.2.failed = 0) ∧
      (out.1.1 ≠ .ok .completed → out.1.1 = .error (.aborted out.1.2.failed) ∧ 0 < out.1.2.failed ∧
        Exchange.FailsLast out.2.2)) ∧
    (policy.keepGoing = true → out.1.1 = .ok .completed ∧
      Corpus.Chunked (chunkSize policy) wanted (Exchange.chunks out.2.2) ∧ Exchange.removedIds out.2.2 = unwanted) := by
  intro out
  have hanswered : ∀ x ∈ out.2.2, ∀ ids reply, x = ⟨.contacts ids, reply⟩ → ¬ (Call.contacts ids).Failed reply := by
    refine forall_logging env env.logging.token (fun c w => ?_) _ s
    rintro ids reply ⟨⟩ hf
    obtain ⟨found, hfound⟩ := hread ids w
    exact hf found hfound
  have htoken : ¬ env.logging.environment.token true := fun ⟨w, hw⟩ =>
    Bool.false_ne_true ((hlive w.1).symm.trans hw)
  obtain ⟨batcher, hended⟩ := ((Account.ended_apply env.records_logging _).run hplain.logging :
    ∃ batcher, Account.Ended env.logging.environment Prod.snd [] policy (.start kind now)
      (unwanted.map .deleted ++ wanted.map .updated) out.1.1 ⟨batcher, out.1.2⟩ out.2)
  rcases Account.finished_or_halted htoken (fun ids reply hm => hanswered _ hm ids reply rfl) hended with
    ⟨hcompleted, hunfailed, hdone⟩ | ⟨hstop, hresult, hfailed, hlast⟩
  · exact ⟨fun hstop => ⟨iff_of_true hcompleted (hunfailed hstop), fun hne => absurd hcompleted hne⟩,
      fun _ => ⟨hcompleted, hdone⟩⟩
  · refine ⟨fun _ => ⟨iff_of_false (fun hc => nomatch hresult.symm.trans hc) (Nat.ne_of_gt hfailed), fun _ =>
      ⟨hresult, hfailed, hlast⟩⟩, fun hkeep => ?_⟩
    rw [hstop] at hkeep
    cases hkeep

def Program.Surroundings.unwritable (env : Surroundings σ) : Surroundings σ :=
  { env with
    reply
      | .put _, s => (.error .outOfSpace, s)
      | c, s => env.reply c s }

theorem update_stops_or_completes_unwritable :
    let env := ((Provider.only (.named "a" "Ada")).surroundings fun _ => 1000).unwritable
    let out := fun keepGoing =>
      (Corpus.update ⟨⟨1, 1⟩, keepGoing⟩ ["a", "a"] ["b"] (.start .delta 0)).run env.logging (.fresh none, [])
    (out false).1.1 = .error (.aborted 1) ∧ (out false).1.2.failed = 1 ∧ Exchange.FailsLast (out false).2.2 ∧
      (out true).1.1 = .ok .completed ∧ (out true).1.2.failed = 2 ∧ Exchange.removedIds (out true).2.2 = ["b"] := by
  intro env out
  have hplain : env.Plain := ⟨fun _ _ => rfl, fun _ _ _ => rfl⟩
  have hread : env.Reads := fun ids w => ⟨_, rfl⟩
  have hstrict : (out false).1.2.failed = 1 := by decide +kernel
  have hlenient : (out true).1.2.failed = 2 := by decide +kernel
  have hstop := (update_stops_or_completes hplain (fun _ => rfl) hread ⟨⟨1, 1⟩, false⟩ ["a", "a"] ["b"] .delta 0
    (.fresh none)).1
  have hgo := (update_stops_or_completes hplain (fun _ => rfl) hread ⟨⟨1, 1⟩, true⟩ ["a", "a"] ["b"] .delta 0
    (.fresh none)).2
  dsimp only [out] at hstrict hlenient hstop hgo ⊢
  generalize (Corpus.update ⟨_, true⟩ _ _ _).run env.logging (.fresh none, []) = lenient at hlenient hgo ⊢
  generalize (Corpus.update ⟨_, false⟩ _ _ _).run env.logging (.fresh none, []) = strict at hstrict hstop ⊢
  obtain ⟨hiff, hstopped⟩ := hstop rfl
  obtain ⟨hresult, -, hlast⟩ := hstopped fun hc => Nat.one_ne_zero (hstrict.symm.trans (hiff.mp hc))
  obtain ⟨hcompleted, -, hremoved⟩ := hgo rfl
  exact ⟨hstrict ▸ hresult, hstrict, hlast, hcompleted, hlenient, hremoved⟩

end ContactsIndex
