import ContactsIndex.Proofs.Program.Failure
import ContactsIndex.Update.Corpus

/-!
# Working off candidates

Whatever the batch sizes are, a cycle moves its work along in a few ways: it takes up a
candidate, reads the ids of a chunk and compares the contacts, sends all removals that are
gathered, or sends documents once no removal is left. `Desk` is the work that lies before
a cycle, and an invariant of desks is one that every such move keeps, however the calls
are answered. It then holds all along (`Invariant.applyFrom`), for candidates in any order:
a cycle that completes has an empty desk, one that is cancelled has sent what it had
gathered, and an error means that some call has failed.
-/

namespace ContactsIndex

variable {σ : Type}

theorem Program.bind_assoc {α β γ : Type} (p : Program α) (f : α → Program β) (g : β → Program γ) :
    p >>= f >>= g = p >>= fun a => f a >>= g := by
  change (p.bind f).bind g = p.bind fun a => (f a).bind g
  induction p with
  | done a => rfl
  | now next ih => exact congrArg now (funext ih)
  | cancelled next ih => exact congrArg cancelled (funext ih)
  | note event next ih => exact congrArg (note event) ih
  | answer job result next ih => exact congrArg (answer job result) ih
  | call c next ih => exact congrArg (call c) (funext ih)
  | both c d next later ih ih' =>
    simp only [Program.bind]
    rw [funext ih, funext ih']

theorem Candidate.deletedIds_update : ∀ unwanted wanted : List String,
    deletedIds (unwanted.map .deleted ++ wanted.map .updated) = unwanted
  | [], [] => rfl
  | [], _ :: wanted => deletedIds_update [] wanted
  | id :: unwanted, wanted => congrArg (id :: ·) (deletedIds_update unwanted wanted)

/-! ## One candidate after the other -/

namespace Corpus

/-- What is done with one candidate; it gives the ids of the chunk that is not yet read. -/
def takeUp (policy : Policy) (deleted : List String) (candidate : Candidate) (chunk : List String) (work : Work) :
    Program (Progress (List String)) :=
  match candidate with
  | .deleted id => do
    let work := { work with stats := { work.stats with toDelete := work.stats.toDelete + 1 } }
    match ← Batcher.addDelete policy id work with
    | (.error e, work) => return (.error e, work)
    | (.ok _, work) => return (.ok chunk, work)
  | .updated id => do
    let work := { work with stats := { work.stats with toUpdate := work.stats.toUpdate + 1 } }
    if (chunk ++ [id]).length < chunkSize policy then return (.ok (chunk ++ [id]), work)
    else
      match ← indexChunk policy deleted (chunk ++ [id]) work with
      | (.error e, work) => return (.error e, work)
      | (.ok _, work) => return (.ok [], work)

theorem applyFrom_cons (policy : Policy) (deleted : List String) (candidate : Candidate) (rest : List Candidate)
    (chunk : List String) (work : Work) :
    applyFrom policy deleted (candidate :: rest) chunk work = (do
      if ← Program.isCancelled then conclude policy .cancelled .cancelled work
      else
        match ← takeUp policy deleted candidate chunk work with
        | (.error e, work) => return (.error e, work)
        | (.ok chunk, work) => applyFrom policy deleted rest chunk work) := by
  cases candidate with
  | deleted id =>
    unfold takeUp
    simp only [applyFrom, Program.bind_assoc]
    congr; funext b; congr; funext p
    rcases p with ⟨_ | _, _⟩ <;> rfl
  | updated id =>
    unfold takeUp
    simp only [applyFrom]
    congr; funext b; congr
    split
    · rfl
    · rw [Program.bind_assoc]
      congr; funext p
      rcases p with ⟨_ | _, _⟩ <;> rfl

def takeAll (policy : Policy) (deleted : List String) : List Candidate → List String → Work →
    Program (Progress (List String))
  | [], chunk, work => return (.ok chunk, work)
  | candidate :: rest, chunk, work => do
    match ← takeUp policy deleted candidate chunk work with
    | (.error e, work) => return (.error e, work)
    | (.ok chunk, work) => takeAll policy deleted rest chunk work

theorem run_applyFrom_append {surroundings : Program.Surroundings σ} (htoken : ∀ s, surroundings.token s = false)
    (policy : Policy) (deleted : List String) (coming : List Candidate) :
    ∀ (candidates : List Candidate) (chunk : List String) (work : Work) (s : σ),
    (applyFrom policy deleted (candidates ++ coming) chunk work).run surroundings s =
      (do match ← takeAll policy deleted candidates chunk work with
          | (.error e, work) => return (.error e, work)
          | (.ok chunk, work) => applyFrom policy deleted coming chunk work :
        Program (Progress Completion)).run surroundings s
  | [], chunk, work, s => rfl
  | candidate :: rest, chunk, work, s => by
    have hgo : Program.isCancelled.run surroundings s = (false, s) := by
      rw [← htoken s]; rfl
    rw [List.cons_append, applyFrom_cons, Program.run_bind, hgo]
    simp only [Bool.false_eq_true, ↓reduceIte, takeAll, Program.run_bind]
    rcases (takeUp policy deleted candidate chunk work).run surroundings s with ⟨⟨_ | chunk, work⟩, t⟩
    · rfl
    · have ih := run_applyFrom_append htoken policy deleted coming rest chunk work t
      rw [Program.run_bind] at ih
      exact ih

end Corpus

/-! ## The desk of a cycle -/

def Work.Idle (work : Work) : Prop :=
  work.batcher.updates.items = [] ∧ work.batcher.deletes.items = []

structure Desk where
  coming : List Candidate
  chunk : List String
  removals : List String
  writes : List Document
  /-- Whether some call has failed so far. -/
  failed : Prop

/-- What every move of a cycle keeps. A cycle that is not to go on after failures makes no
move after one, but to send the documents of a flush. -/
structure Desk.Invariant (env : Environment σ) (policy : Policy) (deleted : List String) (inv : Desk → σ → Prop) :
    Prop where
  drift : ∀ {desk s t}, inv desk s → env.drift s t → inv desk t
  deletion : ∀ {id coming chunk removals writes failed s},
    inv ⟨.deleted id :: coming, chunk, removals, writes, failed⟩ s →
    inv ⟨coming, chunk, removals ++ [id], writes, failed⟩ s
  update : ∀ {id coming chunk removals writes failed s},
    inv ⟨.updated id :: coming, chunk, removals, writes, failed⟩ s →
    inv ⟨coming, chunk ++ [id], removals, writes, failed⟩ s
  removed : ∀ {coming chunk ids writes failed s reply t}, inv ⟨coming, chunk, ids, writes, failed⟩ s →
    (failed → policy.keepGoing = true) → env.answers (.remove ids) s reply t →
    inv ⟨coming, chunk, [], writes, failed ∨ (Call.remove ids).Failed reply⟩ t
  written : ∀ {coming chunk docs writes failed s reply t}, docs ≠ [] →
    inv ⟨coming, chunk, [], docs ++ writes, failed⟩ s → env.answers (.put docs) s reply t →
    inv ⟨coming, chunk, [], writes, failed ∨ (Call.put docs).Failed reply⟩ t
  unread : ∀ {coming chunk removals writes failed s reply t}, chunk ≠ [] →
    inv ⟨coming, chunk, removals, writes, failed⟩ s →
    (failed → policy.keepGoing = true) → env.answers (.contacts chunk) s reply t →
    (Call.contacts chunk).Failed reply → inv ⟨coming, [], removals, writes, True⟩ t
  vanished : ∀ {coming chunk removals writes failed s t}, chunk ≠ [] →
    inv ⟨coming, chunk, removals, writes, failed⟩ s →
    (failed → policy.keepGoing = true) → env.answers (.contacts chunk) s (.ok (some [])) t →
    inv ⟨coming, [], removals, writes, failed⟩ t
  compared : ∀ {coming chunk removals writes failed s found t t' stored u now}, chunk ≠ [] →
    inv ⟨coming, chunk, removals, writes, failed⟩ s → (failed → policy.keepGoing = true) →
    env.answers (.contacts chunk) s (.ok (some found)) t → env.drift t t' →
    env.answers (.entries (found.map (·.id))) t' (.ok stored) u → env.clock now →
    inv ⟨coming, [], removals, writes ++ (Corpus.compare deleted now found stored).filterMap Diffed.indexable, failed⟩ u
  uncompared : ∀ {coming chunk removals writes failed s found t t' e u}, chunk ≠ [] →
    inv ⟨coming, chunk, removals, writes, failed⟩ s → (failed → policy.keepGoing = true) →
    env.answers (.contacts chunk) s (.ok (some found)) t → env.drift t t' →
    env.answers (.entries (found.map (·.id))) t' (.error e) u →
    inv ⟨coming, [], removals, writes, True⟩ u

namespace Desk

/-- The invariant holds of the desk that has `work`, and documents that are still `later`.
The statistics were `start` before the cycle. -/
def Keeps (policy : Policy) (start : Stats) (inv : Desk → σ → Prop) (coming : List Candidate) (chunk : List String)
    (later : List Document) (work : Work) (s : σ) : Prop :=
  ∃ failed, inv ⟨coming, chunk, work.batcher.deletes.items, work.batcher.updates.items ++ later, failed⟩ s ∧
    (failed → policy.keepGoing = true) ∧ (¬ failed → start.Unfailed → work.stats.Unfailed)

def Lost (inv : Desk → σ → Prop) (s : σ) : Prop :=
  ∃ desk, inv desk s ∧ desk.failed

def Went {α : Type} (inv : Desk → σ → Prop) (ok : α → Work → σ → Prop) : Progress α → σ → Prop
  | (.ok a, work), t => ok a work t
  | (.error _, _), t => Lost inv t

theorem Went.mono {α : Type} {inv : Desk → σ → Prop} {ok ok' : α → Work → σ → Prop} {p : Progress α} {t : σ}
    (hp : Went inv ok p t) (hok : ∀ a work, ok a work t → ok' a work t) : Went inv ok' p t := by
  rcases p with ⟨_ | a, work⟩
  · exact hp
  · exact hok a work hp

def Ended (env : Environment σ) (policy : Policy) (start : Stats) (inv : Desk → σ → Prop) :
    Except UpdateError Completion → Stats → σ → Prop
  | .ok .completed, stats, t => ∃ failed, inv ⟨[], [], [], [], failed⟩ t ∧
    (failed → policy.keepGoing = true) ∧ (¬ failed → start.Unfailed → stats.Unfailed)
  | .ok .cancelled, _, t => env.token true ∧ ∃ coming chunk failed, inv ⟨coming, chunk, [], [], failed⟩ t
  | .error _, _, t => Lost inv t

namespace Invariant

variable {env : Environment σ} {policy : Policy} {deleted : List String} {inv : Desk → σ → Prop}
  {coming : List Candidate} {chunk : List String} {later : List Document} {start : Stats} {work : Work} {failed : Prop}
  {s t : σ}

variable (h : Invariant env policy deleted inv)

include h

theorem lost_drift (hl : Lost inv s) (hd : env.drift s t) : Lost inv t := by
  obtain ⟨desk, hi, hf⟩ := hl
  exact ⟨desk, h.drift hi hd, hf⟩

theorem always_error {α : Type} {ok : α → Work → σ → Prop} {e : UpdateError} (hl : Lost inv s) :
    (pure (.error e, work) : Program (Progress α)).Always env (Went inv ok) s :=
  Program.always_pure.mpr fun _ hd => h.lost_drift hl hd

theorem ended_drift {result : Except UpdateError Completion} {stats : Stats}
    (he : Ended env policy start inv result stats s) (hd : env.drift s t) :
    Ended env policy start inv result stats t := by
  rcases result with e | _ | _
  · exact h.lost_drift he hd
  · obtain ⟨failed, hi, hrest⟩ := he
    exact ⟨failed, h.drift hi hd, hrest⟩
  · obtain ⟨htoken, coming, chunk, failed, hi⟩ := he
    exact ⟨htoken, coming, chunk, failed, h.drift hi hd⟩

/-! ### Sending -/

theorem sendDeletes {ids : List String} {writes : List Document}
    (hi : inv ⟨coming, chunk, ids, writes, failed⟩ s) (hgo : failed → policy.keepGoing = true) :
    (Batcher.sendDeletes ids).Always env (fun outcome t => ∃ failed', inv ⟨coming, chunk, [], writes, failed'⟩ t ∧
      (failed' ↔ failed ∨ outcome.cleared = false)) s := by
  unfold Batcher.sendDeletes
  split
  · next hnil =>
    subst hnil
    exact Program.always_pure.mpr fun t hd => ⟨failed, h.drift hi hd, by simp [Outcome.cleared]⟩
  · next hne =>
    apply Program.always_ask.mpr
    intro t hd reply u ha
    have hremoved := h.removed (h.drift hi hd) hgo ha
    cases reply with
    | ok outcome =>
      refine Program.always_pure.mpr fun v hd' => ⟨_, h.drift hremoved hd', or_congr_right ?_⟩
      exact ⟨fun hf => hf outcome rfl, fun hc other ho => by cases ho; exact hc⟩
    | error e =>
      refine Program.always_pure.mpr fun v hd' => ⟨_, h.drift hremoved hd', or_congr_right ?_⟩
      exact ⟨fun _ => Outcome.not_cleared_ofError hne e, fun _ other ho => by cases ho⟩

theorem sendUpdates {docs : List Document} (hi : inv ⟨coming, chunk, [], docs ++ later, failed⟩ s) :
    (Batcher.sendUpdates docs).Always env (fun outcome t => ∃ failed', inv ⟨coming, chunk, [], later, failed'⟩ t ∧
      (failed' ↔ failed ∨ outcome.success = false)) s := by
  unfold Batcher.sendUpdates
  split
  · next hnil =>
    subst hnil
    exact Program.always_pure.mpr fun t hd => ⟨failed, h.drift hi hd, by simp [Outcome.success]⟩
  · next hne =>
    apply Program.always_ask.mpr
    intro t hd reply u ha
    have hwritten := h.written hne (h.drift hi hd) ha
    cases reply with
    | ok outcome =>
      refine Program.always_pure.mpr fun v hd' => ⟨_, h.drift hwritten hd', or_congr_right ?_⟩
      exact ⟨fun hf => hf outcome rfl, fun hc other ho => by cases ho; exact hc⟩
    | error e =>
      have hmap : docs.map (·.id) ≠ [] := by simpa using hne
      refine Program.always_pure.mpr fun v hd' => ⟨_, h.drift hwritten hd', or_congr_right ?_⟩
      exact ⟨fun _ => Outcome.not_success_ofError hmap e, fun _ other ho => by cases ho⟩

theorem flush {reason : FlushReason} (hk : Keeps policy start inv coming chunk later work s) :
    (Batcher.flush policy reason work).Always env
      (Went inv fun _ after t => after.Idle ∧ Keeps policy start inv coming chunk later after t) s := by
  obtain ⟨failed, hi, hgo, hclean⟩ := hk
  unfold Batcher.flush
  dsimp only
  split
  · next hnil => exact Program.always_pure.mpr fun t hd => ⟨hnil, failed, h.drift hi hd, hgo, hclean⟩
  · apply (h.sendDeletes hi hgo).bind
    intro removed t₁ h₁
    obtain ⟨failed₁, hi₁, hf₁⟩ := h₁
    apply (h.sendUpdates hi₁).bind
    intro written t₂ h₂
    obtain ⟨failed₂, hi₂, hf₂⟩ := h₂
    refine Program.always_record.mpr ?_
    have hzero := Stats.failed_flush work.stats work.batcher.newIds written removed
    have hclear : ¬ failed₂ → ¬ failed ∧ removed.cleared = true ∧ written.success = true := by
      simp only [hf₂, hf₁, not_or, Bool.not_eq_false]
      exact fun hn => ⟨hn.1.1, hn.1.2, hn.2⟩
    split
    · next hstop =>
      have hbad : failed₂ := Classical.byContradiction fun hn =>
        absurd (hzero.mpr ⟨(hclear hn).2.2, (hclear hn).2.1⟩) (Nat.ne_of_gt hstop.1)
      exact Program.always_pure.mpr fun t hd => ⟨_, h.drift hi₂ hd, hbad⟩
    · next hstay =>
      refine Program.always_pure.mpr fun t hd => ⟨⟨rfl, rfl⟩, failed₂, h.drift hi₂ hd, fun hbad => ?_, fun hn hs => ?_⟩
      · cases hk : policy.keepGoing with
        | true => rfl
        | false =>
          have hnone := Nat.eq_zero_of_not_pos fun hpos => hstay ⟨hpos, hk⟩
          obtain ⟨hw, hr⟩ := hzero.mp hnone
          have hold : failed := by simpa [hf₂, hf₁, hw, hr] using hbad
          exact hk ▸ hgo hold
      · obtain ⟨hn, hr, hw⟩ := hclear hn
        exact ((hclean hn hs).recordPuts hw).recordRemoves hr

/-! ### Gathering -/

theorem keeps_drift (hk : Keeps policy start inv coming chunk later work s) (hd : env.drift s t) :
    Keeps policy start inv coming chunk later work t := by
  obtain ⟨failed, hi, hrest⟩ := hk
  exact ⟨failed, h.drift hi hd, hrest⟩

theorem addUpdate {diffed : Diffed}
    (hk : Keeps policy start inv coming chunk (diffed.indexable.toList ++ later) work s) :
    (Batcher.addUpdate policy diffed work).Always env
      (Went inv fun _ after t => Keeps policy start inv coming chunk later after t) s := by
  obtain ⟨failed, hi, hgo, hclean⟩ := hk
  unfold Batcher.addUpdate
  cases hx : diffed.indexable with
  | none =>
    rw [hx] at hi
    refine Program.always_pure.mpr fun t hd => ⟨failed, h.drift hi hd, hgo, fun hn hs => ?_⟩
    exact (hclean hn hs).of_eq rfl rfl rfl
  | some doc =>
    rw [hx] at hi
    dsimp only
    have hk : ∀ newIds, Keeps policy start inv coming chunk later
        ⟨{ work.batcher with updates := work.batcher.updates.push doc, newIds := newIds }, work.stats⟩ s :=
      fun _ => ⟨failed, by simpa [Batch.push] using hi, hgo, hclean⟩
    split
    · exact (h.flush (hk _)).mono fun p t hp => hp.mono fun _ _ ha => ha.2
    · exact Program.always_pure.mpr fun t hd => h.keeps_drift (hk _) hd

theorem addUpdates : ∀ {diffs : List Diffed} {work : Work} {s : σ},
    Keeps policy start inv coming chunk (diffs.filterMap Diffed.indexable) work s →
      (Corpus.addUpdates policy diffs work).Always env
        (Went inv fun _ after t => Keeps policy start inv coming chunk [] after t) s
  | [], _, _, hk => Program.always_pure.mpr fun _ hd => h.keeps_drift hk hd
  | diffed :: rest, work, s, hk => by
    have hone : Keeps policy start inv coming chunk
        (diffed.indexable.toList ++ rest.filterMap Diffed.indexable) work s := by
      cases hx : diffed.indexable <;> simpa [List.filterMap_cons, hx] using hk
    apply (h.addUpdate hone).bind
    intro p t hp
    rcases p with ⟨e | a, after⟩
    · exact h.always_error hp
    · exact addUpdates hp

theorem addDelete {id : String} (work : Work)
    (hk : Keeps policy start inv coming chunk []
      { work with batcher := { work.batcher with deletes := work.batcher.deletes.push id } } s) :
    (Batcher.addDelete policy id work).Always env
      (Went inv fun _ after t => Keeps policy start inv coming chunk [] after t) s := by
  unfold Batcher.addDelete
  dsimp only
  split
  · exact (h.flush hk).mono fun p t hp => hp.mono fun _ _ ha => ha.2
  · exact Program.always_pure.mpr fun t hd => h.keeps_drift hk hd

theorem indexChunk (hne : chunk ≠ []) (hk : Keeps policy start inv coming chunk [] work s) :
    (Corpus.indexChunk policy deleted chunk work).Always env
      (Went inv fun _ after t => Keeps policy start inv coming [] [] after t) s := by
  obtain ⟨failed, hi, hgo, hclean⟩ := hk
  rw [List.append_nil] at hi
  unfold Corpus.indexChunk Source.readContacts
  simp only [hne, ↓reduceIte]
  rw [Program.always_bind, Program.always_ask]
  intro t₁ hd₁ reply t₂ ha
  have hi := h.drift hi hd₁
  rcases reply with e | _ | found
  · have hunread := h.unread hne hi hgo ha fun _ hr => nomatch hr
    exact Program.always_pure.mpr fun t₃ hd₂ => h.always_error ⟨_, h.drift hunread hd₂, trivial⟩
  · have hunread := h.unread hne hi hgo ha fun _ hr => nomatch hr
    refine Program.always_record.mpr (Program.always_pure.mpr fun t₃ hd₂ => ?_)
    exact h.always_error ⟨_, h.drift hunread hd₂, trivial⟩
  · refine Program.always_pure.mpr ?_
    intro t₃ hd₂
    dsimp only
    split
    · next hnil =>
      subst hnil
      -- nothing of the chunk is there any more, and the cycle goes on without a lookup
      have hvanished := h.vanished hne hi hgo ha
      refine Program.always_pure.mpr fun t₄ hd₃ =>
        ⟨failed, by simpa using h.drift (h.drift hvanished hd₂) hd₃, hgo, fun hn hs => ?_⟩
      exact (hclean hn hs).of_eq rfl rfl rfl
    · apply Program.always_ask.mpr
      intro t₄ hd₃ reply t₅ ha'
      have hd := env.drift_trans hd₂ hd₃
      cases reply with
      | error e =>
        have huncompared := h.uncompared hne hi hgo ha hd ha'
        dsimp only
        split
        · next hkeep =>
          refine Program.always_pure.mpr fun t₆ hd₄ => ⟨True, ?_, fun _ => hkeep, fun hn => absurd trivial hn⟩
          simpa [Corpus.recordFailures] using h.drift huncompared hd₄
        · exact h.always_error ⟨_, huncompared, trivial⟩
      | ok stored =>
        refine Program.always_readClock.mpr fun now hnow => h.addUpdates ⟨failed, ?_, hgo, fun hn hs => ?_⟩
        · exact h.compared hne hi hgo ha hd ha' hnow
        · exact (hclean hn hs).of_eq rfl rfl rfl

/-! ### One candidate after the other -/

theorem takeUp_deleted {id : String}
    (hk : Keeps policy start inv coming chunk []
      { work with batcher := { work.batcher with deletes := work.batcher.deletes.push id } } s) :
    (Corpus.takeUp policy deleted (.deleted id) chunk work).Always env
      (Went inv fun chunk after t => Keeps policy start inv coming chunk [] after t) s := by
  obtain ⟨failed, hi, hgo, hclean⟩ := hk
  have hk : Keeps policy start inv coming chunk []
      { batcher := { work.batcher with deletes := work.batcher.deletes.push id }
        stats := { work.stats with toDelete := work.stats.toDelete + 1 } } s :=
    ⟨failed, hi, hgo, fun hn hs => (hclean hn hs).of_eq rfl rfl rfl⟩
  unfold Corpus.takeUp
  apply (h.addDelete { work with stats := { work.stats with toDelete := work.stats.toDelete + 1 } } hk).bind
  intro p t hp
  rcases p with ⟨e | a, after⟩
  · exact h.always_error hp
  · exact Program.always_pure.mpr fun t' hd => h.keeps_drift hp hd

theorem takeUp {candidate : Candidate} (hk : Keeps policy start inv (candidate :: coming) chunk [] work s) :
    (Corpus.takeUp policy deleted candidate chunk work).Always env
      (Went inv fun chunk after t => Keeps policy start inv coming chunk [] after t) s := by
  obtain ⟨failed, hi, hgo, hclean⟩ := hk
  cases candidate with
  | deleted id => exact h.takeUp_deleted ⟨failed, h.deletion hi, hgo, hclean⟩
  | updated id =>
    have hk : Keeps policy start inv coming (chunk ++ [id]) []
        { work with stats := { work.stats with toUpdate := work.stats.toUpdate + 1 } } s :=
      ⟨failed, h.update hi, hgo, fun hn hs => (hclean hn hs).of_eq rfl rfl rfl⟩
    unfold Corpus.takeUp
    dsimp only
    split
    · exact Program.always_pure.mpr fun t hd => h.keeps_drift hk hd
    · apply (h.indexChunk (by simp) hk).bind
      intro p t hp
      rcases p with ⟨e | a, after⟩
      · exact h.always_error hp
      · exact Program.always_pure.mpr fun t' hd => h.keeps_drift hp hd

theorem takeAll : ∀ {candidates : List Candidate} {chunk : List String} {work : Work} {s : σ},
    Keeps policy start inv (candidates ++ coming) chunk [] work s →
      (Corpus.takeAll policy deleted candidates chunk work).Always env
        (Went inv fun chunk after t => Keeps policy start inv coming chunk [] after t) s
  | [], _, _, _, hk => Program.always_pure.mpr fun _ hd => h.keeps_drift hk hd
  | candidate :: rest, chunk, work, s, hk => by
    apply (h.takeUp hk).bind
    intro p t hp
    rcases p with ⟨e | a, after⟩
    · exact h.always_error hp
    · exact takeAll hp

/-! ### A whole cycle -/

theorem conclude_cancelled (hk : Keeps policy start inv coming chunk [] work s) (htoken : env.token true) :
    (Corpus.conclude policy .cancelled .cancelled work).Always env
      (fun p t => Ended env policy start inv p.1 p.2.stats t) s := by
  apply (h.flush hk).bind
  intro p t hp
  rcases p with ⟨e | a, after⟩
  · exact Program.always_pure.mpr fun t' hd => h.lost_drift hp hd
  · obtain ⟨⟨hu, hd⟩, failed, hi, -, -⟩ := hp
    rw [hu, hd] at hi
    exact Program.always_pure.mpr fun t' hd => ⟨htoken, _, _, _, h.drift hi hd⟩

theorem conclude_completed (hk : Keeps policy start inv [] [] [] work s) :
    (Corpus.conclude policy .endOfCycle .completed work).Always env
      (fun p t => Ended env policy start inv p.1 p.2.stats t) s := by
  apply (h.flush hk).bind
  intro p t hp
  rcases p with ⟨e | a, after⟩
  · exact Program.always_pure.mpr fun t' hd => h.lost_drift hp hd
  · obtain ⟨⟨hu, hd⟩, failed, hi, hrest⟩ := hp
    rw [hu, hd] at hi
    exact Program.always_pure.mpr fun t' hd => ⟨failed, h.drift hi hd, hrest⟩

theorem applyFrom : ∀ {candidates : List Candidate} {chunk : List String} {work : Work} {s : σ},
    Keeps policy start inv candidates chunk [] work s →
      (Corpus.applyFrom policy deleted candidates chunk work).Always env
        (fun p t => Ended env policy start inv p.1 p.2.stats t) s
  | [], chunk, work, s, hk => by
    apply Program.always_isCancelled.mpr
    intro b hb
    cases b with
    | true => exact h.conclude_cancelled hk hb
    | false =>
      simp only [Bool.false_eq_true, ↓reduceIte]
      split
      · next hnil =>
        subst hnil
        exact h.conclude_completed hk
      · next hne =>
        apply (h.indexChunk hne hk).bind
        intro p t hp
        rcases p with ⟨e | a, after⟩
        · exact Program.always_pure.mpr fun t' hd => h.lost_drift hp hd
        · exact h.conclude_completed hp
  | candidate :: rest, chunk, work, s, hk => by
    rw [Corpus.applyFrom_cons]
    apply Program.always_isCancelled.mpr
    intro b hb
    cases b with
    | true => exact h.conclude_cancelled hk hb
    | false =>
      simp only [Bool.false_eq_true, ↓reduceIte]
      apply (h.takeUp hk).bind
      intro p t hp
      rcases p with ⟨e | a, after⟩
      · exact Program.always_pure.mpr fun t' hd => h.lost_drift hp hd
      · exact applyFrom hp

theorem apply {candidates : List Candidate} (hdeleted : Candidate.deletedIds candidates = deleted)
    (hi : inv ⟨candidates, [], [], [], False⟩ s) :
    (Corpus.apply policy candidates start).Always env (fun p t => Ended env policy start inv p.1 p.2 t) s := by
  unfold Corpus.apply
  rw [hdeleted]
  apply (h.applyFrom ⟨False, hi, False.elim, fun _ hs => hs⟩).bind
  intro p t hp
  exact Program.always_pure.mpr fun t' hd => h.ended_drift hp hd

end Invariant

/-! ## Deletions before changes -/

/-- The candidates to come, the deletions first; nothing is read before the last of them. -/
structure Left (desk : Desk) (unwanted wanted : List String) : Prop where
  coming : desk.coming = unwanted.map .deleted ++ wanted.map .updated
  ordered : desk.chunk ≠ [] ∨ desk.writes ≠ [] → unwanted = []

variable {id : String} {unwanted wanted chunk chunk' removals removals' : List String} {coming : List Candidate}
  {writes writes' : List Document} {failed failed' : Prop}

theorem Left.start (unwanted wanted : List String) :
    Left ⟨unwanted.map .deleted ++ wanted.map .updated, [], [], [], failed⟩ unwanted wanted :=
  ⟨rfl, by simp⟩

theorem Left.mono (h : Left ⟨coming, chunk, removals, writes, failed⟩ unwanted wanted)
    (hm : chunk' ≠ [] ∨ writes' ≠ [] → chunk ≠ [] ∨ writes ≠ []) :
    Left ⟨coming, chunk', removals', writes', failed'⟩ unwanted wanted :=
  ⟨h.coming, fun hne => h.ordered (hm hne)⟩

theorem Left.deletion (h : Left ⟨.deleted id :: coming, chunk, removals, writes, failed⟩ unwanted wanted) :
    ∃ rest, unwanted = id :: rest ∧ Left ⟨coming, chunk, removals ++ [id], writes, failed⟩ rest wanted := by
  have hcoming := h.coming
  cases unwanted with
  | nil =>
    cases wanted with
    | nil => cases hcoming
    | cons other wanted => cases hcoming
  | cons other rest =>
    simp only [List.map_cons, List.cons_append, List.cons.injEq, Candidate.deleted.injEq] at hcoming
    exact ⟨rest, by rw [hcoming.1], hcoming.2, fun hne => nomatch h.ordered hne⟩

theorem Left.update (h : Left ⟨.updated id :: coming, chunk, removals, writes, failed⟩ unwanted wanted) :
    unwanted = [] ∧ ∃ rest, wanted = id :: rest ∧ Left ⟨coming, chunk ++ [id], removals, writes, failed⟩ [] rest := by
  have hcoming := h.coming
  cases unwanted with
  | cons other rest => cases hcoming
  | nil =>
    cases wanted with
    | nil => cases hcoming
    | cons other rest =>
      simp only [List.map_nil, List.nil_append, List.map_cons, List.cons.injEq, Candidate.updated.injEq] at hcoming
      exact ⟨rfl, rest, by rw [hcoming.1], hcoming.2, fun _ => rfl⟩

end Desk

end ContactsIndex
