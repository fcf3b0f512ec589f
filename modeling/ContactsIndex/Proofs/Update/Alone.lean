import ContactsIndex.Proofs.Program.Straight
import ContactsIndex.Proofs.Store.Room
import ContactsIndex.Proofs.Update.Comparing
import ContactsIndex.Proofs.Update.Desk

/-!
# A cycle that is alone

A cycle is alone when nobody cancels it, its provider does not change, and the store is
its own and serves every call. What it does then depends only on the store: `Kept` asks for
an invariant of desks and stores that survives the moves of the cycle, and `apply` says
that a cycle whose invariant rules out failures completes with it.
-/

namespace ContactsIndex

variable {σ : Type}

/-- In the states that are `fine` the provider has the contacts of `read`. -/
structure Alone (env : Environment σ) (store : σ → DocumentStore) (read : String → Option Contact) (fine : σ → Prop) :
    Prop where
  uncancelled : ¬ env.token true
  drift : ∀ {s t}, env.drift s t → t = s
  contacts : ∀ {ids s reply t}, env.answers (.contacts ids) s reply t → fine s → store t = store s ∧
    ∃ found, reply = .ok (some found) ∧ ∀ c, c ∈ found ↔ ∃ id ∈ ids, read id = some c
  entries : ∀ {ids s reply t}, env.answers (.entries ids) s reply t →
    store t = store s ∧ reply = .ok ((store s).entries ids)
  put : ∀ {docs s reply t}, env.answers (.put docs) s reply t →
    store t = ((store s).put docs).2 ∧ reply = .ok ((store s).put docs).1
  remove : ∀ {ids s reply t}, env.answers (.remove ids) s reply t →
    store t = ((store s).remove ids).2 ∧ reply = .ok ((store s).remove ids).1

namespace Alone

/-- What the moves of a cycle keep that is alone. -/
structure Kept (env : Environment σ) (read : String → Option Contact) (deleted : List String)
    (inv : Desk → DocumentStore → Prop) : Prop where
  deletion : ∀ {id coming chunk removals writes failed store},
    inv ⟨.deleted id :: coming, chunk, removals, writes, failed⟩ store →
    inv ⟨coming, chunk, removals ++ [id], writes, failed⟩ store
  update : ∀ {id coming chunk removals writes failed store},
    inv ⟨.updated id :: coming, chunk, removals, writes, failed⟩ store →
    inv ⟨coming, chunk ++ [id], removals, writes, failed⟩ store
  removed : ∀ {coming chunk ids writes failed store}, inv ⟨coming, chunk, ids, writes, failed⟩ store →
    inv ⟨coming, chunk, [], writes, failed⟩ (store.remove ids).2
  written : ∀ {coming chunk docs writes failed store}, docs ≠ [] →
    inv ⟨coming, chunk, [], docs ++ writes, failed⟩ store →
    inv ⟨coming, chunk, [], writes, failed ∨ (store.put docs).1.success = false⟩ (store.put docs).2
  compared : ∀ {coming chunk removals writes failed store found now}, chunk ≠ [] →
    inv ⟨coming, chunk, removals, writes, failed⟩ store →
    (∀ c, c ∈ found ↔ ∃ id ∈ chunk, read id = some c) → (found ≠ [] → env.clock now) →
    inv ⟨coming, [], removals, writes ++ Corpus.drafts deleted now found store, failed⟩ store

variable {env : Environment σ} {store : σ → DocumentStore} {read : String → Option Contact} {deleted : List String}
  {inv inv' : Desk → DocumentStore → Prop} {policy : Policy} {start : Stats} {s : σ}

theorem Kept.and (h : Kept env read deleted inv) (h' : Kept env read deleted inv') :
    Kept env read deleted fun desk store => inv desk store ∧ inv' desk store where
  deletion hi := ⟨h.deletion hi.1, h'.deletion hi.2⟩
  update hi := ⟨h.update hi.1, h'.update hi.2⟩
  removed hi := ⟨h.removed hi.1, h'.removed hi.2⟩
  written hne hi := ⟨h.written hne hi.1, h'.written hne hi.2⟩
  compared hne hi hf hn := ⟨h.compared hne hi.1 hf hn, h'.compared hne hi.2 hf hn⟩

theorem kept_unbounded (env : Environment σ) (read : String → Option Contact) (deleted : List String) :
    Kept env read deleted fun desk store => store.capacity = none ∧ ¬ desk.failed where
  deletion hi := hi
  update hi := hi
  removed hi := ⟨by simpa using hi.1, hi.2⟩
  written _ hi := by simpa [DocumentStore.success_put_unbounded _ hi.1] using hi
  compared _ hi _ _ := hi

variable {fine : σ → Prop} (A : Alone env store read fine) (h : Kept env read deleted inv)
  (hfine : ∀ {c s r t desk}, env.answers c s r t → inv desk (store s) → fine s → fine t)

include A h hfine

theorem invariant : Desk.Invariant env policy deleted fun desk s => inv desk (store s) ∧ fine s where
  drift hi hd := A.drift hd ▸ hi
  deletion hi := ⟨h.deletion hi.1, hi.2⟩
  update hi := ⟨h.update hi.1, hi.2⟩
  removed {coming chunk ids writes failed s reply t} hi _ ha := by
    obtain ⟨hstore, rfl⟩ := A.remove ha
    -- a removal that is served never counts as a failure, whatever was there
    have hf : (failed ∨ (Call.remove ids).Failed (.ok ((store s).remove ids).1)) = failed := by
      refine propext (or_iff_left fun hf => ?_)
      simpa [DocumentStore.cleared_remove] using hf _ rfl
    rw [hf, hstore]
    exact ⟨h.removed hi.1, hfine ha hi.1 hi.2⟩
  written {coming chunk docs writes failed s reply t} hne hi ha := by
    obtain ⟨hstore, rfl⟩ := A.put ha
    have hf : (failed ∨ (Call.put docs).Failed (.ok ((store s).put docs).1)) =
        (failed ∨ ((store s).put docs).1.success = false) := by
      simp [Call.Failed]
    rw [hf, hstore]
    exact ⟨h.written hne hi.1, hfine ha hi.1 hi.2⟩
  unread _ hi _ ha hf := by
    obtain ⟨-, found, rfl, -⟩ := A.contacts ha hi.2
    exact absurd rfl (hf found)
  vanished {coming chunk removals writes failed s t} hne hi _ ha := by
    obtain ⟨hstore, found, hreply, hfound⟩ := A.contacts ha hi.2
    cases hreply
    have hi' : inv ⟨coming, [], removals, writes ++ Corpus.drafts deleted 0 [] (store s), failed⟩ (store s) :=
      h.compared hne hi.1 hfound (absurd rfl)
    rw [hstore]
    exact ⟨by simpa [Corpus.drafts, Corpus.compare] using hi', hfine ha hi.1 hi.2⟩
  compared {coming chunk removals writes failed s found t t' stored u now} hne hi _ ha hd ha' hnow := by
    obtain ⟨hstore, found, hreply, hfound⟩ := A.contacts ha hi.2
    cases hreply
    obtain rfl := A.drift hd
    obtain ⟨hstore', hstored⟩ := A.entries ha'
    cases hstored
    rw [hstore', hstore]
    have hmid : inv ⟨coming, chunk, removals, writes, failed⟩ (store t') := by rw [hstore]; exact hi.1
    exact ⟨h.compared hne hi.1 hfound fun _ => hnow, hfine ha' hmid (hfine ha hi.1 hi.2)⟩
  uncompared _ hi _ _ _ ha := by
    obtain ⟨-, hreply⟩ := A.entries ha
    cases hreply

omit A h hfine in
theorem ended (A : Alone env store read fine) (hnone : ∀ desk st, inv desk st → ¬ desk.failed)
    {result : Except UpdateError Completion} {stats : Stats}
    (he : Desk.Ended env policy start (fun desk s => inv desk (store s) ∧ fine s) result stats s) :
    result = .ok .completed ∧ inv ⟨[], [], [], [], False⟩ (store s) ∧ fine s ∧ (start.Unfailed → stats.Unfailed) := by
  rcases result with e | _ | _
  · obtain ⟨desk, hi, hf⟩ := he
    exact absurd hf (hnone _ _ hi.1)
  · obtain ⟨failed, hi, -, hclean⟩ := he
    have hfailed : failed = False := eq_false (hnone _ _ hi.1)
    subst hfailed
    exact ⟨rfl, hi.1, hi.2, hclean id⟩
  · exact absurd he.1 A.uncancelled

theorem apply (policy : Policy) (start : Stats) {s : σ} (hnone : ∀ desk st, inv desk st → ¬ desk.failed)
    {candidates : List Candidate} (hdeleted : Candidate.deletedIds candidates = deleted)
    (hi : inv ⟨candidates, [], [], [], False⟩ (store s)) (hs : fine s) :
    (Corpus.apply policy candidates start).Always env (fun p t => p.1 = .ok .completed ∧
      inv ⟨[], [], [], [], False⟩ (store t) ∧ fine t ∧ (start.Unfailed → p.2.Unfailed)) s := by
  apply ((A.invariant h hfine).apply hdeleted ⟨hi, hs⟩).mono
  intro p t he
  exact A.ended hnone he

end Alone

/-! ## A provider that does not change -/

/-- Every request is answered with the contacts of its ids that can be read. -/
structure Provider where
  read : String → Option Contact
  fetch : List String → List Contact
  id_eq : ∀ {id c}, read id = some c → c.id = id
  mem_fetch : ∀ {ids c}, c ∈ fetch ids ↔ ∃ id ∈ ids, read id = some c

namespace Provider

def surroundings (provider : Provider) (clock : Collaborators → Int) : Program.Surroundings Collaborators where
  clock := clock
  token := fun _ => false
  note := fun _ w => w
  answer := fun _ _ w => w
  reply
    | .contacts ids, w => (.ok (some (provider.fetch ids)), w)
    | c, w => w.serve c

variable (provider : Provider) (clock : Collaborators → Int)

theorem plain : (provider.surroundings clock).Plain :=
  ⟨fun _ _ => rfl, fun _ _ _ => rfl⟩

theorem alone : Alone (provider.surroundings clock).environment Collaborators.store provider.read fun _ => True where
  uncancelled h := by
    obtain ⟨w, hw⟩ := h
    cases hw
  drift h := h
  contacts h _ := by
    cases h
    exact ⟨rfl, _, rfl, fun c => provider.mem_fetch⟩
  entries h := by
    cases h
    exact ⟨rfl, rfl⟩
  put h := by
    cases h
    exact ⟨rfl, rfl⟩
  remove h := by
    cases h
    exact ⟨rfl, rfl⟩

def only (c : Contact) : Provider where
  read id := if id = c.id then some c else none
  fetch ids := ids.filterMap fun id => if id = c.id then some c else none
  id_eq {id c'} h := by
    by_cases he : id = c.id
    · rw [if_pos he] at h
      cases h
      exact he.symm
    · simp [he] at h
  mem_fetch := List.mem_filterMap

end Provider

end ContactsIndex
