import ContactsIndex.Proofs.Update.Alone

/-!
# Contacts that are deleted and updated

A cycle that deletes a contact and updates it is to delete it first and to index it again
from scratch. It does index it from scratch, since it compares a contact that it deletes
with nothing. But candidates are taken up in order, and what has been written before the
last deletion of the contact is removed with it. So the contact ends up indexed just when
it is updated after its last deletion, or when its document was not yet written when that
deletion was taken up (`readded_iff`); whether it was depends on the batch sizes.
-/

namespace ContactsIndex

/-- The contact is still to be taken up, to be read or to be written. -/
def Desk.Expects (desk : Desk) (id : String) : Prop :=
  .updated id ∈ desk.coming ∨ id ∈ desk.chunk ∨ ∃ doc ∈ desk.writes, doc.id = id

/-! ## Drafts of a contact that is deleted -/

namespace Corpus

variable {read : String → Option Contact} {deleted chunk : List String} {found : List Contact} {store : DocumentStore}
  {now : Int} {doc : Document} {c : Contact} {id : String}

theorem draft_of_deleted (hid : ∀ {id c}, read id = some c → c.id = id)
    (hfound : ∀ c, c ∈ found ↔ ∃ id ∈ chunk, read id = some c) (hr : read id = some c) (hdel : id ∈ deleted) :
    (∀ doc ∈ drafts deleted now found store, doc.id = id → doc = .ofContact c now) ∧
      (id ∈ chunk → ∃ doc ∈ drafts deleted now found store, doc.id = id) := by
  have hkept : kept deleted store id = none := by rw [kept, if_pos hdel]
  constructor
  · intro doc hd he
    obtain ⟨-, c', -, hr', hx⟩ := found_of_mem_drafts hid hfound hd
    rw [he, hr] at hr'
    cases hr'
    rw [he, hkept] at hx
    cases hx
    rfl
  · intro hchunk
    have hc := (hfound c).mpr ⟨id, hchunk, hr⟩
    obtain rfl := hid hr
    exact ⟨.ofContact c now, mem_drafts.mpr ⟨c, hc, by rw [hkept]; rfl⟩, rfl⟩

end Corpus

/-! ## What becomes of the contact -/

section

variable {σ : Type} {env : Environment σ} {read : String → Option Contact} {deleted : List String} {c : Contact}
  {id : String}

def Fresh (env : Environment σ) (c : Contact) (doc : Document) : Prop :=
  ∃ now, env.clock now ∧ doc = .ofContact c now

def Desk.WritesFresh (env : Environment σ) (c : Contact) (id : String) (desk : Desk) : Prop :=
  ∀ doc ∈ desk.writes, doc.id = id → Fresh env c doc

theorem writesFresh_kept (hid : ∀ {id c}, read id = some c → c.id = id) (hr : read id = some c) (hdel : id ∈ deleted) :
    Alone.Kept env read deleted fun desk _ => desk.WritesFresh env c id where
  deletion hi := hi
  update hi := hi
  removed hi := hi
  written _ hi := fun doc hd => hi doc (List.mem_append_right _ hd)
  compared _ hi hfound hnow := by
    intro doc hd he
    cases List.mem_append.mp hd with
    | inl hd => exact hi doc hd he
    | inr hd =>
      obtain ⟨-, c', hc', -⟩ := Corpus.found_of_mem_drafts hid hfound hd
      exact ⟨_, hnow (List.ne_nil_of_mem hc'), (Corpus.draft_of_deleted hid hfound hr hdel).1 doc hd he⟩

/-- The contact is not deleted any more. It is expected, or its new document is stored. -/
structure Returning (env : Environment σ) (c : Contact) (id : String) (desk : Desk) (store : DocumentStore) : Prop where
  undeleted : .deleted id ∉ desk.coming
  fresh : desk.WritesFresh env c id
  placed : desk.Expects id ∨ id ∉ desk.removals ∧ ∃ doc, Fresh env c doc ∧ store.get? id = some doc

theorem returning_kept (hid : ∀ {id c}, read id = some c → c.id = id) (hr : read id = some c) (hdel : id ∈ deleted) :
    Alone.Kept env read deleted fun desk store => ¬ desk.failed → Returning env c id desk store where
  deletion {other coming chunk removals writes failed store} hi hn := by
    have h := hi hn
    have hne : id ≠ other := fun he => h.undeleted (he ▸ List.mem_cons_self ..)
    refine ⟨fun hm => h.undeleted (List.mem_cons_of_mem _ hm), h.fresh, h.placed.imp ?_ ?_⟩
    · simp [Desk.Expects]
    · simp [hne]
  update hi hn := by
    have h := hi hn
    refine ⟨fun hm => h.undeleted (List.mem_cons_of_mem _ hm), h.fresh, h.placed.imp_left ?_⟩
    simp only [Desk.Expects, List.mem_cons, Candidate.updated.injEq, List.mem_append, List.not_mem_nil, or_false]
    grind
  removed {coming chunk ids writes failed store} hi hn := by
    have h := hi hn
    refine ⟨h.undeleted, h.fresh, h.placed.imp_right fun hstored => ⟨List.not_mem_nil, ?_⟩⟩
    rw [DocumentStore.get?_remove, if_neg hstored.1]
    exact hstored.2
  written {coming chunk docs writes failed store} _ hi hn := by
    obtain ⟨hn, hs⟩ := not_or.mp hn
    have h := hi hn
    refine ⟨h.undeleted, fun doc hd => h.fresh doc (List.mem_append_right _ hd), ?_⟩
    rw [DocumentStore.get?_put _ _ _ (by simpa using hs)]
    -- the last document of the contact in the put counts; without any the contact is where it was
    cases hf : docs.reverse.find? (·.id = id) with
    | some doc =>
      have hd : doc ∈ docs := List.mem_reverse.mp (List.mem_of_find?_eq_some hf)
      have hfresh := h.fresh doc (List.mem_append_left _ hd) (by simpa using List.find?_some hf)
      exact .inr ⟨List.not_mem_nil, doc, hfresh, rfl⟩
    | none =>
      have hnot : ∀ doc ∈ docs, doc.id ≠ id := by simpa using List.find?_eq_none.mp hf
      refine h.placed.imp_left fun hexp => ?_
      simp only [Desk.Expects, List.mem_append] at hexp ⊢
      grind
  compared {coming chunk removals writes failed store found now} hne hi hfound hnow hn := by
    have h := hi hn
    have hfresh : Desk.WritesFresh env c id
        ⟨coming, [], removals, writes ++ Corpus.drafts deleted now found store, failed⟩ :=
      (writesFresh_kept hid hr hdel).compared hne h.fresh hfound hnow
    refine ⟨h.undeleted, hfresh, h.placed.imp_left fun hexp => ?_⟩
    rcases hexp with hcoming | hchunk | ⟨doc, hd, he⟩
    · exact .inl hcoming
    · obtain ⟨doc, hd, he⟩ := (Corpus.draft_of_deleted hid hfound hr hdel).2 hchunk
      exact .inr (.inr ⟨doc, List.mem_append_right _ hd, he⟩)
    · exact .inr (.inr ⟨doc, List.mem_append_left _ hd, he⟩)

def Leaving (id : String) (desk : Desk) (store : DocumentStore) : Prop :=
  ¬ desk.Expects id ∧ (id ∈ desk.removals ∨ store.get? id = none)

theorem leaving_kept (id : String) (hid : ∀ {id c}, read id = some c → c.id = id) :
    Alone.Kept env read deleted fun desk store => ¬ desk.failed → Leaving id desk store where
  deletion hi hn := by
    obtain ⟨hexp, hgone⟩ := hi hn
    refine ⟨by simpa [Desk.Expects] using hexp, hgone.imp_left fun hm => List.mem_append_left _ hm⟩
  update hi hn := by
    obtain ⟨hexp, hgone⟩ := hi hn
    refine ⟨?_, hgone⟩
    simp only [Desk.Expects, List.mem_cons, Candidate.updated.injEq, List.mem_append, List.not_mem_nil,
      or_false] at hexp ⊢
    grind
  removed {coming chunk ids writes failed store} hi hn := by
    obtain ⟨hexp, hgone⟩ := hi hn
    refine ⟨hexp, .inr ?_⟩
    rw [DocumentStore.get?_remove]
    by_cases hm : id ∈ ids
    · rw [if_pos hm]
    · rw [if_neg hm]
      exact hgone.resolve_left hm
  written {coming chunk docs writes failed store} _ hi hn := by
    obtain ⟨hn, hs⟩ := not_or.mp hn
    obtain ⟨hexp, hgone⟩ := hi hn
    have hnone : docs.reverse.find? (·.id = id) = none := by
      refine List.find?_eq_none.mpr fun doc hd => ?_
      have hnot := fun he => hexp (.inr (.inr ⟨doc, List.mem_append_left _ (List.mem_reverse.mp hd), he⟩))
      simpa using hnot
    refine ⟨fun hexp' => hexp ?_, .inr ?_⟩
    · exact hexp'.imp_right (Or.imp_right fun ⟨doc, hd, he⟩ => ⟨doc, List.mem_append_right _ hd, he⟩)
    · rw [DocumentStore.get?_put _ _ _ (by simpa using hs), hnone]
      exact hgone.resolve_left List.not_mem_nil
  compared {coming chunk removals writes failed store found now} _ hi hfound _ hn := by
    obtain ⟨hexp, hgone⟩ := hi hn
    refine ⟨fun hexp' => hexp ?_, hgone⟩
    rcases hexp' with hcoming | hchunk | ⟨doc, hd, rfl⟩
    · exact .inl hcoming
    · cases hchunk
    · cases List.mem_append.mp hd with
      | inl hd => exact .inr (.inr ⟨doc, hd, rfl⟩)
      | inr hd => exact .inr (.inl (Corpus.found_of_mem_drafts hid hfound hd).1)

/-! ## Up to the last deletion, and from there on -/

section

variable {store : σ → DocumentStore} {inv : Desk → DocumentStore → Prop} {chunk : List String}
  {work : Work} {rest : List Candidate} {s : σ}

variable (A : Alone env store read fun _ => True) (policy : Policy) (h : Alone.Kept env read deleted inv)
  (hnone : ∀ desk st, inv desk st → ¬ desk.failed)

include A h hnone

theorem Alone.takeAll (stats : Stats) (first rest : List Candidate)
    (hi : inv ⟨first ++ rest, [], [], [], False⟩ (store s)) :
    (Corpus.takeAll policy deleted first [] ⟨.empty, stats⟩).Always env (fun p t => ∃ chunk work,
      p = (.ok chunk, work) ∧
        inv ⟨rest, chunk, work.batcher.deletes.items, work.batcher.updates.items, False⟩ (store t)) s := by
  have hinv : Desk.Invariant env policy deleted fun desk s => inv desk (store s) ∧ True :=
    A.invariant h fun _ _ _ => trivial
  have hkeeps : Desk.Keeps policy stats (fun desk s => inv desk (store s) ∧ True) (first ++ rest) [] []
      ⟨.empty, stats⟩ s := ⟨False, ⟨hi, trivial⟩, False.elim, fun _ hs => hs⟩
  apply (hinv.takeAll hkeeps).mono
  intro p t hp
  rcases p with ⟨e | chunk, work⟩
  · obtain ⟨desk, hi, hf⟩ := hp
    exact absurd hf (hnone _ _ hi.1)
  · obtain ⟨failed, ⟨hi, -⟩, -⟩ := hp
    have hfailed : failed = False := eq_false (hnone _ _ hi)
    subst hfailed
    rw [List.append_nil] at hi
    exact ⟨chunk, work, rfl, hi⟩

theorem Alone.applyFrom_deleted (id : String)
    (hi : inv ⟨rest, chunk, work.batcher.deletes.items ++ [id], work.batcher.updates.items, False⟩ (store s)) :
    (Corpus.applyFrom policy deleted (.deleted id :: rest) chunk work).Always env
      (fun p t => p.1 = .ok .completed ∧ inv ⟨[], [], [], [], False⟩ (store t)) s := by
  have hinv : Desk.Invariant env policy deleted fun desk s => inv desk (store s) ∧ True :=
    A.invariant h fun _ _ _ => trivial
  have hkeeps : Desk.Keeps policy work.stats (fun desk s => inv desk (store s) ∧ True) rest chunk []
      { work with batcher := { work.batcher with deletes := work.batcher.deletes.push id } } s :=
    ⟨False, ⟨by simpa [Batch.push] using hi, trivial⟩, False.elim, fun _ hs => hs⟩
  rw [Corpus.applyFrom_cons]
  apply Program.always_isCancelled.mpr
  intro b hb
  cases b with
  | true => exact absurd hb A.uncancelled
  | false =>
    simp only [Bool.false_eq_true, ↓reduceIte]
    apply (hinv.takeUp_deleted hkeeps).bind
    intro p t hp
    rcases p with ⟨e | chunk, work⟩
    · obtain ⟨desk, hi, hf⟩ := hp
      exact absurd hf (hnone _ _ hi.1)
    · apply (hinv.applyFrom hp).mono
      intro p t he
      obtain ⟨hcompleted, hi, -⟩ := A.ended hnone he
      exact ⟨hcompleted, hi⟩

end

end

def Provider.cycle (provider : Provider) (clock : Collaborators → Int) (policy : Policy) (candidates : List Candidate)
    (stats : Stats) (w : Collaborators) : (Except UpdateError Completion × Stats) × Collaborators :=
  (Corpus.apply policy candidates stats).run (provider.surroundings clock) w

/-- After its last deletion a contact is updated again, or it is still to be read or to be
written, if and only if it ends up indexed; if not, it is gone. -/
theorem readded_iff (provider : Provider) (clock : Collaborators → Int) (policy : Policy) (stats : Stats)
    (w : Collaborators) (before after : List Candidate) {id : String} {c : Contact} (hr : provider.read id = some c)
    (hafter : .deleted id ∉ after) (hcapacity : w.store.capacity = none) :
    ∃ chunk work here,
      (Corpus.takeAll policy (Candidate.deletedIds (before ++ .deleted id :: after)) before [] ⟨.empty, stats⟩).run
        (provider.surroundings clock) w = ((.ok chunk, work), here) ∧
      (provider.cycle clock policy (before ++ .deleted id :: after) stats w).1.1 = .ok .completed ∧
      ((provider.cycle clock policy (before ++ .deleted id :: after) stats w).2.store.get? id = none ∨
        ∃ u, (provider.cycle clock policy (before ++ .deleted id :: after) stats w).2.store.get? id =
          some (.ofContact c (clock u))) ∧
      ((∃ u, (provider.cycle clock policy (before ++ .deleted id :: after) stats w).2.store.get? id =
          some (.ofContact c (clock u))) ↔
        .updated id ∈ after ∨ id ∈ chunk ∨ ∃ doc ∈ work.batcher.updates.items, doc.id = id) := by
  let env := (provider.surroundings clock).environment
  let deleted := Candidate.deletedIds (before ++ .deleted id :: after)
  have hdel : id ∈ deleted := by simp [deleted, Candidate.deletedIds]
  have A := provider.alone clock
  have hunbounded := Alone.kept_unbounded env provider.read deleted
  have htake := (A.takeAll policy (hunbounded.and (writesFresh_kept provider.id_eq hr hdel)) (fun _ _ hi => hi.1.2)
    stats before (.deleted id :: after)
    ⟨⟨hcapacity, not_false⟩, fun _ hd => absurd hd List.not_mem_nil⟩).run (provider.plain clock)
  rcases hrun : (Corpus.takeAll policy deleted before [] ⟨.empty, stats⟩).run (provider.surroundings clock) w with
    ⟨value, here⟩
  rw [hrun] at htake
  obtain ⟨chunk, work, rfl, ⟨hcapacity', -⟩, hfresh⟩ := htake
  have hcycle : provider.cycle clock policy (before ++ .deleted id :: after) stats w =
      (Corpus.applyFrom policy deleted (.deleted id :: after) chunk work >>= fun p =>
        pure (p.1, p.2.stats)).run (provider.surroundings clock) here := by
    unfold Provider.cycle Corpus.apply
    rw [Program.run_bind, Corpus.run_applyFrom_append fun _ => rfl, Program.run_bind, hrun, Program.run_bind]
  rw [Program.run_bind, Program.run_pure] at hcycle
  refine ⟨chunk, work, here, rfl, ?_⟩
  rw [hcycle]
  -- whether the contact is expected at its last deletion decides which of the two invariants holds on
  by_cases hexp : (⟨after, chunk, work.batcher.deletes.items, work.batcher.updates.items, False⟩ : Desk).Expects id
  · have hrest := (A.applyFrom_deleted policy (hunbounded.and (returning_kept provider.id_eq hr hdel))
      (fun _ _ hi => hi.1.2) id ⟨⟨hcapacity', not_false⟩, fun _ => ⟨hafter, hfresh, .inl hexp⟩⟩).run (provider.plain clock)
    obtain ⟨hcompleted, -, hback⟩ := hrest
    have hstored := (hback not_false).placed.resolve_left (by simp [Desk.Expects])
    obtain ⟨-, doc, ⟨now, ⟨u, rfl⟩, rfl⟩, hget⟩ := hstored
    exact ⟨hcompleted, .inr ⟨u, hget⟩, fun _ => hexp, fun _ => ⟨u, hget⟩⟩
  · have hrest := (A.applyFrom_deleted policy (hunbounded.and (leaving_kept id provider.id_eq))
      (fun _ _ hi => hi.1.2) id ⟨⟨hcapacity', not_false⟩, fun _ => ⟨hexp, .inl (by simp)⟩⟩).run (provider.plain clock)
    obtain ⟨hcompleted, -, hgone⟩ := hrest
    have hnone := (hgone not_false).2.resolve_left List.not_mem_nil
    refine ⟨hcompleted, .inl hnone, fun hstored => ?_, fun he => absurd he hexp⟩
    obtain ⟨u, hget⟩ := hstored
    rw [hnone] at hget
    cases hget

/-- With one document to a batch it is written before the deletion is taken up. -/
theorem readded_iff_written :
    ((Provider.only (.named "a" "Ada")).cycle (fun _ => 1000) ⟨⟨1, 500⟩, true⟩ [.updated "a", .deleted "a"]
        (.start .delta 1000) (.fresh none)).1.1 = .ok .completed ∧
      ((Provider.only (.named "a" "Ada")).cycle (fun _ => 1000) ⟨⟨1, 500⟩, true⟩ [.updated "a", .deleted "a"]
        (.start .delta 1000) (.fresh none)).2.store.get? "a" = none := by
  have hread : (Provider.only (.named "a" "Ada")).read "a" = some (.named "a" "Ada") := rfl
  obtain ⟨chunk, work, here, hrun, hcompleted, hor, hiff⟩ := readded_iff (.only (.named "a" "Ada")) (fun _ => 1000)
    ⟨⟨1, 500⟩, true⟩ (.start .delta 1000) (.fresh none) [.updated "a"] [] hread List.not_mem_nil rfl
  refine ⟨hcompleted, hor.resolve_right fun hstored => ?_⟩
  have hchunk : Except.ok chunk = Except.ok [] := (congrArg (·.1.1) hrun).symm
  have hwrites : work.batcher.updates.items = [] := (congrArg (·.1.2.batcher.updates.items) hrun).symm
  cases hchunk
  simpa [hwrites] using hiff.mp hstored

end ContactsIndex
