import ContactsIndex.Proofs.Source.Newest
import ContactsIndex.Proofs.Update.Reference
import ContactsIndex.Update.Cycle

/-!
# A full update rebuilds the index

A full update removes what is stored and not listed before it writes anything. So a store
that has room for the listed contacts never runs out of it: what is stored is listed, or it
is removed before the next put (`Roomy`). With the reference of one update this says what a
full update leaves when nobody disturbs it, and how much is stored on the way
(`fullUpdate_rebuilds`).
-/

namespace ContactsIndex

/-! ## Room for what is wanted -/

/-- What is stored is wanted or is going to be removed, and it is not more than `bound`. -/
structure Roomy (wanted : List String) (bound : Nat) (ds us : List String) (desk : Desk) (store : DocumentStore) :
    Prop where
  left : desk.Left ds us
  listed : ∀ id ∈ desk.chunk ++ us, id ∈ wanted
  drafted : ∀ doc ∈ desk.writes, doc.id ∈ wanted
  among : store.Among (wanted ++ (desk.removals ++ ds))
  seats : store.Seats wanted
  size : store.size ≤ bound

namespace Roomy

variable {wanted ds us chunk removals : List String} {bound : Nat} {coming : List Candidate} {writes : List Document}
  {failed failed' : Prop} {store : DocumentStore}

theorem deletion {id : String}
    (h : Roomy wanted bound ds us ⟨.deleted id :: coming, chunk, removals, writes, failed⟩ store) :
    ∃ rest, Roomy wanted bound rest us ⟨coming, chunk, removals ++ [id], writes, failed⟩ store := by
  obtain ⟨rest, rfl, hleft⟩ := h.left.deletion
  exact ⟨rest, hleft, h.listed, h.drafted, by simpa using h.among, h.seats, h.size⟩

theorem update {id : String}
    (h : Roomy wanted bound ds us ⟨.updated id :: coming, chunk, removals, writes, failed⟩ store) :
    ∃ rest, Roomy wanted bound [] rest ⟨coming, chunk ++ [id], removals, writes, failed⟩ store := by
  obtain ⟨rfl, rest, rfl, hleft⟩ := h.left.update
  exact ⟨rest, hleft, by simpa using h.listed, h.drafted, h.among, h.seats, h.size⟩

theorem removed {ids : List String} (h : Roomy wanted bound ds us ⟨coming, chunk, ids, writes, failed⟩ store) :
    Roomy wanted bound ds us ⟨coming, chunk, [], writes, failed⟩ (store.remove ids).2 where
  left := h.left.mono id
  listed := h.listed
  drafted := h.drafted
  among := by
    refine h.among.remove fun id hid hm => ?_
    simp only [List.mem_append, hm, false_or] at hid
    simpa using hid
  seats := by simpa [DocumentStore.Seats] using h.seats
  size := Nat.le_trans (store.size_remove_le ids) h.size

theorem written {docs : List Document} (hbound : wanted.length ≤ bound) (hne : docs ≠ [])
    (h : Roomy wanted bound ds us ⟨coming, chunk, [], docs ++ writes, failed⟩ store) :
    (store.put docs).1.success = true ∧
      Roomy wanted bound ds us ⟨coming, chunk, [], writes, failed'⟩ (store.put docs).2 := by
  have hds : ds = [] := h.left.ordered (.inr (by simp [hne]))
  subst hds
  have hamong : store.Among wanted := by simpa using h.among
  have hdocs : ∀ doc ∈ docs, doc.id ∈ wanted := fun doc hd => h.drafted doc (List.mem_append_left _ hd)
  have hafter := hamong.put h.seats hdocs
  exact ⟨hamong.success_put h.seats hdocs, {
    left := h.left.mono (Or.imp_right fun hw => by simp [hw])
    listed := h.listed
    drafted := fun doc hd => h.drafted doc (List.mem_append_right _ hd)
    among := by simpa using hafter
    seats := by simpa [DocumentStore.Seats] using h.seats
    size := Nat.le_trans hafter.size_le hbound }⟩

theorem compared {read : String → Option Contact} {deleted : List String} {found : List Contact} {now : Int}
    (hid : ∀ {id c}, read id = some c → c.id = id) (hne : chunk ≠ [])
    (hfound : ∀ c, c ∈ found ↔ ∃ id ∈ chunk, read id = some c)
    (h : Roomy wanted bound ds us ⟨coming, chunk, removals, writes, failed⟩ store) :
    Roomy wanted bound ds us ⟨coming, [], removals, writes ++ Corpus.drafts deleted now found store, failed⟩ store := by
  have hdrafts : ∀ doc ∈ Corpus.drafts deleted now found store, doc.id ∈ chunk :=
    fun doc hd => (Corpus.found_of_mem_drafts hid hfound hd).1
  refine ⟨h.left.mono fun _ => .inl hne, fun id hus => h.listed id (List.mem_append_right _ hus), fun doc hd => ?_,
    h.among, h.seats, h.size⟩
  cases List.mem_append.mp hd with
  | inl hd => exact h.drafted doc hd
  | inr hd => exact h.listed doc.id (List.mem_append_left _ (hdrafts doc hd))

theorem kept {σ : Type} {env : Environment σ} {read : String → Option Contact} (deleted : List String)
    (hid : ∀ {id c}, read id = some c → c.id = id) (hbound : wanted.length ≤ bound) :
    Alone.Kept env read deleted fun desk store => ¬ desk.failed ∧ ∃ ds us, Roomy wanted bound ds us desk store where
  deletion hi := by
    obtain ⟨hn, ds, us, h⟩ := hi
    obtain ⟨rest, h⟩ := h.deletion
    exact ⟨hn, rest, us, h⟩
  update hi := by
    obtain ⟨hn, ds, us, h⟩ := hi
    obtain ⟨rest, h⟩ := h.update
    exact ⟨hn, [], rest, h⟩
  removed hi := by
    obtain ⟨hn, ds, us, h⟩ := hi
    exact ⟨hn, ds, us, h.removed⟩
  written hne hi := by
    obtain ⟨hn, ds, us, h⟩ := hi
    obtain ⟨hs, h⟩ := h.written hbound hne
    exact ⟨not_or.mpr ⟨hn, by simp [hs]⟩, ds, us, h⟩
  compared hne hi hfound _ := by
    obtain ⟨hn, ds, us, h⟩ := hi
    exact ⟨hn, ds, us, h.compared hid hne hfound⟩

end Roomy

/-! ## Collaborators that nobody disturbs -/

namespace Collaborators

def undisturbed (clock : Collaborators → Int) : Program.Surroundings Collaborators :=
  { surroundings 0 with clock := clock }

structure Watched (book : AddressBook) (bound : Nat) (v : Collaborators × List Collaborators) : Prop where
  available : v.1.book.available = true
  same : ∀ id, v.1.book.get? id = book.get? id
  past : ∀ u ∈ v.2, u.store.size ≤ bound

variable {book : AddressBook} {bound : Nat} {clock : Collaborators → Int}

theorem Watched.step {c : Call} {v v' : Collaborators × List Collaborators} {reply : c.Reply}
    (ha : (undisturbed clock).remembering.environment.answers c v reply v') (h : Watched book bound v)
    (hsize : v.1.store.size ≤ bound) : Watched book bound v' := by
  cases ha
  refine ⟨?_, fun id => ?_, fun u hu => ?_⟩
  · exact (v.1.serve_available c).trans h.available
  · exact ((v.1.serve_book c).get? id).trans (h.same id)
  · cases List.mem_append.mp hu with
    | inl hu => exact h.past u hu
    | inr hu => exact List.mem_singleton.mp hu ▸ hsize

theorem alone_undisturbed (book : AddressBook) (bound : Nat) (clock : Collaborators → Int) :
    Alone (undisturbed clock).remembering.environment (·.1.store) book.get? (Watched book bound) where
  uncancelled h := by
    obtain ⟨v, hv⟩ := h
    cases hv
  drift h := h
  contacts {ids v reply v'} ha hw := by
    cases ha
    refine ⟨rfl, v.1.book.contactsOf ids, ?_, fun c => ?_⟩
    · simp [undisturbed, surroundings, serve, AddressBook.queryContacts, hw.available]
    · simp only [AddressBook.mem_contactsOf, hw.same]
  entries h := by
    cases h
    exact ⟨rfl, rfl⟩
  put h := by
    cases h
    exact ⟨rfl, rfl⟩
  remove h := by
    cases h
    exact ⟨rfl, rfl⟩

end Collaborators

/-! ## The whole update -/

def DocumentStore.stale (store : DocumentStore) (current : List String) : List String :=
  (store.ids.filter (!current.contains ·)).mergeSort (· ≤ ·)

theorem DocumentStore.mem_stale {store : DocumentStore} {current : List String} {id : String} :
    id ∈ store.stale current ↔ id ∈ store.ids ∧ id ∉ current := by
  simp [stale]

namespace CycleContext

variable (context : CycleContext) (clock : Collaborators → Int) (w : Collaborators)

def listed : List String :=
  w.book.listed 0 context.config.limitOfFull

omit clock w in
theorem run_fullUpdate {σ : Type} {env : Program.Surroundings σ} {s t : σ} {result : Except UpdateError Completion}
    {stats : Stats} (h : (context.rebuild (context.startStats .full (env.clock s))).run env s = ((result, stats), t)) :
    context.fullUpdate.run env s =
      (⟨result, stats.finish (env.clock t)⟩, env.note (.timer "full" "cycle") t) := by
  have hclock : Program.readClock.run env s = (env.clock s, s) := rfl
  unfold fullUpdate
  rw [Program.run_bind, hclock]
  dsimp only
  rw [Program.run_bind, h]
  rfl

theorem run_rebuild (past : List Collaborators) (stats : Stats) (havailable : w.book.available = true) :
    (context.rebuild stats).run (Collaborators.undisturbed clock).remembering (w, past) =
      (Corpus.update ⟨context.config.batchSizes, true⟩ (context.listed w) (w.store.stale (context.listed w))
        { stats with truncated := context.config.limitOfFull.reachedBy (context.listed w).length }).run
        (Collaborators.undisturbed clock).remembering
        ({ w with book := (w.book.queryUpdated 0 context.config.limitOfFull).2 }, past ++ [w] ++ [w]) := by
  have hlisted : ∀ past, (Source.listUpdated 0 context.config.limitOfFull).run
      (Collaborators.undisturbed clock).remembering (w, past) =
        (.ok (.ofRows 0 (w.book.updatedRows 0 context.config.limitOfFull) context.config.limitOfFull),
          { w with book := (w.book.queryUpdated 0 context.config.limitOfFull).2 }, past ++ [w]) := by
    intro past
    unfold Source.listUpdated
    rw [Program.run_bind]
    simp only [Program.ask, Program.run, Program.Surroundings.remembering, Collaborators.undisturbed,
      Collaborators.surroundings, Collaborators.serve, AddressBook.queryUpdated, havailable]
    rfl
  have hcancelled : Program.isCancelled.run (Collaborators.undisturbed clock).remembering (w, past) =
      (false, w, past) := rfl
  have hids : (Program.ask .listIds).run (Collaborators.undisturbed clock).remembering (w, past) =
      (.ok w.store.ids, w, past ++ [w]) := rfl
  unfold rebuild
  rw [Program.run_bind, hcancelled]
  simp only [Bool.false_eq_true, ↓reduceIte]
  rw [Program.run_bind, hids]
  dsimp only
  rw [Program.run_bind, hlisted]
  rfl

end CycleContext

/-- Exactly the listed contacts of `w` are stored, each as it is and since it was first stored. -/
structure Collaborators.Rebuilt (w after : Collaborators) (listed : List String) : Prop where
  ids : ∀ id, id ∈ after.store.ids ↔ id ∈ listed
  current : ∀ id ∈ listed, after.store.fingerprint? id = w.book.fingerprint? id
  created : ∀ id ∈ listed, ∀ doc, w.store.get? id = some doc →
    (after.store.get? id).map (·.createdAt) = some doc.createdAt

theorem Collaborators.Rebuilt.of_meant {w after : Collaborators} {listed : List String} {times : Int → Prop}
    (hlisted : ∀ id ∈ listed, ∃ c, w.book.get? id = some c)
    (h : ∀ id, Meant times w.book.get? w.store listed (w.store.stale listed) id (after.store.get? id)) :
    w.Rebuilt after listed := by
  have hin : ∀ {id}, id ∈ listed → ∃ c now, w.book.get? id = some c ∧
      after.store.get? id = some (.refreshed c now (w.store.get? id)) := by
    intro id hm
    obtain ⟨c, hc⟩ := hlisted id hm
    obtain ⟨now, -, hmeant⟩ := h id
    have hkept : Corpus.kept (w.store.stale listed) w.store id = w.store.get? id := by
      simp [Corpus.kept, DocumentStore.mem_stale, hm]
    rw [Corpus.reference_of_read hm hc, hkept] at hmeant
    exact ⟨c, now, hc, hmeant.symm⟩
  have hout : ∀ {id}, id ∉ listed → after.store.get? id = none := by
    intro id hm
    obtain ⟨now, -, hmeant⟩ := h id
    rw [Corpus.reference_of_unread fun hl => absurd hl hm] at hmeant
    rw [← hmeant, Corpus.kept]
    by_cases hs : id ∈ w.store.ids
    · rw [if_pos (DocumentStore.mem_stale.mpr ⟨hs, hm⟩)]
    · rw [DocumentStore.mem_ids, Option.not_isSome_iff_eq_none] at hs
      simp [hs]
  refine ⟨fun id => ?_, fun id hm => ?_, fun id hm doc hd => ?_⟩
  · rw [DocumentStore.mem_ids]
    by_cases hm : id ∈ listed
    · obtain ⟨c, now, -, hg⟩ := hin hm
      simp [hg, hm]
    · simp [hout hm, hm]
  · obtain ⟨c, now, hc, hg⟩ := hin hm
    simp [DocumentStore.fingerprint?, AddressBook.fingerprint?, hg, hc, Document.fingerprint_refreshed]
  · obtain ⟨c, now, -, hg⟩ := hin hm
    simp [hg, hd, Document.createdAt_refreshed]

theorem Collaborators.always_update (clock : Collaborators → Int) (policy : Policy) (stats : Stats) {book : AddressBook}
    {listed : List String} (v : Collaborators × List Collaborators) (hid : ∀ {id c}, book.get? id = some c → c.id = id)
    (hnodup : listed.Nodup) (hroom : v.1.store.Seats listed)
    (hv : Watched book (max v.1.store.size listed.length) v) :
    (Corpus.update policy listed (v.1.store.stale listed) stats).Always (undisturbed clock).remembering.environment
      (fun p t => p.1 = .ok .completed ∧ (stats.Unfailed → p.2.Unfailed) ∧
        (∀ id, Meant (undisturbed clock).remembering.environment.clock book.get? v.1.store listed
          (v.1.store.stale listed) id (t.1.store.get? id)) ∧
        ∀ u ∈ t.2 ++ [t.1], u.store.size ≤ max v.1.store.size listed.length) v := by
  let env := (undisturbed clock).remembering.environment
  have hroomy : Alone.Kept env book.get? (v.1.store.stale listed) fun desk store => ¬ desk.failed ∧
      ∃ ds us, Roomy listed (max v.1.store.size listed.length) ds us desk store :=
    Roomy.kept _ hid (Nat.le_max_right ..)
  have hfollows : Alone.Kept env book.get? (v.1.store.stale listed) fun desk store => ¬ desk.failed →
      ∃ ds us, Follows env.clock book.get? v.1.store listed (v.1.store.stale listed) ds us desk store :=
    Follows.kept hid
  have hstart : Roomy listed (max v.1.store.size listed.length) (v.1.store.stale listed) listed
      ⟨(v.1.store.stale listed).map .deleted ++ listed.map .updated, [], [], [], False⟩ v.1.store := {
    left := .start ..
    listed := fun _ h => h
    drafted := fun _ h => nomatch h
    among := fun id hs => by
      by_cases hm : id ∈ listed
      · exact List.mem_append_left _ hm
      · exact List.mem_append_right _ (DocumentStore.mem_stale.mpr ⟨hs, hm⟩)
    seats := hroom
    size := Nat.le_max_left .. }
  refine ((alone_undisturbed book (max v.1.store.size listed.length) clock).apply (hroomy.and hfollows)
    (fun ha hi hw => ?_) policy stats (fun _ _ hi => hi.1.1) (Candidate.deletedIds_update ..)
    ⟨⟨not_false, _, _, hstart⟩, fun _ => ⟨_, _, .start hnodup ⟨clock v.1, v, rfl⟩⟩⟩ hv).mono fun p t hp => ?_
  · obtain ⟨⟨-, ds, us, hdesk⟩, -⟩ := hi
    exact hw.step ha hdesk.size
  · obtain ⟨hcompleted, ⟨⟨-, ds, us, hdesk⟩, hend⟩, hw, hclean⟩ := hp
    obtain ⟨ds', us', hend⟩ := hend not_false
    refine ⟨hcompleted, hclean, hend.finish, fun u hu => ?_⟩
    cases List.mem_append.mp hu with
    | inl hu => exact hw.past u hu
    | inr hu => exact List.mem_singleton.mp hu ▸ hdesk.size

/-- A full update that is run alone completes without a failure. It leaves exactly the newest
contacts, and never holds more documents than before or than it is to leave. -/
theorem fullUpdate_rebuilds (context : CycleContext) (clock : Collaborators → Int) (w : Collaborators)
    (hid : ∀ {id c}, w.book.get? id = some c → c.id = id) (havailable : w.book.available = true)
    (hroom : w.store.Seats (context.listed w)) :
    w.book.Newest 0 context.config.limitOfFull (context.listed w) ∧
      (context.fullUpdate.run (Collaborators.undisturbed clock) w).1.result = .ok .completed ∧
      (context.fullUpdate.run (Collaborators.undisturbed clock) w).1.stats.Unfailed ∧
      w.Rebuilt (context.fullUpdate.run (Collaborators.undisturbed clock) w).2 (context.listed w) ∧
      ∀ u ∈ context.fullUpdate.passed (Collaborators.undisturbed clock) w,
        u.store.size ≤ max w.store.size (context.listed w).length := by
  have hnewest : w.book.Newest 0 context.config.limitOfFull (context.listed w) := AddressBook.newest_listed hid ..
  have hplain : (Collaborators.undisturbed clock).Plain := ⟨fun _ _ => rfl, fun _ _ _ => rfl⟩
  let v : Collaborators × List Collaborators :=
    ({ w with book := (w.book.queryUpdated 0 context.config.limitOfFull).2 }, [w, w])
  let stats : Stats := { context.startStats .full (clock w) with
    truncated := context.config.limitOfFull.reachedBy (context.listed w).length }
  have hwatched : Collaborators.Watched w.book (max w.store.size (context.listed w).length) v := by
    refine ⟨havailable, fun _ => rfl, fun u hu => ?_⟩
    have hsame : u = w := by simpa [v] using hu
    exact hsame ▸ Nat.le_max_left ..
  have hstart : stats.Unfailed := (Stats.unfailed_start .full (clock w)).of_eq rfl rfl rfl
  -- the run that remembers the states it passes
  have hall := (Collaborators.always_update clock ⟨context.config.batchSizes, true⟩ stats v hid hnewest.nodup hroom
    hwatched).run hplain.remembering
  have hupdate : (context.rebuild (context.startStats .full (clock w))).run
      (Collaborators.undisturbed clock).remembering (w, []) = (Corpus.update ⟨context.config.batchSizes, true⟩
        (context.listed w) (v.1.store.stale (context.listed w)) stats).run
          (Collaborators.undisturbed clock).remembering v :=
    context.run_rebuild clock w [] _ havailable
  rcases hend : (Corpus.update ⟨context.config.batchSizes, true⟩ (context.listed w)
    (v.1.store.stale (context.listed w)) stats).run (Collaborators.undisturbed clock).remembering v with
    ⟨⟨result, stats'⟩, after, past⟩
  rw [hend] at hall hupdate
  obtain ⟨hcompleted, hclean, hmeant, hsizes⟩ := hall
  obtain ⟨passed, hremember, hpassed⟩ :=
    Program.run_remembering (Collaborators.undisturbed clock) context.fullUpdate w []
  rw [context.run_fullUpdate hupdate] at hremember
  have hvalue := (congrArg Prod.fst hremember).symm
  have hafter : (context.fullUpdate.run (Collaborators.undisturbed clock) w).2 = after :=
    (congrArg (·.2.1) hremember).symm
  have hpast : passed = past := (congrArg (·.2.2) hremember).symm
  rw [hpassed, hvalue, hafter, hpast]
  refine ⟨hnewest, hcompleted, (hclean hstart).of_eq rfl rfl rfl, .of_meant (fun id hm => ?_) hmeant, hsizes⟩
  obtain ⟨c, hc, -⟩ := hnewest.touched id hm
  exact ⟨c, hc⟩

def Collaborators.outdatedIndex : Collaborators :=
  { stocked with store := ((DocumentStore.empty (some 1)).put [.ofContact (.named "b" "Bob") 5]).2 }

theorem fullUpdate_rebuilds_outdatedIndex :
    let context : CycleContext := ⟨1, .cautious, .zero⟩
    let clock : Collaborators → Int := fun _ => 2000
    (∀ {id c}, Collaborators.outdatedIndex.book.get? id = some c → c.id = id) ∧
      Collaborators.outdatedIndex.store.Seats ["a"] ∧
      (context.fullUpdate.run (Collaborators.undisturbed clock) .outdatedIndex).1.result = .ok .completed ∧
      (context.fullUpdate.run (Collaborators.undisturbed clock) .outdatedIndex).1.stats.outOfSpace = false ∧
      (∀ id, id ∈ (context.fullUpdate.run (Collaborators.undisturbed clock) .outdatedIndex).2.store.ids ↔ id ∈ ["a"]) ∧
      ∀ u ∈ context.fullUpdate.passed (Collaborators.undisturbed clock) .outdatedIndex, u.store.size ≤ 1 := by
  intro context clock
  have hid : ∀ {id c}, Collaborators.outdatedIndex.book.get? id = some c → c.id = id :=
    (AddressBook.sound_empty.change 1000 (.upsert (.named "a" "Ada"))).id_eq
  have hlisted : context.listed .outdatedIndex = ["a"] := by decide +kernel
  have hsize : Collaborators.outdatedIndex.store.size = 1 := by decide +kernel
  have hroom : Collaborators.outdatedIndex.store.Seats ["a"] := by
    intro n hn
    cases hn
    exact Nat.le_refl 1
  have h := fullUpdate_rebuilds context clock .outdatedIndex hid rfl (hlisted ▸ hroom)
  rw [hlisted, hsize] at h
  exact ⟨hid, hroom, h.2.1, h.2.2.1.outOfSpace, h.2.2.2.1.ids, h.2.2.2.2⟩

end ContactsIndex
