import ContactsIndex.Instance.Worker
import ContactsIndex.Proofs.Instance.Discipline
import ContactsIndex.Proofs.Update.Unfailed

/-!
# Repeated updates

An update that is done again with nothing changed in between writes nothing. A full update finds
every listed contact as it is stored, and nothing else stored, once one has completed without a
failure. A delta update finds nothing newer than the watermarks that one has reached, even where
its calls to the store have failed.
-/

namespace ContactsIndex

open Program

/-! ## Skipping -/

namespace Work

def passed (work : Work) (taken skipped : Nat) : Work :=
  { work with
    stats := { work.stats with
      toUpdate := work.stats.toUpdate + taken
      skipped := work.stats.skipped + skipped } }

theorem passed_passed (work : Work) (m n m' n' : Nat) :
    (work.passed m n).passed m' n' = work.passed (m + m') (n + n') := by
  simp [passed, Nat.add_assoc]

end Work

namespace Corpus

theorem addUpdates_unchanged (policy : Policy) : ∀ (diffs : List Diffed) (work : Work),
    (∀ diffed ∈ diffs, diffed.indexable = none) →
      addUpdates policy diffs work = pure (.ok (), work.passed 0 diffs.length)
  | [], work, _ => rfl
  | diffed :: rest, work, h => by
    obtain ⟨hone, hrest⟩ := List.forall_mem_cons.mp h
    have hskip : Batcher.addUpdate policy diffed work = pure (.ok none, work.passed 0 1) := by
      unfold Batcher.addUpdate
      rw [hone]
      rfl
    have ih := addUpdates_unchanged policy rest (work.passed 0 1) hrest
    rw [Work.passed_passed, Nat.add_comm 1] at ih
    unfold addUpdates
    rw [hskip]
    exact ih

theorem conclude_idle (policy : Policy) {work : Work} (hidle : work.Idle) (reason : FlushReason)
    (completion : Completion) : conclude policy reason completion work = pure (.ok completion, work) := by
  have hflush : Batcher.flush policy reason work = pure (.ok none, work) := if_pos hidle
  unfold conclude
  rw [hflush]
  rfl

end Corpus

/-! ## Contacts that are as they are stored -/

namespace Collaborators

structure Settled (w : Collaborators) (id : String) : Prop where
  there : (w.book.get? id).isSome
  right : w.Right id

structure Untouched (v : Collaborators) (s : Collaborators × List Exchange) : Prop where
  same : SameSource v s.1
  store : s.1.store = v.store
  unwritten : ∀ x ∈ s.2, x.call.writes = false

variable {clock : Collaborators → Int} {v : Collaborators} {s t : Collaborators × List Exchange} {policy : Policy}

theorem uncancelled_undisturbed {b : Bool} (h : (undisturbed clock).logging.environment.token b) : b = false := by
  obtain ⟨_, h⟩ := h
  exact h.symm

theorem Untouched.answered {c : Call} {reply : c.Reply} (h : v.Untouched s) (hc : c.writes = false)
    (ha : (undisturbed clock).logging.environment.answers c s reply t) :
    reply = (s.1.serve c).1 ∧ v.Untouched t := by
  cases ha
  refine ⟨rfl, h.same.trans (s.1.sameSource_serve c), (s.1.serve_store hc).trans h.store, ?_⟩
  exact Exchange.forall_concat.mpr ⟨h.unwritten, hc⟩

theorem Untouched.updated {since : Int} {limit : Limit} {reply : (Call.updated since limit).Reply} (h : v.Untouched s)
    (havailable : v.book.available = true)
    (ha : (undisturbed clock).logging.environment.answers (.updated since limit) s reply t) :
    reply = .ok (some (v.book.updatedRows since limit)) ∧ v.Untouched t := by
  obtain ⟨rfl, ht⟩ := h.answered rfl ha
  exact ⟨serve_updated_iff.mpr ⟨h.same.available.trans havailable, (h.same.book.updatedRows ..).symm⟩, ht⟩

theorem Untouched.deleted {since : Int} {reply : (Call.deleted since).Reply} (h : v.Untouched s)
    (havailable : v.book.available = true)
    (ha : (undisturbed clock).logging.environment.answers (.deleted since) s reply t) :
    reply = .ok (some (v.book.deletedRows since)) ∧ v.Untouched t := by
  obtain ⟨rfl, ht⟩ := h.answered rfl ha
  exact ⟨serve_deleted_iff.mpr ⟨h.same.available.trans havailable, (h.same.book.deletedRows _).symm⟩, ht⟩

theorem Untouched.contacts {ids : List String} {reply : (Call.contacts ids).Reply} (h : v.Untouched s)
    (havailable : v.book.available = true)
    (ha : (undisturbed clock).logging.environment.answers (.contacts ids) s reply t) :
    reply = .ok (some (v.book.contactsOf ids)) ∧ v.Untouched t := by
  obtain ⟨rfl, ht⟩ := h.answered rfl ha
  have hsame : v.book.contactsOf ids = s.1.book.contactsOf ids :=
    congrArg ids.filterMap (funext fun id => (h.same.book.get? id).symm)
  exact ⟨serve_contacts_iff.mpr ⟨h.same.available.trans havailable, hsame⟩, ht⟩

theorem length_contactsOf {ids : List String} (h : ∀ id ∈ ids, v.Settled id) :
    (v.book.contactsOf ids).length = ids.length :=
  List.filterMap_length_eq_length.mpr fun id hid => (h id hid).there

theorem indexable_of_settled {ids : List String} (hid : ∀ {id c}, v.book.get? id = some c → c.id = id)
    (h : ∀ id ∈ ids, v.Settled id) (now : Int) :
    ∀ diffed ∈ Corpus.compare [] now (v.book.contactsOf ids) (v.store.entries ((v.book.contactsOf ids).map (·.id))),
      diffed.indexable = none := by
  intro diffed hd
  rw [Corpus.compare_eq] at hd
  obtain ⟨c, hc, rfl⟩ := List.mem_map.mp hd
  obtain ⟨id, hmem, hget⟩ := AddressBook.mem_contactsOf.mp hc
  obtain rfl := hid hget
  apply Document.indexable_diff_eq_none
  have hright : v.store.fingerprint? c.id = v.book.fingerprint? c.id := (h c.id hmem).right
  rw [AddressBook.fingerprint?, hget] at hright
  rw [List.contains_nil, Document.fingerprint_ofContact]
  simpa [DocumentStore.fingerprint?, Document.entry, Function.comp_def] using hright

variable (hid : ∀ {id c}, v.book.get? id = some c → c.id = id) (havailable : v.book.available = true)

include hid havailable

theorem indexChunk_settled {chunk : List String} (hne : chunk ≠ []) (hsettled : ∀ id ∈ chunk, v.Settled id)
    (work : Work) (h : v.Untouched s) :
    (Corpus.indexChunk policy [] chunk work).Always (undisturbed clock).logging.environment
      (fun p t => p = (.ok (), work.passed 0 chunk.length) ∧ v.Untouched t) s := by
  have hlength := length_contactsOf hsettled
  have hfound : v.book.contactsOf chunk ≠ [] := by
    rw [← List.length_pos_iff, hlength]
    exact List.length_pos_iff.mpr hne
  unfold Corpus.indexChunk Source.readContacts
  simp only [hne, ↓reduceIte]
  rw [Program.always_bind, Program.always_ask]
  intro t₁ hd₁ reply t₂ ha₁
  obtain rfl : t₁ = s := hd₁
  obtain ⟨rfl, h₂⟩ := h.contacts havailable ha₁
  refine Program.always_pure.mpr fun t₃ hd₂ => ?_
  obtain rfl : t₃ = t₂ := hd₂
  dsimp only
  rw [if_neg hfound]
  apply Program.always_ask.mpr
  intro t₄ hd₃ reply t₅ ha₂
  obtain rfl : t₄ = t₃ := hd₃
  obtain ⟨hreply, h₅⟩ := h₂.answered rfl ha₂
  have hstored : reply = .ok (v.store.entries ((v.book.contactsOf chunk).map (·.id))) := by
    rw [hreply, ← h₂.store]
    rfl
  subst hstored
  refine Program.always_readClock.mpr fun now _ => ?_
  rw [Corpus.addUpdates_unchanged policy _ _ (indexable_of_settled hid hsettled now)]
  refine Program.always_pure.mpr fun t₆ hd₄ => ?_
  obtain rfl : t₆ = t₅ := hd₄
  rw [Corpus.length_compare, hlength, Nat.sub_self]
  exact ⟨rfl, h₅⟩

-- Induction on what is not yet taken up. The ids of the chunk are skipped when it is read, so they count
-- already; nothing is ever gathered, and the last flush has nothing to send.
theorem applyFrom_settled : ∀ {ids chunk : List String} {work : Work} {s : Collaborators × List Exchange}, work.Idle →
    (∀ id ∈ chunk ++ ids, v.Settled id) → v.Untouched s →
      (Corpus.applyFrom policy [] (ids.map .updated) chunk work).Always (undisturbed clock).logging.environment
        (fun p t => p = (.ok .completed, work.passed ids.length (chunk ++ ids).length) ∧ v.Untouched t) s
  | [], chunk, work, s, hidle, hsettled, h => by
    rw [List.append_nil] at hsettled ⊢
    apply Program.always_isCancelled.mpr
    intro b hb
    obtain rfl := uncancelled_undisturbed hb
    simp only [Bool.false_eq_true, ↓reduceIte]
    split
    · next hnil =>
      subst hnil
      rw [Corpus.conclude_idle policy hidle]
      refine Program.always_pure.mpr fun t hd => ?_
      obtain rfl : t = s := hd
      exact ⟨rfl, h⟩
    · next hne =>
      apply (indexChunk_settled hid havailable hne hsettled work h).bind
      rintro _ t ⟨rfl, ht⟩
      dsimp only
      rw [Corpus.conclude_idle policy (show (work.passed 0 chunk.length).Idle from hidle)]
      refine Program.always_pure.mpr fun t' hd => ?_
      obtain rfl : t' = t := hd
      exact ⟨rfl, ht⟩
  | id :: rest, chunk, work, s, hidle, hsettled, h => by
    rw [List.append_cons] at hsettled
    have hlength : (chunk ++ id :: rest).length = (chunk ++ [id] ++ rest).length := by rw [← List.append_cons]
    apply Program.always_isCancelled.mpr
    intro b hb
    obtain rfl := uncancelled_undisturbed hb
    simp only [Bool.false_eq_true, ↓reduceIte]
    split
    · next hshort =>
      have ih := applyFrom_settled (show (work.passed 1 0).Idle from hidle) hsettled h
      rw [Work.passed_passed, Nat.zero_add, Nat.add_comm 1, ← hlength] at ih
      exact ih
    · next hfull =>
      obtain ⟨hchunk, hrest⟩ : (∀ i ∈ chunk ++ [id], v.Settled i) ∧ ∀ i ∈ [] ++ rest, v.Settled i :=
        List.forall_mem_append.mp hsettled
      apply (indexChunk_settled hid havailable (by simp) hchunk (work.passed 1 0) h).bind
      rintro _ t ⟨rfl, ht⟩
      rw [Work.passed_passed, Nat.zero_add, Nat.add_zero]
      have ih := applyFrom_settled (show (work.passed 1 (chunk ++ [id]).length).Idle from hidle) hrest ht
      rw [Work.passed_passed, Nat.add_comm 1, List.nil_append, ← List.length_append, ← hlength] at ih
      exact ih

omit hid in
theorem listUpdated_untouched {since : Int} {limit : Limit} (h : v.Untouched s) :
    (Source.listUpdated since limit).Always (undisturbed clock).logging.environment
      (fun result t => result = .ok (.ofRows since (v.book.updatedRows since limit) limit) ∧ v.Untouched t) s := by
  apply Program.always_ask.mpr
  intro t₁ hd₁ reply t₂ ha
  obtain rfl : t₁ = s := hd₁
  obtain ⟨rfl, h₂⟩ := h.updated havailable ha
  refine Program.always_pure.mpr fun t₃ hd₂ => ?_
  obtain rfl : t₃ = t₂ := hd₂
  exact ⟨rfl, h₂⟩

theorem update_settled (policy : Policy) {listed : List String} (stats : Stats)
    (hsettled : ∀ id ∈ listed, v.Settled id) (h : v.Untouched s) :
    (Corpus.update policy listed [] stats).Always (undisturbed clock).logging.environment (fun p t =>
      p = (.ok .completed, (Work.passed ⟨.empty, stats⟩ listed.length listed.length).stats) ∧ v.Untouched t) s := by
  have hdeleted : Candidate.deletedIds (([] : List String).map .deleted ++ listed.map .updated) = [] :=
    Candidate.deletedIds_update ..
  unfold Corpus.update Corpus.apply
  rw [hdeleted]
  apply (applyFrom_settled hid havailable ⟨rfl, rfl⟩ hsettled h).bind
  rintro _ t ⟨rfl, ht⟩
  refine Program.always_pure.mpr fun t' hd => ?_
  obtain rfl : t' = t := hd
  exact ⟨rfl, ht⟩

theorem rebuild_settled {context : CycleContext} (stats : Stats) (hids : ∀ id ∈ v.store.ids, id ∈ context.listed v)
    (hsettled : ∀ id ∈ context.listed v, v.Settled id) (h : v.Untouched s) :
    (context.rebuild stats).Always (undisturbed clock).logging.environment (fun p t => p.1 = .ok .completed ∧
      p.2.toUpdate = stats.toUpdate + (context.listed v).length ∧
      p.2.skipped = stats.skipped + (context.listed v).length ∧ p.2.toDelete = stats.toDelete ∧ v.Untouched t) s := by
  apply Program.always_isCancelled.mpr
  intro b hb
  obtain rfl := uncancelled_undisturbed hb
  simp only [Bool.false_eq_true, ↓reduceIte]
  apply Program.always_ask.mpr
  intro t₁ hd₁ reply t₂ ha
  obtain rfl : t₁ = s := hd₁
  obtain ⟨hreply, h₂⟩ := h.answered rfl ha
  obtain rfl : reply = .ok v.store.ids := by rw [hreply, ← h.store]; rfl
  apply (listUpdated_untouched havailable h₂).bind
  rintro _ t₃ ⟨rfl, h₃⟩
  have hstale : v.store.stale (context.listed v) = [] := by
    refine List.eq_nil_iff_forall_not_mem.mpr fun id hm => ?_
    obtain ⟨hstored, hgone⟩ := DocumentStore.mem_stale.mp hm
    exact hgone (hids id hstored)
  change (Corpus.update _ (context.listed v) (v.store.stale (context.listed v)) _).Always _ _ _
  rw [hstale]
  apply (update_settled hid havailable _ _ hsettled h₃).mono
  rintro _ t ⟨rfl, ht⟩
  exact ⟨rfl, rfl, rfl, rfl, ht⟩

theorem fullUpdate_settled {context : CycleContext} (hids : ∀ id ∈ v.store.ids, id ∈ context.listed v)
    (hsettled : ∀ id ∈ context.listed v, v.Settled id) (h : v.Untouched s) :
    context.fullUpdate.Always (undisturbed clock).logging.environment (fun outcome t =>
      outcome.result = .ok .completed ∧ outcome.stats.toUpdate = (context.listed v).length ∧
      outcome.stats.skipped = (context.listed v).length ∧ outcome.stats.toDelete = 0 ∧ v.Untouched t) s := by
  refine Program.always_readClock.mpr fun began _ =>
    (rebuild_settled hid havailable _ hids hsettled h).bind fun p t hp => ?_
  obtain ⟨result, stats⟩ := p
  obtain ⟨hresult, hupdate, hskipped, hdelete, ht⟩ := hp
  refine Program.always_readClock.mpr fun ended _ => Program.always_record.mpr (Program.always_pure.mpr fun u hd => ?_)
  obtain rfl : u = t := hd
  exact ⟨hresult, hupdate.trans (Nat.zero_add _), hskipped.trans (Nat.zero_add _), hdelete, ht⟩

omit hid havailable

/-! ## Behind the watermarks -/

def listedNothing (since : Int) (limit : Limit) (since' : Int) : List Exchange :=
  [⟨.updated since limit, .ok (some [])⟩, ⟨.deleted since', .ok (some [])⟩]

theorem listBoth_behind {since since' : Int} {limit : Limit} (havailable : v.book.available = true)
    (hupdated : v.book.updatedRows since limit = []) (hdeleted : v.book.deletedRows since' = []) (h : v.Untouched s) :
    (Source.listBoth since limit since').Always (undisturbed clock).logging.environment (fun result t =>
      result = .ok (⟨[], since⟩, ⟨[], since'⟩) ∧ t.2 = s.2 ++ listedNothing since limit since' ∧ v.Untouched t) s := by
  intro t₁ hd₁
  obtain rfl : t₁ = s := hd₁
  refine ⟨fun reply t₂ ha => ?_, False.elim⟩
  have hlog₂ := (undisturbed clock).records_logging.answers ha
  obtain ⟨rfl, h₂⟩ := h.updated havailable ha
  rw [hupdated] at hlog₂ ⊢
  refine Program.always_ask.mpr fun t₃ hd₂ reply t₄ ha' => ?_
  obtain rfl : t₃ = t₂ := hd₂
  have hlog₄ := (undisturbed clock).records_logging.answers ha'
  obtain ⟨rfl, h₄⟩ := h₂.deleted havailable ha'
  rw [hdeleted, hlog₂, List.append_assoc] at hlog₄
  rw [hdeleted]
  refine Program.always_pure.mpr fun t₅ hd₃ => ?_
  obtain rfl : t₅ = t₄ := hd₃
  refine ⟨?_, hlog₄, h₄⟩
  change Except.ok (Listing.ofRows since [] limit, Listing.ofRows since' [] .unlimited) = _
  rw [Listing.ofRows_nil, Listing.ofRows_nil]

theorem update_nothing (policy : Policy) (stats : Stats) (s : Collaborators × List Exchange) :
    (Corpus.update policy [] [] stats).Always (undisturbed clock).logging.environment
      (fun p t => p = (.ok .completed, stats) ∧ t = s) s := by
  rintro b ⟨_, rfl⟩
  exact fun t hd => ⟨rfl, hd⟩

/-- Nothing in the book of `v` is newer than the watermarks of this context. -/
structure Behind (v : Collaborators) (context : CycleContext) : Prop where
  updated : v.book.updatedRows context.settings.contactUpdate context.deltaLimit = []
  deleted : v.book.deletedRows context.settings.contactDelete = []

section

variable {context : CycleContext} (havailable : v.book.available = true) (hbehind : v.Behind context)
  (hlimit : context.deltaLimit ≠ .atMost 0)

include havailable hbehind hlimit

theorem followChanges_behind (stats : Stats) (h : v.Untouched s) :
    (context.followChanges stats).Always (undisturbed clock).logging.environment (fun p t =>
      p = (.ok ⟨.completed, context.settings.watermarks⟩,
        { stats with truncated := false, new := context.settings.watermarks }) ∧
      t.2 = s.2 ++ listedNothing context.settings.contactUpdate context.deltaLimit context.settings.contactDelete ∧
      v.Untouched t) s := by
  have hreached : context.deltaLimit.reachedBy 0 = false := by
    cases hl : context.deltaLimit with
    | unlimited => rfl
    | atMost n =>
      rw [hl] at hlimit
      simpa [Limit.reachedBy, Nat.pos_iff_ne_zero] using hlimit
  apply (listBoth_behind havailable hbehind.updated hbehind.deleted h).bind
  rintro _ t₁ ⟨rfl, hlog, ht⟩
  change Program.Always _ _ (Corpus.update _ [] [] { stats with truncated := context.deltaLimit.reachedBy 0 } >>= _) _
  rw [hreached]
  apply (update_nothing _ { stats with truncated := false } t₁).bind
  rintro _ t₂ ⟨rfl, rfl⟩
  refine Program.always_pure.mpr fun t₃ hd => ?_
  obtain rfl : t₃ = t₂ := hd
  exact ⟨rfl, hlog, ht⟩

theorem deltaUpdate_behind (h : v.Untouched s) :
    context.deltaUpdate.Always (undisturbed clock).logging.environment (fun outcome t =>
      outcome.result = .ok ⟨.completed, context.settings.watermarks⟩ ∧
      outcome.stats.toUpdate = 0 ∧ outcome.stats.toDelete = 0 ∧
      t.2 = s.2 ++ listedNothing context.settings.contactUpdate context.deltaLimit context.settings.contactDelete ∧
      v.Untouched t) s := by
  refine Program.always_readClock.mpr fun began _ => ?_
  apply (followChanges_behind havailable hbehind hlimit _ h).bind
  rintro _ t₁ ⟨rfl, hlog, ht⟩
  refine Program.always_readClock.mpr fun ended _ => Program.always_record.mpr (Program.always_pure.mpr fun t₂ hd => ?_)
  obtain rfl : t₂ = t₁ := hd
  exact ⟨rfl, rfl, rfl, hlog, ht⟩

end

theorem behind_of_completed {w after : Collaborators} {context again : CycleContext}
    {outcome : CycleContext.DeltaOutcome} {n : Watermarks} {time : Int}
    (h : Ends steady context.deltaUpdate w outcome after) (hcompleted : outcome.result = .ok ⟨.completed, n⟩)
    (hlimit : context.deltaLimit ≠ .atMost 0)
    (hadopted : again.settings.watermarks = (Worker.adopt context.settings n time).watermarks)
    (hv : SameSource after v) : v.book.available = true ∧ v.Behind again := by
  obtain ⟨log, hfree, hsame, hserved⟩ := exists_log context.obeys_deltaUpdate h
  obtain ⟨updated, deleted, ⟨⟨rows, hrows, rfl⟩, rows', hrows', rfl⟩, rfl⟩ :=
    context.always_deltaUpdate.ends hfree n hcompleted
  obtain ⟨u, hu, hupdated⟩ := (hserved _ hrows).resolve_left fun hf => hf rows rfl
  obtain ⟨u', hu', hdeleted⟩ := (hserved _ hrows').resolve_left fun hf => hf rows' rfl
  obtain ⟨havailable, rfl⟩ := serve_updated_iff.mp hupdated.symm
  obtain ⟨-, rfl⟩ := serve_deleted_iff.mp hdeleted.symm
  rw [hu.book.updatedRows, hu'.book.deletedRows] at hadopted
  have hall := hsame.trans hv
  obtain ⟨hupdate, hdelete⟩ := Watermarks.mk.inj hadopted
  refine ⟨(hall.available.trans hu.available.symm).trans havailable, ?_, ?_⟩
  · rw [hall.book.updatedRows, hupdate]
    exact AddressBook.updatedRows_eq_nil hlimit (Int.le_max_left ..) (Int.le_max_right ..)
  · rw [hall.book.deletedRows, hdelete]
    exact AddressBook.deletedRows_eq_nil (Int.le_max_left ..) (Int.le_max_right ..)

theorem Rebuilt.settled {w after : Collaborators} {context again : CycleContext}
    (hid : ∀ {id c}, w.book.get? id = some c → c.id = id) (h : w.Rebuilt after (context.listed w))
    (hsame : SameSource w v) (hstore : v.store = after.store)
    (hlimit : again.config.limitOfFull = context.config.limitOfFull) :
    (∀ id ∈ v.store.ids, id ∈ again.listed v) ∧ ∀ id ∈ again.listed v, v.Settled id := by
  have hlisted : again.listed v = context.listed w := by
    unfold CycleContext.listed AddressBook.listed
    rw [hlimit, hsame.book.updatedRows]
  have hnewest : w.book.Newest 0 context.config.limitOfFull (context.listed w) := AddressBook.newest_listed hid ..
  rw [hlisted, hstore]
  refine ⟨fun id hm => (h.ids id).mp hm, fun id hm => ⟨?_, ?_⟩⟩
  · obtain ⟨c, hc, -⟩ := hnewest.touched id hm
    rw [hsame.book.get?, hc]
    rfl
  · unfold Right
    rw [hstore, h.current id hm, AddressBook.fingerprint?, AddressBook.fingerprint?, hsame.book.get?]

end Collaborators

theorem Worker.watermarks_adopt_self (settings : Settings) (time : Int) :
    (adopt settings settings.watermarks time).watermarks = settings.watermarks := by
  unfold adopt Settings.advanceUpdate Settings.advanceDelete Settings.setLastDelta Settings.watermarks
  rw [Int.max_self, Int.max_self]

open Collaborators in
/-- An update that is done again writes nothing, as long as no contact has changed. A full update
that has completed without a failure, alone, leaves nothing to write to another of the same limit,
which skips all that it lists. Whatever failed in a delta update that has completed, another finds
nothing newer than the watermarks that were adopted, and goes no further than to look. -/
theorem repeated_update_writes_nothing {w after v : Collaborators} {context again : CycleContext}
    (clock : Collaborators → Int) (hid : ∀ {id c}, w.book.get? id = some c → c.id = id) (hv : SameSource after v) :
    (∀ outcome, Ends faulty context.fullUpdate w outcome after → outcome.result = .ok .completed →
      outcome.stats.failed = 0 → again.config.fullLimit = context.config.fullLimit → v.store = after.store →
      let out := again.fullUpdate.run (undisturbed clock).logging (v, [])
      out.1.result = .ok .completed ∧ (∀ x ∈ out.2.2, x.call.writes = false) ∧ out.2.1.store = v.store ∧
        out.1.stats.toUpdate = (again.listed v).length ∧ out.1.stats.skipped = (again.listed v).length ∧
        out.1.stats.toDelete = 0) ∧
    ∀ outcome n time, Ends steady context.deltaUpdate w outcome after → outcome.result = .ok ⟨.completed, n⟩ →
      again.settings.watermarks = (Worker.adopt context.settings n time).watermarks →
      context.deltaLimit ≠ .atMost 0 → again.deltaLimit ≠ .atMost 0 →
      let out := again.deltaUpdate.run (undisturbed clock).logging (v, [])
      out.1.result = .ok ⟨.completed, again.settings.watermarks⟩ ∧
        (∀ now, (Worker.adopt again.settings again.settings.watermarks now).watermarks = again.settings.watermarks) ∧
        out.2.2 = listedNothing again.settings.contactUpdate again.deltaLimit again.settings.contactDelete ∧
        out.2.1.store = v.store ∧ out.1.stats.toUpdate = 0 ∧ out.1.stats.toDelete = 0 := by
  have hplain : (undisturbed clock).Plain := ⟨fun _ _ => rfl, fun _ _ _ => rfl⟩
  have hstart : v.Untouched (v, []) := ⟨.refl v, rfl, fun _ hx => nomatch hx⟩
  constructor
  · intro outcome h hcompleted hunfailed hlimit hstore out
    obtain ⟨havailable, hsame, hrebuilt⟩ := rebuilt_of_unfailed hid h hcompleted hunfailed
    have hall := hsame.trans hv
    obtain ⟨hids, hsettled⟩ := hrebuilt.settled hid hall hstore (congrArg Limit.ofOption hlimit)
    have hid' : ∀ {id c}, v.book.get? id = some c → c.id = id := fun hc => hid ((hall.book.get? _).symm.trans hc)
    obtain ⟨hresult, hupdate, hskipped, hdelete, hout⟩ :=
      (fullUpdate_settled hid' (hall.available.trans havailable) hids hsettled hstart).run hplain.logging
    exact ⟨hresult, hout.unwritten, hout.store, hupdate, hskipped, hdelete⟩
  · intro outcome n time h hcompleted hadopted hlimit hlimit' out
    obtain ⟨havailable, hbehind⟩ := behind_of_completed h hcompleted hlimit hadopted hv
    obtain ⟨hresult, hupdate, hdelete, hlog, hout⟩ :=
      (deltaUpdate_behind havailable hbehind hlimit' hstart).run hplain.logging
    exact ⟨hresult, Worker.watermarks_adopt_self _, hlog, hout.store, hupdate, hdelete⟩

def Config.lenient : Config :=
  { Config.cautious with keepUpdatingOnError := true }

/-- Both updates of an index that is full: the full one makes room, and the delta update fails to
store its document. -/
theorem repeated_update_writes_nothing_outdatedIndex :
    let context : CycleContext := ⟨1, .lenient, .zero⟩
    let again : CycleContext := ⟨1, .lenient, Worker.adopt .zero ⟨1000, 0⟩ 2000⟩
    let clock : Collaborators → Int := fun _ => 2000
    let rebuilt := context.fullUpdate.run (Collaborators.undisturbed clock) .outdatedIndex
    let followed := context.deltaUpdate.run (Collaborators.undisturbed clock) .outdatedIndex
    let full := again.fullUpdate.run (Collaborators.undisturbed clock).logging (rebuilt.2, [])
    let delta := again.deltaUpdate.run (Collaborators.undisturbed clock).logging (followed.2, [])
    full.1.stats.skipped = 1 ∧ (∀ x ∈ full.2.2, x.call.writes = false) ∧ full.2.1.store = rebuilt.2.store ∧
      followed.1.stats.failed = 1 ∧ delta.1.result = .ok ⟨.completed, ⟨1000, 0⟩⟩ ∧
      delta.2.2 = Collaborators.listedNothing 1000 .unlimited 0 ∧ delta.2.1.store = followed.2.store := by
  intro context again clock rebuilt followed
  have hid : ∀ {id c}, Collaborators.outdatedIndex.book.get? id = some c → c.id = id :=
    (AddressBook.sound_empty.change 1000 (.upsert (.named "a" "Ada"))).id_eq
  have hplain : (Collaborators.undisturbed clock).Plain := ⟨fun _ _ => rfl, fun _ _ _ => rfl⟩
  obtain ⟨hrebuilt, hunfailed⟩ : rebuilt.1.result.toOption = some .completed ∧ rebuilt.1.stats.failed = 0 := by
    decide +kernel
  obtain ⟨hfollowed, hfailed⟩ :
      followed.1.result.toOption = some ⟨.completed, ⟨1000, 0⟩⟩ ∧ followed.1.stats.failed = 1 := by
    decide +kernel
  have hlisted : again.listed rebuilt.2 = ["a"] := by decide +kernel
  have hlimit : context.deltaLimit ≠ .atMost 0 ∧ again.deltaLimit ≠ .atMost 0 := by decide
  have hadopted : again.settings.watermarks = (Worker.adopt context.settings ⟨1000, 0⟩ 2000).watermarks := rfl
  have hlooked : Collaborators.listedNothing again.settings.contactUpdate again.deltaLimit
    again.settings.contactDelete = Collaborators.listedNothing 1000 .unlimited 0 := rfl
  have hfull := (repeated_update_writes_nothing clock hid (.refl rebuilt.2)).1 _
    (ends_run (Collaborators.within_faulty hplain (fun _ => rfl) fun _ _ => rfl) context.fullUpdate .outdatedIndex)
    (eq_ok_of_toOption hrebuilt) hunfailed (show again.config.fullLimit = context.config.fullLimit from rfl) rfl
  have hdelta := (repeated_update_writes_nothing clock hid (.refl followed.2)).2 _ _ _
    (ends_run (Collaborators.within_steady hplain fun _ _ => rfl) context.deltaUpdate .outdatedIndex)
    (eq_ok_of_toOption hfollowed) hadopted hlimit.1 hlimit.2
  -- the second runs are opaque from here on
  generalize again.fullUpdate.run (Collaborators.undisturbed clock).logging (rebuilt.2, []) = full at hfull ⊢
  generalize again.deltaUpdate.run (Collaborators.undisturbed clock).logging (followed.2, []) = delta at hdelta ⊢
  obtain ⟨-, hunwritten, hkept, -, hskipped, -⟩ := hfull
  obtain ⟨hresult, -, hlog, hsame, -⟩ := hdelta
  rw [hlisted] at hskipped
  rw [hlooked] at hlog
  exact ⟨hskipped, hunwritten, hkept, hfailed, hresult, hlog, hsame⟩

end ContactsIndex
