import ContactsIndex.Proofs.Update.Failing

/-!
# Creation times

Cycles work on one store, one after the other. Writes and lookups may fail, the provider may give
anything at any time, and a cycle may be cancelled or end with an error. Whatever a cycle writes has
the creation time of the document that it found under the id, and a reading of its own clock where
it found none or is to remove what is there (`Due`). The removals are all sent before
the first write, so an id that the cycle is to remove is either gone by then, or the cycle ends
before it writes anything and the id keeps what it had.
-/

namespace ContactsIndex

open Program

/-! ## A store whose writes and lookups may fail -/

def DocumentStore.Overwritten (store : DocumentStore) (docs : List Document) (after : DocumentStore) : Prop :=
  ∀ id, after.get? id = store.get? id ∨ ∃ doc ∈ docs, doc.id = id ∧ after.get? id = some doc

namespace Collaborators

/-- Removals are served. A write may be answered in any way and leave out any of its documents, and
a lookup that is answered at all is answered rightly. Everything but the store does as it likes. -/
def fitful (clock : Int → Prop) : Environment Collaborators where
  clock := clock
  token _ := True
  answers c w reply w' :=
    match c, reply with
    | .contacts _, _ => w'.store = w.store
    | .put docs, _ => w.store.Overwritten docs w'.store
    | .remove ids, reply => reply = .ok (w.store.remove ids).1 ∧ w'.store = (w.store.remove ids).2
    | .entries ids, reply => (∀ stored, reply = .ok stored → stored = w.store.entries ids) ∧ w'.store = w.store
    -- no update of the corpus makes any other call
    | _, _ => True
  unordered := True
  drift w w' := w'.store = w.store
  drift_refl _ := rfl
  drift_trans h h' := h'.trans h

theorem serve_fitful (clock : Int → Prop) (c : Call) (w : Collaborators) :
    (fitful clock).answers c w (w.serve c).1 (w.serve c).2 := by
  cases c with
  | contacts ids => exact rfl
  | put docs => exact w.store.get?_put_or docs
  | remove ids => exact ⟨rfl, rfl⟩
  | entries ids => exact ⟨fun stored h => (Except.ok.inj h).symm, rfl⟩
  | _ => trivial

end Collaborators

def Program.Surroundings.Fitful (env : Surroundings Collaborators) : Prop :=
  env.Plain ∧ ∀ c w, (Collaborators.fitful env.environment.clock).answers c w (env.reply c w).1 (env.reply c w).2

theorem Program.Surroundings.Fitful.within {env : Surroundings Collaborators} (h : env.Fitful) :
    env.logging.Within (Collaborators.fitful env.environment.clock).logging where
  clock w := ⟨w.1, rfl⟩
  token _ := trivial
  note := h.1.logging.note
  answer := h.1.logging.answer
  reply c w := ⟨h.2 c w.1, rfl⟩

theorem Program.Surroundings.Fitful.unwritable {env : Surroundings Collaborators} (h : env.Fitful) :
    env.unwritable.Fitful := by
  refine ⟨⟨h.1.note, h.1.answer⟩, fun c w => ?_⟩
  cases c with
  | put docs => exact fun id => .inl rfl
  | _ => exact h.2 _ w

theorem Program.Surroundings.Fitful.cancelled {env : Surroundings Collaborators} (h : env.Fitful) :
    ({ env with token := fun _ => true } : Surroundings Collaborators).Fitful :=
  ⟨⟨h.1.note, h.1.answer⟩, h.2⟩

theorem Provider.fitful (provider : Provider) (clock : Collaborators → Int) :
    (provider.surroundings clock).Fitful := by
  refine ⟨provider.plain clock, fun c w => ?_⟩
  cases c with
  | contacts ids => exact rfl
  | _ => exact Collaborators.serve_fitful _ _ w

/-! ## Cycles one after the other -/

structure Cycle where
  policy : Policy
  wanted : List String
  unwanted : List String
  stats : Stats
  clock : Int → Prop
  before : Collaborators
  outcome : Except UpdateError Completion × Stats
  after : Collaborators
  log : List Exchange

namespace Cycle

def Happens (cycle : Cycle) : Prop :=
  Ends (Collaborators.fitful cycle.clock).logging
    (Corpus.update cycle.policy cycle.wanted cycle.unwanted cycle.stats) (cycle.before, []) cycle.outcome
    (cycle.after, cycle.log)

def ofRun (env : Surroundings Collaborators) (policy : Policy) (wanted unwanted : List String) (stats : Stats)
    (w : Collaborators) : Cycle :=
  let out := (Corpus.update policy wanted unwanted stats).run env.logging (w, [])
  ⟨policy, wanted, unwanted, stats, env.environment.clock, w, out.1, out.2.1, out.2.2⟩

theorem before_ofRun (env : Surroundings Collaborators) (policy : Policy) (wanted unwanted : List String)
    (stats : Stats) (w : Collaborators) : (ofRun env policy wanted unwanted stats w).before = w := rfl

theorem happens_ofRun {env : Surroundings Collaborators} (h : env.Fitful) (policy : Policy)
    (wanted unwanted : List String) (stats : Stats) (w : Collaborators) :
    (ofRun env policy wanted unwanted stats w).Happens :=
  ends_run h.within _ _

inductive Sequence : DocumentStore → List Cycle → DocumentStore → Prop
  | nil {store} : Sequence store [] store
  | cons {cycle cycles store} : cycle.Happens → Sequence cycle.after.store cycles store →
      Sequence cycle.before.store (cycle :: cycles) store

theorem Sequence.two {first second : Cycle} (hfirst : first.Happens) (hsecond : second.Happens)
    (hbefore : second.before = first.after) : Sequence first.before.store [first, second] second.after.store :=
  .cons hfirst (hbefore ▸ .cons hsecond .nil)

/-- What a cycle does to creation times. -/
structure Stamped (cycle : Cycle) : Prop where
  kept : ∀ id doc, cycle.before.store.get? id = some doc → id ∉ cycle.unwanted →
    ∃ doc', cycle.after.store.get? id = some doc' ∧ doc'.createdAt = doc.createdAt
  fresh : ∀ id doc, cycle.after.store.get? id = some doc →
    cycle.before.store.get? id = none ∨ id ∈ Exchange.removedIds cycle.log → cycle.clock doc.createdAt
  unremoved : ∀ id ∈ cycle.unwanted, id ∉ Exchange.removedIds cycle.log →
    cycle.after.store.get? id = cycle.before.store.get? id
  removed : cycle.outcome.1 = .ok .completed → Exchange.removedIds cycle.log = cycle.unwanted
  fingerprints : ∀ docs reply, ⟨.put docs, reply⟩ ∈ cycle.log → ∀ doc ∈ docs, doc.fingerprint = doc.contentFingerprint

end Cycle

/-! ## The creation time that is due -/

def Due (clock : Int → Prop) (replaced : Option Document) (time : Int) : Prop :=
  match replaced with
  | none => clock time
  | some doc => time = doc.createdAt

theorem Diffed.eq_of_indexable {diffed : Diffed} {doc : Document} (h : diffed.indexable = some doc) :
    ∃ time, doc = { diffed.document with createdAt := time } := by
  unfold indexable at h
  split at h
  · cases h; exact ⟨_, rfl⟩
  · cases h
  · cases h; exact ⟨_, rfl⟩

namespace Corpus

variable {deleted : List String} {now : Int} {found : List Contact} {store : DocumentStore} {doc : Document}
  {clock : Int → Prop}

theorem fingerprint_of_mem_drafts (h : doc ∈ drafts deleted now found store) :
    doc.fingerprint = doc.contentFingerprint := by
  obtain ⟨c, -, hx⟩ := mem_drafts.mp h
  obtain ⟨time, rfl⟩ := Diffed.eq_of_indexable hx
  exact (Document.contentFingerprint_sealed _ time).symm

theorem due_of_mem_drafts (hnow : clock now) (h : doc ∈ drafts deleted now found store) :
    Due clock (kept deleted store doc.id) doc.createdAt := by
  obtain ⟨c, -, hx⟩ := mem_drafts.mp h
  have hid : doc.id = c.id := (Diffed.id_of_indexable hx).1
  rw [hid]
  cases hk : kept deleted store c.id with
  | none =>
    rw [hk] at hx
    cases hx
    exact hnow
  | some old =>
    rw [hk] at hx
    unfold Document.diff Document.decide Diffed.indexable at hx
    dsimp only [Option.map_some] at hx
    split at hx
    · next hnew => split at hnew <;> cases hnew
    · cases hx
    · next hchanged =>
      split at hchanged
      · cases hchanged
      · cases hchanged; cases hx; rfl

end Corpus

/-- What may be stored under an id where `replaced` was not to be removed. -/
structure Placed (clock : Int → Prop) (replaced stored : Option Document) : Prop where
  due : ∀ doc, stored = some doc → Due clock replaced doc.createdAt
  present : replaced.isSome → stored.isSome

namespace Placed

variable {clock : Int → Prop} {replaced stored : Option Document} {time : Int}

theorem refl (clock : Int → Prop) (stored : Option Document) : Placed clock stored stored where
  due doc h := by rw [h]; exact rfl
  present h := h

theorem due_trans (h : Placed clock replaced stored) (hdue : Due clock stored time) : Due clock replaced time := by
  cases stored with
  | some doc =>
    have htime : time = doc.createdAt := hdue
    exact htime ▸ h.due doc rfl
  | none =>
    cases replaced with
    | none => exact hdue
    | some old => exact absurd (h.present rfl) Bool.false_ne_true

end Placed

namespace Corpus

variable {deleted : List String} {store : DocumentStore} {id : String}

theorem kept_of_mem (h : id ∈ deleted) : kept deleted store id = none :=
  if_pos h

theorem kept_of_not_mem (h : id ∉ deleted) : kept deleted store id = store.get? id :=
  if_neg h

end Corpus

/-! ## What every move of a cycle keeps -/

namespace Exchange

theorem removedIds_concat (log : List Exchange) (x : Exchange) :
    removedIds (log ++ [x]) = removedIds log ++ x.call.removes := by
  simp [removedIds]

theorem removedIds_quiet (log : List Exchange) {x : Exchange} (h : x.call.writes = false) :
    removedIds (log ++ [x]) = removedIds log := by
  have hremoves : x.call.removes = [] := by
    cases hx : x.call <;> first | rfl | (rw [hx] at h; cases h)
  rw [removedIds_concat, hremoves, List.append_nil]

theorem fingerprints_concat {log : List Exchange} {x : Exchange}
    (h : ∀ docs reply, ⟨.put docs, reply⟩ ∈ log → ∀ doc ∈ docs, doc.fingerprint = doc.contentFingerprint)
    (hx : ∀ docs reply, x = ⟨.put docs, reply⟩ → ∀ doc ∈ docs, doc.fingerprint = doc.contentFingerprint) :
    ∀ docs reply, ⟨.put docs, reply⟩ ∈ log ++ [x] → ∀ doc ∈ docs, doc.fingerprint = doc.contentFingerprint := by
  intro docs reply hm
  rcases List.mem_append.mp hm with hm | hm
  · exact h docs reply hm
  · exact hx docs reply (List.mem_singleton.mp hm).symm

end Exchange

section

variable {clock : Int → Prop} {unwanted : List String} {before : DocumentStore} {log : List Exchange}

structure Midway (clock : Int → Prop) (unwanted : List String) (before store : DocumentStore) (log : List Exchange) :
    Prop where
  fingerprints : ∀ docs reply, ⟨.put docs, reply⟩ ∈ log → ∀ doc ∈ docs, doc.fingerprint = doc.contentFingerprint
  placed : ∀ id, (id ∈ unwanted → id ∈ Exchange.removedIds log) →
    Placed clock (Corpus.kept unwanted before id) (store.get? id)
  unremoved : ∀ id ∈ unwanted, id ∉ Exchange.removedIds log → store.get? id = before.get? id

namespace Midway

variable {store store' : DocumentStore}

theorem start (clock : Int → Prop) (unwanted : List String) (before : DocumentStore) :
    Midway clock unwanted before before [] where
  fingerprints _ _ h := nomatch h
  placed id hid := by
    rw [Corpus.kept_of_not_mem fun hm => nomatch hid hm]
    exact .refl clock _
  unremoved _ _ _ := rfl

theorem quiet (h : Midway clock unwanted before store log) {x : Exchange} (hx : x.call.writes = false) :
    Midway clock unwanted before store (log ++ [x]) := by
  have hremoved := Exchange.removedIds_quiet log hx
  refine ⟨Exchange.fingerprints_concat h.fingerprints fun docs reply hput => ?_, hremoved ▸ h.placed,
    hremoved ▸ h.unremoved⟩
  rw [hput] at hx
  cases hx

theorem remove (h : Midway clock unwanted before store log) {ids : List String} (hids : ∀ id ∈ ids, id ∈ unwanted)
    (reply : (Call.remove ids).Reply) :
    Midway clock unwanted before (store.remove ids).2 (log ++ [⟨.remove ids, reply⟩]) := by
  have hremoved : Exchange.removedIds (log ++ [⟨.remove ids, reply⟩]) = Exchange.removedIds log ++ ids :=
    Exchange.removedIds_concat _ _
  refine ⟨Exchange.fingerprints_concat h.fingerprints nofun, fun id hid => ?_, fun id hm hnot => ?_⟩
  · rw [hremoved, List.mem_append] at hid
    rw [DocumentStore.get?_remove]
    by_cases hm : id ∈ ids
    · rw [if_pos hm, Corpus.kept_of_mem (hids id hm)]
      exact .refl clock none
    · rw [if_neg hm]
      exact h.placed id fun hu => (hid hu).resolve_right hm
  · rw [hremoved, List.mem_append, not_or] at hnot
    rw [DocumentStore.get?_remove, if_neg hnot.2]
    exact h.unremoved id hm hnot.1

theorem put (h : Midway clock unwanted before store log) (hall : Exchange.removedIds log = unwanted)
    {docs : List Document} (reply : (Call.put docs).Reply)
    (hdocs : ∀ doc ∈ docs, doc.fingerprint = doc.contentFingerprint ∧
      Due clock (Corpus.kept unwanted before doc.id) doc.createdAt)
    (hstore : store.Overwritten docs store') :
    Midway clock unwanted before store' (log ++ [⟨.put docs, reply⟩]) := by
  have hremoved : Exchange.removedIds (log ++ [⟨.put docs, reply⟩]) = unwanted := by
    rw [Exchange.removedIds_concat, hall]
    exact List.append_nil _
  refine ⟨Exchange.fingerprints_concat h.fingerprints fun docs' reply' hput => ?_, fun id _ => ?_,
    fun id hm hnot => absurd (hremoved.symm ▸ hm) hnot⟩
  · cases hput
    exact fun doc hd => (hdocs doc hd).1
  · have hplaced := h.placed id fun hm => hall.symm ▸ hm
    rcases hstore id with hsame | ⟨doc, hd, rfl, hget⟩
    · exact hsame ▸ hplaced
    · rw [hget]
      exact ⟨fun doc' he => by cases he; exact (hdocs doc hd).2, fun _ => rfl⟩

end Midway

/-- A desk whose writes have the creation times that are due; `ds` and `us` are not yet taken up. -/
structure Desk.Dated (clock : Int → Prop) (unwanted : List String) (before : DocumentStore) (ds us : List String)
    (desk : Desk) (s : Collaborators × List Exchange) : Prop where
  left : desk.Left ds us
  removals : Exchange.removedIds s.2 ++ desk.removals ++ ds = unwanted
  writes : ∀ doc ∈ desk.writes, doc.fingerprint = doc.contentFingerprint ∧
    Due clock (Corpus.kept unwanted before doc.id) doc.createdAt
  midway : Midway clock unwanted before s.1.store s.2

namespace Desk.Dated

variable {ds us chunk removals : List String} {coming : List Candidate} {writes : List Document} {failed failed' : Prop}
  {s t u : Collaborators × List Exchange}

theorem drift (h : Dated clock unwanted before ds us ⟨coming, chunk, removals, writes, failed⟩ s)
    (hd : (Collaborators.fitful clock).logging.drift s t) :
    Dated clock unwanted before ds us ⟨coming, chunk, removals, writes, failed⟩ t where
  left := h.left
  removals := hd.2 ▸ h.removals
  writes := h.writes
  midway := by
    rw [show t.1.store = s.1.store from hd.1, hd.2]
    exact h.midway

theorem quiet (h : Dated clock unwanted before ds us ⟨coming, chunk, removals, writes, failed⟩ s)
    {c : Call} {reply : c.Reply} (hc : c.writes = false) (hstore : t.1.store = s.1.store)
    (hlog : t.2 = s.2 ++ [⟨c, reply⟩]) :
    Dated clock unwanted before ds us ⟨coming, chunk, removals, writes, failed⟩ t where
  left := h.left
  removals := by
    rw [hlog, Exchange.removedIds_quiet s.2 hc]
    exact h.removals
  writes := h.writes
  midway := by
    rw [hstore, hlog]
    exact h.midway.quiet hc

theorem done (h : Dated clock unwanted before ds us ⟨coming, chunk, removals, writes, failed⟩ s) (hne : chunk ≠ []) :
    Dated clock unwanted before ds us ⟨coming, [], removals, writes, failed'⟩ s :=
  ⟨h.left.mono fun _ => .inl hne, h.removals, h.writes, h.midway⟩

theorem drafted (h : Dated clock unwanted before ds us ⟨coming, chunk, removals, writes, failed⟩ s) (hne : chunk ≠ [])
    {now : Int} (hnow : clock now) (found : List Contact) :
    Dated clock unwanted before ds us
      ⟨coming, [], removals, writes ++ Corpus.drafts unwanted now found s.1.store, failed⟩ s where
  left := h.left.mono fun _ => .inl hne
  removals := h.removals
  writes := by
    refine List.forall_mem_append.mpr ⟨h.writes, fun doc hd => ⟨Corpus.fingerprint_of_mem_drafts hd, ?_⟩⟩
    have hdue := Corpus.due_of_mem_drafts hnow hd
    by_cases hm : doc.id ∈ unwanted
    · rwa [Corpus.kept_of_mem hm] at hdue ⊢
    · rw [Corpus.kept_of_not_mem hm] at hdue
      exact (h.midway.placed doc.id fun hu => absurd hu hm).due_trans hdue
  midway := h.midway

theorem removed {ids : List String}
    (h : Dated clock unwanted before ds us ⟨coming, chunk, ids, writes, failed⟩ s) {reply : (Call.remove ids).Reply}
    (ha : (Collaborators.fitful clock).logging.answers (.remove ids) s reply t) :
    Dated clock unwanted before ds us ⟨coming, chunk, [], writes, failed'⟩ t where
  left := h.left.mono id
  removals := by
    have hremoved : Exchange.removedIds t.2 = Exchange.removedIds s.2 ++ ids := by
      rw [ha.2]
      exact Exchange.removedIds_concat _ _
    rw [hremoved, List.append_nil]
    exact h.removals
  writes := h.writes
  midway := by
    have hids : ∀ id ∈ ids, id ∈ unwanted := fun id hm => by
      rw [← h.removals]
      exact List.mem_append_left _ (List.mem_append_right _ hm)
    rw [show t.1.store = (s.1.store.remove ids).2 from ha.1.2, ha.2]
    exact h.midway.remove hids reply

theorem written {docs : List Document} (hne : docs ≠ [])
    (h : Dated clock unwanted before ds us ⟨coming, chunk, [], docs ++ writes, failed⟩ s)
    {reply : (Call.put docs).Reply} (ha : (Collaborators.fitful clock).logging.answers (.put docs) s reply t) :
    Dated clock unwanted before ds us ⟨coming, chunk, [], writes, failed'⟩ t where
  left := h.left.mono (Or.imp_right fun hw => by simp [hw])
  removals := by
    have hsame : Exchange.removedIds t.2 = Exchange.removedIds s.2 := by
      rw [ha.2, Exchange.removedIds_concat]
      exact List.append_nil _
    exact hsame ▸ h.removals
  writes doc hd := h.writes doc (List.mem_append_right _ hd)
  midway := by
    have hall : Exchange.removedIds s.2 = unwanted := by
      have hds : ds = [] := h.left.ordered (.inr (by simp [hne]))
      simpa [hds] using h.removals
    rw [ha.2]
    exact h.midway.put hall reply (fun doc hd => h.writes doc (List.mem_append_left _ hd)) ha.1

theorem unwanted_of_removed {desk : Desk} (h : desk.Dated clock unwanted before ds us s) :
    ∀ id ∈ Exchange.removedIds s.2, id ∈ unwanted := by
  intro id hm
  rw [← h.removals]
  exact List.mem_append_left _ (List.mem_append_left _ hm)

end Desk.Dated

theorem dated_invariant (clock : Int → Prop) (policy : Policy) (unwanted : List String) (before : DocumentStore) :
    Desk.Invariant (Collaborators.fitful clock).logging policy unwanted fun desk s =>
      ∃ ds us, desk.Dated clock unwanted before ds us s where
  drift hi hd := by
    obtain ⟨ds, us, hi⟩ := hi
    exact ⟨ds, us, hi.drift hd⟩
  deletion hi := by
    obtain ⟨ds, us, hi⟩ := hi
    obtain ⟨rest, rfl, hleft⟩ := hi.left.deletion
    exact ⟨rest, us, hleft, by simpa using hi.removals, hi.writes, hi.midway⟩
  update hi := by
    obtain ⟨ds, us, hi⟩ := hi
    obtain ⟨rfl, rest, rfl, hleft⟩ := hi.left.update
    exact ⟨[], rest, hleft, hi.removals, hi.writes, hi.midway⟩
  removed hi _ ha := by
    obtain ⟨ds, us, hi⟩ := hi
    exact ⟨ds, us, hi.removed ha⟩
  written hne hi ha := by
    obtain ⟨ds, us, hi⟩ := hi
    exact ⟨ds, us, hi.written hne ha⟩
  unread hne hi _ ha _ := by
    obtain ⟨ds, us, hi⟩ := hi
    exact ⟨ds, us, (hi.quiet rfl ha.1 ha.2).done hne⟩
  vanished hne hi _ ha := by
    obtain ⟨ds, us, hi⟩ := hi
    exact ⟨ds, us, (hi.quiet rfl ha.1 ha.2).done hne⟩
  compared {coming chunk removals writes failed s found t t' stored u now} hne hi _ ha hd ha' hnow := by
    obtain ⟨ds, us, hi⟩ := hi
    have hread := (hi.quiet rfl ha.1 ha.2).drift hd
    obtain rfl : stored = t'.1.store.entries (found.map (·.id)) := ha'.1.1 stored rfl
    have hstore : u.1.store = t'.1.store := ha'.1.2
    have hdrafted := (hread.quiet rfl hstore ha'.2).drafted hne hnow found
    rw [hstore] at hdrafted
    exact ⟨ds, us, hdrafted⟩
  uncompared hne hi _ ha hd ha' := by
    obtain ⟨ds, us, hi⟩ := hi
    have hread := (hi.quiet rfl ha.1 ha.2).drift hd
    exact ⟨ds, us, (hread.quiet rfl ha'.1.2 ha'.2).done hne⟩

end

/-! ## Whole cycles -/

namespace Cycle

theorem stamped_of_midway {cycle : Cycle}
    (h : Midway cycle.clock cycle.unwanted cycle.before.store cycle.after.store cycle.log)
    (hsub : ∀ id ∈ Exchange.removedIds cycle.log, id ∈ cycle.unwanted)
    (hall : cycle.outcome.1 = .ok .completed → Exchange.removedIds cycle.log = cycle.unwanted) : cycle.Stamped where
  kept id doc hget hnot := by
    have hplaced := h.placed id fun hm => absurd hm hnot
    rw [Corpus.kept_of_not_mem hnot, hget] at hplaced
    obtain ⟨doc', hget'⟩ := Option.isSome_iff_exists.mp (hplaced.present rfl)
    exact ⟨doc', hget', hplaced.due doc' hget'⟩
  fresh id doc hget hcase := by
    by_cases hremoved : id ∈ Exchange.removedIds cycle.log
    · have hdue := (h.placed id fun _ => hremoved).due doc hget
      rwa [Corpus.kept_of_mem (hsub id hremoved)] at hdue
    · have habsent := hcase.resolve_right hremoved
      by_cases hm : id ∈ cycle.unwanted
      · rw [h.unremoved id hm hremoved, habsent] at hget
        cases hget
      · have hdue := (h.placed id fun hu => absurd hu hm).due doc hget
        rwa [Corpus.kept_of_not_mem hm, habsent] at hdue
  unremoved := h.unremoved
  removed := hall
  fingerprints := h.fingerprints

theorem Happens.stamped {cycle : Cycle} (h : cycle.Happens) : cycle.Stamped := by
  have hinv := dated_invariant cycle.clock cycle.policy cycle.unwanted cycle.before.store
  have hdated : (⟨cycle.unwanted.map .deleted ++ cycle.wanted.map .updated, [], [], [], False⟩ : Desk).Dated
      cycle.clock cycle.unwanted cycle.before.store cycle.unwanted cycle.wanted (cycle.before, []) :=
    ⟨.start .., rfl, nofun, .start ..⟩
  have halways : (Corpus.update cycle.policy cycle.wanted cycle.unwanted cycle.stats).Always
      (Collaborators.fitful cycle.clock).logging _ (cycle.before, []) :=
    hinv.apply (Candidate.deletedIds_update cycle.unwanted cycle.wanted) ⟨_, _, hdated⟩
  have hended := halways.ends h
  rcases hresult : cycle.outcome.1 with e | _ | _
  · rw [hresult] at hended
    obtain ⟨desk, ⟨ds, us, hi⟩, -⟩ := hended
    exact stamped_of_midway hi.midway hi.unwanted_of_removed fun hc => nomatch hresult.symm.trans hc
  · rw [hresult] at hended
    obtain ⟨failed, ⟨ds, us, hi⟩, -⟩ := hended
    obtain ⟨rfl, rfl⟩ : ds = [] ∧ us = [] := by simpa using hi.left.coming
    exact stamped_of_midway hi.midway hi.unwanted_of_removed fun _ => by simpa using hi.removals
  · rw [hresult] at hended
    obtain ⟨-, coming, chunk, failed, ds, us, hi⟩ := hended
    exact stamped_of_midway hi.midway hi.unwanted_of_removed fun hc => nomatch hresult.symm.trans hc

end Cycle

/-- Over any number of cycles, an id that is stored and never unwanted keeps its creation time. Each cycle
keeps the creation times of what it is not to remove, and gives readings of its own clock to what it
finds absent or has removed; what it wanted to remove and did not get to stays as it was. -/
theorem creation_times_kept {store store' : DocumentStore} {cycles : List Cycle}
    (h : Cycle.Sequence store cycles store') :
    (∀ cycle ∈ cycles, cycle.Stamped) ∧
      ∀ id doc, store.get? id = some doc → (∀ cycle ∈ cycles, id ∉ cycle.unwanted) →
        ∃ doc', store'.get? id = some doc' ∧ doc'.createdAt = doc.createdAt := by
  induction h with
  | nil => exact ⟨List.forall_mem_nil _, fun id doc hget _ => ⟨doc, hget, rfl⟩⟩
  | cons hfirst _ ih =>
    refine ⟨List.forall_mem_cons.mpr ⟨hfirst.stamped, ih.1⟩, fun id doc hget hnone => ?_⟩
    obtain ⟨hnot, hrest⟩ := List.forall_mem_cons.mp hnone
    obtain ⟨doc', hget', htime⟩ := hfirst.stamped.kept id doc hget hnot
    obtain ⟨doc'', hget'', htime'⟩ := ih.2 id doc' hget' hrest
    exact ⟨doc'', hget'', htime'.trans htime⟩

/-- A contact is edited. The first cycle after that cannot write, the second one can. -/
theorem creation_times_kept_edited :
    let policy : Policy := ⟨⟨1, 1⟩, true⟩
    let env := fun name time => (Provider.only (.named "a" name)).surroundings fun _ => time
    let indexed := (Cycle.ofRun (env "Ada" 1000) policy ["a"] [] (.start .delta 0) (.fresh none)).after
    let first := Cycle.ofRun (env "Ada B" 2000).unwritable policy ["a"] [] (.start .delta 0) indexed
    let second := Cycle.ofRun (env "Ada B" 3000) policy ["a"] [] (.start .delta 0) first.after
    Cycle.Sequence first.before.store [first, second] second.after.store ∧ first.outcome.2.failed = 1 ∧
      (second.after.store.get? "a").map (·.name) = some "Ada B" ∧
      ∃ doc doc', first.before.store.get? "a" = some doc ∧ second.after.store.get? "a" = some doc' ∧
        doc'.createdAt = doc.createdAt := by
  intro policy env indexed first second
  have hfirst : first.Happens :=
    Cycle.happens_ofRun (Provider.fitful _ _).unwritable policy ["a"] [] (.start .delta 0) indexed
  have hsecond : second.Happens := Cycle.happens_ofRun (Provider.fitful _ _) policy ["a"] [] (.start .delta 0) first.after
  have hsequence := Cycle.Sequence.two hfirst hsecond (Cycle.before_ofRun ..)
  have hstored : (first.before.store.get? "a").isSome := by decide +kernel
  obtain ⟨doc, hget⟩ := Option.isSome_iff_exists.mp hstored
  have hwanted : ∀ cycle ∈ [first, second], "a" ∉ cycle.unwanted := by simp [first, second, Cycle.ofRun]
  obtain ⟨doc', hget', htime⟩ := (creation_times_kept hsequence).2 "a" doc hget hwanted
  exact ⟨hsequence, by decide +kernel, by decide +kernel, doc, doc', hget, hget', htime⟩

/-- A cycle that is cancelled at once removes nothing, and what it was to remove keeps its old time. -/
theorem unwanted_time_cancelled :
    let env := fun time => (Provider.only (.named "a" "Ada")).surroundings fun _ => time
    let stored := (Cycle.ofRun (env 1000) ⟨⟨1, 1⟩, true⟩ ["a"] [] (.start .delta 0) (.fresh none)).after
    let cycle := Cycle.ofRun { env 2000 with token := fun _ => true } ⟨⟨1, 1⟩, true⟩ [] ["a"] (.start .delta 0) stored
    cycle.Happens ∧ cycle.wanted.Nodup ∧ cycle.log.length = 0 ∧ "a" ∈ cycle.unwanted ∧
      ∃ doc, cycle.after.store.get? "a" = some doc ∧ ¬ cycle.clock doc.createdAt := by
  intro env stored cycle
  have hhappens : cycle.Happens :=
    Cycle.happens_ofRun (Provider.fitful _ _).cancelled ⟨⟨1, 1⟩, true⟩ [] ["a"] (.start .delta 0) stored
  have htime : (cycle.after.store.get? "a").map (·.createdAt) = some 1000 := by decide +kernel
  obtain ⟨doc, hget, hcreated⟩ := Option.map_eq_some_iff.mp htime
  refine ⟨hhappens, List.nodup_nil, by decide +kernel, List.mem_singleton_self _, doc, hget, ?_⟩
  rintro ⟨w, hw⟩
  have hclock : (2000 : Int) = 1000 := hw.trans hcreated
  exact absurd hclock (by decide)

end ContactsIndex
