import ContactsIndex.Proofs.Update.Comparing
import ContactsIndex.Proofs.Update.Indexed
import ContactsIndex.Proofs.Update.Upkeep

/-!
# Updating the corpus faithfully

In a `Faithful` environment a call is refused or served from the collaborators, and
others keep to what `Moved` allows them. There an update of the corpus keeps what is
indexed up to the watermarks `m` that it began with, and when it completes, everything
is indexed up to the watermarks `n` that its listings reached (`Faithful.update`).

Until then the cycle is `Owing`: a contact that `n` promises is right already, or it is
still to be read or to be written.
-/

namespace ContactsIndex

variable {σ : Type}

structure Faithful (view : View σ) (env : Environment σ) (m : Watermarks) : Prop where
  answered : ∀ {c s r t}, env.answers c s r t →
    (c.Refused r ∧ view.look t = view.look s) ∨ (view.look s).serve c = (r, view.look t)
  kept : ∀ {c s r t id}, env.answers c s r t → id ∉ c.written r → view.excused s id → view.excused t id
  /-- Removing a contact is excused if the deletion was listed without the change. -/
  removed : ∀ {ids s outcome t id}, env.answers (.remove ids) s (.ok outcome) t → id ∈ ids →
    (view.look s).book.Sound → (view.look s).book.Skewed m id → view.excused t id
  drift : ∀ {s t}, env.drift s t → Moved view s t

namespace Faithful

variable {view : View σ} {env : Environment σ} {m n : Watermarks} {s t : σ} (F : Faithful view env m)
  {unwanted r u : List String} {d : List Document} {since : Int}

/-! ## What calls do -/

section
include F

theorem same {c : Call} {reply : c.Reply} (ha : env.answers c s reply t) :
    (view.look s).book.Same (view.look t).book := by
  rcases F.answered ha with ⟨_, he⟩ | he
  · rw [he]; exact .refl _
  · have := (view.look s).serve_book c
    rwa [he] at this

theorem moved {c : Call} {reply : c.Reply} (hc : c.writes = false) (ha : env.answers c s reply t) :
    Moved view s t := by
  refine .of_same (F.same ha) (fun id => ?_) fun id => F.kept ha (by simp [Call.written_eq_nil hc])
  rcases F.answered ha with ⟨_, he⟩ | he
  · rw [he]
  · have := (view.look s).serve_store hc
    rw [he] at this
    exact congrArg (·.fingerprint? id) this

theorem remove_each {ids : List String} {reply : (Call.remove ids).Reply}
    (ha : env.answers (.remove ids) s reply t) (id : String) :
    ((view.look t).store.fingerprint? id = (view.look s).store.fingerprint? id ∧
      (view.excused s id → view.excused t id)) ∨
      (id ∈ ids ∧ (view.look t).store.fingerprint? id = none ∧
        ((view.look s).book.Sound → (view.look s).book.Skewed m id → view.excused t id)) := by
  rcases F.answered ha with ⟨hr, he⟩ | he
  · refine .inl ⟨by rw [he], F.kept ha ?_⟩
    rcases reply with e | outcome
    · exact List.not_mem_nil
    · exact absurd rfl (hr outcome)
  · have hout : reply = .ok ((view.look s).store.remove ids).1 := (congrArg Prod.fst he).symm
    have hstore : (view.look t).store = ((view.look s).store.remove ids).2 :=
      (congrArg (·.2.store) he).symm
    subst hout
    have hget := (view.look s).store.get?_remove ids id
    rw [← hstore] at hget
    by_cases hid : id ∈ ids
    · refine .inr ⟨hid, ?_, F.removed ha hid⟩
      rw [DocumentStore.fingerprint?, hget, if_pos hid, Option.map_none]
    · refine .inl ⟨?_, F.kept ha hid⟩
      rw [DocumentStore.fingerprint?, hget, if_neg hid, DocumentStore.fingerprint?]

theorem removed_of_mem {ids : List String} {outcome : Outcome}
    (ha : env.answers (.remove ids) s (.ok outcome) t) {id : String} (hid : id ∈ ids) :
    (view.look t).store.fingerprint? id = none := by
  rcases F.answered ha with ⟨hr, _⟩ | he
  · exact absurd rfl (hr outcome)
  · have hstore : (view.look t).store = ((view.look s).store.remove ids).2 :=
      (congrArg (·.2.store) he).symm
    rw [DocumentStore.fingerprint?, hstore, DocumentStore.get?_remove, if_pos hid, Option.map_none]

theorem put_each {docs : List Document} {reply : (Call.put docs).Reply}
    (ha : env.answers (.put docs) s reply t) (id : String) :
    ((view.look t).store.fingerprint? id = (view.look s).store.fingerprint? id ∧
      (view.excused s id → view.excused t id)) ∨
      ∃ doc ∈ docs, doc.id = id ∧ (view.look t).store.fingerprint? id = some doc.fingerprint := by
  rcases F.answered ha with ⟨hr, he⟩ | he
  · refine .inl ⟨by rw [he], F.kept ha ?_⟩
    rcases reply with e | outcome
    · exact List.not_mem_nil
    · exact absurd rfl (hr outcome)
  · have hout : reply = .ok ((view.look s).store.put docs).1 := (congrArg Prod.fst he).symm
    have hstore : (view.look t).store = ((view.look s).store.put docs).2 :=
      (congrArg (·.2.store) he).symm
    subst hout
    by_cases hmem : ((view.look s).store.put docs).1.success = true ∧ id ∈ docs.map (·.id)
    · obtain ⟨doc, hdoc, rfl⟩ := List.mem_map.mp hmem.2
      obtain ⟨doc', hd', hid, hg⟩ := DocumentStore.get?_put_of_mem hmem.1 hdoc
      refine .inr ⟨doc', hd', hid, ?_⟩
      rw [DocumentStore.fingerprint?, hstore, hg, Option.map_some]
    · rcases (view.look s).store.get?_put_or docs id with hsame | ⟨doc, hd, hid, hg⟩
      · refine .inl ⟨?_, F.kept ha ?_⟩
        · rw [DocumentStore.fingerprint?, hstore, hsame, DocumentStore.fingerprint?]
        · simp only [Call.written]
          split
          · next hsuc => exact fun hin => hmem ⟨hsuc, hin⟩
          · exact List.not_mem_nil
      · refine .inr ⟨doc, hd, hid, ?_⟩
        rw [DocumentStore.fingerprint?, hstore, hg, Option.map_some]

theorem put_of_mem {docs : List Document} {outcome : Outcome}
    (ha : env.answers (.put docs) s (.ok outcome) t) (hs : outcome.success = true) {doc : Document}
    (hd : doc ∈ docs) :
    ∃ d ∈ docs, d.id = doc.id ∧ (view.look t).store.fingerprint? doc.id = some d.fingerprint := by
  rcases F.answered ha with ⟨hr, _⟩ | he
  · exact absurd rfl (hr outcome)
  · have hout : outcome = ((view.look s).store.put docs).1 := by
      have := congrArg Prod.fst he
      exact (Except.ok.inj this).symm
    have hstore : (view.look t).store = ((view.look s).store.put docs).2 :=
      (congrArg (·.2.store) he).symm
    subst hout
    obtain ⟨d, hd', hid, hg⟩ := DocumentStore.get?_put_of_mem hs hd
    refine ⟨d, hd', hid, ?_⟩
    rw [DocumentStore.fingerprint?, hstore, hg, Option.map_some]

end

end Faithful

/-! ## The invariant of a cycle -/

/-- What is kept even when calls fail: everything is indexed up to `m`, and the documents at
hand are no older than `n`. -/
structure Safe (view : View σ) (m n : Watermarks) (unwanted : List String) (since : Int)
    (d : List Document) (s : σ) :
    Prop where
  indexed : Indexed view m s
  update_mono : m.update ≤ n.update
  delete_mono : m.delete ≤ n.delete
  update_le : n.update ≤ (view.look s).book.lastStamp
  delete_le : n.delete ≤ (view.look s).book.lastStamp
  since_le : since ≤ (view.look s).book.lastStamp
  covered : (view.look s).book.Covered n since
  fits : ∀ doc ∈ d, (view.look s).book.Fits n doc.id doc.fingerprint
  doomed : ∀ id ∈ unwanted, ∀ c, (view.look s).book.get? id = some c → c.lastUpdated ≤ m.update →
    (view.look s).book.Skewed m id

/-- What the cycle still owes before everything is indexed up to `n`. -/
structure Owing (view : View σ) (m n : Watermarks) (unwanted r u : List String) (d : List Document)
    (s : σ) : Prop where
  listed : ∀ id ∈ r, id ∈ unwanted
  live : ∀ {id c}, (view.look s).book.get? id = some c → c.lastUpdated ≤ n.update →
    id ∈ u ∨ (∃ doc ∈ d, doc.id = id) ∨ (id ∈ r ∧ (view.look s).book.Skewed m id) ∨
      (id ∉ r ∧ ((view.look s).Right id ∨ view.excused s id))
  gone : ∀ {id}, (view.look s).book.get? id = none →
    id ∈ r ∨ (view.look s).store.fingerprint? id = none ∨ (view.look s).book.Dropped n.delete id ∨
      view.excused s id

variable {view : View σ} {env : Environment σ} {m n : Watermarks} {s t : σ} {unwanted r u : List String}
  {d : List Document} {since : Int}

theorem Safe.nil (h : Safe view m n unwanted since d s) : Safe view m n unwanted since [] s :=
  { h with fits := fun _ hd => nomatch hd }

theorem Safe.later (h : Safe view m n unwanted since d s)
    (hb : (view.look s).book.Later (view.look t).book)
    (hi : Indexed view m t) {d' : List Document} (hd : ∀ doc ∈ d', doc ∈ d) :
    Safe view m n unwanted since d' t where
  indexed := hi
  update_mono := h.update_mono
  delete_mono := h.delete_mono
  update_le := Int.le_trans h.update_le hb.last
  delete_le := Int.le_trans h.delete_le hb.last
  since_le := Int.le_trans h.since_le hb.last
  covered := h.covered.later hb h.since_le
  fits doc hdoc := (h.fits doc (hd doc hdoc)).later hb h.update_le h.delete_le
  doomed id hid c hg hle := by
    have hold := hb.live hg (Int.le_trans hle h.indexed.update_le)
    exact (h.doomed id hid c hold hle).later hb (hg.trans hold.symm)

theorem Safe.moved (h : Safe view m n unwanted since d s) (hm : Moved view s t) :
    Safe view m n unwanted since d t :=
  h.later hm.later (h.indexed.moved hm) fun _ hd => hd

theorem Owing.moved (h : Owing view m n unwanted r u d s) (hs : Safe view m n unwanted since d s)
    (hm : Moved view s t) :
    Owing view m n unwanted r u d t where
  listed := h.listed
  live {id c} hg hle := by
    have hlast := Int.le_trans hle hs.update_le
    have hold := hm.later.live hg hlast
    rcases h.live hold hle with hu | hd | ⟨hr, hsk⟩ | ⟨hr, hok⟩
    · exact .inl hu
    · exact .inr (.inl hd)
    · exact .inr (.inr (.inl ⟨hr, hsk.later hm.later (hg.trans hold.symm)⟩))
    · exact .inr (.inr (.inr ⟨hr, hm.right_or hg hlast hok⟩))
  gone {id} hn := by
    by_cases hr : id ∈ r
    · exact .inl hr
    · exact .inr (hm.gone_or hn hs.delete_le fun hb => (h.gone hb).resolve_left hr)

theorem Owing.indexed (h : Owing view m n unwanted [] [] [] s) (hs : Safe view m n unwanted since d s) :
    Indexed view n s where
  sound := hs.indexed.sound
  update_le := hs.update_le
  delete_le := hs.delete_le
  live hg hle := by
    rcases h.live hg hle with hu | ⟨_, hd, _⟩ | ⟨hr, _⟩ | ⟨_, hok⟩
    · cases hu
    · cases hd
    · cases hr
    · exact hok
  gone hn := (h.gone hn).resolve_left List.not_mem_nil

theorem AddressBook.fingerprint?_of_get? {book : AddressBook} {id : String} {c : Contact}
    (h : book.get? id = some c) :
    book.fingerprint? id = some c.fingerprint := by
  rw [fingerprint?, h, Option.map_some]

namespace Faithful

variable (F : Faithful view env m)

include F

/-! ### Removing -/

theorem safe_remove {ids : List String} {reply : (Call.remove ids).Reply}
    (hids : ∀ id ∈ ids, id ∈ unwanted) (h : Safe view m n unwanted since d s)
    (ha : env.answers (.remove ids) s reply t) :
    Safe view m n unwanted since d t := by
  have hsame := F.same ha
  refine h.later hsame.later ?_ fun _ hd => hd
  constructor
  · exact hsame.sound h.indexed.sound
  · rw [hsame.last]; exact h.indexed.update_le
  · rw [hsame.last]; exact h.indexed.delete_le
  · intro id c hg hle
    have hold : (view.look s).book.get? id = some c := (hsame.get? id).symm.trans hg
    rcases F.remove_each ha id with ⟨hslot, hex⟩ | ⟨hid, _, hex⟩
    · rcases h.indexed.live hold hle with hr | hx
      · exact .inl (hr.congr (hsame.get? id) hslot)
      · exact .inr (hex hx)
    · exact .inr (hex h.indexed.sound (h.doomed id (hids id hid) c hold hle))
  · intro id hn
    have hold : (view.look s).book.get? id = none := (hsame.get? id).symm.trans hn
    rcases F.remove_each ha id with ⟨hslot, hex⟩ | ⟨_, hnone, _⟩
    · rcases h.indexed.gone hold with hnone | hd | hx
      · exact .inl (hslot.trans hnone)
      · exact .inr (.inl (hd.later hsame.later))
      · exact .inr (.inr (hex hx))
    · exact .inl hnone

theorem owing_remove {ids : List String} {outcome : Outcome}
    (h : Owing view m n unwanted (ids ++ r) u d s) (hs : Safe view m n unwanted since d s)
    (ha : env.answers (.remove ids) s (.ok outcome) t) :
    Owing view m n unwanted r u d t where
  listed id hid := h.listed id (List.mem_append_right _ hid)
  live {id c} hg hle := by
    have hsame := F.same ha
    have hold : (view.look s).book.get? id = some c := (hsame.get? id).symm.trans hg
    rcases h.live hold hle with hu | hd | ⟨hr, hsk⟩ | ⟨hr, hok⟩
    · exact .inl hu
    · exact .inr (.inl hd)
    · by_cases hr' : id ∈ r
      · exact .inr (.inr (.inl ⟨hr', hsk.later hsame.later (hsame.get? id)⟩))
      · have hid : id ∈ ids := (List.mem_append.mp hr).resolve_right hr'
        exact .inr (.inr (.inr ⟨hr', .inr (F.removed ha hid hs.indexed.sound hsk)⟩))
    · rw [List.mem_append, not_or] at hr
      rcases F.remove_each ha id with ⟨hslot, hex⟩ | ⟨hid, _⟩
      · exact .inr (.inr (.inr ⟨hr.2, hok.imp (·.congr (hsame.get? id) hslot) hex⟩))
      · exact absurd hid hr.1
  gone {id} hn := by
    have hsame := F.same ha
    have hold : (view.look s).book.get? id = none := (hsame.get? id).symm.trans hn
    by_cases hid : id ∈ ids
    · exact .inr (.inl (F.removed_of_mem ha hid))
    · rcases F.remove_each ha id with ⟨hslot, hex⟩ | ⟨hid', _⟩
      · rcases h.gone hold with hr | hnone | hd | hx
        · exact .inl ((List.mem_append.mp hr).resolve_left hid)
        · exact .inr (.inl (hslot.trans hnone))
        · exact .inr (.inr (.inl (hd.later hsame.later)))
        · exact .inr (.inr (.inr (hex hx)))
      · exact absurd hid' hid

/-! ### Writing -/

theorem safe_put {docs : List Document} {reply : (Call.put docs).Reply}
    (h : Safe view m n unwanted since (docs ++ d) s) (ha : env.answers (.put docs) s reply t) :
    Safe view m n unwanted since d t := by
  have hsame := F.same ha
  refine h.later hsame.later ?_ fun _ hd => List.mem_append_right _ hd
  constructor
  · exact hsame.sound h.indexed.sound
  · rw [hsame.last]; exact h.indexed.update_le
  · rw [hsame.last]; exact h.indexed.delete_le
  · intro id c hg hle
    have hold : (view.look s).book.get? id = some c := (hsame.get? id).symm.trans hg
    rcases F.put_each ha id with ⟨hslot, hex⟩ | ⟨doc, hdoc, rfl, hslot⟩
    · exact (h.indexed.live hold hle).imp (·.congr (hsame.get? id) hslot) hex
    · have hfit := (h.fits doc (List.mem_append_left _ hdoc)).1 c hold (Int.le_trans hle h.update_mono)
      exact .inl (hslot.trans (by rw [AddressBook.fingerprint?_of_get? hg, hfit]))
  · intro id hn
    have hold : (view.look s).book.get? id = none := (hsame.get? id).symm.trans hn
    rcases F.put_each ha id with ⟨hslot, hex⟩ | ⟨doc, hdoc, rfl, hslot⟩
    · rcases h.indexed.gone hold with hnone | hd | hx
      · exact .inl (hslot.trans hnone)
      · exact .inr (.inl (hd.later hsame.later))
      · exact .inr (.inr (hex hx))
    · have hfit := (h.fits doc (List.mem_append_left _ hdoc)).2 hold
      exact .inr (.inl ((hfit.later hsame.later).mono h.delete_mono))

theorem owing_put {docs : List Document} {outcome : Outcome}
    (h : Owing view m n unwanted [] u (docs ++ d) s)
    (hs : Safe view m n unwanted since (docs ++ d) s)
    (ha : env.answers (.put docs) s (.ok outcome) t) (hok : outcome.success = true) :
    Owing view m n unwanted [] u d t where
  listed := h.listed
  live {id c} hg hle := by
    have hsame := F.same ha
    have hold : (view.look s).book.get? id = some c := (hsame.get? id).symm.trans hg
    -- a document that is written is right, for it fits the contact
    have hwritten : ∀ doc ∈ docs, doc.id = id →
      (view.look t).store.fingerprint? id = some doc.fingerprint →
        (view.look t).Right id := by
      rintro doc hdoc rfl hslot
      have hfit := (hs.fits doc (List.mem_append_left _ hdoc)).1 c hold hle
      exact hslot.trans (by rw [AddressBook.fingerprint?_of_get? hg, hfit])
    rcases h.live hold hle with hu | ⟨doc, hdoc, rfl⟩ | ⟨hr, _⟩ | ⟨_, hfine⟩
    · exact .inl hu
    · rcases List.mem_append.mp hdoc with hdoc | hdoc
      · obtain ⟨doc', hd', hid, hslot⟩ := F.put_of_mem ha hok hdoc
        exact .inr (.inr (.inr ⟨List.not_mem_nil, .inl (hwritten doc' hd' hid hslot)⟩))
      · exact .inr (.inl ⟨doc, hdoc, rfl⟩)
    · cases hr
    · refine .inr (.inr (.inr ⟨List.not_mem_nil, ?_⟩))
      rcases F.put_each ha id with ⟨hslot, hex⟩ | ⟨doc, hdoc, hid, hslot⟩
      · exact hfine.imp (·.congr (hsame.get? id) hslot) hex
      · exact .inl (hwritten doc hdoc hid hslot)
  gone {id} hn := by
    have hsame := F.same ha
    have hold : (view.look s).book.get? id = none := (hsame.get? id).symm.trans hn
    rcases F.put_each ha id with ⟨hslot, hex⟩ | ⟨doc, hdoc, rfl, _⟩
    · rcases h.gone hold with hr | hnone | hd | hx
      · cases hr
      · exact .inr (.inl (hslot.trans hnone))
      · exact .inr (.inr (.inl (hd.later hsame.later)))
      · exact .inr (.inr (.inr (hex hx)))
    · have hfit := (hs.fits doc (List.mem_append_left _ hdoc)).2 hold
      exact .inr (.inr (.inl (hfit.later hsame.later)))

/-! ### Reading and comparing -/

omit F in
theorem mem_drafts {found : List Contact} {doc : Document} :
    doc ∈ found.map (Document.ofContact · 0) ↔ ∃ c ∈ found, Document.ofContact c 0 = doc := by
  rw [List.mem_map]

theorem contacts_eq {ids : List String} {found : List Contact}
    (ha : env.answers (.contacts ids) s (.ok (some found)) t) :
    found = (view.look s).book.contactsOf ids := by
  rcases F.answered ha with ⟨hr, _⟩ | he
  · exact absurd rfl (hr found)
  · have hreply := congrArg Prod.fst he
    simp only [Collaborators.serve, AddressBook.queryContacts, Except.ok.injEq] at hreply
    split at hreply
    · exact (Option.some.inj hreply).symm
    · cases hreply

theorem entries_eq {ids : List String} {stored : List (Option Entry)}
    (ha : env.answers (.entries ids) s (.ok stored) t) :
    stored = (view.look s).store.entries ids ∧ (view.look t).store = (view.look s).store := by
  rcases F.answered ha with ⟨hr, _⟩ | he
  · exact absurd rfl (hr stored)
  · exact ⟨(Except.ok.inj (congrArg Prod.fst he)).symm, (congrArg (·.2.store) he).symm⟩

theorem safe_read {ids : List String} {found : List Contact} (h : Safe view m n unwanted since d s)
    (ha : env.answers (.contacts ids) s (.ok (some found)) t) :
    Safe view m n unwanted since (d ++ found.map (Document.ofContact · 0)) t := by
  have hafter := h.moved (F.moved rfl ha)
  refine { hafter with fits := fun doc hdoc => ?_ }
  rcases List.mem_append.mp hdoc with hdoc | hdoc
  · exact hafter.fits doc hdoc
  · obtain ⟨c, hc, rfl⟩ := mem_drafts.mp hdoc
    rw [F.contacts_eq ha] at hc
    obtain ⟨id, _, hg⟩ := AddressBook.mem_contactsOf.mp hc
    have hid : c.id = id := h.indexed.sound.id_eq hg
    have hg' : (view.look t).book.get? c.id = some c := ((F.same ha).get? c.id).trans (hid ▸ hg)
    refine ⟨fun c' hc' _ => ?_, fun hn => ?_⟩
    · cases hg'.symm.trans hc'; rfl
    · cases hg'.symm.trans hn

theorem owing_read {ids : List String} {found : List Contact}
    (h : Owing view m n unwanted r (ids ++ u) d s) (hs : Safe view m n unwanted since d s)
    (ha : env.answers (.contacts ids) s (.ok (some found)) t) :
    Owing view m n unwanted r u (d ++ found.map (Document.ofContact · 0)) t := by
  have hafter := h.moved hs (F.moved rfl ha)
  refine { hafter with live := fun {id c} hg hle => ?_ }
  rcases hafter.live hg hle with hu | ⟨doc, hdoc, hid⟩ | hrest
  · rcases List.mem_append.mp hu with hin | hu
    · have hold : (view.look s).book.get? id = some c := ((F.same ha).get? id).symm.trans hg
      have hfound : c ∈ found := by
        rw [F.contacts_eq ha]
        exact AddressBook.mem_contactsOf.mpr ⟨id, hin, hold⟩
      refine .inr (.inl ⟨Document.ofContact c 0, List.mem_append_right _
        (mem_drafts.mpr ⟨c, hfound, rfl⟩), ?_⟩)
      exact hs.indexed.sound.id_eq hold
    · exact .inl hu
  · exact .inr (.inl ⟨doc, List.mem_append_left _ hdoc, hid⟩)
  · exact .inr (.inr hrest)

theorem safe_compared {found : List Contact} {stored : List (Option Entry)} {now : Int}
    (h : Safe view m n unwanted since (d ++ found.map (Document.ofContact · 0)) s)
    (ha : env.answers (.entries (found.map (·.id))) s (.ok stored) t) :
    Safe view m n unwanted since
    (d ++ (Corpus.compare unwanted now found stored).filterMap Diffed.indexable) t := by
  have hafter := h.moved (F.moved rfl ha)
  refine { hafter with fits := fun doc hdoc => ?_ }
  rcases List.mem_append.mp hdoc with hdoc | hdoc
  · exact hafter.fits doc (List.mem_append_left _ hdoc)
  · rw [(F.entries_eq ha).1] at hdoc
    obtain ⟨c, hc, hid, hf⟩ := Corpus.mem_compared hdoc
    rw [hid, hf]
    exact hafter.fits _ (List.mem_append_right _ (mem_drafts.mpr ⟨c, hc, rfl⟩))

theorem owing_compared {found : List Contact} {stored : List (Option Entry)} {now : Int}
    (h : Owing view m n unwanted r u (d ++ found.map (Document.ofContact · 0)) s)
    (hs : Safe view m n unwanted since (d ++ found.map (Document.ofContact · 0)) s)
    (ha : env.answers (.entries (found.map (·.id))) s (.ok stored) t) :
    Owing view m n unwanted r u
    (d ++ (Corpus.compare unwanted now found stored).filterMap Diffed.indexable) t := by
  have hafter := h.moved hs (F.moved rfl ha)
  have hsafe := hs.moved (F.moved rfl ha)
  obtain ⟨hstored, hstore⟩ := F.entries_eq ha
  refine { hafter with live := fun {id c} hg hle => ?_ }
  rcases hafter.live hg hle with hu | ⟨doc, hdoc, hid⟩ | hrest
  · exact .inl hu
  · rcases List.mem_append.mp hdoc with hdoc | hdoc
    · exact .inr (.inl ⟨doc, List.mem_append_left _ hdoc, hid⟩)
    · obtain ⟨draft, hdraft, rfl⟩ := mem_drafts.mp hdoc
      subst hid
      rcases Corpus.compared_or unwanted now (view.look s).store hdraft with
        ⟨doc', hd', hid'⟩ | ⟨hdel, hslot⟩
      · exact .inr (.inl ⟨doc', List.mem_append_right _ (hstored ▸ hd'), hid'⟩)
      · -- what is skipped is stored as it is read, and the contact has not changed since
        have hfit := (hsafe.fits _ (List.mem_append_right _ hdoc)).1 c hg hle
        refine .inr (.inr (.inr ⟨fun hr => hdel (hafter.listed _ hr), .inl ?_⟩))
        unfold Collaborators.Right
        rw [AddressBook.fingerprint?_of_get? hg, hfit, hstore]
        exact hslot
  · exact .inr (.inr hrest)

/-! ### The whole update -/

theorem upkeep (n : Watermarks) (unwanted : List String) (since : Int) {policy : Policy}
    {Reliable : Prop} (hrel : policy.keepGoing = true → Upkeep.Fallible env → ¬ Reliable) :
    Upkeep env policy unwanted
      (fun r u d s => Safe view m n unwanted since d s ∧ (Reliable → Owing view m n unwanted r u d s))
      (fun r u d found s => Safe view m n unwanted since (d ++ found.map (Document.ofContact · 0)) s ∧
        (Reliable → Owing view m n unwanted r u (d ++ found.map (Document.ofContact · 0)) s))
      (fun d s => Safe view m n unwanted since d s) where
  inv_drift h hd := ⟨h.1.moved (F.drift hd), fun hr => (h.2 hr).moved h.1 (F.drift hd)⟩
  seen_drift h hd := ⟨h.1.moved (F.drift hd), fun hr => (h.2 hr).moved h.1 (F.drift hd)⟩
  safe_drift h hd := h.moved (F.drift hd)
  safe_of_inv h := h.1
  safe_nil h := h.nil
  recover hk ha hf _ _ _ _ h := ⟨h, fun hr => absurd hr (hrel hk ⟨_, _, _, _, ha, hf⟩)⟩
  removed hids h ha _ := ⟨F.safe_remove hids h.1 ha, fun hr => F.owing_remove (h.2 hr) h.1 ha⟩
  unremoved hids h ha := F.safe_remove hids h.1 ha
  written h ha hok := ⟨F.safe_put h.1 ha, fun hr => F.owing_put (h.2 hr) h.1 ha hok⟩
  unwritten h ha := F.safe_put h ha
  read h ha := ⟨F.safe_read h.1 ha, fun hr => F.owing_read (h.2 hr) h.1 ha⟩
  unread h ha := h.1.moved (F.moved rfl ha)
  seen_nil h := by simpa using h
  compared h ha _ := ⟨F.safe_compared h.1 ha, fun hr => F.owing_compared (h.2 hr) h.1 ha⟩
  uncompared h ha := by
    have hafter := h.1.moved (F.moved rfl ha)
    exact { hafter with fits := fun doc hdoc => hafter.fits doc (List.mem_append_left _ hdoc) }

/-- What an update of the corpus leaves: everything is still indexed up to `m`, and up to `n`
if it completes and would have stopped at a failure. Without failures it completes. -/
theorem update {policy : Policy} {wanted : List String} {stats : Stats}
    (hs : Safe view m n unwanted since [] s) (ho : Owing view m n unwanted unwanted wanted [] s) :
    (Corpus.update policy wanted unwanted stats).Always env (fun p t =>
      Safe view m n unwanted since [] t ∧
        (p.1 = .ok .completed → (policy.keepGoing = true → ¬ Upkeep.Fallible env) → Indexed view n t) ∧
        (env.Smooth → p.1 = .ok .completed)) s := by
  let Reliable := policy.keepGoing = true → ¬ Upkeep.Fallible env
  have hrel : policy.keepGoing = true → Upkeep.Fallible env → ¬ Reliable := fun hk hf hr => hr hk hf
  have hup := F.upkeep n unwanted since hrel
  refine (hup.update ⟨hs, fun _ => ho⟩).mono fun p t hp => ⟨hp.1, fun hc hr => ?_, hp.2.2⟩
  exact ((hp.2.1 hc).2 hr).indexed hp.1

end Faithful

end ContactsIndex
