import ContactsIndex.Proofs.Update.Alone

/-!
# What one update of the corpus means

`reference` says for each id what an update leaves in the store, with no word about
chunks, batches and flushes. While a cycle is alone and nothing fails it `Follows` the
reference: the document that is meant for an id is in the store, or it is gathered to be
written, or the id is still to be read or to be removed. So every cycle ends with the
reference, whatever the sizes of its batches are (`update_reference`).
-/

namespace ContactsIndex

namespace Corpus

/-- What an update leaves under an id: the refreshed document of a contact that is wanted and
can be read, nothing under another id that is unwanted, and else what was there. -/
def reference (read : String → Option Contact) (before : DocumentStore) (wanted unwanted : List String) (now : Int)
    (id : String) : Option Document :=
  match if id ∈ wanted then read id else none with
  | some c => some (.refreshed c now (kept unwanted before id))
  | none => kept unwanted before id

variable {read : String → Option Contact} {before : DocumentStore} {wanted unwanted : List String} {now : Int}
  {id : String}

theorem reference_of_read {c : Contact} (hw : id ∈ wanted) (hr : read id = some c) :
    reference read before wanted unwanted now id = some (.refreshed c now (kept unwanted before id)) := by
  simp [reference, hw, hr]

theorem reference_of_unread (h : id ∈ wanted → read id = none) :
    reference read before wanted unwanted now id = kept unwanted before id := by
  by_cases hw : id ∈ wanted
  · simp [reference, hw, h hw]
  · simp [reference, hw]

end Corpus

/-! ## Following the reference -/

section Follows

variable (clock : Int → Prop) (read : String → Option Contact) (before : DocumentStore) (wanted unwanted : List String)

def Meant (id : String) (doc? : Option Document) : Prop :=
  ∃ now, clock now ∧ Corpus.reference read before wanted unwanted now id = doc?

/-- A cycle that is on its way to the reference. The unwanted ids `ds` and the wanted ids
`us` are not yet taken up. -/
structure Follows (ds us : List String) (desk : Desk) (store : DocumentStore) : Prop where
  left : desk.Left ds us
  doomed : ∀ id ∈ desk.removals ++ ds, id ∈ unwanted
  listed : ∀ id ∈ desk.chunk ++ us, id ∈ wanted
  nodup : (desk.chunk ++ us).Nodup
  untouched : ∀ id ∈ desk.chunk ++ us, id ∉ unwanted → store.get? id = before.get? id
  drafted : ∀ doc ∈ desk.writes, doc.id ∉ desk.chunk ++ us ∧ Meant clock read before wanted unwanted doc.id (some doc)
  settled : ∀ id, (id ∈ desk.chunk ++ us ∧ (read id).isSome) ∨ (∃ doc ∈ desk.writes, doc.id = id) ∨
    (id ∈ desk.removals ++ ds ∧ Meant clock read before wanted unwanted id none) ∨
    (id ∉ desk.removals ++ ds ∧ Meant clock read before wanted unwanted id (store.get? id))

end Follows

namespace Follows

variable {clock : Int → Prop} {read : String → Option Contact} {before store : DocumentStore}
  {wanted unwanted ds us chunk removals : List String} {coming : List Candidate} {writes : List Document}
  {failed : Prop}

theorem start (hw : wanted.Nodup) (hclock : ∃ now, clock now) :
    Follows clock read before wanted unwanted unwanted wanted
      ⟨unwanted.map .deleted ++ wanted.map .updated, [], [], [], failed⟩ before where
  left := .start unwanted wanted
  doomed _ h := h
  listed _ h := h
  nodup := hw
  untouched _ _ _ := rfl
  drafted _ h := nomatch h
  settled id := by
    obtain ⟨now, hnow⟩ := hclock
    by_cases hread : id ∈ wanted ∧ (read id).isSome
    · exact .inl hread
    · have href : Corpus.reference read before wanted unwanted now id = Corpus.kept unwanted before id :=
        Corpus.reference_of_unread fun hw => by simpa [hw] using hread
      by_cases hu : id ∈ unwanted
      · exact .inr (.inr (.inl ⟨hu, now, hnow, by rw [href, Corpus.kept, if_pos hu]⟩))
      · exact .inr (.inr (.inr ⟨hu, now, hnow, by rw [href, Corpus.kept, if_neg hu]⟩))

theorem deletion {id : String}
    (h : Follows clock read before wanted unwanted ds us
      ⟨.deleted id :: coming, chunk, removals, writes, failed⟩ store) :
    ∃ rest, Follows clock read before wanted unwanted rest us
      ⟨coming, chunk, removals ++ [id], writes, failed⟩ store := by
  obtain ⟨rest, rfl, hleft⟩ := h.left.deletion
  refine ⟨rest, ⟨hleft, ?_, h.listed, h.nodup, h.untouched, h.drafted, ?_⟩⟩
  · simpa using h.doomed
  · simpa using h.settled

theorem update {id : String}
    (h : Follows clock read before wanted unwanted ds us
      ⟨.updated id :: coming, chunk, removals, writes, failed⟩ store) :
    ∃ rest, Follows clock read before wanted unwanted [] rest
      ⟨coming, chunk ++ [id], removals, writes, failed⟩ store := by
  obtain ⟨rfl, rest, rfl, hleft⟩ := h.left.update
  refine ⟨rest, ⟨hleft, h.doomed, ?_, ?_, ?_, ?_, ?_⟩⟩
  · simpa using h.listed
  · simpa using h.nodup
  · simpa using h.untouched
  · simpa using h.drafted
  · simpa using h.settled

theorem removed {ids : List String}
    (h : Follows clock read before wanted unwanted ds us ⟨coming, chunk, ids, writes, failed⟩ store) :
    Follows clock read before wanted unwanted ds us ⟨coming, chunk, [], writes, failed⟩ (store.remove ids).2 where
  left := h.left.mono id
  doomed id hid := h.doomed id (List.mem_append_right _ hid)
  listed := h.listed
  nodup := h.nodup
  untouched id hid hu := by
    have hnot : id ∉ ids := fun hm => hu (h.doomed id (List.mem_append_left _ hm))
    rw [DocumentStore.get?_remove, if_neg hnot]
    exact h.untouched id hid hu
  drafted := h.drafted
  settled id := by
    rw [DocumentStore.get?_remove]
    rcases h.settled id with hread | hdraft | ⟨hr, hmeant⟩ | ⟨hr, hmeant⟩
    · exact .inl hread
    · exact .inr (.inl hdraft)
    · by_cases hds : id ∈ ds
      · exact .inr (.inr (.inl ⟨hds, hmeant⟩))
      · have hm : id ∈ ids := (List.mem_append.mp hr).resolve_right hds
        exact .inr (.inr (.inr ⟨hds, by rwa [if_pos hm]⟩))
    · have hm := fun hm => hr (List.mem_append_left _ hm)
      exact .inr (.inr (.inr ⟨fun hds => hr (List.mem_append_right _ hds), by rwa [if_neg hm]⟩))

theorem written {docs : List Document} {failed' : Prop} (hne : docs ≠ []) (hs : (store.put docs).1.success = true)
    (h : Follows clock read before wanted unwanted ds us ⟨coming, chunk, [], docs ++ writes, failed⟩ store) :
    Follows clock read before wanted unwanted ds us ⟨coming, chunk, [], writes, failed'⟩ (store.put docs).2 := by
  have hds : ds = [] := h.left.ordered (.inr (by simp [hne]))
  have hfound : ∀ {id doc}, docs.reverse.find? (·.id = id) = some doc → doc ∈ docs ∧ doc.id = id := by
    intro id doc hf
    exact ⟨List.mem_reverse.mp (List.mem_of_find?_eq_some hf), by simpa using List.find?_some hf⟩
  refine ⟨h.left.mono ?_, h.doomed, h.listed, h.nodup, fun id hid hu => ?_, fun doc hd => ?_, fun id => ?_⟩
  · exact Or.imp_right fun hw => by simp [hw]
  · have hnone : docs.reverse.find? (·.id = id) = none := by
      cases hf : docs.reverse.find? (·.id = id) with
      | none => rfl
      | some doc =>
        obtain ⟨hd, rfl⟩ := hfound hf
        exact absurd hid (h.drafted doc (List.mem_append_left _ hd)).1
    rw [DocumentStore.get?_put _ _ _ hs, hnone]
    exact h.untouched id hid hu
  · exact h.drafted doc (List.mem_append_right _ hd)
  · rw [DocumentStore.get?_put _ _ _ hs]
    cases hf : docs.reverse.find? (·.id = id) with
    | some doc =>
      obtain ⟨hd, rfl⟩ := hfound hf
      exact .inr (.inr (.inr ⟨by simp [hds], (h.drafted doc (List.mem_append_left _ hd)).2⟩))
    | none =>
      rcases h.settled id with hread | ⟨doc, hd, hid⟩ | hmeant | hmeant
      · exact .inl hread
      · cases List.mem_append.mp hd with
        | inl hd => simpa [hid] using List.find?_eq_none.mp hf doc (List.mem_reverse.mpr hd)
        | inr hd => exact .inr (.inl ⟨doc, hd, hid⟩)
      · exact .inr (.inr (.inl hmeant))
      · exact .inr (.inr (.inr hmeant))

theorem compared {found : List Contact} {now : Int} (hid : ∀ {id c}, read id = some c → c.id = id) (hne : chunk ≠ [])
    (hfound : ∀ c, c ∈ found ↔ ∃ id ∈ chunk, read id = some c) (hnow : found ≠ [] → clock now)
    (h : Follows clock read before wanted unwanted ds us ⟨coming, chunk, removals, writes, failed⟩ store) :
    Follows clock read before wanted unwanted ds us
      ⟨coming, [], removals, writes ++ Corpus.drafts unwanted now found store, failed⟩ store := by
  have hnodup := List.nodup_append.mp h.nodup
  -- a contact that is read is compared with what was stored at the beginning
  have hkept : ∀ {id}, id ∈ chunk → Corpus.kept unwanted store id = Corpus.kept unwanted before id := by
    intro id hc
    unfold Corpus.kept
    by_cases hu : id ∈ unwanted
    · rw [if_pos hu, if_pos hu]
    · rw [if_neg hu, if_neg hu, h.untouched id (List.mem_append_left _ hc) hu]
  have hmeant : ∀ {id c}, id ∈ chunk → read id = some c →
      Meant clock read before wanted unwanted id (some (.refreshed c now (Corpus.kept unwanted store id))) := by
    intro id c hc hr
    refine ⟨now, hnow (List.ne_nil_of_mem ((hfound c).mpr ⟨id, hc, hr⟩)), ?_⟩
    rw [Corpus.reference_of_read (h.listed id (List.mem_append_left _ hc)) hr, hkept hc]
  refine ⟨h.left.mono fun _ => .inl hne, h.doomed, fun id hid => h.listed id (List.mem_append_right _ hid), hnodup.2.1,
    fun id hid => h.untouched id (List.mem_append_right _ hid), fun doc hd => ?_, fun id => ?_⟩
  · cases List.mem_append.mp hd with
    | inl hd => exact ⟨fun hus => (h.drafted doc hd).1 (List.mem_append_right _ hus), (h.drafted doc hd).2⟩
    | inr hd =>
      obtain ⟨hchunk, c, -, hr, hx⟩ := Corpus.found_of_mem_drafts hid hfound hd
      cases Document.indexable_diff c now (Corpus.kept unwanted store doc.id) with
      | inl hsome =>
        have hm := hmeant hchunk hr
        rw [← hsome, hx] at hm
        exact ⟨fun hus => hnodup.2.2 _ hchunk _ hus rfl, hm⟩
      | inr hnone =>
        rw [hnone.1] at hx
        cases hx
  · rcases h.settled id with ⟨hmem, hread⟩ | ⟨doc, hd, hdoc⟩ | hset | hset
    · cases List.mem_append.mp hmem with
      | inr hus => exact .inl ⟨hus, hread⟩
      | inl hchunk =>
        obtain ⟨c, hr⟩ := Option.isSome_iff_exists.mp hread
        obtain rfl := hid hr
        cases Document.indexable_diff c now (Corpus.kept unwanted store c.id) with
        | inl hsome =>
          have hdraft := Corpus.mem_drafts.mpr ⟨c, (hfound c).mpr ⟨_, hchunk, hr⟩, hsome⟩
          exact .inr (.inl ⟨_, List.mem_append_right _ hdraft, (Diffed.id_of_indexable hsome).1⟩)
        | inr hnone =>
          have hstored := hnone.2
          unfold Corpus.kept at hstored
          by_cases hu : c.id ∈ unwanted
          · simp [hu] at hstored
          · have hm := hmeant hchunk hr
            rw [← hnone.2, Corpus.kept, if_neg hu] at hm
            exact .inr (.inr (.inr ⟨fun hdoomed => hu (h.doomed _ hdoomed), hm⟩))
    · exact .inr (.inl ⟨doc, List.mem_append_left _ hd, hdoc⟩)
    · exact .inr (.inr (.inl hset))
    · exact .inr (.inr (.inr hset))

variable {σ : Type} {env : Environment σ}

theorem kept (hid : ∀ {id c}, read id = some c → c.id = id) : Alone.Kept env read unwanted fun desk store =>
    ¬ desk.failed → ∃ ds us, Follows env.clock read before wanted unwanted ds us desk store where
  deletion hi hn := by
    obtain ⟨ds, us, h⟩ := hi hn
    obtain ⟨rest, h⟩ := h.deletion
    exact ⟨rest, us, h⟩
  update hi hn := by
    obtain ⟨ds, us, h⟩ := hi hn
    obtain ⟨rest, h⟩ := h.update
    exact ⟨[], rest, h⟩
  removed hi hn := by
    obtain ⟨ds, us, h⟩ := hi hn
    exact ⟨ds, us, h.removed⟩
  written hne hi hn := by
    have hn := not_or.mp hn
    obtain ⟨ds, us, h⟩ := hi hn.1
    exact ⟨ds, us, h.written hne (by simpa using hn.2)⟩
  compared hne hi hfound hnow hn := by
    obtain ⟨ds, us, h⟩ := hi hn
    exact ⟨ds, us, h.compared hid hne hfound hnow⟩

theorem finish (h : Follows clock read before wanted unwanted ds us ⟨[], [], [], [], failed⟩ store) (id : String) :
    Meant clock read before wanted unwanted id (store.get? id) := by
  obtain ⟨rfl, rfl⟩ : ds = [] ∧ us = [] := by simpa using h.left.coming
  simpa using h.settled id

end Follows

/-! ## The whole update -/

/-- One update of the corpus leaves what the reference says, whatever the batch sizes are. -/
theorem update_reference (provider : Provider) (time : Int) (policy : Policy) (stats : Stats) (w : Collaborators)
    (wanted unwanted : List String) (hw : wanted.Nodup) (hcapacity : w.store.capacity = none) :
    ((Corpus.update policy wanted unwanted stats).run (provider.surroundings fun _ => time) w).1.1 = .ok .completed ∧
      ∀ id, ((Corpus.update policy wanted unwanted stats).run (provider.surroundings fun _ => time) w).2.store.get? id =
        Corpus.reference provider.read w.store wanted unwanted time id := by
  let env := (provider.surroundings fun _ => time).environment
  have hkept : Alone.Kept env provider.read unwanted fun desk store => ¬ desk.failed →
      ∃ ds us, Follows env.clock provider.read w.store wanted unwanted ds us desk store := Follows.kept provider.id_eq
  have hstart : Follows env.clock provider.read w.store wanted unwanted unwanted wanted
    ⟨unwanted.map .deleted ++ wanted.map .updated, [], [], [], False⟩ w.store := .start hw ⟨time, w, rfl⟩
  have hall := (provider.alone fun _ => time).apply ((Alone.kept_unbounded env provider.read unwanted).and hkept)
    (fun _ _ _ => trivial) policy stats (fun _ _ hi => hi.1.2) (Candidate.deletedIds_update unwanted wanted)
    ⟨⟨hcapacity, id⟩, fun _ => ⟨_, _, hstart⟩⟩ trivial
  obtain ⟨hcompleted, ⟨-, hfollows⟩, -⟩ := hall.run (provider.plain _)
  obtain ⟨ds, us, hfollows⟩ := hfollows id
  refine ⟨hcompleted, fun id => ?_⟩
  obtain ⟨now, ⟨_, hnow⟩, hmeant⟩ := hfollows.finish id
  cases hnow
  exact hmeant.symm

def Collaborators.halfStale : Collaborators :=
  { fresh none with
    store := ((DocumentStore.empty none).put
      [.ofContact (.named "a" "Ada") 5, .ofContact (.named "b" "Bob") 5]).2 }

theorem update_reference_readded :
    ((Corpus.update ⟨⟨1, 3⟩, false⟩ ["a"] ["b", "a"] (.start .full 0)).run
        ((Provider.only (.named "a" "Ada")).surroundings fun _ => 1000) .halfStale).1.1 = .ok .completed ∧
      Corpus.reference (Provider.only (.named "a" "Ada")).read Collaborators.halfStale.store ["a"] ["b", "a"] 1000 "a" =
        some (.ofContact (.named "a" "Ada") 1000) ∧
      ((Corpus.update ⟨⟨1, 3⟩, false⟩ ["a"] ["b", "a"] (.start .full 0)).run
        ((Provider.only (.named "a" "Ada")).surroundings fun _ => 1000) .halfStale).2.store.get? "a" =
        some (.ofContact (.named "a" "Ada") 1000) := by
  have h := update_reference (.only (.named "a" "Ada")) 1000 ⟨⟨1, 3⟩, false⟩ (.start .full 0) .halfStale
    ["a"] ["b", "a"] (by decide) rfl
  exact ⟨h.1, rfl, h.2 "a"⟩

end ContactsIndex
