import ContactsIndex.Proofs.Source.Listing
import ContactsIndex.Source.Query

/-!
# What a listing ranks

The rows of a query say of each contact when it was last touched, in whatever order they are
given and however often they name it. A listing ranks the contacts that were touched after
`since`, the last touched first and those of one time by id. There is one such ranking
(`Ranks.unique`), a listing is as much of it as the limit allows, and its watermark is the
newest time of all rows, from which the same rows list nothing more (`listing_exact`).
-/

namespace ContactsIndex

namespace ChangeRow

def LastTouched (rows : List ChangeRow) (id : String) (time : Int) : Prop :=
  ⟨id, time⟩ ∈ rows ∧ ∀ row ∈ rows, row.id = id → row.stamp ≤ time

variable {rows : List ChangeRow} {row : ChangeRow} {id : String} {time time' : Int}

theorem LastTouched.unique (h : LastTouched rows id time) (h' : LastTouched rows id time') : time = time' :=
  Int.le_antisymm (h'.2 _ h.1 rfl) (h.2 _ h'.1 rfl)

theorem lastTouched_of_mem_firsts : ∀ {rows : List ChangeRow}, rows.Pairwise (before · ·) → row ∈ firsts rows →
    LastTouched rows row.id row.stamp
  | head :: rows, hrows, hr => by
    obtain ⟨hhead, hrest⟩ := List.pairwise_cons.mp hrows
    rcases List.mem_cons.mp hr with rfl | hr
    · refine ⟨List.mem_cons_self .., fun other ho _ => ?_⟩
      rcases List.mem_cons.mp ho with rfl | ho
      · exact Int.le_refl _
      · exact stamp_le_of_before (hhead other ho)
    · obtain ⟨hr, hne⟩ := List.mem_filter.mp hr
      obtain ⟨hmem, hall⟩ := lastTouched_of_mem_firsts hrest hr
      refine ⟨List.mem_cons_of_mem _ hmem, fun other ho hid => ?_⟩
      rcases List.mem_cons.mp ho with rfl | ho
      · exact absurd hid.symm (of_decide_eq_true hne)
      · exact hall other ho hid

theorem lt_or_of_before {a b : ChangeRow} (h : before a b = true) (hid : a.id ≠ b.id) :
    b.stamp < a.stamp ∨ a.stamp = b.stamp ∧ a.id < b.id := by
  simp only [before, Bool.or_eq_true, Bool.and_eq_true, decide_eq_true_eq] at h
  exact h.imp_right fun hsame => ⟨hsame.1, Std.lt_of_le_of_ne hsame.2 hid⟩

end ChangeRow

namespace Listing

open ChangeRow (LastTouched firsts)

variable {since : Int} {rows : List ChangeRow} {limit : Limit} {ids ids' : List String}

/-- The contacts that were touched after `since`, each one once: who was touched later comes first,
and of those who were touched at one time the one with the lesser id. -/
structure Ranks (since : Int) (rows : List ChangeRow) (ids : List String) : Prop where
  nodup : ids.Nodup
  mem_iff : ∀ id, id ∈ ids ↔ ∃ time, LastTouched rows id time ∧ since < time
  ordered : ids.Pairwise fun a b =>
    ∀ s t, LastTouched rows a s → LastTouched rows b t → t < s ∨ s = t ∧ a < b

theorem Ranks.unique (h : Ranks since rows ids) (h' : Ranks since rows ids') : ids = ids' := by
  have hperm : ids.Perm ids' :=
    (List.perm_ext_iff_of_nodup h.nodup h'.nodup).mpr fun id => (h.mem_iff id).trans (h'.mem_iff id).symm
  -- no two contacts of the ranking are both before each other
  refine hperm.eq_of_pairwise (fun a b ha hb hab hba => ?_) h.ordered h'.ordered
  obtain ⟨s, hs, -⟩ := (h.mem_iff a).mp ha
  obtain ⟨t, ht, -⟩ := (h'.mem_iff b).mp hb
  rcases hab s t hs ht with hlt | ⟨rfl, hlt⟩
  · rcases hba t s ht hs with hlt' | ⟨rfl, -⟩
    · exact absurd hlt' (Int.lt_asymm hlt)
    · exact absurd hlt (Int.lt_irrefl _)
  · rcases hba s s ht hs with hlt' | ⟨-, hlt'⟩
    · exact absurd hlt' (Int.lt_irrefl _)
    · exact absurd hlt' (String.lt_asymm hlt)

theorem lastTouched_recent {id : String} {time : Int} :
    LastTouched (recent since rows) id time ↔ LastTouched rows id time ∧ since < time := by
  constructor
  · rintro ⟨hmem, hall⟩
    obtain ⟨hr, hs⟩ := mem_recent.mp hmem
    refine ⟨⟨hr, fun row hrow hid => ?_⟩, hs⟩
    by_cases hlt : since < row.stamp
    · exact hall row (mem_recent.mpr ⟨hrow, hlt⟩) hid
    · exact Int.le_trans (Int.not_lt.mp hlt) (Int.le_of_lt hs)
  · rintro ⟨⟨hmem, hall⟩, hs⟩
    exact ⟨mem_recent.mpr ⟨hmem, hs⟩, fun row hrow hid => hall row (mem_recent.mp hrow).1 hid⟩

theorem ranks_firsts (since : Int) (rows : List ChangeRow) :
    Ranks since rows ((firsts (recent since rows)).map (·.id)) := by
  have hrecent := pairwise_recent since rows
  have htouched : ∀ row ∈ firsts (recent since rows), LastTouched rows row.id row.stamp ∧ since < row.stamp :=
    fun row hr => lastTouched_recent.mp (ChangeRow.lastTouched_of_mem_firsts hrecent hr)
  refine ⟨ChangeRow.nodup_firsts _, fun id => ⟨fun hid => ?_, ?_⟩, ?_⟩
  · obtain ⟨row, hr, rfl⟩ := List.mem_map.mp hid
    exact ⟨row.stamp, htouched row hr⟩
  · rintro ⟨time, hlast⟩
    obtain ⟨first, hf, hid, -⟩ := ChangeRow.exists_mem_firsts hrecent (lastTouched_recent.mpr hlast).1
    exact List.mem_map.mpr ⟨first, hf, hid⟩
  · have hdistinct := List.pairwise_map.mp (ChangeRow.nodup_firsts (recent since rows))
    have hboth := (hrecent.sublist (ChangeRow.firsts_sublist _)).and hdistinct
    refine List.pairwise_map.mpr (hboth.imp_of_mem fun {a b} ha hb hab s t hs ht => ?_)
    rw [hs.unique (htouched a ha).1, ht.unique (htouched b hb).1]
    exact ChangeRow.lt_or_of_before hab.1 hab.2

/-! ## The watermark -/

theorem ids_ofRows (since : Int) (rows : List ChangeRow) (limit : Limit) :
    (ofRows since rows limit).ids = limit.take ((firsts (recent since rows)).map (·.id)) :=
  limit.map_take ChangeRow.id _

theorem ofRows_of_recent_eq_nil (limit : Limit) (h : recent since rows = []) : ofRows since rows limit = ⟨[], since⟩ := by
  unfold recent at h
  unfold ofRows
  rw [h]
  simp [Limit.take_nil, firsts]

theorem ofRows_of_stamp_le (limit : Limit) (h : ∀ row ∈ rows, row.stamp ≤ since) :
    ofRows since rows limit = ⟨[], since⟩ := by
  refine ofRows_of_recent_eq_nil limit (List.eq_nil_iff_forall_not_mem.mpr fun row hr => ?_)
  obtain ⟨hr, hs⟩ := mem_recent.mp hr
  exact absurd hs (Int.not_lt.mpr (h row hr))

theorem stamp_le_head {head row : ChangeRow} {rest : List ChangeRow} (hrecent : recent since rows = head :: rest)
    (hr : row ∈ rows) : row.stamp ≤ head.stamp := by
  have hs : since < head.stamp := (mem_recent.mp (hrecent ▸ List.mem_cons_self ..)).2
  have hsorted := pairwise_recent since rows
  rw [hrecent] at hsorted
  by_cases hlt : since < row.stamp
  · have hmem : row ∈ head :: rest := hrecent ▸ mem_recent.mpr ⟨hr, hlt⟩
    rcases List.mem_cons.mp hmem with rfl | hmem
    · exact Int.le_refl _
    · exact ChangeRow.stamp_le_of_before ((List.pairwise_cons.mp hsorted).1 row hmem)
  · exact Int.le_trans (Int.not_lt.mp hlt) (Int.le_of_lt hs)

theorem watermark_eq_stamp_head {head : ChangeRow} {rest : List ChangeRow} (hrecent : recent since rows = head :: rest)
    (hlimit : limit ≠ .atMost 0) : (ofRows since rows limit).watermark = head.stamp := by
  have hmark : (ofRows since rows limit).watermark =
      ((limit.take (firsts (head :: rest))).map (·.stamp)).foldl max since := by
    rw [← hrecent]
    rfl
  obtain ⟨more, hkept⟩ := Limit.take_cons hlimit head ((firsts rest).filter (·.id ≠ head.id))
  have hmem : head ∈ limit.take (firsts (head :: rest)) := hkept ▸ List.mem_cons_self ..
  have hs : since < head.stamp := (mem_recent.mp (hrecent ▸ List.mem_cons_self ..)).2
  rw [hmark]
  refine Int.le_antisymm (foldl_max_le _ _ (Int.le_of_lt hs) fun time ht => ?_)
    (le_foldl_max _ _ _ (.inr (List.mem_map_of_mem hmem)))
  obtain ⟨row, hr, rfl⟩ := List.mem_map.mp ht
  have hr : row ∈ recent since rows := hrecent ▸ ChangeRow.mem_of_mem_firsts ((limit.take_sublist _).subset hr)
  exact stamp_le_head hrecent (mem_recent.mp hr).1

end Listing

theorem Source.listing_rows (query : String) (since : Int) (limit : Limit) (rows : List ChangeRow) :
    listing query since limit (.ok (some rows)) = pure (.ok (.ofRows since rows limit)) :=
  rfl

/-- Whatever rows the provider gives, there is one ranking of the contacts they touch after `since`. The
listing is as much of it as the limit allows, its watermark is the newest time there is if it holds
anything, and the same rows list nothing after that. -/
theorem listing_exact (since : Int) (rows : List ChangeRow) (limit : Limit) :
    ∃ ranked watermark, (∀ ids, Listing.Ranks since rows ids ↔ ids = ranked) ∧
      (∀ query, Source.listing query since limit (.ok (some rows)) = pure (.ok ⟨limit.take ranked, watermark⟩)) ∧
      (if limit.take ranked = [] then watermark = since
        else (∃ row ∈ rows, row.stamp = watermark) ∧ ∀ row ∈ rows, row.stamp ≤ watermark) ∧
      (limit = .atMost 0 ∨ ∀ query again,
        Source.listing query watermark again (.ok (some rows)) = pure (.ok ⟨[], watermark⟩)) := by
  have hranks := Listing.ranks_firsts since rows
  refine ⟨_, (Listing.ofRows since rows limit).watermark, fun ids => ⟨fun h => h.unique hranks, fun h => h ▸ hranks⟩,
    fun query => ?_, ?_⟩
  · rw [Source.listing_rows, ← Listing.ids_ofRows]
  simp only [Source.listing_rows]
  cases hrecent : Listing.recent since rows with
  | nil =>
    have hnone := fun limit => Listing.ofRows_of_recent_eq_nil limit hrecent
    rw [hnone limit, ChangeRow.firsts, List.map_nil, Limit.take_nil, if_pos rfl]
    exact ⟨rfl, .inr fun query again => by rw [hnone again]⟩
  | cons head rest =>
    by_cases hlimit : limit = .atMost 0
    · subst hlimit
      exact ⟨rfl, .inl rfl⟩
    · obtain ⟨more, htake⟩ := Limit.take_cons hlimit head.id (((ChangeRow.firsts rest).filter (·.id ≠ head.id)).map (·.id))
      have hhead : head ∈ rows := (Listing.mem_recent.mp (hrecent ▸ List.mem_cons_self ..)).1
      have hall : ∀ row ∈ rows, row.stamp ≤ head.stamp := fun row => Listing.stamp_le_head hrecent
      rw [Listing.watermark_eq_stamp_head hrecent hlimit, ChangeRow.firsts, List.map_cons, htake,
        if_neg (List.cons_ne_nil _ _)]
      exact ⟨⟨⟨head, hhead, rfl⟩, hall⟩, .inr fun query again => by rw [Listing.ofRows_of_stamp_le again hall]⟩

end ContactsIndex
