import ContactsIndex.Proofs.Source.AddressBook

/-!
# The newest contacts

A provider whose records are stored under their own ids lists the newest contacts, as many
as the limit allows: `newest_listed`. From the watermark of a listing nothing is listed again
(`updatedRows_eq_nil`, `deletedRows_eq_nil`).
-/

namespace ContactsIndex.AddressBook

def listed (book : AddressBook) (since : Int) (limit : Limit) : List String :=
  (Listing.ofRows since (book.updatedRows since limit) limit).ids

/-- The ids of the newest contacts that were touched after `since`, as many as the limit allows. -/
structure Newest (book : AddressBook) (since : Int) (limit : Limit) (ids : List String) : Prop where
  nodup : ids.Nodup
  touched : ∀ id ∈ ids, ∃ c, book.get? id = some c ∧ since < c.lastUpdated
  newer : ∀ {id other c d}, id ∈ ids → book.get? id = some c → other ∉ ids → book.get? other = some d →
    since < d.lastUpdated → d.lastUpdated ≤ c.lastUpdated
  length : ids.length = (limit.take (book.contacts.values.filter (since < ·.lastUpdated))).length

variable {book : AddressBook} {since : Int} {limit : Limit}

theorem mem_updatedRows_unlimited {row : ChangeRow} : row ∈ book.updatedRows since .unlimited ↔
    ∃ c ∈ book.contacts.values, since < c.lastUpdated ∧ ⟨c.id, c.lastUpdated⟩ = row := by
  simp only [updatedRows, Limit.take, List.mem_mergeSort, List.mem_map, List.mem_filter, decide_eq_true_eq, and_assoc]

theorem updatedRows_eq (book : AddressBook) (since : Int) (limit : Limit) :
    book.updatedRows since limit = Listing.newest since limit (book.updatedRows since .unlimited) := by
  have hall : (book.updatedRows since .unlimited).filter (since < ·.stamp) = book.updatedRows since .unlimited := by
    refine List.filter_eq_self.mpr fun row hr => ?_
    obtain ⟨c, -, hs, rfl⟩ := mem_updatedRows_unlimited.mp hr
    exact decide_eq_true hs
  rw [Listing.newest, hall]
  rfl

theorem pairwise_updatedRows (book : AddressBook) (since : Int) :
    (book.updatedRows since .unlimited).Pairwise fun a b => b.stamp ≤ a.stamp := by
  have htrans : ∀ a b c : ChangeRow, decide (b.stamp ≤ a.stamp) = true → decide (c.stamp ≤ b.stamp) = true →
      decide (c.stamp ≤ a.stamp) = true := by
    intro a b c hab hbc
    simp only [decide_eq_true_eq] at *
    omega
  have htotal : ∀ a b : ChangeRow, (decide (b.stamp ≤ a.stamp) || decide (a.stamp ≤ b.stamp)) = true := by
    intro a b
    simp only [Bool.or_eq_true, decide_eq_true_eq]
    omega
  have hpairwise := List.pairwise_mergeSort htrans htotal
    ((book.contacts.values.filter (since < ·.lastUpdated)).map fun c => ⟨c.id, c.lastUpdated⟩)
  exact hpairwise.imp fun hle => by simpa using hle

theorem length_updatedRows (book : AddressBook) (since : Int) (limit : Limit) :
    (book.updatedRows since limit).length =
      (limit.take (book.contacts.values.filter (since < ·.lastUpdated))).length := by
  cases limit with
  | unlimited => simp [updatedRows, Limit.take, List.length_mergeSort]
  | atMost n => simp [updatedRows, Limit.take, List.length_mergeSort]

/-! ## Behind the watermarks -/

/-- What a listing has seen is not listed again from its watermark, whatever the limits are. -/
theorem updatedRows_eq_nil {mark : Int} {limit' : Limit} (hlimit : limit ≠ .atMost 0) (hsince : since ≤ mark)
    (hmark : (Listing.ofRows since (book.updatedRows since limit) limit).watermark ≤ mark) :
    book.updatedRows mark limit' = [] := by
  have hnone : ∀ row, row ∉ book.updatedRows mark .unlimited := by
    intro row hr
    obtain ⟨c, hc, hlt, rfl⟩ := mem_updatedRows_unlimited.mp hr
    have hrow : ⟨c.id, c.lastUpdated⟩ ∈ book.updatedRows since .unlimited :=
      mem_updatedRows_unlimited.mpr ⟨c, hc, Int.lt_of_le_of_lt hsince hlt, rfl⟩
    have hle : c.lastUpdated ≤ (Listing.ofRows since (book.updatedRows since limit) limit).watermark := by
      rw [updatedRows_eq]
      exact Listing.stamp_le_watermark_limited (pairwise_updatedRows book since) hlimit hrow
    omega
  rw [updatedRows_eq]
  exact List.sublist_nil.mp (List.eq_nil_iff_forall_not_mem.mpr hnone ▸ Listing.newest_sublist)

theorem deletedRows_eq_nil {mark : Int} (hsince : since ≤ mark)
    (hmark : (Listing.ofRows since (book.deletedRows since) .unlimited).watermark ≤ mark) :
    book.deletedRows mark = [] := by
  refine List.filter_eq_nil_iff.mpr fun row hr hlt => ?_
  have hlt : mark < row.stamp := of_decide_eq_true hlt
  have hrow : row ∈ book.deletedRows since :=
    List.mem_filter.mpr ⟨hr, decide_eq_true (Int.lt_of_le_of_lt hsince hlt)⟩
  have hle := Listing.stamp_le_watermark since hrow
  omega

section

variable (h : ∀ {id c}, book.get? id = some c → c.id = id)

include h

theorem nodup_values : (book.contacts.values.map (·.id)).Nodup := by
  have hkeys : book.contacts.values.map (·.id) = book.contacts.keys := by
    rw [values_eq, ← Std.TreeMap.map_fst_toList_eq_keys, List.map_map]
    refine List.map_congr_left fun entry hm => h ?_
    exact Std.TreeMap.mem_toList_iff_getElem?_eq_some.mp hm
  exact hkeys ▸ Std.TreeMap.nodup_keys

theorem nodup_updatedRows (since : Int) : ((book.updatedRows since .unlimited).map (·.id)).Nodup := by
  have hperm : (book.updatedRows since .unlimited).Perm
      ((book.contacts.values.filter (since < ·.lastUpdated)).map fun c => ⟨c.id, c.lastUpdated⟩) :=
    List.mergeSort_perm ..
  rw [(hperm.map _).nodup_iff, List.map_map]
  exact (nodup_values h).sublist (List.filter_sublist.map _)

omit h in
theorem mem_listed {id : String} : id ∈ book.listed since limit ↔
    id ∈ (Listing.newest since limit (book.updatedRows since .unlimited)).map (·.id) := by
  rw [listed, updatedRows_eq, Listing.mem_ids_newest]

theorem newest_listed (since : Int) (limit : Limit) : book.Newest since limit (book.listed since limit) where
  nodup := Listing.nodup_ids_ofRows ..
  touched id hid := by
    obtain ⟨row, hr, rfl⟩ := List.mem_map.mp (mem_listed.mp hid)
    obtain ⟨c, hg, hs, -⟩ := (mem_updatedRows h).mp (Listing.newest_sublist.subset hr)
    exact ⟨c, hg, hs⟩
  newer {id other c d} hid hg hother hd hs := by
    obtain ⟨row, hr, rfl⟩ := List.mem_map.mp (mem_listed.mp hid)
    obtain ⟨c', hg', -, hstamp⟩ := (mem_updatedRows h).mp (Listing.newest_sublist.subset hr)
    rw [hg] at hg'
    cases hg'
    have hrow : ⟨other, d.lastUpdated⟩ ∈ book.updatedRows since .unlimited := (mem_updatedRows h).mpr ⟨d, hd, hs, rfl⟩
    have hcut : ⟨other, d.lastUpdated⟩ ∉ Listing.newest since limit (book.updatedRows since .unlimited) :=
      fun hm => hother (mem_listed.mpr (List.mem_map_of_mem hm))
    rw [← hstamp]
    exact Listing.stamp_le_of_cut_off (pairwise_updatedRows book since) hrow hs hcut hr
  length := by
    have hnodup : ((Listing.newest since limit (book.updatedRows since .unlimited)).map (·.id)).Nodup :=
      (nodup_updatedRows h since).sublist (Listing.newest_sublist.map _)
    rw [← length_updatedRows, listed, updatedRows_eq, Listing.ofRows_newest]
    apply Nat.le_antisymm
    · rw [Listing.length_ids_unlimited]
      exact Nat.le_trans (ChangeRow.length_firsts_le _) (Listing.length_recent_le ..)
    · exact (Listing.reached_iff_nodup fun _ => Listing.lt_stamp_newest).mpr hnodup

end

end ContactsIndex.AddressBook
