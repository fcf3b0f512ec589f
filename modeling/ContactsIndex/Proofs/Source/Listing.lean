import ContactsIndex.Source.Listing

/-!
# What a listing covers

Without a limit a listing holds exactly the contacts with a row newer than `since`
(`mem_ids_ofRows`), and its watermark is the newest time there is: no row is newer
(`stamp_le_watermark`), and it is `since` or the time of a row (`watermark_le`).
A limit that the rows keep to cuts nothing off (`ofRows_of_length_le`), and it is reached
by the contacts only if no row repeats one (`reached_iff_nodup`). So where a provider cuts
off its rows, the listing shows it only if no row that is left repeats a contact
(`unseen_iff`). The watermark leaves behind all rows, those that were cut off too
(`stamp_le_watermark_limited`).
-/

namespace ContactsIndex

namespace Limit

variable {α : Type} {limit : Limit}

theorem take_sublist (limit : Limit) (xs : List α) : (limit.take xs).Sublist xs := by
  cases limit with
  | unlimited => exact .refl _
  | atMost n => exact List.take_sublist ..

theorem take_nil (limit : Limit) : limit.take ([] : List α) = [] :=
  List.sublist_nil.mp (limit.take_sublist [])

theorem take_cons (h : limit ≠ .atMost 0) (x : α) (xs : List α) : ∃ rest, limit.take (x :: xs) = x :: rest := by
  cases limit with
  | unlimited => exact ⟨xs, rfl⟩
  | atMost n =>
    cases n with
    | zero => exact absurd rfl h
    | succ n => exact ⟨xs.take n, rfl⟩

theorem map_take {β : Type} (f : α → β) (limit : Limit) (xs : List α) :
    (limit.take xs).map f = limit.take (xs.map f) := by
  cases limit with
  | unlimited => rfl
  | atMost n => exact List.map_take

end Limit

namespace ChangeRow

theorem before_trans (a b c : ChangeRow) (hab : before a b = true) (hbc : before b c = true) :
    before a c = true := by
  simp only [before, Bool.or_eq_true, Bool.and_eq_true, decide_eq_true_eq] at *
  rcases hab with hab | ⟨hab, hid⟩ <;> rcases hbc with hbc | ⟨hbc, hid'⟩
  · exact .inl (by omega)
  · exact .inl (by omega)
  · exact .inl (by omega)
  · exact .inr ⟨by omega, String.le_trans hid hid'⟩

theorem before_total (a b : ChangeRow) : (before a b || before b a) = true := by
  simp only [before, Bool.or_eq_true, Bool.and_eq_true, decide_eq_true_eq]
  rcases Int.lt_trichotomy a.stamp b.stamp with h | h | h
  · exact .inr (.inl h)
  · rcases String.le_total a.id b.id with hid | hid
    · exact .inl (.inr ⟨h, hid⟩)
    · exact .inr (.inr ⟨h.symm, hid⟩)
  · exact .inl (.inl h)

theorem stamp_le_of_before {a b : ChangeRow} (h : before a b = true) : b.stamp ≤ a.stamp := by
  simp only [before, Bool.or_eq_true, Bool.and_eq_true, decide_eq_true_eq] at h
  omega

theorem firsts_sublist : ∀ rows : List ChangeRow, (firsts rows).Sublist rows
  | [] => .slnil
  | _ :: rows => (List.filter_sublist.trans (firsts_sublist rows)).cons_cons _

theorem mem_of_mem_firsts {row : ChangeRow} {rows : List ChangeRow} (h : row ∈ firsts rows) : row ∈ rows :=
  (firsts_sublist rows).subset h

theorem exists_mem_firsts {row : ChangeRow} : ∀ {rows : List ChangeRow},
    rows.Pairwise (before · ·) → row ∈ rows → ∃ first ∈ firsts rows, first.id = row.id ∧
    row.stamp ≤ first.stamp
  | head :: rows, hp, hr => by
    rw [List.pairwise_cons] at hp
    rcases List.mem_cons.mp hr with rfl | hr
    · exact ⟨row, List.mem_cons_self .., rfl, Int.le_refl _⟩
    · by_cases hid : head.id = row.id
      · exact ⟨head, List.mem_cons_self .., hid, stamp_le_of_before (hp.1 row hr)⟩
      · obtain ⟨first, hf, hfid, hs⟩ := exists_mem_firsts hp.2 hr
        refine ⟨first, List.mem_cons_of_mem _ (List.mem_filter.mpr ⟨hf, ?_⟩), hfid, hs⟩
        simpa [hfid] using Ne.symm hid

theorem length_firsts_le (rows : List ChangeRow) : (firsts rows).length ≤ rows.length :=
  (firsts_sublist rows).length_le

theorem mem_ids_firsts {id : String} : ∀ {rows : List ChangeRow},
    id ∈ (firsts rows).map (·.id) ↔ id ∈ rows.map (·.id)
  | [] => by simp [firsts]
  | row :: rows => by
    have ih : id ∈ (firsts rows).map (·.id) ↔ id ∈ rows.map (·.id) := mem_ids_firsts
    by_cases h : id = row.id
    · simp [firsts, h]
    · simp only [List.mem_map] at ih
      simp only [firsts, List.map_cons, List.mem_cons, h, false_or, List.mem_map, List.mem_filter, ← ih]
      constructor
      · rintro ⟨first, ⟨hf, -⟩, rfl⟩
        exact ⟨first, hf, rfl⟩
      · rintro ⟨first, hf, rfl⟩
        exact ⟨first, ⟨hf, by simpa using h⟩, rfl⟩

theorem nodup_firsts : ∀ rows : List ChangeRow, ((firsts rows).map (·.id)).Nodup
  | [] => List.nodup_nil
  | row :: rows => by
    rw [firsts, List.map_cons, List.nodup_cons]
    refine ⟨by simp, ?_⟩
    exact (nodup_firsts rows).sublist (List.filter_sublist.map _)

theorem length_firsts_eq_iff : ∀ {rows : List ChangeRow},
    (firsts rows).length = rows.length ↔ (rows.map (·.id)).Nodup
  | [] => by simp [firsts]
  | row :: rows => by
    have ih : (firsts rows).length = rows.length ↔ (rows.map (·.id)).Nodup := length_firsts_eq_iff
    have hle := length_firsts_le rows
    have hfilter := List.length_filter_le (·.id ≠ row.id) (firsts rows)
    have hnew : row.id ∉ rows.map (·.id) ↔
        ((firsts rows).filter (·.id ≠ row.id)).length = (firsts rows).length := by
      rw [← mem_ids_firsts, List.length_filter_eq_length_iff]
      simp
    simp only [firsts, List.length_cons, List.map_cons, List.nodup_cons, ← ih, hnew]
    omega

end ChangeRow

theorem le_foldl_max (x : Int) : ∀ (times : List Int) (start : Int),
    x = start ∨ x ∈ times → x ≤ times.foldl max start
  | [], start, h => by rcases h with rfl | h; exact Int.le_refl _; cases h
  | t :: times, start, h => by
    have hmax : max start t ≤ times.foldl max (max start t) := le_foldl_max _ times _ (.inl rfl)
    rcases h with rfl | h
    · exact Int.le_trans (Int.le_max_left ..) hmax
    · rcases List.mem_cons.mp h with rfl | h
      · exact Int.le_trans (Int.le_max_right ..) hmax
      · exact le_foldl_max x times _ (.inr h)

theorem foldl_max_le {bound : Int} : ∀ (times : List Int) (start : Int), start ≤ bound →
    (∀ t ∈ times, t ≤ bound) →
    times.foldl max start ≤ bound
  | [], _, h, _ => h
  | t :: times, start, h, ht =>
    foldl_max_le times (max start t) (Int.max_le.mpr ⟨h, ht t (List.mem_cons_self ..)⟩)
      fun u hu => ht u (List.mem_cons_of_mem _ hu)

namespace Listing

variable {since bound : Int} {rows : List ChangeRow} {row : ChangeRow}

def recent (since : Int) (rows : List ChangeRow) : List ChangeRow :=
  (rows.filter (since < ·.stamp)).mergeSort ChangeRow.before

theorem mem_recent : row ∈ recent since rows ↔ row ∈ rows ∧ since < row.stamp := by
  simp [recent]

theorem pairwise_recent (since : Int) (rows : List ChangeRow) :
    (recent since rows).Pairwise (ChangeRow.before · ·) :=
  List.pairwise_mergeSort ChangeRow.before_trans ChangeRow.before_total _

theorem ofRows_unlimited (since : Int) (rows : List ChangeRow) : ofRows since rows .unlimited =
    ⟨(ChangeRow.firsts (recent since rows)).map (·.id),
      ((ChangeRow.firsts (recent since rows)).map (·.stamp)).foldl max since⟩ := rfl

theorem ofRows_nil (since : Int) (limit : Limit) : ofRows since [] limit = ⟨[], since⟩ := by
  simp [ofRows, Limit.take_nil, ChangeRow.firsts]

theorem mem_ids_ofRows {id : String} :
    id ∈ (ofRows since rows .unlimited).ids ↔ ∃ row ∈ rows, row.id = id ∧ since < row.stamp := by
  rw [ofRows_unlimited, List.mem_map]
  constructor
  · rintro ⟨row, hr, rfl⟩
    obtain ⟨hm, hs⟩ := mem_recent.mp (ChangeRow.mem_of_mem_firsts hr)
    exact ⟨row, hm, rfl, hs⟩
  · rintro ⟨row, hr, rfl, hs⟩
    obtain ⟨first, hf, hid, _⟩ := ChangeRow.exists_mem_firsts (pairwise_recent since rows)
      (mem_recent.mpr ⟨hr, hs⟩)
    exact ⟨first, hf, hid⟩

theorem nodup_ids_ofRows (since : Int) (rows : List ChangeRow) (limit : Limit) :
    (ofRows since rows limit).ids.Nodup :=
  (ChangeRow.nodup_firsts (recent since rows)).sublist ((limit.take_sublist _).map _)

theorem since_le_watermark (since : Int) (rows : List ChangeRow) :
    since ≤ (ofRows since rows .unlimited).watermark := by
  rw [ofRows_unlimited]
  exact le_foldl_max _ _ _ (.inl rfl)

theorem stamp_le_watermark (since : Int) (hr : row ∈ rows) :
    row.stamp ≤ (ofRows since rows .unlimited).watermark := by
  by_cases hs : since < row.stamp
  · obtain ⟨first, hf, _, hle⟩ := ChangeRow.exists_mem_firsts (pairwise_recent since rows)
      (mem_recent.mpr ⟨hr, hs⟩)
    rw [ofRows_unlimited]
    exact Int.le_trans hle (le_foldl_max _ _ _ (.inr (List.mem_map_of_mem hf)))
  · exact Int.le_trans (Int.not_lt.mp hs) (since_le_watermark since rows)

theorem watermark_le (h : since ≤ bound) (hr : ∀ row ∈ rows, row.stamp ≤ bound) :
    (ofRows since rows .unlimited).watermark ≤ bound := by
  rw [ofRows_unlimited]
  apply foldl_max_le _ _ h
  intro t ht
  obtain ⟨row, hrow, rfl⟩ := List.mem_map.mp ht
  exact hr row (mem_recent.mp (ChangeRow.mem_of_mem_firsts hrow)).1

/-! ## Rows that keep to the limit -/

theorem length_ids_unlimited (since : Int) (rows : List ChangeRow) :
    (ofRows since rows .unlimited).ids.length = (ChangeRow.firsts (recent since rows)).length := by
  simp [ofRows_unlimited]

theorem length_recent_le (since : Int) (rows : List ChangeRow) :
    (recent since rows).length ≤ rows.length := by
  simp [recent, List.length_mergeSort, List.length_filter_le]

theorem ofRows_of_length_le {n : Nat} (h : rows.length ≤ n) :
    ofRows since rows (.atMost n) = ofRows since rows .unlimited := by
  have hlength : (ChangeRow.firsts (recent since rows)).length ≤ n :=
    Nat.le_trans (ChangeRow.length_firsts_le _) (Nat.le_trans (length_recent_le since rows) h)
  have htake := List.take_of_length_le hlength
  unfold ofRows Limit.take recent at *
  simp only [htake]

/-- As many rows as the limit allows name as many contacts only if none is named twice. -/
theorem reached_iff_nodup (h : ∀ row ∈ rows, since < row.stamp) :
    rows.length ≤ (ofRows since rows .unlimited).ids.length ↔ (rows.map (·.id)).Nodup := by
  have hperm : (recent since rows).Perm rows := by
    have hall : rows.filter (since < ·.stamp) = rows := by simpa using h
    unfold recent
    rw [hall]
    exact List.mergeSort_perm ..
  have hle := ChangeRow.length_firsts_le (recent since rows)
  rw [length_ids_unlimited, ← (hperm.map _).nodup_iff, ← ChangeRow.length_firsts_eq_iff, hperm.length_eq]
  rw [hperm.length_eq] at hle
  omega

/-! ## Rows that a provider cuts off -/

def newest (since : Int) (limit : Limit) (rows : List ChangeRow) : List ChangeRow :=
  limit.take (rows.filter (since < ·.stamp))

variable {limit : Limit}

theorem newest_sublist_filter : (newest since limit rows).Sublist (rows.filter (since < ·.stamp)) :=
  limit.take_sublist _

theorem newest_sublist : (newest since limit rows).Sublist rows :=
  newest_sublist_filter.trans List.filter_sublist

theorem lt_stamp_newest (h : row ∈ newest since limit rows) : since < row.stamp := by
  simpa using (List.mem_filter.mp (newest_sublist_filter.subset h)).2

theorem ofRows_newest : ofRows since (newest since limit rows) limit =
    ofRows since (newest since limit rows) .unlimited := by
  cases limit with
  | unlimited => rfl
  | atMost n => exact ofRows_of_length_le (List.length_take_le ..)

theorem mem_ids_newest {id : String} :
    id ∈ (ofRows since (newest since limit rows) limit).ids ↔
      id ∈ (newest since limit rows).map (·.id) := by
  rw [ofRows_newest, mem_ids_ofRows, List.mem_map]
  constructor
  · intro ⟨row, hr, hid, _⟩
    exact ⟨row, hr, hid⟩
  · intro ⟨row, hr, hid⟩
    exact ⟨row, hr, hid, lt_stamp_newest hr⟩

theorem cut_off (hr : row ∈ rows) (hs : since < row.stamp) (hn : row ∉ newest since limit rows) :
    ∃ n, limit = .atMost n ∧ (newest since limit rows).length = n ∧
      row ∈ (rows.filter (since < ·.stamp)).drop n := by
  have hmem : row ∈ rows.filter (since < ·.stamp) := List.mem_filter.mpr ⟨hr, by simpa using hs⟩
  cases limit with
  | unlimited => exact absurd hmem hn
  | atMost n =>
    have hdrop : row ∈ (rows.filter (since < ·.stamp)).drop n := by
      rw [← List.take_append_drop n (rows.filter _), List.mem_append] at hmem
      exact hmem.resolve_left hn
    have hlength := List.length_pos_of_mem hdrop
    rw [List.length_drop] at hlength
    refine ⟨n, rfl, ?_, hdrop⟩
    simp only [newest, Limit.take, List.length_take]
    omega

/-- A contact that was cut off goes unseen when the limit is not reached by the contacts left. -/
theorem unseen_iff (hr : row ∈ rows) (hs : since < row.stamp)
    (hid : row.id ∉ (newest since limit rows).map (·.id)) :
    limit.reachedBy (ofRows since (newest since limit rows) limit).ids.length = false ↔
      ¬ ((newest since limit rows).map (·.id)).Nodup := by
  obtain ⟨n, rfl, hlength, _⟩ := cut_off hr hs fun hmem => hid (List.mem_map_of_mem hmem)
  rw [← reached_iff_nodup fun _ => lt_stamp_newest, hlength, ofRows_newest]
  simp [Limit.reachedBy]

theorem stamp_le_of_cut_off {first : ChangeRow} (ho : rows.Pairwise fun a b => b.stamp ≤ a.stamp) (hr : row ∈ rows)
    (hs : since < row.stamp) (hn : row ∉ newest since limit rows) (hf : first ∈ newest since limit rows) :
    row.stamp ≤ first.stamp := by
  obtain ⟨n, rfl, _, hdrop⟩ := cut_off hr hs hn
  have hsplit := ho.filter (since < ·.stamp)
  rw [← List.take_append_drop n (rows.filter _), List.pairwise_append] at hsplit
  exact hsplit.2.2 first hf row hdrop

theorem stamp_le_watermark_newest (ho : rows.Pairwise fun a b => b.stamp ≤ a.stamp) (hr : row ∈ rows)
    (hs : since < row.stamp) (hn : row ∉ newest since limit rows) (hne : newest since limit rows ≠ []) :
    row.stamp ≤ (ofRows since (newest since limit rows) limit).watermark := by
  obtain ⟨first, hfirst⟩ := List.exists_mem_of_ne_nil _ hne
  rw [ofRows_newest]
  exact Int.le_trans (stamp_le_of_cut_off ho hr hs hn hfirst) (stamp_le_watermark since hfirst)

/-- Under any limit but none at all, the watermark leaves behind all that there is. -/
theorem stamp_le_watermark_limited (ho : rows.Pairwise fun a b => b.stamp ≤ a.stamp) (hlimit : limit ≠ .atMost 0)
    (hr : row ∈ rows) : row.stamp ≤ (ofRows since (newest since limit rows) limit).watermark := by
  by_cases hn : row ∈ newest since limit rows
  · rw [ofRows_newest]
    exact stamp_le_watermark since hn
  by_cases hs : since < row.stamp
  · refine stamp_le_watermark_newest ho hr hs hn fun hnil => ?_
    obtain ⟨n, rfl, hlength, -⟩ := cut_off hr hs hn
    rw [hnil] at hlength
    exact hlimit (congrArg Limit.atMost hlength.symm)
  · rw [ofRows_newest]
    exact Int.le_trans (Int.not_lt.mp hs) (since_le_watermark since _)

end Listing

end ContactsIndex
