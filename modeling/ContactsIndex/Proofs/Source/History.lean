import ContactsIndex.Proofs.Source.Newest
import ContactsIndex.Proofs.Source.Ranking
import Mathlib.Data.Finset.Max

/-!
# The stamps of a history

Whatever the clock shows, the changes that are made to a new address book are answered
with stamps that go up (`pairwise_answers`). No two contacts have one stamp, nor a contact
and a row of the deletion log (`Spaced`), so what a limit leaves of a listing is the
beginning of the whole listing (`listing_limited`). A contact that is gone has a row in the
log that is newer than it ever was (`exists_row_of_gone`).
-/

namespace ContactsIndex

/-! ## Rows in the order of a listing -/

theorem Limit.take_take {α : Type} (limit : Limit) (xs : List α) : limit.take (limit.take xs) = limit.take xs := by
  cases limit with
  | unlimited => rfl
  | atMost n => simp [take]

namespace ChangeRow

theorem before_of_stamp_lt {a b : ChangeRow} (h : b.stamp < a.stamp) : before a b = true := by
  simp [before, h]

theorem firsts_of_nodup {rows : List ChangeRow} (h : (rows.map (·.id)).Nodup) : firsts rows = rows :=
  (firsts_sublist rows).eq_of_length (length_firsts_eq_iff.mpr h)

end ChangeRow

namespace Listing

variable {since : Int} {rows : List ChangeRow} {limit : Limit}

theorem recent_of_ordered (ho : rows.Pairwise (ChangeRow.before · ·)) (hs : ∀ row ∈ rows, since < row.stamp) :
    recent since rows = rows := by
  have hall : rows.filter (since < ·.stamp) = rows := List.filter_eq_self.mpr fun row hr => decide_eq_true (hs row hr)
  rw [recent, hall, List.mergeSort_of_pairwise ho]

theorem ids_ofRows_ordered (ho : rows.Pairwise (ChangeRow.before · ·)) (hn : (rows.map (·.id)).Nodup)
    (hs : ∀ row ∈ rows, since < row.stamp) (limit : Limit) :
    (ofRows since rows limit).ids = limit.take (rows.map (·.id)) := by
  rw [ids_ofRows, recent_of_ordered ho hs, ChangeRow.firsts_of_nodup hn]

theorem ofRows_take (ho : rows.Pairwise (ChangeRow.before · ·)) (hn : (rows.map (·.id)).Nodup)
    (hs : ∀ row ∈ rows, since < row.stamp) (hlimit : limit ≠ .atMost 0) :
    ofRows since (limit.take rows) limit =
      ⟨limit.take (ofRows since rows .unlimited).ids, (ofRows since rows .unlimited).watermark⟩ := by
  have hsub := limit.take_sublist rows
  have ho' : (limit.take rows).Pairwise (ChangeRow.before · ·) := ho.sublist hsub
  have hs' : ∀ row ∈ limit.take rows, since < row.stamp := fun row hr => hs row (hsub.subset hr)
  have hids : (ofRows since (limit.take rows) limit).ids = limit.take (ofRows since rows .unlimited).ids := by
    rw [ids_ofRows_ordered ho' (hn.sublist (hsub.map _)) hs', ids_ofRows_ordered ho hn hs, Limit.map_take,
      Limit.take_take]
    rfl
  have hmark : (ofRows since (limit.take rows) limit).watermark = (ofRows since rows .unlimited).watermark := by
    cases rows with
    | nil => rw [Limit.take_nil, ofRows_nil, ofRows_nil]
    | cons head rest =>
      obtain ⟨more, htake⟩ := Limit.take_cons hlimit head rest
      rw [htake] at ho' hs' ⊢
      rw [watermark_eq_stamp_head (recent_of_ordered ho' hs') hlimit,
        watermark_eq_stamp_head (recent_of_ordered ho hs) Limit.noConfusion]
  rw [← hids, ← hmark]

end Listing

/-! ## Changes and their answers -/

namespace AddressBook

/-- The stamp that a change is answered with. There is none for a contact that is unknown. -/
def answer (book : AddressBook) (now : Int) : Change → Option Int
  | .upsert _ => some (book.nextStamp now)
  | .update id _ _ => (book.get? id).map fun _ => book.nextStamp now
  | .delete id => (book.get? id).map fun _ => book.nextStamp now

abbrev History := List (Int × Change)

def after (book : AddressBook) (history : History) : AddressBook :=
  history.foldl (fun b entry => b.change entry.1 entry.2) book

def answers (book : AddressBook) : History → List Int
  | [] => []
  | (now, ch) :: history => (book.answer now ch).toList ++ (book.change now ch).answers history

variable {book : AddressBook} {history : History}

theorem after_append (book : AddressBook) (history more : History) :
    book.after (history ++ more) = (book.after history).after more :=
  List.foldl_append

theorem after_induction {P : AddressBook → Prop} (h : P book) (hstep : ∀ b now ch, P b → P (b.change now ch))
    (history : History) : P (book.after history) :=
  List.foldlRecOn history _ h fun b hb entry _ => hstep b entry.1 entry.2 hb

theorem Sound.after (h : book.Sound) (history : History) : (book.after history).Sound :=
  after_induction h (fun _ now ch hb => hb.change now ch) history

theorem later_after (h : book.Sound) (history : History) : Later book (book.after history) := by
  have hkept := after_induction (P := fun b => b.Sound ∧ Later book b) ⟨h, .refl book⟩
    (fun _ now ch hb => ⟨hb.1.change now ch, hb.2.trans (later_change hb.1 now ch)⟩) history
  exact hkept.2

theorem available_change (book : AddressBook) (now : Int) (ch : Change) :
    (book.change now ch).available = book.available := by
  cases ch with
  | upsert contact => rfl
  | update id edit keeps => simp only [change, update]; split <;> rfl
  | delete id => simp only [change, delete]; split <;> rfl

theorem available_after (book : AddressBook) (history : History) : (book.after history).available = book.available :=
  after_induction (P := fun b => b.available = book.available) rfl
    (fun b now ch hb => (available_change b now ch).trans hb) history

/-! ## Answers go up -/

theorem lastStamp_change {now stamp : Int} {ch : Change} (h : book.answer now ch = some stamp) :
    (book.change now ch).lastStamp = stamp ∧ book.lastStamp < stamp := by
  have hlt := book.lt_nextStamp now
  cases ch with
  | upsert contact =>
    cases h
    exact ⟨rfl, hlt⟩
  | update id edit keeps =>
    obtain ⟨c, hc, rfl⟩ := Option.map_eq_some_iff.mp h
    refine ⟨?_, hlt⟩
    simp only [change, update, hc]
  | delete id =>
    obtain ⟨c, hc, rfl⟩ := Option.map_eq_some_iff.mp h
    refine ⟨?_, hlt⟩
    simp only [change, delete, hc]

theorem lt_of_mem_answers (h : book.Sound) {stamp : Int} (hs : stamp ∈ book.answers history) :
    book.lastStamp < stamp := by
  induction history generalizing book with
  | nil => cases hs
  | cons entry history ih =>
    rcases List.mem_append.mp hs with hs | hs
    · exact (lastStamp_change (Option.mem_toList.mp hs)).2
    · exact Int.lt_of_le_of_lt (later_change h entry.1 entry.2).last (ih (h.change entry.1 entry.2) hs)

theorem pairwise_answers (h : book.Sound) (history : History) : (book.answers history).Pairwise (· < ·) := by
  induction history generalizing book with
  | nil => exact .nil
  | cons entry history ih =>
    obtain ⟨now, ch⟩ := entry
    have hsound := h.change now ch
    refine List.pairwise_append.mpr ⟨?_, ih hsound, fun stamp hs next hn => ?_⟩
    · cases book.answer now ch <;> simp
    · rw [← (lastStamp_change (Option.mem_toList.mp hs)).1]
      exact lt_of_mem_answers hsound hn

/-! ## Stamps are told apart -/

structure Spaced (book : AddressBook) : Prop where
  sound : book.Sound
  ordered : book.deletions.Pairwise (·.stamp < ·.stamp)
  apart : ∀ {id other c d}, book.get? id = some c → book.get? other = some d →
    c.lastUpdated = d.lastUpdated → id = other
  unlogged : ∀ {id c}, book.get? id = some c → ∀ row ∈ book.deletions, row.stamp ≠ c.lastUpdated

theorem spaced_empty : empty.Spaced where
  sound := sound_empty
  ordered := .nil
  apart h := nomatch h
  unlogged h := nomatch h

variable {next : AddressBook}

theorem Entered.spaced {c : Contact} (hc : Entered book next c) (h : book.Spaced) : next.Spaced where
  sound := hc.sound h.sound
  ordered := by rw [hc.deletions]; exact h.ordered
  apart {id other d e} hd he hsame := by
    -- the contact that was entered is newer than those that were there
    have hold : ∀ {id d}, book.get? id = some d → d.lastUpdated < c.lastUpdated := fun hd =>
      Int.lt_of_le_of_lt (h.sound.stamp_le hd) hc.newer
    rcases hc.old hd with ⟨rfl, hid⟩ | hd <;> rcases hc.old he with ⟨rfl, hid'⟩ | he
    · exact hid.symm.trans hid'
    · exact absurd hsame (Int.ne_of_gt (hold he))
    · exact absurd hsame (Int.ne_of_lt (hold hd))
    · exact h.apart hd he hsame
  unlogged {id d} hd row hr := by
    rw [hc.deletions] at hr
    rcases hc.old hd with ⟨rfl, -⟩ | hd
    · exact Int.ne_of_lt (Int.lt_of_le_of_lt (h.sound.row_le row hr) hc.newer)
    · exact h.unlogged hd row hr

theorem Erased.spaced {id : String} (hd : Erased book next id) (h : book.Spaced) : next.Spaced where
  sound := hd.sound h.sound
  ordered := by
    rw [hd.deletions, List.pairwise_append]
    refine ⟨h.ordered, List.pairwise_singleton .., fun row hr last hl => ?_⟩
    rw [List.mem_singleton.mp hl]
    exact Int.lt_of_le_of_lt (h.sound.row_le row hr) hd.newer
  apart hc he := h.apart (hd.old hc).2 (hd.old he).2
  unlogged hc row hr := by
    have hc := (hd.old hc).2
    rcases hd.mem_deletions.mp hr with hr | rfl
    · exact h.unlogged hc row hr
    · exact Int.ne_of_gt (Int.lt_of_le_of_lt (h.sound.stamp_le hc) hd.newer)

theorem Passed.spaced (hp : Passed book next) (h : book.Spaced) : next.Spaced where
  sound := hp.sound h.sound
  ordered := by rw [hp.deletions]; exact h.ordered
  apart hc hd := h.apart ((hp.get? _).symm.trans hc) ((hp.get? _).symm.trans hd)
  unlogged hc := by rw [hp.deletions]; exact h.unlogged ((hp.get? _).symm.trans hc)

theorem Spaced.change (h : book.Spaced) (now : Int) (ch : Change) : (book.change now ch).Spaced := by
  rcases change_cases h.sound now ch with ⟨c, hc⟩ | ⟨id, hd⟩ | hp
  · exact hc.spaced h
  · exact hd.spaced h
  · exact hp.spaced h

theorem Spaced.after (h : book.Spaced) (history : History) : (book.after history).Spaced :=
  after_induction h (fun _ now ch hb => hb.change now ch) history

theorem Spaced.nodup (h : book.Spaced) :
    (book.contacts.values.map (·.lastUpdated) ++ book.deletions.map (·.stamp)).Nodup := by
  refine List.nodup_append.mpr ⟨?_, ?_, ?_⟩
  · refine List.Nodup.map_on (fun c hc d hd hsame => ?_) (nodup_values h.sound.id_eq).of_map
    obtain ⟨id, hc⟩ := mem_values.mp hc
    obtain ⟨other, hd⟩ := mem_values.mp hd
    obtain rfl := h.apart hc hd hsame
    exact Option.some.inj (hc.symm.trans hd)
  · exact (List.pairwise_map.mpr h.ordered).imp Int.ne_of_lt
  · intro stamp hs
    obtain ⟨c, hc, rfl⟩ := List.mem_map.mp hs
    obtain ⟨id, hc⟩ := mem_values.mp hc
    intro row hr
    obtain ⟨row, hrow, rfl⟩ := List.mem_map.mp hr
    exact (h.unlogged hc row hrow).symm

/-! ## Listings -/

theorem updatedRows_take (book : AddressBook) (since : Int) (limit : Limit) :
    book.updatedRows since limit = limit.take (book.updatedRows since .unlimited) := by
  cases limit <;> rfl

theorem lt_stamp_updatedRows {since : Int} {row : ChangeRow} (hr : row ∈ book.updatedRows since .unlimited) :
    since < row.stamp := by
  obtain ⟨c, -, hs, rfl⟩ := mem_updatedRows_unlimited.mp hr
  exact hs

theorem Spaced.pairwise_before (h : book.Spaced) (since : Int) :
    (book.updatedRows since .unlimited).Pairwise (ChangeRow.before · ·) := by
  have hdistinct := List.pairwise_map.mp (nodup_updatedRows h.sound.id_eq since)
  refine ((pairwise_updatedRows book since).and hdistinct).imp_of_mem fun {a b} ha hb hab => ?_
  obtain ⟨c, hc, -, hstamp⟩ := (mem_updatedRows h.sound.id_eq).mp ha
  obtain ⟨d, hd, -, hstamp'⟩ := (mem_updatedRows h.sound.id_eq).mp hb
  have hne : a.stamp ≠ b.stamp := fun hsame => hab.2 (h.apart hc hd (by rw [← hstamp, ← hstamp', hsame]))
  exact ChangeRow.before_of_stamp_lt (by have := hab.1; omega)

theorem Spaced.listing_limited (h : book.Spaced) (since : Int) {limit : Limit} (hlimit : limit ≠ .atMost 0) :
    Listing.ofRows since (book.updatedRows since limit) limit =
      ⟨limit.take (book.changes since).ids, (book.changes since).watermark⟩ := by
  have hs : ∀ row ∈ book.updatedRows since .unlimited, since < row.stamp := fun row => lt_stamp_updatedRows
  rw [updatedRows_take]
  exact Listing.ofRows_take (h.pairwise_before since) (nodup_updatedRows h.sound.id_eq since) hs hlimit

/-! ## Contacts that are gone -/

/-- The newest row of a contact that is gone is newer than the contact ever was. -/
theorem exists_row_of_gone {id : String} (hgone : (empty.after history).get? id = none)
    (hlive : ∃ earlier, earlier <+: history ∧ ((empty.after earlier).get? id).isSome) :
    ∃ row ∈ (empty.after history).deletions, row.id = id ∧ ∀ earlier, earlier <+: history →
      ∀ was, (empty.after earlier).get? id = some was → was.lastUpdated < row.stamp := by
  -- after each book that has the contact there is a row that is newer than that book
  have hrow : ∀ earlier, earlier <+: history → ((empty.after earlier).get? id).isSome →
      ∃ row ∈ (empty.after history).deletions, row.id = id ∧ (empty.after earlier).lastStamp < row.stamp := by
    rintro earlier ⟨rest, rfl⟩ hsome
    rw [after_append] at hgone ⊢
    exact (later_after (sound_empty.after earlier) rest).gone hgone hsome
  obtain ⟨earlier, hprefix, hsome⟩ := hlive
  obtain ⟨first, hfirst, hid, -⟩ := hrow earlier hprefix hsome
  obtain ⟨row, hr, hmax⟩ := Finset.exists_max_image
    ((empty.after history).deletions.filter (·.id = id)).toFinset (·.stamp) ⟨first, by simp [hfirst, hid]⟩
  simp only [List.mem_toFinset, List.mem_filter, decide_eq_true_eq] at hr hmax
  refine ⟨row, hr.1, hr.2, fun earlier hprefix was hwas => ?_⟩
  obtain ⟨other, hother, hid', hlt⟩ := hrow earlier hprefix (by simp [hwas])
  calc was.lastUpdated
      ≤ (empty.after earlier).lastStamp := (sound_empty.after earlier).stamp_le hwas
    _ < other.stamp := hlt
    _ ≤ row.stamp := hmax other ⟨hother, hid'⟩

end AddressBook

open AddressBook in
/-- What the stamps of any history are good for, whatever the clock showed: the answers go up from one,
no contact has the stamp of another or of a row of the log, and the log goes up; a contact is newer than
its rows, and one that was there and is gone has a row that is newer than it ever was; and of the contacts
that were touched after `since`, a listing under a limit has the first of those that one without has. -/
theorem stamps_usable (history : History) :
    let book := empty.after history
    (empty.answers history).Pairwise (· < ·) ∧ (∀ stamp ∈ empty.answers history, 1 ≤ stamp) ∧
    (book.contacts.values.map (·.lastUpdated) ++ book.deletions.map (·.stamp)).Nodup ∧
    (book.deletions.map (·.stamp)).Pairwise (· < ·) ∧
    (∀ id contact, book.get? id = some contact → ∀ row ∈ book.deletions, row.id = id →
      row.stamp < contact.lastUpdated) ∧
    (∀ now contact, (now, .upsert contact) ∈ history → book.get? contact.id = none →
      ∃ row ∈ book.deletions, row.id = contact.id ∧ ∀ earlier, earlier <+: history →
        ∀ was, (empty.after earlier).get? contact.id = some was → was.lastUpdated < row.stamp) ∧
    ∀ since, ∃ listed watermark, listed.Nodup ∧
      (∀ id, id ∈ listed ↔ ∃ contact, book.get? id = some contact ∧ since < contact.lastUpdated) ∧
      ∀ limit, Source.listing "updated" since limit (.ok (book.queryUpdated since limit).1) =
        pure (.ok ⟨limit.take listed, if limit = .atMost 0 then since else watermark⟩) := by
  intro book
  have hspaced : book.Spaced := spaced_empty.after history
  refine ⟨pairwise_answers sound_empty history, fun stamp hs => lt_of_mem_answers sound_empty hs, hspaced.nodup,
    List.pairwise_map.mpr hspaced.ordered, fun id contact => hspaced.sound.row_lt, fun now contact hmem hgone => ?_,
    fun since => ⟨(book.changes since).ids, (book.changes since).watermark, Listing.nodup_ids_ofRows .., ?_, ?_⟩⟩
  · -- the contact was there right after it was entered
    obtain ⟨past, rest, rfl⟩ := List.append_of_mem hmem
    refine exists_row_of_gone hgone ⟨past ++ [(now, .upsert contact)], ⟨rest, by simp⟩, ?_⟩
    rw [after_append]
    simp [AddressBook.after, change, upsert, AddressBook.get?]
  · exact fun id => mem_changes hspaced.sound
  · intro limit
    have hquery : (book.queryUpdated since limit).1 = some (book.updatedRows since limit) :=
      if_pos (available_after empty history)
    rw [hquery, Source.listing_rows]
    by_cases hlimit : limit = .atMost 0
    · subst hlimit
      rfl
    · rw [hspaced.listing_limited since hlimit, if_neg hlimit]

end ContactsIndex
