import ContactsIndex.Document.OfContact
import ContactsIndex.Proofs.Source.Listing
import ContactsIndex.Source.AddressBook

/-!
# How an address book goes on

In a sound book stamps only grow: a contact that is there is newer than all rows of its
deletions. `Later b b'` says that `b'` comes some changes after `b`. Between the two a
contact was either touched, and then it or its last deletion carries a stamp that is
newer than all of `b`, or it is what it was (`Later.touched_or_same`).

What a listing of a sound book covers is said of the book here: without a limit the
changes newer than a watermark are exactly the contacts touched since.
-/

namespace ContactsIndex

/-- The fingerprint of every document of the contact, whenever it is made. -/
def Contact.fingerprint (contact : Contact) : Fingerprint :=
  (Document.ofContact contact 0).fingerprint

theorem Document.fingerprint_ofContact (contact : Contact) (time : Int) :
    (Document.ofContact contact time).fingerprint = contact.fingerprint := rfl

theorem Document.id_ofContact (contact : Contact) (time : Int) :
    (Document.ofContact contact time).id = contact.id := rfl

namespace AddressBook

def fingerprint? (book : AddressBook) (id : String) : Option Fingerprint :=
  (book.get? id).map Contact.fingerprint

structure Sound (book : AddressBook) : Prop where
  id_eq : ∀ {id c}, book.get? id = some c → c.id = id
  stamp_pos : ∀ {id c}, book.get? id = some c → 0 < c.lastUpdated
  stamp_le : ∀ {id c}, book.get? id = some c → c.lastUpdated ≤ book.lastStamp
  row_pos : ∀ row ∈ book.deletions, 0 < row.stamp
  row_le : ∀ row ∈ book.deletions, row.stamp ≤ book.lastStamp
  row_lt : ∀ {id c}, book.get? id = some c → ∀ row ∈ book.deletions, row.id = id →
    row.stamp < c.lastUpdated
  last_nonneg : 0 ≤ book.lastStamp

theorem sound_empty : empty.Sound where
  id_eq h := nomatch h
  stamp_pos h := nomatch h
  stamp_le h := nomatch h
  row_pos _ h := nomatch h
  row_le _ h := nomatch h
  row_lt h := nomatch h
  last_nonneg := Int.le_refl 0

theorem lt_nextStamp (book : AddressBook) (now : Int) : book.lastStamp < book.nextStamp now := by
  unfold nextStamp; omega

/-! ## Changes -/

/-- A change of the book by its user. An edit keeps the id of the contact. -/
inductive Change where
  | upsert (contact : Contact)
  | update (id : String) (edit : Contact → Contact) (keeps : ∀ c, (edit c).id = c.id)
  | delete (id : String)

def change (book : AddressBook) (now : Int) : Change → AddressBook
  | .upsert contact => book.upsert now contact
  | .update id edit _ => book.update now id edit
  | .delete id => book.delete now id

/-- A contact is entered with a stamp newer than all others. -/
structure Entered (book after : AddressBook) (contact : Contact) : Prop where
  last : after.lastStamp = contact.lastUpdated
  newer : book.lastStamp < contact.lastUpdated
  get? : ∀ id, after.get? id = if contact.id = id then some contact else book.get? id
  deletions : after.deletions = book.deletions

structure Erased (book after : AddressBook) (id : String) : Prop where
  newer : book.lastStamp < after.lastStamp
  there : (book.get? id).isSome
  get? : ∀ other, after.get? other = if id = other then none else book.get? other
  deletions : after.deletions = book.deletions ++ [⟨id, after.lastStamp⟩]

structure Passed (book after : AddressBook) : Prop where
  last : book.lastStamp ≤ after.lastStamp
  get? : ∀ id, after.get? id = book.get? id
  deletions : after.deletions = book.deletions

theorem get?_insert (contacts : Std.TreeMap String Contact) (id other : String) (contact : Contact) :
    (contacts.insert id contact)[other]? = if id = other then some contact else contacts[other]? := by
  simp only [Std.TreeMap.getElem?_insert, Std.compare_eq_iff_eq]

theorem change_cases {book : AddressBook} (h : book.Sound) (now : Int) (ch : Change) :
    (∃ c, Entered book (book.change now ch) c) ∨ (∃ id, Erased book (book.change now ch) id) ∨
      Passed book (book.change now ch) := by
  have hlt := book.lt_nextStamp now
  cases ch with
  | upsert contact =>
    exact .inl ⟨{ contact with lastUpdated := book.nextStamp now }, rfl, hlt,
      fun id => get?_insert .., rfl⟩
  | update id edit keeps =>
    cases hc : book.get? id with
    | none =>
      right; right
      simp only [change, update, hc]
      exact ⟨Int.le_of_lt hlt, fun _ => rfl, rfl⟩
    | some c =>
      left
      have hid : (edit c).id = id := (keeps c).trans (h.id_eq hc)
      simp only [change, update, hc]
      refine ⟨{ edit c with lastUpdated := book.nextStamp now }, rfl, hlt, fun other => ?_, rfl⟩
      simp only [AddressBook.get?, get?_insert, hid]
  | delete id =>
    cases hc : book.get? id with
    | none =>
      right; right
      simp only [change, delete, hc]
      exact ⟨Int.le_refl _, fun _ => rfl, rfl⟩
    | some c =>
      right; left
      simp only [change, delete, hc]
      refine ⟨id, hlt, by simp [hc], fun other => ?_, rfl⟩
      simp only [AddressBook.get?, Std.TreeMap.getElem?_erase, Std.compare_eq_iff_eq]

variable {book after : AddressBook}

theorem Entered.old {c d : Contact} {id : String} (hc : Entered book after c)
    (hd : after.get? id = some d) : (d = c ∧ c.id = id) ∨ book.get? id = some d := by
  rw [hc.get?] at hd
  split at hd
  · next he => exact .inl ⟨(Option.some.inj hd).symm, he⟩
  · exact .inr hd

theorem Entered.sound {c : Contact} (hc : Entered book after c) (h : book.Sound) : after.Sound where
  id_eq hd := by
    rcases hc.old hd with ⟨rfl, he⟩ | hd
    · exact he
    · exact h.id_eq hd
  stamp_pos hd := by
    rcases hc.old hd with ⟨rfl, _⟩ | hd
    · exact Int.lt_of_le_of_lt h.last_nonneg hc.newer
    · exact h.stamp_pos hd
  stamp_le hd := by
    rw [hc.last]
    rcases hc.old hd with ⟨rfl, _⟩ | hd
    · exact Int.le_refl _
    · exact Int.le_of_lt (Int.lt_of_le_of_lt (h.stamp_le hd) hc.newer)
  row_pos := by rw [hc.deletions]; exact h.row_pos
  row_le := by
    rw [hc.deletions, hc.last]
    exact fun row hr => Int.le_of_lt (Int.lt_of_le_of_lt (h.row_le row hr) hc.newer)
  row_lt hd row hr hid := by
    rw [hc.deletions] at hr
    rcases hc.old hd with ⟨rfl, _⟩ | hd
    · exact Int.lt_of_le_of_lt (h.row_le row hr) hc.newer
    · exact h.row_lt hd row hr hid
  last_nonneg := by rw [hc.last]; exact Int.le_of_lt (Int.lt_of_le_of_lt h.last_nonneg hc.newer)

theorem Erased.old {id other : String} {d : Contact} (hd : Erased book after id)
    (hg : after.get? other = some d) :
    id ≠ other ∧ book.get? other = some d := by
  rw [hd.get?] at hg
  split at hg
  · cases hg
  · next hne => exact ⟨hne, hg⟩

theorem Erased.mem_deletions {id : String} {row : ChangeRow} (hd : Erased book after id) :
    row ∈ after.deletions ↔ row ∈ book.deletions ∨ row = ⟨id, after.lastStamp⟩ := by
  rw [hd.deletions, List.mem_append, List.mem_singleton]

theorem Erased.sound {id : String} (hd : Erased book after id) (h : book.Sound) : after.Sound where
  id_eq hg := h.id_eq (hd.old hg).2
  stamp_pos hg := h.stamp_pos (hd.old hg).2
  stamp_le hg := Int.le_of_lt (Int.lt_of_le_of_lt (h.stamp_le (hd.old hg).2) hd.newer)
  row_pos row hr := by
    rcases hd.mem_deletions.mp hr with hr | rfl
    · exact h.row_pos row hr
    · exact Int.lt_of_le_of_lt h.last_nonneg hd.newer
  row_le row hr := by
    rcases hd.mem_deletions.mp hr with hr | rfl
    · exact Int.le_of_lt (Int.lt_of_le_of_lt (h.row_le row hr) hd.newer)
    · exact Int.le_refl _
  row_lt hg row hr hid := by
    rcases hd.mem_deletions.mp hr with hr | rfl
    · exact h.row_lt (hd.old hg).2 row hr hid
    · exact absurd hid (hd.old hg).1
  last_nonneg := Int.le_of_lt (Int.lt_of_le_of_lt h.last_nonneg hd.newer)

theorem Passed.sound (hp : Passed book after) (h : book.Sound) : after.Sound where
  id_eq hg := h.id_eq ((hp.get? _).symm.trans hg)
  stamp_pos hg := h.stamp_pos ((hp.get? _).symm.trans hg)
  stamp_le hg := Int.le_trans (h.stamp_le ((hp.get? _).symm.trans hg)) hp.last
  row_pos := by rw [hp.deletions]; exact h.row_pos
  row_le := by rw [hp.deletions]; exact fun row hr => Int.le_trans (h.row_le row hr) hp.last
  row_lt := by rw [hp.deletions]; exact fun hg => h.row_lt ((hp.get? _).symm.trans hg)
  last_nonneg := Int.le_trans h.last_nonneg hp.last

theorem Sound.change (h : book.Sound) (now : Int) (ch : Change) : (book.change now ch).Sound := by
  rcases change_cases h now ch with ⟨c, hc⟩ | ⟨id, hd⟩ | hp
  · exact hc.sound h
  · exact hd.sound h
  · exact hp.sound h

/-! ## Later books -/

structure Later (b b' : AddressBook) : Prop where
  last : b.lastStamp ≤ b'.lastStamp
  sound : b.Sound → b'.Sound
  live : ∀ {id c}, b'.get? id = some c → c.lastUpdated ≤ b.lastStamp → b.get? id = some c
  gone : ∀ {id}, b'.get? id = none → (b.get? id).isSome →
    ∃ row ∈ b'.deletions, row.id = id ∧ b.lastStamp < row.stamp
  kept : ∀ row ∈ b.deletions, row ∈ b'.deletions
  rows : ∀ row ∈ b'.deletions, row.stamp ≤ b.lastStamp → row ∈ b.deletions

/-- Two books that differ in nothing but how often they were asked. -/
structure Same (b b' : AddressBook) : Prop where
  contacts : b'.contacts = b.contacts
  deletions : b'.deletions = b.deletions
  last : b'.lastStamp = b.lastStamp

variable {b b' b'' : AddressBook}

theorem Same.refl (b : AddressBook) : Same b b := ⟨rfl, rfl, rfl⟩

theorem Same.trans (h : Same b b') (h' : Same b' b'') : Same b b'' :=
  ⟨h'.contacts.trans h.contacts, h'.deletions.trans h.deletions, h'.last.trans h.last⟩

theorem Same.get? (h : Same b b') (id : String) : b'.get? id = b.get? id := by
  simp only [AddressBook.get?, h.contacts]

theorem Same.updatedRows (h : Same b b') (since : Int) (limit : Limit) :
    b'.updatedRows since limit = b.updatedRows since limit := by
  simp only [AddressBook.updatedRows, h.contacts]

theorem Same.deletedRows (h : Same b b') (since : Int) : b'.deletedRows since = b.deletedRows since := by
  simp only [AddressBook.deletedRows, h.deletions]

theorem Passed.of_same (h : Same b b') : Passed b b' :=
  ⟨Int.le_of_eq h.last.symm, h.get?, h.deletions⟩

theorem Same.sound (h : Same b b') (hs : b.Sound) : b'.Sound :=
  (Passed.of_same h).sound hs

theorem Passed.later (hp : Passed b b') : Later b b' where
  last := hp.last
  sound := hp.sound
  live hg _ := (hp.get? _).symm.trans hg
  gone hn hs := by rw [← hp.get?, hn] at hs; cases hs
  kept row hr := by rw [hp.deletions]; exact hr
  rows row hr _ := by rw [← hp.deletions]; exact hr

theorem Same.later (h : Same b b') : Later b b' :=
  (Passed.of_same h).later

theorem Later.refl (b : AddressBook) : Later b b :=
  (Same.refl b).later

theorem Later.trans (h : Later b b') (h' : Later b' b'') : Later b b'' where
  last := Int.le_trans h.last h'.last
  sound hs := h'.sound (h.sound hs)
  live hg hle := h.live (h'.live hg (Int.le_trans hle h.last)) hle
  gone {id} hn hs := by
    cases hm : b'.get? id with
    | none =>
      obtain ⟨row, hr, hid, hlt⟩ := h.gone hm hs
      exact ⟨row, h'.kept row hr, hid, hlt⟩
    | some c =>
      obtain ⟨row, hr, hid, hlt⟩ := h'.gone hn (by simp [hm])
      exact ⟨row, hr, hid, Int.lt_of_le_of_lt h.last hlt⟩
  kept row hr := h'.kept row (h.kept row hr)
  rows row hr hle := h.rows row (h'.rows row hr (Int.le_trans hle h.last)) hle

theorem Entered.later {c : Contact} (hc : Entered b b' c) : Later b b' where
  last := by rw [hc.last]; exact Int.le_of_lt hc.newer
  sound := hc.sound
  live hg hle := by
    rcases hc.old hg with ⟨rfl, _⟩ | hg
    · exact absurd hc.newer (Int.not_lt.mpr hle)
    · exact hg
  gone hn hs := by
    rw [hc.get?] at hn
    split at hn
    · cases hn
    · rw [hn] at hs; cases hs
  kept row hr := by rw [hc.deletions]; exact hr
  rows row hr _ := by rw [← hc.deletions]; exact hr

theorem Erased.later {id : String} (hd : Erased b b' id) : Later b b' where
  last := Int.le_of_lt hd.newer
  sound := hd.sound
  live hg _ := (hd.old hg).2
  gone hn hs := by
    rw [hd.get?] at hn
    split at hn
    · next he => exact ⟨⟨id, b'.lastStamp⟩, hd.mem_deletions.mpr (.inr rfl), he, hd.newer⟩
    · rw [hn] at hs; cases hs
  kept row hr := hd.mem_deletions.mpr (.inl hr)
  rows row hr hle := by
    rcases hd.mem_deletions.mp hr with hr | rfl
    · exact hr
    · exact absurd hd.newer (Int.not_lt.mpr hle)

theorem later_change (h : b.Sound) (now : Int) (ch : Change) : Later b (b.change now ch) := by
  rcases change_cases h now ch with ⟨c, hc⟩ | ⟨id, hd⟩ | hp
  · exact hc.later
  · exact hd.later
  · exact hp.later

/-- The contact, or its last deletion, is newer than all of `b`. -/
def Touched (b b' : AddressBook) (id : String) : Prop :=
  (∃ c, b'.get? id = some c ∧ b.lastStamp < c.lastUpdated) ∨
    (b'.get? id = none ∧ ∃ row ∈ b'.deletions, row.id = id ∧ b.lastStamp < row.stamp)

theorem Later.touched_or_same (h : Later b b') (id : String) :
    Touched b b' id ∨ b'.get? id = b.get? id := by
  cases hg : b'.get? id with
  | some c =>
    by_cases hle : c.lastUpdated ≤ b.lastStamp
    · exact .inr (h.live hg hle).symm
    · exact .inl (.inl ⟨c, hg, Int.not_le.mp hle⟩)
  | none =>
    cases hb : b.get? id with
    | none => exact .inr rfl
    | some c => exact .inl (.inr ⟨hg, h.gone hg (by simp [hb])⟩)

theorem Touched.trans {id : String} (ht : Touched b b' id) (h : Later b b') (h' : Later b' b'') :
    Touched b b'' id := by
  rcases h'.touched_or_same id with (⟨c, hg, hlt⟩ | ⟨hn, row, hr, hid, hlt⟩) | hsame
  · exact .inl ⟨c, hg, Int.lt_of_le_of_lt h.last hlt⟩
  · exact .inr ⟨hn, row, hr, hid, Int.lt_of_le_of_lt h.last hlt⟩
  · rcases ht with ⟨c, hg, hlt⟩ | ⟨hn, row, hr, hid, hlt⟩
    · exact .inl ⟨c, hsame.trans hg, hlt⟩
    · exact .inr ⟨hsame.trans hn, row, h'.kept row hr, hid, hlt⟩

theorem Touched.of_later {id : String} (ht : Touched b' b'' id) (h : Later b b') :
    Touched b b'' id := by
  rcases ht with ⟨c, hg, hlt⟩ | ⟨hn, row, hr, hid, hlt⟩
  · exact .inl ⟨c, hg, Int.lt_of_le_of_lt h.last hlt⟩
  · exact .inr ⟨hn, row, hr, hid, Int.lt_of_le_of_lt h.last hlt⟩

/-! ## Listings -/

theorem mem_values {book : AddressBook} {c : Contact} : c ∈ book.contacts.values ↔
    ∃ id, book.get? id = some c := by
  rw [values_eq, List.mem_map]
  constructor
  · rintro ⟨⟨id, d⟩, hm, rfl⟩
    exact ⟨id, Std.TreeMap.mem_toList_iff_getElem?_eq_some.mp hm⟩
  · rintro ⟨id, hg⟩
    exact ⟨(id, c), Std.TreeMap.mem_toList_iff_getElem?_eq_some.mpr hg, rfl⟩

theorem mem_contactsOf {book : AddressBook} {ids : List String} {c : Contact} :
    c ∈ book.contactsOf ids ↔ ∃ id ∈ ids, book.get? id = some c := by
  simp [contactsOf]

theorem mem_updatedRows {book : AddressBook} (h : ∀ {id c}, book.get? id = some c → c.id = id) {since : Int}
    {row : ChangeRow} :
    row ∈ book.updatedRows since .unlimited ↔
      ∃ c, book.get? row.id = some c ∧ since < c.lastUpdated ∧ row.stamp = c.lastUpdated := by
  simp only [updatedRows, Limit.take, List.mem_mergeSort, List.mem_map, List.mem_filter,
    decide_eq_true_eq, mem_values]
  constructor
  · rintro ⟨c, ⟨⟨id, hg⟩, hs⟩, rfl⟩
    have hid := h hg
    exact ⟨c, by rw [hid]; exact hg, hs, rfl⟩
  · rintro ⟨c, hg, hs, he⟩
    exact ⟨c, ⟨⟨row.id, hg⟩, hs⟩, by rw [h hg, ← he]⟩

def changes (book : AddressBook) (since : Int) : Listing :=
  .ofRows since (book.updatedRows since .unlimited) .unlimited

def erasures (book : AddressBook) (since : Int) : Listing :=
  .ofRows since (book.deletedRows since) .unlimited

variable {since : Int}

theorem mem_changes (h : b.Sound) {id : String} :
    id ∈ (b.changes since).ids ↔ ∃ c, b.get? id = some c ∧ since < c.lastUpdated := by
  rw [changes, Listing.mem_ids_ofRows]
  constructor
  · rintro ⟨row, hr, rfl, _⟩
    obtain ⟨c, hg, hs, _⟩ := (mem_updatedRows h.id_eq).mp hr
    exact ⟨c, hg, hs⟩
  · rintro ⟨c, hg, hs⟩
    exact ⟨⟨id, c.lastUpdated⟩, (mem_updatedRows h.id_eq).mpr ⟨c, hg, hs, rfl⟩, rfl, hs⟩

theorem since_le_changes (b : AddressBook) (since : Int) : since ≤ (b.changes since).watermark :=
  Listing.since_le_watermark ..

theorem stamp_le_changes (h : b.Sound) {id : String} {c : Contact} (hg : b.get? id = some c) :
    c.lastUpdated ≤ (b.changes since).watermark := by
  by_cases hs : since < c.lastUpdated
  · have hr : ⟨id, c.lastUpdated⟩ ∈ b.updatedRows since .unlimited :=
      (mem_updatedRows h.id_eq).mpr ⟨c, hg, hs, rfl⟩
    exact Listing.stamp_le_watermark since hr
  · exact Int.le_trans (Int.not_lt.mp hs) (since_le_changes b since)

theorem changes_le (h : b.Sound) (hs : since ≤ b.lastStamp) :
    (b.changes since).watermark ≤ b.lastStamp := by
  apply Listing.watermark_le hs
  intro row hr
  obtain ⟨c, hg, _, he⟩ := (mem_updatedRows h.id_eq).mp hr
  rw [he]
  exact h.stamp_le hg

theorem mem_erasures {id : String} :
    id ∈ (b.erasures since).ids ↔ ∃ row ∈ b.deletions, row.id = id ∧ since < row.stamp := by
  simp only [erasures, Listing.mem_ids_ofRows, deletedRows, List.mem_filter, decide_eq_true_eq]
  constructor
  · rintro ⟨row, ⟨hr, _⟩, hid, hs⟩
    exact ⟨row, hr, hid, hs⟩
  · rintro ⟨row, hr, hid, hs⟩
    exact ⟨row, ⟨hr, hs⟩, hid, hs⟩

theorem since_le_erasures (b : AddressBook) (since : Int) : since ≤ (b.erasures since).watermark :=
  Listing.since_le_watermark ..

theorem row_le_erasures {row : ChangeRow} (hr : row ∈ b.deletions) :
    row.stamp ≤ (b.erasures since).watermark := by
  by_cases hs : since < row.stamp
  · exact Listing.stamp_le_watermark since (List.mem_filter.mpr ⟨hr, by simpa using hs⟩)
  · exact Int.le_trans (Int.not_lt.mp hs) (since_le_erasures b since)

theorem erasures_le (h : b.Sound) (hs : since ≤ b.lastStamp) :
    (b.erasures since).watermark ≤ b.lastStamp :=
  Listing.watermark_le hs fun row hr => h.row_le row (List.mem_filter.mp hr).1

end AddressBook

end ContactsIndex
