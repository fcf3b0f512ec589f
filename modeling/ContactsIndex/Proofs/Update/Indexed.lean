import ContactsIndex.Proofs.Program.Collaborators
import ContactsIndex.Stats

/-!
# What is indexed up to watermarks

`Indexed view m s` says what watermarks promise of a state: a contact that was last
touched no later than the watermark of changes is stored as it is, and a document
without a contact has a deletion that is newer than the watermark of deletions, so that
the next listing finds it. Some ids may be excused; which ones, and where in a state the
collaborators are found, is up to the `View`.

The promise outlasts whatever others do, as long as each id they touch stays right, is
excused, or carries a new stamp (`Indexed.moved`).
-/

namespace ContactsIndex

namespace AddressBook

/-- The contact is not newer than the watermark of changes, and one of its deletions is
newer than the watermark of deletions: the next listings hold the deletion alone. -/
def Skewed (book : AddressBook) (m : Watermarks) (id : String) : Prop :=
  ∃ c, book.get? id = some c ∧ c.lastUpdated ≤ m.update ∧
    ∃ row ∈ book.deletions, row.id = id ∧ m.delete < row.stamp

variable {b b' : AddressBook} {m : Watermarks} {id : String}

theorem not_touched {c : Contact} (hg : b'.get? id = some c) (hle : c.lastUpdated ≤ b.lastStamp) :
    ¬ Touched b b' id := by
  rintro (⟨d, hd, hlt⟩ | ⟨hn, _⟩)
  · rw [hg] at hd
    cases hd
    exact absurd hlt (Int.not_lt.mpr hle)
  · rw [hn] at hg; cases hg

theorem Skewed.later (hs : Skewed b m id) (h : Later b b') (hg : b'.get? id = b.get? id) :
    Skewed b' m id := by
  obtain ⟨c, hc, hle, row, hr, hid, hlt⟩ := hs
  exact ⟨c, hg.trans hc, hle, row, h.kept row hr, hid, hlt⟩

theorem Skewed.of_later (hs : Skewed b' m id) (h : Later b b') (hb : b.Sound)
    (hm : m.update ≤ b.lastStamp) :
    Skewed b m id := by
  obtain ⟨c, hc, hle, row, hr, hid, hlt⟩ := hs
  have hold : row.stamp < c.lastUpdated := (h.sound hb).row_lt hc row hr hid
  exact ⟨c, h.live hc (Int.le_trans hle hm), hle, row, h.rows row hr (by omega), hid, hlt⟩

def Dropped (book : AddressBook) (stamp : Int) (id : String) : Prop :=
  ∃ row ∈ book.deletions, row.id = id ∧ stamp < row.stamp

theorem Dropped.mono {stamp stamp' : Int} (h : Dropped b stamp id) (hle : stamp' ≤ stamp) :
    Dropped b stamp' id := by
  obtain ⟨row, hr, hid, hlt⟩ := h
  exact ⟨row, hr, hid, Int.lt_of_le_of_lt hle hlt⟩

theorem Dropped.later {stamp : Int} (hd : Dropped b stamp id) (h : Later b b') :
    Dropped b' stamp id := by
  obtain ⟨row, hr, hid, hlt⟩ := hd
  exact ⟨row, h.kept row hr, hid, hlt⟩

theorem Later.gone_or (h : Later b b') (hn : b'.get? id = none) :
    b.get? id = none ∨ Dropped b' b.lastStamp id := by
  cases hb : b.get? id with
  | none => exact .inl rfl
  | some c => exact .inr (h.gone hn (by simp [hb]))

/-- The fingerprint fits the contact, unless that is newer than the watermark of changes;
and if there is no contact, its deletion is newer than the other watermark. -/
def Fits (book : AddressBook) (m : Watermarks) (id : String) (f : Fingerprint) : Prop :=
  (∀ c, book.get? id = some c → c.lastUpdated ≤ m.update → c.fingerprint = f) ∧
    (book.get? id = none → Dropped book m.delete id)

theorem Fits.later {f : Fingerprint} (hf : Fits b m id f) (h : Later b b') (hu : m.update ≤ b.lastStamp)
    (hd : m.delete ≤ b.lastStamp) : Fits b' m id f := by
  refine ⟨fun c hc hle => hf.1 c (h.live hc (Int.le_trans hle hu)) hle, fun hn => ?_⟩
  rcases h.gone_or hn with hb | hd'
  · exact (hf.2 hb).later h
  · exact hd'.mono hd

structure Covered (book : AddressBook) (m : Watermarks) (stamp : Int) : Prop where
  live : ∀ {id c}, book.get? id = some c → c.lastUpdated ≤ m.update ∨ stamp < c.lastUpdated
  rows : ∀ row ∈ book.deletions, row.stamp ≤ m.delete ∨ stamp < row.stamp

theorem covered_of_le {stamp : Int} (hu : stamp ≤ m.update) (hd : stamp ≤ m.delete) :
    Covered b m stamp where
  live _ := by omega
  rows _ _ := by omega

theorem Covered.later {stamp : Int} (hc : Covered b m stamp) (h : Later b b')
    (hs : stamp ≤ b.lastStamp) :
    Covered b' m stamp where
  live {id c} hg := by
    by_cases hle : c.lastUpdated ≤ b.lastStamp
    · exact hc.live (h.live hg hle)
    · exact .inr (by omega)
  rows row hr := by
    by_cases hle : row.stamp ≤ b.lastStamp
    · exact hc.rows row (h.rows row hr hle)
    · exact .inr (by omega)

end AddressBook

/-! ## Views -/

structure View (σ : Type) where
  look : σ → Collaborators
  excused : σ → String → Prop

def View.plain : View Collaborators :=
  ⟨id, fun _ _ => False⟩

section

variable {σ : Type} (view : View σ)

/-- What others may do: an id that they touch carries a new stamp, and of any other id they
change the document at most to what is right, or the id is excused. -/
structure Moved (s t : σ) : Prop where
  later : (view.look s).book.Later (view.look t).book
  each : ∀ id, (view.look s).book.Touched (view.look t).book id ∨
    ((view.look t).store.fingerprint? id = (view.look s).store.fingerprint? id ∧
      (view.excused s id → view.excused t id)) ∨
    (view.look t).Right id ∨ view.excused t id

structure Indexed (m : Watermarks) (s : σ) : Prop where
  sound : (view.look s).book.Sound
  update_le : m.update ≤ (view.look s).book.lastStamp
  delete_le : m.delete ≤ (view.look s).book.lastStamp
  live : ∀ {id c}, (view.look s).book.get? id = some c → c.lastUpdated ≤ m.update →
    (view.look s).Right id ∨ view.excused s id
  gone : ∀ {id}, (view.look s).book.get? id = none →
    (view.look s).store.fingerprint? id = none ∨ (view.look s).book.Dropped m.delete id ∨
      view.excused s id

end

variable {σ : Type} {view : View σ} {m : Watermarks} {s t u : σ} {id : String}

theorem Moved.of_same (hb : (view.look s).book.Same (view.look t).book)
    (hs : ∀ id, (view.look t).store.fingerprint? id = (view.look s).store.fingerprint? id)
    (he : ∀ id, view.excused s id → view.excused t id) : Moved view s t :=
  ⟨hb.later, fun id => .inr (.inl ⟨hs id, he id⟩)⟩

theorem Moved.refl (s : σ) : Moved view s s :=
  .of_same (.refl _) (fun _ => rfl) (fun _ h => h)

theorem Collaborators.Right.congr {w w' : Collaborators} (h : w.Right id)
    (hb : w'.book.get? id = w.book.get? id)
    (hs : w'.store.fingerprint? id = w.store.fingerprint? id) : w'.Right id := by
  unfold Right AddressBook.fingerprint? at *
  rw [hs, hb, h]

theorem Moved.trans (h : Moved view s t) (h' : Moved view t u) : Moved view s u := by
  refine ⟨h.later.trans h'.later, fun id => ?_⟩
  rcases h'.later.touched_or_same id with ht | hsame
  · exact .inl (ht.of_later h.later)
  · rcases h'.each id with ht | ⟨hs', he'⟩ | hr | he
    · exact .inl (ht.of_later h.later)
    · rcases h.each id with ht | ⟨hs, he⟩ | hr | he
      · exact .inl (ht.trans h.later h'.later)
      · exact .inr (.inl ⟨hs'.trans hs, fun h => he' (he h)⟩)
      · exact .inr (.inr (.inl (hr.congr hsame hs')))
      · exact .inr (.inr (.inr (he' he)))
    · exact .inr (.inr (.inl hr))
    · exact .inr (.inr (.inr he))

theorem Moved.right_or {c : Contact} (h : Moved view s t) (hg : (view.look t).book.get? id = some c)
    (hle : c.lastUpdated ≤ (view.look s).book.lastStamp)
    (hr : (view.look s).Right id ∨ view.excused s id) :
    (view.look t).Right id ∨ view.excused t id := by
  have hold := h.later.live hg hle
  rcases h.each id with ht | ⟨hs, he⟩ | hr' | he'
  · exact absurd ht (AddressBook.not_touched hg hle)
  · rcases hr with hr | hx
    · exact .inl (hr.congr (hg.trans hold.symm) hs)
    · exact .inr (he hx)
  · exact .inl hr'
  · exact .inr he'

theorem Moved.gone_or {stamp : Int} (h : Moved view s t) (hn : (view.look t).book.get? id = none)
    (hs : stamp ≤ (view.look s).book.lastStamp) (hg : (view.look s).book.get? id = none →
      (view.look s).store.fingerprint? id = none ∨ (view.look s).book.Dropped stamp id ∨
      view.excused s id) :
    (view.look t).store.fingerprint? id = none ∨ (view.look t).book.Dropped stamp id ∨
      view.excused t id := by
  rcases h.later.gone_or hn with hb | hd
  · rcases h.each id with (⟨c, hc, _⟩ | ⟨_, hd⟩) | ⟨hsame, he⟩ | hr | he
    · rw [hn] at hc; cases hc
    · exact .inr (.inl (AddressBook.Dropped.mono hd hs))
    · rcases hg hb with hnone | hd | hx
      · exact .inl (hsame.trans hnone)
      · exact .inr (.inl (hd.later h.later))
      · exact .inr (.inr (he hx))
    · exact .inl (hr.trans (AddressBook.fingerprint?_eq_none.mpr hn))
    · exact .inr (.inr he)
  · exact .inr (.inl (hd.mono hs))

theorem Indexed.moved (h : Indexed view m s) (hm : Moved view s t) : Indexed view m t where
  sound := hm.later.sound h.sound
  update_le := Int.le_trans h.update_le hm.later.last
  delete_le := Int.le_trans h.delete_le hm.later.last
  live hg hle := by
    have hold := Int.le_trans hle h.update_le
    exact hm.right_or hg hold (h.live (hm.later.live hg hold) hle)
  gone hn := hm.gone_or hn h.delete_le h.gone

theorem Indexed.viewed {τ : Type} {view' : View τ} {s' : τ} (h : Indexed view m s)
    (hl : view'.look s' = view.look s) (hx : ∀ id, view.excused s id → view'.excused s' id) :
    Indexed view' m s' where
  sound := by rw [hl]; exact h.sound
  update_le := by rw [hl]; exact h.update_le
  delete_le := by rw [hl]; exact h.delete_le
  live hg hle := by
    rw [hl] at hg ⊢
    exact (h.live hg hle).imp_right (hx _)
  gone hn := by
    rw [hl] at hn ⊢
    exact (h.gone hn).imp_right (.imp_right (hx _))

theorem Indexed.unindexed (hs : (view.look s).book.Sound)
    (hn : ∀ id, (view.look s).store.fingerprint? id = none) :
    Indexed view ⟨0, 0⟩ s where
  sound := hs
  update_le := hs.last_nonneg
  delete_le := hs.last_nonneg
  live hg hle := absurd (hs.stamp_pos hg) (Int.not_lt.mpr hle)
  gone _ := .inl (hn _)

theorem Indexed.mono {m' : Watermarks} (h : Indexed view m s) (hu : m'.update ≤ m.update)
    (hd : m'.delete ≤ m.delete) :
    Indexed view m' s where
  sound := h.sound
  update_le := Int.le_trans hu h.update_le
  delete_le := Int.le_trans hd h.delete_le
  live hg hle := h.live hg (Int.le_trans hle hu)
  gone hn := (h.gone hn).imp_right (.imp_left (·.mono hd))

theorem Indexed.right_or (h : Indexed view m s)
    (hlive : ∀ {id c}, (view.look s).book.get? id = some c → c.lastUpdated ≤ m.update)
    (hrows : ∀ row ∈ (view.look s).book.deletions, row.stamp ≤ m.delete) (id : String) :
    (view.look s).Right id ∨ view.excused s id := by
  cases hg : (view.look s).book.get? id with
  | some c => exact h.live hg (hlive hg)
  | none =>
    rcases h.gone hg with hnone | ⟨row, hrow, _, hlt⟩ | hx
    · exact .inl (hnone.trans (AddressBook.fingerprint?_eq_none.mpr hg).symm)
    · exact absurd (hrows row hrow) (Int.not_le.mpr hlt)
    · exact .inr hx

theorem Indexed.right_of_covered {stamp : Int} (h : Indexed view m s)
    (hc : (view.look s).book.Covered m stamp) (hs : (view.look s).book.lastStamp ≤ stamp)
    (id : String) : (view.look s).Right id ∨ view.excused s id := by
  refine h.right_or (fun hg => ?_) (fun row hrow => ?_) id
  · have hle := h.sound.stamp_le hg
    exact (hc.live hg).resolve_right (by omega)
  · have hle := h.sound.row_le row hrow
    exact (hc.rows row hrow).resolve_right (by omega)

end ContactsIndex
