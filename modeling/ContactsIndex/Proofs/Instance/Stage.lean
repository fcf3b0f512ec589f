import ContactsIndex.Proofs.Instance.Handlers
import ContactsIndex.Proofs.Instance.Machine
import ContactsIndex.Proofs.Update.Calls
import ContactsIndex.Proofs.Update.Cycles

/-!
# What moves make of the stage

A write was stale if the source had other content at that moment. An id is `Lost` while
the last write under it was stale and the source has the same as then, unless a delta
update made up for it. For a delta update all that others do is `Moved`, lost ids being
excused; for a full update everything is excused as soon as the source has changed or a
delta update was begun.
-/

namespace ContactsIndex

open Program

namespace Stage

/-- A stale write under the id that nothing has made up for: one of a full update, or the
removal of a contact for which a delta update was begun with skewed watermarks. -/
def Lost (s : Stage) (id : String) : Prop :=
  ∃ l, s.landed id = some l ∧ l.content ≠ l.source.map (·.fingerprint) ∧
    s.look.book.get? id = l.source ∧
    (l.byFull = true ∨ ∃ m ∈ s.begun, s.look.book.Skewed m id)

def Disturbed (s : Stage) : Prop :=
  s.begun ≠ [] ∨ s.begunAt < s.look.book.lastStamp

def Recorded (s : Stage) : Prop :=
  ∀ id l, s.landed id = some l → s.look.store.fingerprint? id = l.content

end Stage

def View.lost : View Stage :=
  ⟨Stage.look, Stage.Lost⟩

def View.disturbed : View Stage :=
  ⟨Stage.look, fun s _ => s.Disturbed⟩

/-- No call fails, no token is fired, and `known` holds whenever a call is answered. -/
def Stage.calm (byFull : Bool) (known : Stage → Prop) : Environment Stage where
  clock := fun _ => True
  token := (· = false)
  answers := fun c s r t => known s ∧ ¬ c.Failed r ∧ s.serve byFull c = (r, t)
  unordered := True
  drift := Eq
  drift_refl := fun _ => rfl
  drift_trans := Eq.trans

def Stage.amid (view : View Stage) (byFull : Bool) (known : Stage → Prop) : Environment Stage :=
  (calm byFull known).among (Moved view) .refl .trans

open Stage (calm amid)

variable {byFull : Bool} {known : Stage → Prop} {s t : Stage} {m : Watermarks}

theorem Program.advance_step {α : Type} {tick : Tick} {p q : Program α}
    (h : p.advance byFull tick s = some (q, t)) (hk : known s) : Step (calm byFull known) p s q t := by
  have hanswer : ∀ {c : Call} {x : c.Reply × Stage}, s.answer? byFull c = some x →
      (calm byFull known).answers c s x.1 x.2 := by
    intro c x hx
    unfold Stage.answer? at hx
    split at hx
    · cases hx
    · next hf =>
      cases hx
      exact ⟨hk, fun hfail => hf (Call.fails_iff.mpr hfail), rfl⟩
  cases p with
  | done a => cases h
  | now next => cases h; exact .now trivial
  | cancelled next => cases h; exact .cancelled rfl
  | note event next => cases h; exact .note
  | answer job result next => cases h; exact .answer
  | call c next =>
    obtain ⟨x, hx, he⟩ := Option.map_eq_some_iff.mp h
    cases he
    exact .call (hanswer hx)
  | both c d next later =>
    by_cases hsw : tick.swapped = true
    · rw [advance, if_pos hsw] at h
      obtain ⟨x, hx, he⟩ := Option.map_eq_some_iff.mp h
      cases he
      exact .second trivial (hanswer hx)
    · rw [advance, if_neg hsw] at h
      obtain ⟨x, hx, he⟩ := Option.map_eq_some_iff.mp h
      cases he
      exact .first (hanswer hx)

theorem Program.advance_keeps {α : Type} {tick : Tick} {P : Call → Prop} {Q : α → Prop}
    {I : Stage → Prop} {p q : Program α}
    (hI : ∀ {c u}, P c → ¬ c.Failed (u.serve byFull c).1 → I u → I (u.serve byFull c).2)
    (ho : p.Obeys P Q) (h : p.advance byFull tick s = some (q, t)) (hs : I s) :
    q.Obeys P Q ∧ I t := by
  have hstep : Step (calm byFull fun _ => True) p s q t := advance_step h trivial
  obtain ⟨hq, hi⟩ := ho.step (fun {c u r v} hc hu ha => by
    obtain ⟨_, hok, he⟩ := ha
    have hr : r = (u.serve byFull c).1 := (congrArg Prod.fst he).symm
    have hv : v = (u.serve byFull c).2 := (congrArg Prod.snd he).symm
    subst hr hv
    exact hI hc hok hu) hstep
  exact ⟨hq, hi hs⟩

/-! ## Calls -/

theorem Call.Cycling.keeps_schema {c : Call} (h : c.Cycling) :
    ∀ schema force, c ≠ .setSchema schema force := by
  rintro schema force rfl
  exact h

theorem Worker.Handling.writes_eq_false {settings : Settings} {c : Call}
    (h : Worker.Handling settings c) : c.writes = false := by
  cases c <;> first | rfl | cases h

namespace Stage

theorem serve_each {c : Call} (hc : ∀ schema force, c ≠ .setSchema schema force)
    (hok : ¬ c.Failed (s.serve byFull c).1) (id : String) :
    ((s.serve byFull c).2.landed id = s.landed id ∧
      (s.serve byFull c).2.look.store.fingerprint? id = s.look.store.fingerprint? id) ∨
      (s.serve byFull c).2.landed id = some ⟨byFull, (s.serve byFull c).2.look.store.fingerprint? id,
        (s.serve byFull c).2.look.book.get? id⟩ := by
  by_cases hid : id ∈ c.written (s.serve byFull c).1
  · exact .inr (if_pos hid)
  · refine .inl ⟨if_neg hid, congrArg (Option.map _) ?_⟩
    cases c with
    | put docs =>
      have hsuccess : (s.look.store.put docs).1.success = true := by
        cases h : (s.look.store.put docs).1.success with
        | true => rfl
        | false => exact absurd (fun o ho => by cases ho; exact h) hok
      have hnot : id ∉ docs.map (·.id) := by
        intro hin
        refine hid ?_
        change id ∈ if (s.look.store.put docs).1.success = true then docs.map (·.id) else []
        rwa [if_pos hsuccess]
      rcases s.look.store.get?_put_or docs id with hsame | ⟨doc, hdoc, rfl, _⟩
      · exact hsame
      · exact absurd (List.mem_map_of_mem hdoc) hnot
    | remove ids => exact (s.look.store.get?_remove ids id).trans (if_neg hid)
    | setSchema schema force => exact absurd rfl (hc schema force)
    | _ => rfl

theorem serve_same (s : Stage) (byFull : Bool) (c : Call) :
    s.look.book.Same (s.serve byFull c).2.look.book :=
  s.look.serve_book c

theorem Lost.later {id : String} (h : s.Lost id) (hl : t.landed id = s.landed id)
    (hb : s.look.book.Later t.look.book) (hg : t.look.book.get? id = s.look.book.get? id)
    (hm : ∀ m ∈ s.begun, m ∈ t.begun) : t.Lost id := by
  obtain ⟨l, hl', hne, hsource, hfull⟩ := h
  refine ⟨l, hl.trans hl', hne, hg.trans hsource, hfull.imp_right ?_⟩
  rintro ⟨m, hmem, hsk⟩
  exact ⟨m, hm m hmem, hsk.later hb hg⟩

theorem Disturbed.later (h : s.Disturbed) (hb : s.look.book.Later t.look.book) (hm : t.begun = s.begun)
    (hat : t.begunAt = s.begunAt) : t.Disturbed := by
  rcases h with hne | hlt
  · exact .inl (by rwa [hm])
  · exact .inr (by rw [hat]; exact Int.lt_of_lt_of_le hlt hb.last)

/-- What others do while nobody begins a delta update. -/
structure Onward (s t : Stage) : Prop where
  lost : Moved .lost s t
  begun : t.begun = s.begun
  begunAt : t.begunAt = s.begunAt
  recorded : s.Recorded → t.Recorded

theorem Onward.refl (s : Stage) : Onward s s :=
  ⟨.refl s, rfl, rfl, fun hr => hr⟩

theorem Onward.trans {u : Stage} (h : Onward s t) (h' : Onward t u) : Onward s u :=
  ⟨h.lost.trans h'.lost, h'.begun.trans h.begun, h'.begunAt.trans h.begunAt,
    fun hr => h'.recorded (h.recorded hr)⟩

theorem recorded_serve {c : Call} (hc : ∀ schema force, c ≠ .setSchema schema force)
    (hok : ¬ c.Failed (s.serve byFull c).1) (hr : s.Recorded) : (s.serve byFull c).2.Recorded := by
  intro id l hl
  rcases serve_each hc hok id with ⟨hsame, hslot⟩ | hnew
  · exact hslot.trans (hr id l (hsame.symm.trans hl))
  · rw [hnew] at hl
    cases hl
    rfl

theorem onward_full {c : Call} (hc : ∀ schema force, c ≠ .setSchema schema force)
    (hok : ¬ c.Failed (s.serve true c).1) : Onward s (s.serve true c).2 where
  lost := by
    have hsame := s.serve_same true c
    refine ⟨hsame.later, fun id => .inr ?_⟩
    rcases serve_each hc hok id with ⟨hl, hslot⟩ | hnew
    · exact .inl ⟨hslot, fun hx => Lost.later hx hl hsame.later (hsame.get? id) fun _ hm => hm⟩
    · -- what a full update writes is right, or the source has other content
      by_cases heq : (s.serve true c).2.look.Right id
      · exact .inr (.inl heq)
      · exact .inr (.inr ⟨_, hnew, heq, rfl, .inl rfl⟩)
  begun := rfl
  begunAt := rfl
  recorded := recorded_serve hc hok

structure Carried (s t : Stage) : Prop where
  book : s.look.book.Same t.look.book
  begun : t.begun = s.begun
  begunAt : t.begunAt = s.begunAt
  recorded : s.Recorded → t.Recorded

theorem Carried.trans {u : Stage} (h : Carried s t) (h' : Carried t u) : Carried s u :=
  ⟨⟨h'.book.contacts.trans h.book.contacts, h'.book.deletions.trans h.book.deletions,
    h'.book.last.trans h.book.last⟩,
    h'.begun.trans h.begun, h'.begunAt.trans h.begunAt, fun hr => h'.recorded (h.recorded hr)⟩

theorem carried_serve {c : Call} (hc : c.Cycling) (hok : ¬ c.Failed (s.serve byFull c).1) :
    Carried s (s.serve byFull c).2 :=
  ⟨s.serve_same byFull c, rfl, rfl, recorded_serve hc.keeps_schema hok⟩

theorem onward_still {c : Call} (hc : c.writes = false) (hok : ¬ c.Failed (s.serve byFull c).1) :
    Onward s (s.serve byFull c).2 ∧ Moved .disturbed s (s.serve byFull c).2 := by
  have hne : ∀ schema force, c ≠ .setSchema schema force := by rintro schema force rfl; cases hc
  have hsame := s.serve_same byFull c
  have hslot : ∀ id,
      (s.serve byFull c).2.look.store.fingerprint? id = s.look.store.fingerprint? id := fun id =>
    congrArg (·.fingerprint? id) (s.look.serve_store hc)
  have hlanded : ∀ id, (s.serve byFull c).2.landed id = s.landed id := fun id =>
    if_neg (by rw [Call.written_eq_nil hc]; exact List.not_mem_nil)
  constructor
  · refine ⟨.of_same hsame hslot fun id hx => ?_, rfl, rfl, recorded_serve hne hok⟩
    exact Lost.later hx (hlanded id) hsame.later (hsame.get? id) fun _ hm => hm
  · exact .of_same hsame hslot fun _ hx => Disturbed.later hx hsame.later rfl rfl

theorem onward_change (h : s.look.book.Sound) (now : Int) (ch : AddressBook.Change) :
    Onward s (s.change now ch) ∧ Moved .disturbed s (s.change now ch) := by
  have hlater := AddressBook.later_change h now ch
  constructor
  · refine ⟨⟨hlater, fun id => ?_⟩, rfl, rfl, fun hr => hr⟩
    rcases hlater.touched_or_same id with ht | hsame
    · exact .inl ht
    · exact .inr (.inl ⟨rfl, fun hx => Lost.later hx rfl hlater hsame fun _ hm => hm⟩)
  · refine ⟨hlater, fun id => ?_⟩
    exact .inr (.inl ⟨rfl, fun hx => Disturbed.later hx hlater rfl rfl⟩)

theorem moved_begin (s : Stage) (context : CycleContext) :
    Moved .lost s (s.begin context) ∧ Moved .disturbed s (s.begin context) := by
  constructor
  · refine .of_same (.refl _) (fun _ => rfl) ?_
    intro id hx
    exact Lost.later hx rfl (.refl _) rfl fun _ hm => List.mem_cons_of_mem _ hm
  · exact .of_same (.refl _) (fun _ => rfl) fun _ _ => Or.inl (List.cons_ne_nil _ _)

end Stage

/-! ## Cycles among others -/

section

variable {drift : Stage → Stage → Prop} {refl : ∀ s, drift s s}
  {trans : ∀ {s t u}, drift s t → drift t u → drift s u}

theorem smooth_calm : ((calm byFull known).among drift refl trans).Smooth :=
  ⟨fun ha => ha.2.1, Bool.noConfusion⟩

theorem faithful_lost (m : Watermarks) (hd : ∀ {s t}, drift s t → Moved .lost s t) :
    Faithful .lost ((calm false (m ∈ ·.begun)).among drift refl trans) m where
  answered ha := by
    obtain ⟨_, _, he⟩ := ha
    cases he
    exact .inr rfl
  kept {c s r t id} ha hid hx := by
    obtain ⟨_, _, he⟩ := ha
    cases he
    have hsame := s.serve_same false c
    exact Stage.Lost.later hx (if_neg hid) hsame.later (hsame.get? id) fun _ hm => hm
  removed {ids s outcome t id} ha hid _ hsk := by
    obtain ⟨hm, _, he⟩ := ha
    cases he
    have hsame := s.serve_same false (.remove ids)
    refine ⟨_, if_pos hid, ?_, rfl, .inr ⟨m, hm, hsk.later hsame.later (hsame.get? id)⟩⟩
    obtain ⟨c, hc, _⟩ := hsk
    have hslot : (s.look.store.remove ids).2.fingerprint? id = none := by
      rw [DocumentStore.fingerprint?, DocumentStore.get?_remove, if_pos hid, Option.map_none]
    intro heq
    cases (hslot.symm.trans heq).trans (congrArg (Option.map _) hc)
  drift := hd

end

theorem faithful_disturbed : Faithful .disturbed (amid .disturbed true fun _ => True) ⟨0, 0⟩ where
  answered ha := by
    obtain ⟨_, _, he⟩ := ha
    cases he
    exact .inr rfl
  kept {c s r t id} ha hid hx := by
    obtain ⟨_, _, he⟩ := ha
    cases he
    exact Stage.Disturbed.later hx (s.serve_same true c).later rfl rfl
  removed _ _ hs hsk := by
    obtain ⟨c, hc, hle, _⟩ := hsk
    exact absurd (hs.stamp_pos hc) (Int.not_lt.mpr hle)
  drift h := h

end ContactsIndex
