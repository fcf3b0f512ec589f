import ContactsIndex.Proofs.Program.Environment

/-!
# What a program does whatever it is answered

`p.Obeys P Q` says that every call of `p` is one of `P` and every value that it may end
with is one of `Q`, whatever the answers are. What the calls of `P` keep is then kept by
every step of the program, and so by the whole program.
-/

namespace ContactsIndex.Program

variable {α β σ : Type} {P : Call → Prop} {Q Q' : α → Prop} {R : β → Prop}

def Obeys (P : Call → Prop) (Q : α → Prop) : Program α → Prop
  | done a => Q a
  | now next => ∀ time, (next time).Obeys P Q
  | cancelled next => ∀ b, (next b).Obeys P Q
  | note _ next => next.Obeys P Q
  | answer _ _ next => next.Obeys P Q
  | call c next => P c ∧ ∀ r, (next r).Obeys P Q
  | both c d next later => P c ∧ P d ∧ (∀ r, (next r).Obeys P Q) ∧ ∀ r, (later r).Obeys P Q

/-! ## Along a program -/

theorem Obeys.bind {p : Program α} {f : α → Program β} (h : p.Obeys P Q)
    (hf : ∀ a, Q a → (f a).Obeys P R) : (p >>= f).Obeys P R := by
  change (p.bind f).Obeys P R
  induction p with
  | done a => exact hf a h
  | now next ih => exact fun time => ih time (h time)
  | cancelled next ih => exact fun b => ih b (h b)
  | note event next ih => exact ih h
  | answer job result next ih => exact ih h
  | call c next ih => exact ⟨h.1, fun r => ih r (h.2 r)⟩
  | both c d next later ih ih' =>
    exact ⟨h.1, h.2.1, fun r => ih r (h.2.2.1 r), fun r => ih' r (h.2.2.2 r)⟩

theorem Obeys.mono {p : Program α} (h : p.Obeys P Q) (hq : ∀ a, Q a → Q' a) : p.Obeys P Q' := by
  induction p with
  | done a => exact hq a h
  | now next ih => exact fun time => ih time (h time)
  | cancelled next ih => exact fun b => ih b (h b)
  | note event next ih => exact ih h
  | answer job result next ih => exact ih h
  | call c next ih => exact ⟨h.1, fun r => ih r (h.2 r)⟩
  | both c d next later ih ih' =>
    exact ⟨h.1, h.2.1, fun r => ih r (h.2.2.1 r), fun r => ih' r (h.2.2.2 r)⟩

theorem Obeys.calls {P' : Call → Prop} {p : Program α} (h : p.Obeys P Q) (hP : ∀ c, P c → P' c) :
    p.Obeys P' Q := by
  induction p with
  | done a => exact h
  | now next ih => exact fun time => ih time (h time)
  | cancelled next ih => exact fun b => ih b (h b)
  | note event next ih => exact ih h
  | answer job result next ih => exact ih h
  | call c next ih => exact ⟨hP c h.1, fun r => ih r (h.2 r)⟩
  | both c d next later ih ih' =>
    exact ⟨hP c h.1, hP d h.2.1, fun r => ih r (h.2.2.1 r), fun r => ih' r (h.2.2.2 r)⟩

theorem obeys_any (p : Program α) : p.Obeys (fun _ => True) fun _ => True := by
  induction p with
  | done a => exact trivial
  | now next ih => exact ih
  | cancelled next ih => exact ih
  | note event next ih => exact ih
  | answer job result next ih => exact ih
  | call c next ih => exact ⟨trivial, ih⟩
  | both c d next later ih ih' => exact ⟨trivial, trivial, ih, ih'⟩

theorem obeys_ask {c : Call} {f : c.Reply → Program β} :
    (ask c >>= f).Obeys P R ↔ P c ∧ ∀ r, (f r).Obeys P R := Iff.rfl

theorem obeys_readClock {f : Int → Program β} : (readClock >>= f).Obeys P R ↔
    ∀ time, (f time).Obeys P R := Iff.rfl

theorem obeys_clocked_readClock {f : Int → Program β} {R : β × Option Int → Prop} {last : Option Int} :
    ((readClock >>= f).clocked last).Obeys P R ↔ ∀ time, ((f time).clocked (some time)).Obeys P R := Iff.rfl

theorem obeys_isCancelled {f : Bool → Program β} : (isCancelled >>= f).Obeys P R ↔
    ∀ b, (f b).Obeys P R := Iff.rfl

theorem obeys_record {event : Note} {f : Unit → Program β} :
    (record event >>= f).Obeys P R ↔ (f ()).Obeys P R := Iff.rfl

/-! ## What is kept -/

variable {env : Environment σ} {I : σ → Prop} {p q : Program α} {s t : σ}

theorem Obeys.step (hI : ∀ {c s r t}, P c → I s → env.answers c s r t → I t) (h : p.Obeys P Q)
    (hs : Step env p s q t) : q.Obeys P Q ∧ (I s → I t) := by
  cases hs with
  | now _ => exact ⟨h _, id⟩
  | cancelled _ => exact ⟨h _, id⟩
  | note => exact ⟨h, id⟩
  | answer => exact ⟨h, id⟩
  | call ha => exact ⟨h.2 _, fun hi => hI h.1 hi ha⟩
  | first ha => exact ⟨h.2.2.1 _, fun hi => hI h.1 hi ha⟩
  | second _ ha => exact ⟨h.2.2.2 _, fun hi => hI h.2.1 hi ha⟩

theorem Obeys.ends (hI : ∀ {c s r t}, P c → I s → env.answers c s r t → I t) {a : α} (h : p.Obeys P Q)
    (he : Ends env p s a t) (hs : I s) : Q a ∧ I t := by
  induction he with
  | done => exact ⟨h, hs⟩
  | step hstep _ ih =>
    obtain ⟨hq, hi⟩ := h.step hI hstep
    exact ih hq (hi hs)

theorem Obeys.always (hI : ∀ {c s r t}, P c → I s → env.answers c s r t → I t)
    (hd : ∀ {s t}, I s → env.drift s t → I t) (h : p.Obeys P Q) (hs : I s) :
    p.Always env (fun a t => Q a ∧ I t) s := by
  induction p generalizing s with
  | done a => exact fun t ht => ⟨h, hd hs ht⟩
  | now next ih => exact fun time _ => ih time (h time) hs
  | cancelled next ih => exact fun b _ => ih b (h b) hs
  | note event next ih => exact ih h hs
  | answer job result next ih => exact ih h hs
  | call c next ih => exact fun t ht r u ha => ih r (h.2 r) (hI h.1 (hd hs ht) ha)
  | both c d next later ih ih' =>
    exact fun t ht => ⟨fun r u ha => ih r (h.2.2.1 r) (hI h.1 (hd hs ht) ha),
      fun _ r u ha => ih' r (h.2.2.2 r) (hI h.2.1 (hd hs ht) ha)⟩

theorem Obeys.value {a : α} (h : p.Obeys P Q) (he : Ends env p s a t) : Q a :=
  (h.ends (I := fun _ => True) (fun _ _ _ => trivial) he trivial).1

/-- A program that makes its value of the time that it has read last. -/
theorem Ends.lastRead {a : α} (time : α → Int) (h : Ends env p s a t)
    (hp : (p.clocked none).Obeys P fun r => r.2 = some (time r.1)) : LastRead env p s a t (time a) := by
  obtain ⟨read, hread⟩ := h.clocked none
  intro last
  constructor
  · exact fun hends => hp.value hends
  · rintro rfl
    exact (hp.value hread : read = some (time a)) ▸ hread

end ContactsIndex.Program
