import ContactsIndex.Proofs.Program.Obeys

/-!
# A token that fires during a run

The cancellation token may fire at any moment of a run: before it, while a call is under way, or
between two looks at the token. The moment is given by how many looks and calls are over by then; a
call that is under way is answered as ever, and the next look shows that the token has fired. A
program that is `Heedless` never looks, and goes on as if nothing had happened.
-/

namespace ContactsIndex.Program

variable {σ α β : Type}

structure Firing (σ : Type) where
  state : σ
  /-- How many looks and calls are over until the token fires; none if it has fired. -/
  left : Option Nat
  late : List Call

namespace Firing

def start (s : σ) (moment : Nat) : Firing σ :=
  ⟨s, some moment, []⟩

def tick : Option Nat → Option Nat
  | some (n + 1) => some n
  | _ => none

def look (w : Firing σ) : Bool × Firing σ :=
  ((tick w.left).isNone, { w with left := tick w.left })

def call (env : Surroundings σ) (c : Call) (w : Firing σ) : c.Reply × Firing σ :=
  let (reply, s) := env.reply c w.state
  (reply, ⟨s, tick w.left, if w.left.isNone then w.late ++ [c] else w.late⟩)

theorem left_look {w : Firing σ} (h : w.look.1 = false) : w.look.2.left.isSome :=
  Option.isNone_eq_false_iff.mp h

variable (env : Surroundings σ) (c : Call) {w : Firing σ}

theorem late_call_of_left (h : w.left.isSome) : (w.call env c).2.late = w.late := by
  simp [call, Option.isNone_eq_false_iff.mpr h]

theorem mem_late_call {x : Call} (h : x ∈ (w.call env c).2.late) : x ∈ w.late ∨ x = c := by
  dsimp only [call] at h
  split at h
  · simpa using h
  · exact .inl h

end Firing

def runFiring (env : Surroundings σ) : Program α → Firing σ → α × Firing σ
  | done a, w => (a, w)
  | now next, w => (next (env.clock w.state)).runFiring env w
  | cancelled next, w => (next w.look.1).runFiring env w.look.2
  | note event next, w => next.runFiring env { w with state := env.note event w.state }
  | answer job result next, w => next.runFiring env { w with state := env.answer job result w.state }
  | call c next, w => (next (w.call env c).1).runFiring env (w.call env c).2
  | both c _ afterFirst _, w => (afterFirst (w.call env c).1).runFiring env (w.call env c).2

variable {env : Surroundings σ}

theorem runFiring_bind (p : Program α) (f : α → Program β) (w : Firing σ) :
    (p >>= f).runFiring env w = (f (p.runFiring env w).1).runFiring env (p.runFiring env w).2 := by
  change (p.bind f).runFiring env w = _
  induction p generalizing w with
  | done a => rfl
  | now next ih => exact ih _ w
  | cancelled next ih => exact ih _ _
  | note event next ih => exact ih _
  | answer job result next ih => exact ih _
  | call c next ih => exact ih _ _
  | both c d afterFirst afterSecond ih _ => exact ih _ _

theorem Obeys.late {P : Call → Prop} {Q : α → Prop} {p : Program α} (h : p.Obeys P Q) {w : Firing σ}
    (hw : ∀ c ∈ w.late, P c) : ∀ c ∈ (p.runFiring env w).2.late, P c := by
  have hcall : ∀ {c} {w : Firing σ}, P c → (∀ c ∈ w.late, P c) → ∀ x ∈ (w.call env c).2.late, P x := by
    intro c w hc hw x hx
    rcases Firing.mem_late_call env c hx with hx | rfl
    · exact hw x hx
    · exact hc
  induction p generalizing w with
  | done a => exact hw
  | now next ih => exact ih _ (h _) hw
  | cancelled next ih => exact ih _ (h _) hw
  | note event next ih => exact ih h hw
  | answer job result next ih => exact ih h hw
  | call c next ih => exact ih _ (h.2 _) (hcall h.1 hw)
  | both c d next later ih _ => exact ih _ (h.2.2.1 _) (hcall h.1 hw)

/-! ## Programs that do not look -/

def Heedless : Program α → Prop
  | done _ => True
  | now next => ∀ time, (next time).Heedless
  | cancelled _ => False
  | note _ next => next.Heedless
  | answer _ _ next => next.Heedless
  | call _ next => ∀ r, (next r).Heedless
  | both _ _ next later => (∀ r, (next r).Heedless) ∧ ∀ r, (later r).Heedless

theorem Heedless.bind {p : Program α} {f : α → Program β} (h : p.Heedless) (hf : ∀ a, (f a).Heedless) :
    (p >>= f).Heedless := by
  change (p.bind f).Heedless
  induction p with
  | done a => exact hf a
  | now next ih => exact fun time => ih time (h time)
  | cancelled next _ => exact h.elim
  | note event next ih => exact ih h
  | answer job result next ih => exact ih h
  | call c next ih => exact fun r => ih r (h r)
  | both c d next later ih ih' => exact ⟨fun r => ih r (h.1 r), fun r => ih' r (h.2 r)⟩

theorem heedless_pure (a : α) : (pure a : Program α).Heedless :=
  trivial

theorem heedless_ask {c : Call} {f : c.Reply → Program β} : (ask c >>= f).Heedless ↔ ∀ r, (f r).Heedless :=
  Iff.rfl

theorem heedless_readClock {f : Int → Program β} : (readClock >>= f).Heedless ↔ ∀ time, (f time).Heedless :=
  Iff.rfl

theorem heedless_record {event : Note} {f : Unit → Program β} : (record event >>= f).Heedless ↔ (f ()).Heedless :=
  Iff.rfl

theorem Heedless.runFiring_eq {p : Program α} (h : p.Heedless) (w : Firing σ) :
    ((p.runFiring env w).1, (p.runFiring env w).2.state) = p.run env w.state := by
  induction p generalizing w with
  | done a => rfl
  | now next ih => exact ih _ (h _) w
  | cancelled next _ => exact h.elim
  | note event next ih => exact ih h _
  | answer job result next ih => exact ih h _
  | call c next ih => exact ih _ (h _) (w.call env c).2
  | both c d next later ih _ => exact ih _ (h.1 _) (w.call env c).2

end ContactsIndex.Program
