import ContactsIndex.Proofs.Program.Collaborators
import ContactsIndex.Proofs.Program.Exchanges

/-!
# Collaborators that may fail

Calls to the collaborators in memory may fail in any way, as long as no contact changes. Where a
run is `steady`, others may change all but the source meanwhile; where it is merely `faulty`, a call
that does not fail is served as ever.
-/

namespace ContactsIndex

open Program

namespace Collaborators

structure SameSource (w w' : Collaborators) : Prop where
  book : w.book.Same w'.book
  available : w'.book.available = w.book.available

variable {w w' w'' : Collaborators} {c : Call} {reply : c.Reply}

theorem SameSource.refl (w : Collaborators) : SameSource w w :=
  ⟨.refl _, rfl⟩

theorem SameSource.trans (h : SameSource w w') (h' : SameSource w' w'') : SameSource w w'' :=
  ⟨h.book.trans h'.book, h'.available.trans h.available⟩

theorem sameSource_serve (w : Collaborators) (c : Call) : SameSource w (w.serve c).2 :=
  ⟨w.serve_book c, w.serve_available c⟩

/-- A call is served, or it fails and may leave anything but the source changed. Nobody cancels. -/
def faulty : Environment Collaborators where
  clock _ := True
  token b := b = false
  answers c w reply w' := (reply, w') = w.serve c ∨ c.Failed reply ∧ SameSource w w'
  unordered := True
  drift w w' := w' = w
  drift_refl _ := rfl
  drift_trans h h' := h'.trans h

theorem within_faulty {env : Surroundings Collaborators} (hplain : env.Plain) (htoken : ∀ w, env.token w = false)
    (hreply : ∀ c w, env.reply c w = w.serve c) : env.Within faulty where
  clock _ := trivial
  token := htoken
  note := hplain.note
  answer := hplain.answer
  reply c w := .inl (hreply c w)

theorem smooth_unfailing : faulty.unfailing.Smooth where
  answered h := h.2
  uncancelled h := nomatch h

/-! ## A steady source -/

def Served (w : Collaborators) (x : Exchange) : Prop :=
  ∃ u, SameSource w u ∧ x.reply = (u.serve x.call).1

/-- A call fails or is served, and whatever happens to the others meanwhile, the source does not change. -/
def steady : Environment Collaborators where
  clock _ := True
  token _ := True
  answers c w reply w' := SameSource w w' ∧ (c.Failed reply ∨ w.Served ⟨c, reply⟩)
  unordered := True
  drift := SameSource
  drift_refl := .refl
  drift_trans := .trans

theorem within_steady {env : Surroundings Collaborators} (hplain : env.Plain)
    (hreply : ∀ c w, env.reply c w = w.serve c) : env.Within steady where
  clock _ := trivial
  token _ := trivial
  note := hplain.note
  answer := hplain.answer
  reply c w := by
    rw [hreply]
    exact ⟨w.sameSource_serve c, .inr ⟨w, .refl w, rfl⟩⟩

theorem exists_log {α : Type} {P : Call → Prop} {Q : α → Prop} {p : Program α} {a : α} (hp : p.Obeys P Q)
    (h : Ends steady p w a w') : ∃ log, Ends Exchange.free p [] a log ∧ SameSource w w' ∧
      ∀ x ∈ log, x.Failed ∨ w.Served x := by
  let inv : Collaborators × List Exchange → Prop := fun v => SameSource w v.1 ∧ ∀ x ∈ v.2, x.Failed ∨ w.Served x
  have hstart : inv (w, []) := ⟨.refl w, fun _ hx => nomatch hx⟩
  obtain ⟨log, hlogged, -⟩ := Environment.exists_logged h []
  refine ⟨log, steady.records_logging.ends hlogged, (hp.ends (I := inv) ?_ hlogged hstart).2⟩
  rintro c v reply v' - ⟨hsame, hall⟩ ⟨⟨hsame', hserved⟩, hlog⟩
  refine ⟨hsame.trans hsame', ?_⟩
  rw [hlog, Exchange.forall_concat]
  exact ⟨hall, hserved.imp_right fun ⟨u, hu, hreply⟩ => ⟨u, hsame.trans hu, hreply⟩⟩

end Collaborators

end ContactsIndex
