import ContactsIndex.Proofs.Program.Obeys
import ContactsIndex.Proofs.Program.Straight

/-!
# Exchanges

An exchange is a call with its answer. Where any call may be answered in any way, the exchanges
so far are all there is to know about the surroundings (`free`). Surroundings of any kind may
write down the exchanges of a run beside their own state (`logging`), and the run is one of the
free ones then (`ends_logging`).
-/

namespace ContactsIndex

open Program

structure Exchange where
  call : Call
  reply : call.Reply

/-- Any call may be answered in any way, and all that is answered is written down. -/
def Exchange.free : Environment (List Exchange) where
  clock := fun _ => True
  token := fun _ => True
  answers := fun c log reply log' => log' = log ++ [⟨c, reply⟩]
  unordered := True
  drift := Eq
  drift_refl := fun _ => rfl
  drift_trans := Eq.trans

/-! ## Exchanges by kind -/

def Call.reads : Call → List String
  | .contacts ids => ids
  | _ => []

def Call.removes : Call → List String
  | .remove ids => ids
  | _ => []

namespace Exchange

def Failed (x : Exchange) : Prop :=
  x.call.Failed x.reply

def readIds (log : List Exchange) : List String :=
  log.flatMap (·.call.reads)

def removedIds (log : List Exchange) : List String :=
  log.flatMap (·.call.removes)

def chunks (log : List Exchange) : List (List String) :=
  log.filterMap fun x =>
    match x.call with
    | .contacts ids => some ids
    | _ => none

variable {log log' log'' : List Exchange}

theorem forall_concat {x : Exchange} {P : Exchange → Prop} : (∀ y ∈ log ++ [x], P y) ↔ (∀ y ∈ log, P y) ∧ P x := by
  rw [List.forall_mem_append, List.forall_mem_singleton]

theorem exists_append {P : Exchange → Prop} : (∃ y ∈ log ++ log', P y) ↔ (∃ y ∈ log, P y) ∨ ∃ y ∈ log', P y := by
  simp only [List.mem_append, or_and_right, exists_or]

theorem exists_concat {x : Exchange} {P : Exchange → Prop} : (∃ y ∈ log ++ [x], P y) ↔ (∃ y ∈ log, P y) ∨ P x := by
  simp only [exists_append, List.mem_singleton, exists_eq_left]

theorem readIds_append (log log' : List Exchange) : readIds (log ++ log') = readIds log ++ readIds log' :=
  List.flatMap_append ..

theorem removedIds_append (log log' : List Exchange) : removedIds (log ++ log') = removedIds log ++ removedIds log' :=
  List.flatMap_append ..

theorem chunks_append (log log' : List Exchange) : chunks (log ++ log') = chunks log ++ chunks log' :=
  List.filterMap_append

theorem flatten_chunks : ∀ log : List Exchange, (chunks log).flatten = readIds log
  | [] => rfl
  | ⟨c, reply⟩ :: log => by
    have ih := flatten_chunks log
    unfold chunks readIds at ih ⊢
    rw [List.flatMap_cons, ← ih]
    cases c <;> rfl

/-! ## Longer logs -/

theorem prefix_of_answers {c : Call} {reply : c.Reply}
    (h : free.answers c log reply log') : log <+: log' :=
  ⟨[⟨c, reply⟩], Eq.symm h⟩

theorem prefix_of_drift (h : free.drift log log') : log <+: log' :=
  ⟨[], (List.append_nil log).trans h⟩

theorem always_prefix {α : Type} {P : Call → Prop} {Q : α → Prop} {p : Program α}
    (h : p.Obeys P Q) :
    p.Always free (fun a log' => Q a ∧ log <+: log') log :=
  h.always (fun _ hlog ha => hlog.trans (prefix_of_answers ha))
    (fun hlog hd => hlog.trans (prefix_of_drift hd))
    (List.prefix_refl log)

def Grew (P : Call → Prop) (log log' : List Exchange) : Prop :=
  ∃ new, log' = log ++ new ∧ ∀ x ∈ new, P x.call

variable {P : Call → Prop}

theorem Grew.refl (log : List Exchange) : Grew P log log :=
  ⟨[], (List.append_nil log).symm, fun _ hx => nomatch hx⟩

theorem Grew.trans (h : Grew P log log') (h' : Grew P log' log'') : Grew P log log'' := by
  obtain ⟨new, rfl, hnew⟩ := h
  obtain ⟨new', rfl, hnew'⟩ := h'
  refine ⟨new ++ new', List.append_assoc .., fun x hx => ?_⟩
  rcases List.mem_append.mp hx with hx | hx
  · exact hnew x hx
  · exact hnew' x hx

theorem grew_of_drift (h : free.drift log log') : Grew P log log' :=
  h ▸ .refl log

theorem grew_of_answers {c : Call} {reply : c.Reply} (hc : P c)
    (h : free.answers c log reply log') : Grew P log log' :=
  ⟨[⟨c, reply⟩], h, fun _ hx => List.mem_singleton.mp hx ▸ hc⟩

theorem always_grew {α : Type} {Q : α → Prop} {p : Program α} (h : p.Obeys P Q) :
    p.Always free (fun a log' => Q a ∧ Grew P log log') log :=
  h.always (fun hc hlog ha => hlog.trans (grew_of_answers hc ha))
    (fun hlog hd => hlog.trans (grew_of_drift hd))
    (.refl log)

theorem Grew.subset (h : Grew P log log') : log ⊆ log' := by
  obtain ⟨new, rfl, _⟩ := h
  exact List.subset_append_left ..

theorem Grew.read_eq (h : Grew P log log') (hP : ∀ c, P c → c.reads = []) : readIds log' = readIds log := by
  obtain ⟨new, rfl, hnew⟩ := h
  have hnone : readIds new = [] := List.flatMap_eq_nil_iff.mpr fun x hx => hP _ (hnew x hx)
  simp only [readIds, List.flatMap_append] at hnone ⊢
  rw [hnone, List.append_nil]

end Exchange

/-! ## Surroundings that write down -/

namespace Program

variable {σ α : Type}

def Surroundings.logging (env : Surroundings σ) : Surroundings (σ × List Exchange) where
  clock w := env.clock w.1
  token w := env.token w.1
  note event w := (env.note event w.1, w.2)
  answer job result w := (env.answer job result w.1, w.2)
  reply c w := ((env.reply c w.1).1, (env.reply c w.1).2, w.2 ++ [⟨c, (env.reply c w.1).1⟩])

theorem Surroundings.Plain.logging {env : Surroundings σ} (h : env.Plain) : env.logging.Plain where
  note event w := by simp [Surroundings.logging, h.note]
  answer job result w := by simp [Surroundings.logging, h.answer]

/-- A run of surroundings that write down is free, whatever the cancellation token shows. -/
theorem ends_logging (env : Surroundings σ) (token : σ × List Exchange → Bool) (p : Program α) (s : σ)
    (log : List Exchange) :
    Ends Exchange.free p log (p.run { env.logging with token := token } (s, log)).1
      (p.run { env.logging with token := token } (s, log)).2.2 := by
  induction p generalizing s log with
  | done a => exact .done
  | now next ih => exact .step (.now trivial) (ih _ s log)
  | cancelled next ih => exact .step (.cancelled trivial) (ih _ s log)
  | note event next ih => exact .step .note (ih _ log)
  | answer job result next ih => exact .step .answer (ih _ log)
  | call c next ih => exact .step (.call rfl) (ih _ _ _)
  | both c d next later ih _ => exact .step (.first rfl) (ih _ _ _)

theorem forall_logging {P : Exchange → Prop} (env : Surroundings σ) (token : σ × List Exchange → Bool)
    (h : ∀ c s, P ⟨c, (env.reply c s).1⟩) (p : Program α) (s : σ) :
    ∀ x ∈ (p.run { env.logging with token := token } (s, [])).2.2, P x := by
  let I : σ × List Exchange → Prop := fun w => ∀ x ∈ w.2, P x
  have hreply : ∀ c w, I w → I (({ env.logging with token := token } : Surroundings _).reply c w).2 := fun c w hw =>
    Exchange.forall_concat.mpr ⟨hw, h c w.1⟩
  have hstart : I (s, []) := fun _ hx => nomatch hx
  exact p.run_keeps (I := I) hreply (fun _ _ hw => hw) (fun _ _ _ hw => hw) (s, []) hstart

end Program

/-! ## Environments that write down -/

structure Environment.Records {σ : Type} (env : Environment σ) (log : σ → List Exchange) : Prop where
  answers : ∀ {c s reply t}, env.answers c s reply t → log t = log s ++ [⟨c, reply⟩]
  drift : ∀ {s t}, env.drift s t → log t = log s

theorem Exchange.records_free : free.Records id :=
  ⟨id, Eq.symm⟩

theorem Program.Surroundings.records_logging {σ : Type} (env : Surroundings σ) :
    env.logging.environment.Records Prod.snd where
  answers h := by cases h; rfl
  drift h := by cases h; rfl

namespace Environment

variable {σ α : Type} {env : Environment σ} {log : σ → List Exchange} {p q : Program α} {a : α} {s t u : σ}

theorem Records.ends (R : env.Records log) (h : Ends env p s a t) : Ends Exchange.free p (log s) a (log t) := by
  induction h with
  | done => exact .done
  | step hs _ ih =>
    refine .step ?_ ih
    cases hs with
    | now _ => exact .now trivial
    | cancelled _ => exact .cancelled trivial
    | note => exact .note
    | answer => exact .answer
    | call ha => exact .call (R.answers ha)
    | first ha => exact .first (R.answers ha)
    | second _ ha => exact .second trivial (R.answers ha)

def logging (env : Environment σ) : Environment (σ × List Exchange) where
  clock := env.clock
  token := env.token
  answers c s reply t := env.answers c s.1 reply t.1 ∧ t.2 = s.2 ++ [⟨c, reply⟩]
  unordered := env.unordered
  drift s t := env.drift s.1 t.1 ∧ t.2 = s.2
  drift_refl s := ⟨env.drift_refl s.1, rfl⟩
  drift_trans h h' := ⟨env.drift_trans h.1 h'.1, h'.2.trans h.2⟩

theorem records_logging (env : Environment σ) : env.logging.Records Prod.snd :=
  ⟨And.right, And.right⟩

def unfailing (env : Environment σ) : Environment σ :=
  { env with answers := fun c s reply t => env.answers c s reply t ∧ ¬ c.Failed reply }

/-- A run with the exchanges `new`. If none has failed, it is one where none can fail. -/
structure Logged (env : Environment σ) (p : Program α) (s : σ) (a : α) (t : σ) (old new : List Exchange) : Prop where
  ends : Ends env.logging p (s, old) a (t, old ++ new)
  unfailing : (∀ x ∈ new, ¬ x.Failed) → Ends env.unfailing p s a t

variable {old new : List Exchange}

theorem Logged.silent (hlog : Step env.logging p (s, old) q (s, old)) (hstep : Step env.unfailing p s q s)
    (h : env.Logged q s a t old new) : env.Logged p s a t old new :=
  ⟨.step hlog h.ends, fun hall => .step hstep (h.unfailing hall)⟩

theorem Logged.cons {x : Exchange} (hlog : Step env.logging p (s, old) q (t, old ++ [x]))
    (hstep : ¬ x.Failed → Step env.unfailing p s q t) (h : env.Logged q t a u (old ++ [x]) new) :
    env.Logged p s a u old (x :: new) where
  ends := .step hlog (by simpa using h.ends)
  unfailing hall :=
    have hall := List.forall_mem_cons.mp hall
    .step (hstep hall.1) (h.unfailing hall.2)

theorem exists_logged (h : Ends env p s a t) : ∀ old, ∃ new, env.Logged p s a t old new := by
  induction h with
  | done =>
    intro old
    refine ⟨[], ?_, fun _ => .done⟩
    rw [List.append_nil]
    exact .done
  | step hs _ ih =>
    intro old
    cases hs with
    | now ht => exact (ih old).imp fun _ => .silent (.now ht) (.now ht)
    | cancelled hb => exact (ih old).imp fun _ => .silent (.cancelled hb) (.cancelled hb)
    | note => exact (ih old).imp fun _ => .silent .note .note
    | answer => exact (ih old).imp fun _ => .silent .answer .answer
    | call ha =>
      obtain ⟨new, h⟩ := ih (old ++ [⟨_, _⟩])
      exact ⟨_, .cons (.call ⟨ha, rfl⟩) (fun hf => .call ⟨ha, hf⟩) h⟩
    | first ha =>
      obtain ⟨new, h⟩ := ih (old ++ [⟨_, _⟩])
      exact ⟨_, .cons (.first ⟨ha, rfl⟩) (fun hf => .first ⟨ha, hf⟩) h⟩
    | second ho ha =>
      obtain ⟨new, h⟩ := ih (old ++ [⟨_, _⟩])
      exact ⟨_, .cons (.second ho ⟨ha, rfl⟩) (fun hf => .second ho ⟨ha, hf⟩) h⟩

end Environment

end ContactsIndex
