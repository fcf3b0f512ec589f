import ContactsIndex.Proofs.Program.Environment

/-!
# Whom a program answers

`p.Tells told` says that `p` gives just the answers of `told`, in this order, whatever its
calls are answered with. `Leads` is a run with the answers that were given on the way, and
`Finishes` one to the end. Programs have no infinite runs, so where every call is answered
each one comes to its end (`exists_finishes`).
-/

namespace ContactsIndex

structure Environment.Responsive {σ : Type} (env : Environment σ) : Prop where
  clock : ∃ time, env.clock time
  token : ∃ b, env.token b
  answers : ∀ c s, ∃ r t, env.answers c s r t

namespace Program

variable {σ α β : Type}

def answering : Program α → List (JobId × JobResult)
  | .answer job result _ => [(job, result)]
  | _ => []

/-- Some steps of a program with nobody else around. -/
inductive Leads (env : Environment σ) : Program α → σ → List (JobId × JobResult) → Program α → σ → Prop
  | refl {p s} : Leads env p s [] p s
  | step {p q r s t u told} : Step env p s q t → Leads env q t told r u → Leads env p s (p.answering ++ told) r u

def Finishes (env : Environment σ) (p : Program α) (s : σ) (told : List (JobId × JobResult)) (a : α) (t : σ) : Prop :=
  Leads env p s told (.done a) t

variable {env : Environment σ} {s t u : σ} {p q r : Program α} {a : α}
  {told told' : List (JobId × JobResult)}

theorem Leads.trans (h : Leads env p s told q t) (h' : Leads env q t told' r u) :
    Leads env p s (told ++ told') r u := by
  induction h with
  | refl => exact h'
  | step hs _ ih =>
    rw [List.append_assoc]
    exact .step hs (ih h')

theorem Leads.ends (h : Leads env p s told q t) (he : Ends env q t a u) : Ends env p s a u := by
  induction h with
  | refl => exact he
  | step hs _ ih => exact .step hs (ih he)

theorem Finishes.ends (h : Finishes env p s told a t) : Ends env p s a t :=
  Leads.ends h .done

theorem Ends.finishes (h : Ends env p s a t) : ∃ told, Finishes env p s told a t := by
  induction h with
  | done => exact ⟨_, .refl⟩
  | step hs _ ih =>
    obtain ⟨_, hf⟩ := ih
    exact ⟨_, .step hs hf⟩

theorem exists_finishes (h : env.Responsive) (p : Program α) (s : σ) :
    ∃ told a t, Finishes env p s told a t := by
  induction p generalizing s with
  | done a => exact ⟨_, _, _, .refl⟩
  | now next ih =>
    obtain ⟨time, ht⟩ := h.clock
    obtain ⟨_, _, _, hf⟩ := ih time s
    exact ⟨_, _, _, .step (.now ht) hf⟩
  | cancelled next ih =>
    obtain ⟨b, hb⟩ := h.token
    obtain ⟨_, _, _, hf⟩ := ih b s
    exact ⟨_, _, _, .step (.cancelled hb) hf⟩
  | note event next ih =>
    obtain ⟨_, _, _, hf⟩ := ih s
    exact ⟨_, _, _, .step .note hf⟩
  | answer job result next ih =>
    obtain ⟨_, _, _, hf⟩ := ih s
    exact ⟨_, _, _, .step .answer hf⟩
  | call c next ih =>
    obtain ⟨r, t, ha⟩ := h.answers c s
    obtain ⟨_, _, _, hf⟩ := ih r t
    exact ⟨_, _, _, .step (.call ha) hf⟩
  | both c d next later ih _ =>
    obtain ⟨r, t, ha⟩ := h.answers c s
    obtain ⟨_, _, _, hf⟩ := ih r t
    exact ⟨_, _, _, .step (.first ha) hf⟩

/-! ## Which answers a program gives -/

def Tells : Program α → List (JobId × JobResult) → Prop
  | .done _, told => told = []
  | .now next, told => ∀ time, (next time).Tells told
  | .cancelled next, told => ∀ b, (next b).Tells told
  | .note _ next, told => next.Tells told
  | .answer job result next, told => ∃ rest, told = (job, result) :: rest ∧ next.Tells rest
  | .call _ next, told => ∀ r, (next r).Tells told
  | .both _ _ next later, told => (∀ r, (next r).Tells told) ∧ ∀ r, (later r).Tells told

theorem Tells.step (h : p.Tells told) (hs : Step env p s q t) :
    ∃ rest, told = p.answering ++ rest ∧ q.Tells rest := by
  cases hs with
  | now _ => exact ⟨told, rfl, h _⟩
  | cancelled _ => exact ⟨told, rfl, h _⟩
  | note => exact ⟨told, rfl, h⟩
  | answer =>
    obtain ⟨rest, rfl, hrest⟩ := h
    exact ⟨rest, rfl, hrest⟩
  | call _ => exact ⟨told, rfl, h _⟩
  | first _ => exact ⟨told, rfl, h.1 _⟩
  | second _ _ => exact ⟨told, rfl, h.2 _⟩

theorem Tells.silent_step (h : p.Tells []) (hs : Step env p s q t) : p.answering = [] ∧ q.Tells [] := by
  obtain ⟨rest, hrest, hq⟩ := h.step hs
  obtain ⟨hp, rfl⟩ := List.append_eq_nil_iff.mp hrest.symm
  exact ⟨hp, hq⟩

theorem Tells.leads (h : p.Tells told) (hl : Leads env p s told' q t) :
    ∃ rest, told = told' ++ rest ∧ q.Tells rest := by
  induction hl generalizing told with
  | refl => exact ⟨told, rfl, h⟩
  | step hs _ ih =>
    obtain ⟨rest, rfl, hrest⟩ := h.step hs
    obtain ⟨left, rfl, hleft⟩ := ih hrest
    exact ⟨left, (List.append_assoc ..).symm, hleft⟩

theorem Tells.eq (h : p.Tells told) (hf : Finishes env p s told' a t) : told' = told := by
  obtain ⟨rest, rfl, hrest⟩ := h.leads hf
  obtain rfl : rest = [] := hrest
  exact (List.append_nil told').symm

theorem Tells.finishes (h : p.Tells told) (he : Ends env p s a t) : Finishes env p s told a t := by
  obtain ⟨told', hf⟩ := he.finishes
  rwa [h.eq hf] at hf

/-! ## Along a program -/

theorem Tells.bind {f : α → Program β} (h : p.Tells told) (hf : ∀ a, (f a).Tells told') :
    (p >>= f).Tells (told ++ told') := by
  change (p.bind f).Tells _
  induction p generalizing told with
  | done a =>
    obtain rfl : told = [] := h
    exact hf a
  | now next ih => exact fun time => ih time (h time)
  | cancelled next ih => exact fun b => ih b (h b)
  | note event next ih => exact ih h
  | answer job result next ih =>
    obtain ⟨rest, rfl, hrest⟩ := h
    exact ⟨rest ++ told', rfl, ih hrest⟩
  | call c next ih => exact fun r => ih r (h r)
  | both c d next later ih ih' => exact ⟨fun r => ih r (h.1 r), fun r => ih' r (h.2 r)⟩

theorem Tells.silent_bind {f : α → Program β} (h : p.Tells []) (hf : ∀ a, (f a).Tells told) :
    (p >>= f).Tells told :=
  h.bind hf

theorem tells_ask {c : Call} {f : c.Reply → Program β} :
    (ask c >>= f).Tells told ↔ ∀ r, (f r).Tells told := Iff.rfl

theorem tells_readClock {f : Int → Program β} :
    (readClock >>= f).Tells told ↔ ∀ time, (f time).Tells told := Iff.rfl

theorem tells_isCancelled {f : Bool → Program β} :
    (isCancelled >>= f).Tells told ↔ ∀ b, (f b).Tells told := Iff.rfl

theorem tells_record {event : Note} {f : Unit → Program β} :
    (record event >>= f).Tells told ↔ (f ()).Tells told := Iff.rfl

end Program

end ContactsIndex
