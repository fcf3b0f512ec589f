import ContactsIndex.Instance.Worker
import ContactsIndex.Proofs.Program.Collaborators

/-!
# An instance while its source changes

A worker, the handler that is at work and the cycles in flight share the collaborators,
and the source changes at any time. A `Machine` is all of these together, and a `Move`
is what one of them does next, up to the next call; a run is a list of moves. Nothing
fails and nobody cancels: a call that would fail is not a move.

The `Stage` remembers besides what the cycles have written and how they were begun.
-/

namespace ContactsIndex

/-! ## Calls that fail -/

def Call.fails : (c : Call) → c.Reply → Bool
  | .updated _ _, .ok (some _) | .deleted _, .ok (some _) | .contacts _, .ok (some _) => false
  | .put _, .ok outcome => !outcome.success
  | .remove _, .ok outcome => !outcome.cleared
  | .entries _, .ok _ | .listIds, .ok _ | .getSchema, .ok _ | .setSchema _ _, .ok _ => false
  | .schedule _ _, .ok _ | .cancelJob _, .ok _ | .pendingJob _, .ok _ | .makeFolder, .ok _ | .persist _, .ok _ => false
  | .loadSettings, _ => false
  | _, _ => true

theorem Call.fails_iff {c : Call} {reply : c.Reply} : c.fails reply = true ↔ c.Failed reply := by
  constructor
  · intro h
    cases c with
    | put docs => rintro outcome rfl; simpa [fails] using h
    | remove ids => rintro outcome rfl; simpa [fails] using h
    | loadSettings => cases h
    | schedule user job => rintro rfl; cases h
    | makeFolder => rintro rfl; cases h
    | persist settings => rintro rfl; cases h
    | _ => rintro answer rfl; cases h
  · intro h
    cases c with
    | put docs => rcases reply with e | outcome <;> first | rfl | simp [fails, h outcome rfl]
    | remove ids => rcases reply with e | outcome <;> first | rfl | simp [fails, h outcome rfl]
    | loadSettings => cases h
    | updated since limit => rcases reply with e | _ | rows <;> first | rfl | exact absurd rfl (h rows)
    | deleted since => rcases reply with e | _ | rows <;> first | rfl | exact absurd rfl (h rows)
    | contacts ids => rcases reply with e | _ | found <;> first | rfl | exact absurd rfl (h found)
    | schedule user job => rcases reply with e | _ <;> first | rfl | exact absurd rfl h
    | makeFolder => rcases reply with e | _ <;> first | rfl | exact absurd rfl h
    | persist settings => rcases reply with e | _ <;> first | rfl | exact absurd rfl h
    | _ => rcases reply with e | a <;> first | rfl | exact absurd rfl (h a)

/-! ## The stage -/

/-- What a cycle has written under an id, `none` for a removal, and what the source had under
the id at that moment. -/
structure Landing where
  byFull : Bool
  content : Option Fingerprint
  source : Option Contact

structure Stage where
  look : Collaborators
  landed : String → Option Landing
  begun : List Watermarks
  /-- The last stamp of the source when the last delta update was begun. -/
  begunAt : Int

namespace Stage

def opening (look : Collaborators) : Stage :=
  ⟨look, fun _ => none, [], look.book.lastStamp⟩

def serve (s : Stage) (byFull : Bool) (c : Call) : c.Reply × Stage :=
  let (reply, look) := s.look.serve c
  (reply, { s with
    look := look
    landed := fun id =>
      if id ∈ c.written reply then some ⟨byFull, look.store.fingerprint? id, look.book.get? id⟩
        else s.landed id })

def answer? (s : Stage) (byFull : Bool) (c : Call) : Option (c.Reply × Stage) :=
  if c.fails (s.serve byFull c).1 then none else some (s.serve byFull c)

def change (s : Stage) (now : Int) (ch : AddressBook.Change) : Stage :=
  { s with look := { s.look with book := s.look.book.change now ch } }

def begin (s : Stage) (context : CycleContext) : Stage :=
  { s with begun := context.settings.watermarks :: s.begun, begunAt := s.look.book.lastStamp }

end Stage

/-! ## One step of a program -/

/-- What a step leaves open: the time that the clock shows, and which of two calls under way
is answered first. -/
structure Tick where
  time : Int
  swapped : Bool

namespace Program

variable {α : Type}

def value? : Program α → Option α
  | .done a => some a
  | _ => none

def advance (byFull : Bool) (tick : Tick) : Program α → Stage → Option (Program α × Stage)
  | .done _, _ => none
  | .now next, s => some (next tick.time, s)
  | .cancelled next, s => some (next false, s)
  | .note _ next, s => some (next, s)
  | .answer _ _ next, s => some (next, s)
  | .call c next, s => (s.answer? byFull c).map fun (r, t) => (next r, t)
  | .both c d next later, s =>
    if tick.swapped then (s.answer? byFull d).map fun (r, t) => (later r, t)
    else (s.answer? byFull c).map fun (r, t) => (next r, t)

theorem eq_done_of_value? {p : Program α} {a : α} (h : p.value? = some a) : p = .done a := by
  cases p <;> simp_all [value?]

end Program

/-! ## The machine -/

structure Machine where
  worker : Worker
  handler : Option (Program Worker)
  delta : Option (Program CycleContext.DeltaOutcome)
  full : Option (Program CycleContext.FullOutcome)
  stage : Stage
  /-- The last stamp of the source when the worker last took up a notification. -/
  toldAt : Int

inductive Move where
  | change (now : Int) (ch : AddressBook.Change)
  | notify
  | request (job : Option JobId)
  | handler (tick : Tick)
  | delta (tick : Tick)
  | full (tick : Tick)

def Move.isRequest : Move → Bool
  | .request _ => true
  | _ => false

namespace Machine

def launch (worker : Worker) (initial : InitialCycle) (look : Collaborators) : Machine where
  worker := worker
  handler := some (worker.begin initial)
  delta := none
  full := none
  stage := .opening look
  toldAt := look.book.lastStamp

def install (m : Machine) (w : Worker) : Machine where
  worker := w
  handler := none
  delta := m.delta <|> w.delta.map (·.deltaUpdate)
  full := m.full <|> w.full.map (·.context.fullUpdate)
  stage := if m.delta.isSome then m.stage else (w.delta.map m.stage.begin).getD m.stage
  toldAt := m.toldAt

def take? (m : Machine) (handler : Program Worker) : Option Machine :=
  if m.handler.isSome then none else some { m with handler := some handler }

def step (m : Machine) : Move → Option Machine
  | .change now ch => some { m with stage := m.stage.change now ch }
  | .notify => take? { m with toldAt := m.stage.look.book.lastStamp }
    (m.worker.onCommand .contactsChanged)
  | .request job => m.take? (m.worker.onCommand (.runFullUpdate job))
  | .handler tick =>
    m.handler.bind fun p =>
      match p.value? with
      | some w => some (m.install w)
      | none => (p.advance false tick m.stage).map fun (p, stage) =>
        { m with handler := some p, stage := stage }
  | .delta tick =>
    m.delta.bind fun p =>
      match p.value? with
      | some outcome => take? { m with delta := none } (m.worker.onDeltaDone outcome)
      | none => (p.advance false tick m.stage).map fun (p, stage) =>
        { m with delta := some p, stage := stage }
  | .full tick =>
    m.full.bind fun p =>
      match p.value? with
      | some outcome => take? { m with full := none } (m.worker.onFullDone outcome)
      | none => (p.advance true tick m.stage).map fun (p, stage) =>
        { m with full := some p, stage := stage }

def run (m : Machine) : List Move → Option Machine
  | [] => some m
  | move :: moves => (m.step move).bind (·.run moves)

/-! ## What a move can do -/

variable {m m' : Machine}

theorem take?_eq {p : Program Worker} (h : m.take? p = some m') :
    m.handler = none ∧ m' = { m with handler := some p } := by
  unfold take? at h
  split at h
  · cases h
  · next hn => exact ⟨Option.not_isSome_iff_eq_none.mp hn, (Option.some.inj h).symm⟩

theorem step_handler {tick : Tick} (h : m.step (.handler tick) = some m') :
    (∃ w, m.handler = some (.done w) ∧ m' = m.install w) ∨
      ∃ p q t, m.handler = some p ∧ p.advance false tick m.stage = some (q, t) ∧
        m' = { m with handler := some q, stage := t } := by
  obtain ⟨p, hp, h⟩ := Option.bind_eq_some_iff.mp h
  split at h
  · next w hw => exact .inl ⟨w, hp.trans (congrArg some (Program.eq_done_of_value? hw)),
      (Option.some.inj h).symm⟩
  · obtain ⟨⟨q, t⟩, hq, rfl⟩ := Option.map_eq_some_iff.mp h
    exact .inr ⟨p, q, t, hp, hq, rfl⟩

theorem step_delta {tick : Tick} (h : m.step (.delta tick) = some m') :
    (∃ outcome, m.delta = some (.done outcome) ∧ m.handler = none ∧
      m' = { m with delta := none, handler := some (m.worker.onDeltaDone outcome) }) ∨
      ∃ p q t, m.delta = some p ∧ p.advance false tick m.stage = some (q, t) ∧
        m' = { m with delta := some q, stage := t } := by
  obtain ⟨p, hp, h⟩ := Option.bind_eq_some_iff.mp h
  split at h
  · next outcome ho =>
    obtain ⟨hn, rfl⟩ := take?_eq h
    exact .inl ⟨outcome, hp.trans (congrArg some (Program.eq_done_of_value? ho)), hn, rfl⟩
  · obtain ⟨⟨q, t⟩, hq, rfl⟩ := Option.map_eq_some_iff.mp h
    exact .inr ⟨p, q, t, hp, hq, rfl⟩

theorem step_full {tick : Tick} (h : m.step (.full tick) = some m') :
    (∃ outcome, m.full = some (.done outcome) ∧ m.handler = none ∧
      m' = { m with full := none, handler := some (m.worker.onFullDone outcome) }) ∨
      ∃ p q t, m.full = some p ∧ p.advance true tick m.stage = some (q, t) ∧
        m' = { m with full := some q, stage := t } := by
  obtain ⟨p, hp, h⟩ := Option.bind_eq_some_iff.mp h
  split at h
  · next outcome ho =>
    obtain ⟨hn, rfl⟩ := take?_eq h
    exact .inl ⟨outcome, hp.trans (congrArg some (Program.eq_done_of_value? ho)), hn, rfl⟩
  · obtain ⟨⟨q, t⟩, hq, rfl⟩ := Option.map_eq_some_iff.mp h
    exact .inr ⟨p, q, t, hp, hq, rfl⟩

theorem install_delta (m : Machine) (w : Worker) :
    ((m.install w).delta = m.delta ∧ (m.install w).stage = m.stage ∧
      (m.delta = none → w.delta = none)) ∨
      ∃ context, m.delta = none ∧ w.delta = some context ∧
      (m.install w).delta = some context.deltaUpdate ∧
        (m.install w).stage = m.stage.begin context := by
  cases hm : m.delta with
  | some p => exact .inl ⟨by simp [install, hm], by simp [install, hm], (nomatch ·)⟩
  | none =>
    cases hw : w.delta with
    | none => exact .inl ⟨by simp [install, hm, hw], by simp [install, hm, hw], fun _ => rfl⟩
    | some context => exact .inr ⟨context, rfl, rfl,
      by simp [install, hm, hw], by simp [install, hm, hw]⟩

theorem install_full (m : Machine) (w : Worker) :
    ((m.install w).full = m.full ∧ (m.full = none → w.full = none)) ∨
    ∃ run, m.full = none ∧ w.full = some run ∧ (m.install w).full = some run.context.fullUpdate := by
  cases hm : m.full with
  | some p => exact .inl ⟨by simp [install, hm], (nomatch ·)⟩
  | none =>
    cases hw : w.full with
    | none => exact .inl ⟨by simp [install, hm, hw], fun _ => rfl⟩
    | some run => exact .inr ⟨run, rfl, rfl, by simp [install, hm, hw]⟩

theorem run_induction {I : Machine → Prop} {P : Move → Prop}
    (hstep : ∀ {m m' : Machine} {move : Move}, P move → I m → m.step move = some m' → I m') :
    ∀ {moves : List Move} {m m' : Machine}, (∀ move ∈ moves, P move) → I m →
      m.run moves = some m' → I m'
  | [], _, _, _, hi, h => Option.some.inj h ▸ hi
  | move :: moves, m, m', hp, hi, h => by
    obtain ⟨n, hn, h⟩ := Option.bind_eq_some_iff.mp h
    refine run_induction hstep (fun other ho => hp other (List.mem_cons_of_mem _ ho)) ?_ h
    exact hstep (hp move (List.mem_cons_self ..)) hi hn

end Machine

end ContactsIndex
