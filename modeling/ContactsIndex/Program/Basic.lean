import ContactsIndex.Metrics
import ContactsIndex.Program.Call
import ContactsIndex.Error

/-!
# Programs

A program is what an indexer does from here on. It looks at the clock or at its
cancellation token, notes an event, or answers a job, all of which happen at once;
or it calls a collaborator and goes on with the reply. Between a call and its
reply anything may happen elsewhere, so the calls are the places where two
programs can interleave. Two calls may be under way at the same time: the program
goes on with the one that is answered first, and if it asks for the other one
later, the call that is under way already is meant.
-/

namespace ContactsIndex

abbrev JobId := Nat

inductive Program (α : Type) : Type where
  | done (value : α)
  | now (next : Int → Program α)
  | cancelled (next : Bool → Program α)
  | note (event : Note) (next : Program α)
  | answer (job : JobId) (result : JobResult) (next : Program α)
  | call (c : Call) (next : c.Reply → Program α)
  | both (first second : Call) (afterFirst : first.Reply → Program α) (afterSecond : second.Reply → Program α)

namespace Program

variable {α β : Type}

def bind : Program α → (α → Program β) → Program β
  | done a, f => f a
  | now next, f => now fun t => (next t).bind f
  | cancelled next, f => cancelled fun b => (next b).bind f
  | note event next, f => note event (next.bind f)
  | answer job result next, f => answer job result (next.bind f)
  | call c next, f => call c fun r => (next r).bind f
  | both c d afterFirst afterSecond, f => both c d (fun r => (afterFirst r).bind f) (fun r => (afterSecond r).bind f)

instance : Monad Program where
  pure := done
  bind := bind

/-! ## Single steps -/

def readClock : Program Int :=
  now done

def isCancelled : Program Bool :=
  cancelled done

def record (event : Note) : Program Unit :=
  note event (done ())

def tell (job : JobId) (result : JobResult) : Program Unit :=
  answer job result (done ())

def ask (c : Call) : Program c.Reply :=
  call c done

/-! ## Running without interruption -/

/-- Surroundings that answer every call at once. -/
structure Surroundings (σ : Type) where
  clock : σ → Int
  token : σ → Bool
  note : Note → σ → σ
  answer : JobId → JobResult → σ → σ
  reply : (c : Call) → σ → c.Reply × σ

variable {σ : Type}

def run (env : Surroundings σ) : Program α → σ → α × σ
  | done a, s => (a, s)
  | now next, s => run env (next (env.clock s)) s
  | cancelled next, s => run env (next (env.token s)) s
  | note event next, s => run env next (env.note event s)
  | answer job result next, s => run env next (env.answer job result s)
  | call c next, s =>
    let (r, s) := env.reply c s
    run env (next r) s
  | both c _ afterFirst _, s =>
    let (r, s) := env.reply c s
    run env (afterFirst r) s

@[simp] theorem run_pure (env : Surroundings σ) (a : α) (s : σ) : run env (pure a) s = (a, s) := rfl

theorem run_bind (env : Surroundings σ) (p : Program α) (f : α → Program β) (s : σ) :
    run env (p >>= f) s = run env (f (run env p s).1) (run env p s).2 := by
  change run env (p.bind f) s = _
  induction p generalizing s with
  | done a => rfl
  | now next ih => exact ih _ s
  | cancelled next ih => exact ih _ s
  | note event next ih => exact ih _
  | answer job result next ih => exact ih _
  | call c next ih => exact ih _ _
  | both c d afterFirst afterSecond ih _ => exact ih _ _

end Program

end ContactsIndex
