import Std.Data.TreeMap

/-!
# Full update jobs

What the device is asked to run later: a periodic full update, or one that is to
run once and soon. The scheduler here lives in memory; a user has at most one pending
job, and a new one takes the place of the old one.
-/

namespace ContactsIndex

abbrev UserId := Nat

structure Job where
  periodic : Bool
  /-- The milliseconds between two runs of a periodic job. -/
  interval : Nat
  requiresBatteryNotLow : Bool
  requiresDeviceIdle : Bool
  persisted : Bool
  deriving DecidableEq, Repr

namespace Job

def everyInterval (interval : Nat) : Job :=
  ⟨true, interval, true, true, true⟩

def oneOff : Job :=
  ⟨false, 0, true, false, false⟩

def isPeriodicWith (job : Job) (interval : Nat) : Bool :=
  job.periodic && job.interval = interval

end Job

/-! ## A scheduler in memory -/

structure JobScheduler where
  pending : Std.TreeMap UserId Job
  /-- Every job that was scheduled, the oldest first. -/
  history : List (UserId × Job)
  cancellations : List UserId

namespace JobScheduler

def empty : JobScheduler :=
  ⟨∅, [], []⟩

def pending? (scheduler : JobScheduler) (user : UserId) : Option Job :=
  scheduler.pending[user]?

def schedule (scheduler : JobScheduler) (user : UserId) (job : Job) : JobScheduler :=
  { scheduler with pending := scheduler.pending.insert user job, history := scheduler.history ++ [(user, job)] }

def cancel (scheduler : JobScheduler) (user : UserId) : Bool × JobScheduler :=
  match scheduler.pending? user with
  | none => (false, scheduler)
  | some _ =>
    (true,
      { scheduler with
        pending := scheduler.pending.erase user
        cancellations := scheduler.cancellations ++ [user] })

end JobScheduler

end ContactsIndex
