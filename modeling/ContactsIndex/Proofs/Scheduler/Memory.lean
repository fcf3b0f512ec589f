import ContactsIndex.Proofs.Program.Answers
import ContactsIndex.Proofs.Program.Collaborators
import ContactsIndex.Proofs.Update.Calls

/-!
# The scheduler in memory

Which job of a user is pending after each operation, and programs that talk to the scheduler
in memory while their other calls are answered in any way. A cycle changes nothing there, but
for the job that a delta update schedules.
-/

namespace ContactsIndex

open Program

namespace Job

theorem isPeriodicWith_everyInterval (interval : Nat) : (everyInterval interval).isPeriodicWith interval = true := by
  simp [everyInterval, isPeriodicWith]

end Job

namespace JobScheduler

variable (jobs : JobScheduler) (user : UserId)

@[simp] theorem pending?_schedule (job : Job) : (jobs.schedule user job).pending? user = some job :=
  Std.TreeMap.getElem?_insert_self

@[simp] theorem pending?_cancel : (jobs.cancel user).2.pending? user = none := by
  unfold cancel
  split
  · next h => exact h
  · exact Std.TreeMap.getElem?_erase_self

theorem history_cancel : (jobs.cancel user).2.history = jobs.history := by
  unfold cancel
  split <;> rfl

/-- Calls about jobs are answered by the scheduler in memory, and other calls in any way. -/
def environment : Environment JobScheduler where
  clock := fun _ => True
  token := fun _ => True
  answers := fun c jobs => match c with
    | .schedule user job => fun reply jobs' => reply = .ok () ∧ jobs' = jobs.schedule user job
    | .cancelJob user => fun reply jobs' => reply = .ok (jobs.cancel user).1 ∧ jobs' = (jobs.cancel user).2
    | .pendingJob user => fun reply jobs' => reply = .ok (jobs.pending? user) ∧ jobs' = jobs
    | _ => fun _ jobs' => jobs' = jobs
  unordered := True
  drift := Eq
  drift_refl := fun _ => rfl
  drift_trans := Eq.trans

def alongside (look : Collaborators) : Surroundings JobScheduler where
  clock := fun _ => 1000
  token := fun _ => false
  note := fun _ jobs => jobs
  answer := fun _ _ jobs => jobs
  reply := fun c jobs =>
    let (reply, after) := Collaborators.serve { look with scheduler := jobs } c
    (reply, after.scheduler)

theorem alongside_within (look : Collaborators) : (alongside look).Within environment where
  clock _ := trivial
  token _ := trivial
  note _ _ := rfl
  answer _ _ _ := rfl
  reply c jobs := by cases c <;> first | rfl | exact ⟨rfl, rfl⟩

theorem responsive_environment : environment.Responsive :=
  ⟨⟨0, trivial⟩, ⟨false, trivial⟩, fun c jobs => ⟨_, _, (alongside_within .stocked).reply c jobs⟩⟩

end JobScheduler

open JobScheduler (environment)

/-! ## Steps of cycles -/

theorem Call.Following.keeps_jobs {c : Call} {jobs jobs' : JobScheduler} {reply : c.Reply} (h : c.Following)
    (ha : environment.answers c jobs reply jobs') : jobs' = jobs := by
  cases c <;> first | exact ha | cases h

theorem Call.Escalating.jobs_eq {user : UserId} {c : Call} {jobs jobs' : JobScheduler} {reply : c.Reply}
    (h : c.Escalating user) (ha : environment.answers c jobs reply jobs') :
    jobs' = jobs ∨ jobs' = jobs.schedule user .oneOff := by
  rcases h with h | rfl
  · exact .inl (h.keeps_jobs ha)
  · exact .inr ha.2

namespace Program

variable {α : Type} {Q : α → Prop} {p q : Program α} {jobs jobs' : JobScheduler} {user : UserId}

theorem Obeys.keeps_jobs (h : p.Obeys Call.Following Q) (hs : Step environment p jobs q jobs') : jobs' = jobs :=
  (h.step (I := fun later => later = jobs) (fun hc hi ha => (hc.keeps_jobs ha).trans hi) hs).2 rfl

theorem Obeys.jobs_eq (h : p.Obeys (Call.Escalating user) Q) (hs : Step environment p jobs q jobs') :
    jobs' = jobs ∨ jobs' = jobs.schedule user .oneOff := by
  cases hs with
  | now _ => exact .inl rfl
  | cancelled _ => exact .inl rfl
  | note => exact .inl rfl
  | answer => exact .inl rfl
  | call ha => exact h.1.jobs_eq ha
  | first ha => exact h.1.jobs_eq ha
  | second _ ha => exact h.2.1.jobs_eq ha

end Program

end ContactsIndex
