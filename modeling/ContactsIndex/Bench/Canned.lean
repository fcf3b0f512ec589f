import ContactsIndex.Program.Basic

/-!
# A provider that always gives the same

The surroundings of a program that only asks the contacts provider; every other
collaborator is unavailable.
-/

namespace ContactsIndex.Bench

inductive Canned where
  | failing (e : ProviderError)
  | noCursor
  | holding (rows : List ChangeRow) (contacts : List Contact)

namespace Canned

def give {α : Type} (canned : Canned) (held : List ChangeRow → List Contact → α) : Except ProviderError (Option α) :=
  match canned with
  | failing e => .error e
  | noCursor => .ok none
  | holding rows contacts => .ok (some (held rows contacts))

def absent : StorageError := .unavailable "no document store"

def reply (canned : Canned) : (c : Call) → c.Reply
  | .updated _ _ => canned.give fun rows _ => rows
  | .deleted _ => canned.give fun rows _ => rows
  | .contacts _ => canned.give fun _ contacts => contacts
  | .put _ => .error absent
  | .remove _ => .error absent
  | .entries _ => .error absent
  | .listIds => .error absent
  | .getSchema => .error absent
  | .setSchema _ _ => .error absent
  | .schedule _ _ => .error (.unavailable "no job scheduler")
  | .cancelJob _ => .error (.unavailable "no job scheduler")
  | .pendingJob _ => .error (.unavailable "no job scheduler")
  | .makeFolder => .error .io
  | .loadSettings => .zero
  | .persist _ => .error .io

def surroundings (canned : Canned) : Program.Surroundings Metrics where
  clock := fun _ => 0
  token := fun _ => false
  note := fun event metrics => metrics.record event
  answer := fun _ _ metrics => metrics
  reply := fun c metrics => (canned.reply c, metrics)

end Canned

end ContactsIndex.Bench
