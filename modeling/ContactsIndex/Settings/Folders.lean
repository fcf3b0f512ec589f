import ContactsIndex.Settings.Place

/-!
# Folders around the settings file

The path of a settings file leads through folders, and is followed name by name from
a top folder. When a folder is made, those on the way to it are made first. Making
stops at a name that no folder can have and at a file; the folders before it stay.
-/

namespace ContactsIndex

/-- The names that lead from the top to a place, the last one first. -/
abbrev Spot := List String

inductive Finding where
  | folder (spot : Spot)
  | nothing (spot : Spot)
  | obstacle
  deriving DecidableEq, Repr

def longestName : Nat := 255

/-- The longest path below the top, in bytes. A path has at most 4095, of which
sixteen lead to the top. -/
def longestPath : Nat := 4079

def isPath (path : String) : Bool :=
  path.utf8ByteSize ≤ longestPath && !path.toList.contains (Char.ofNat 0)

structure Folders where
  entries : List (Spot × FileEntry)
  deriving Repr

namespace Folders

def empty : Folders :=
  ⟨[]⟩

/-- What stands at a spot. At the top there always is a folder. -/
def entry (folders : Folders) (spot : Spot) : FileEntry :=
  if spot = [] then .folder else (folders.entries.lookup spot).getD .absent

def put (folders : Folders) (spot : Spot) (entry : FileEntry) : Folders :=
  ⟨(spot, entry) :: folders.entries⟩

/-- One name further. Two dots lead back, and at the top nowhere. -/
def step (folders : Folders) (spot : Spot) (name : String) : Finding :=
  if name = "" ∨ name = "." then .folder spot
  else if name = ".." then .folder spot.tail
  else if longestName < name.utf8ByteSize then .obstacle
  else
    match folders.entry (name :: spot) with
    | .absent => .nothing (name :: spot)
    | .file _ => .obstacle
    | .folder => .folder (name :: spot)

def follow (folders : Folders) (spot : Spot) : List String → Finding
  | [] => .folder spot
  | name :: names =>
    match folders.step spot name with
    | .folder next => folders.follow next names
    | found => found

def pave (folders : Folders) (spot : Spot) : List String → Folders
  | [] => folders
  | name :: names =>
    match folders.step spot name with
    | .folder next => folders.pave next names
    | .nothing next => (folders.put next .folder).pave next names
    | .obstacle => folders

def find (folders : Folders) (path : String) : Finding :=
  if isPath path then folders.follow [] (path.splitOn "/") else .obstacle

def make (folders : Folders) (path : String) : Folders :=
  if isPath path then folders.pave [] (path.splitOn "/") else folders

def names (folders : Folders) (spot : Spot) : List String :=
  let found := folders.entries.filterMap fun
    | (name :: rest, _) => if rest = spot ∧ folders.entry (name :: rest) ≠ .absent then some name else none
    | _ => none
  found.eraseDups.mergeSort (· ≤ ·)

/-! ## Once made, a folder is missing no more -/

theorem entry_put (folders : Folders) (spot : Spot) (entry : FileEntry) (s : Spot) (h : s ≠ []) :
    (folders.put spot entry).entry s = if s = spot then entry else folders.entry s := by
  by_cases e : s = spot
  · simp [Folders.entry, put, e ▸ h, e]
  · simp [Folders.entry, put, List.lookup_cons, h, e, beq_eq_false_iff_ne.2 e]

theorem entry_put_of_absent {folders : Folders} {spot s : Spot} (entry : FileEntry)
    (hspot : folders.entry spot = .absent) (h : folders.entry s ≠ .absent) :
    (folders.put spot entry).entry s = folders.entry s := by
  by_cases hs : s = []
  · simp [Folders.entry, hs]
  · rw [entry_put _ _ _ _ hs, if_neg]
    exact fun e => h (e ▸ hspot)

theorem eq_of_step_eq_nothing {folders : Folders} {spot next : Spot} {name : String}
    (h : folders.step spot name = .nothing next) : next = name :: spot ∧ folders.entry next = .absent := by
  unfold step at h
  split at h
  · cases h
  split at h
  · cases h
  split at h
  · cases h
  split at h <;> cases h
  exact ⟨rfl, by assumption⟩

theorem step_put {folders : Folders} {spot next : Spot} {name : String}
    (h : folders.step spot name = .nothing next) : (folders.put next .folder).step spot name = .folder next := by
  obtain ⟨rfl, -⟩ := eq_of_step_eq_nothing h
  unfold step at h ⊢
  split at h
  · cases h
  split at h
  · cases h
  split at h
  · cases h
  simp [*, entry_put]

theorem entry_pave {folders : Folders} {spot s : Spot} (names : List String) (h : folders.entry s ≠ .absent) :
    (folders.pave spot names).entry s = folders.entry s := by
  induction names generalizing folders spot with
  | nil => rfl
  | cons name names ih =>
    unfold pave
    split
    · exact ih h
    · next hstep =>
      have hput := entry_put_of_absent .folder (eq_of_step_eq_nothing hstep).2 h
      rw [ih (hput ▸ h), hput]
    · rfl

theorem step_eq_of_entry_eq {folders made : Folders} {spot : Spot} {name : String}
    (h : ∀ s, folders.entry s ≠ .absent → made.entry s = folders.entry s)
    (hstep : ∀ next, folders.step spot name ≠ .nothing next) :
    made.step spot name = folders.step spot name := by
  have hentry : ¬ (name = "" ∨ name = ".") → name ≠ ".." → ¬ longestName < name.utf8ByteSize →
      made.entry (name :: spot) = folders.entry (name :: spot) := by
    intro h1 h2 h3
    refine h _ fun e => hstep (name :: spot) ?_
    simp only [step, h1, h2, h3, e, if_false]
  unfold step
  split
  · rfl
  split
  · rfl
  split
  · rfl
  rw [hentry] <;> assumption

theorem follow_pave (folders : Folders) (spot : Spot) (names : List String) (s : Spot) :
    (folders.pave spot names).follow spot names ≠ .nothing s := by
  induction names generalizing folders spot with
  | nil => simp [follow]
  | cons name names ih =>
    cases hstep : folders.step spot name with
    | folder next =>
      have hmade : (folders.pave next names).step spot name = .folder next := by
        rw [← hstep]
        exact step_eq_of_entry_eq (fun _ => entry_pave names) (by simp [hstep])
      simpa [pave, follow, hstep, hmade] using ih folders next
    | nothing next =>
      have hput := step_put hstep
      have hmade : ((folders.put next .folder).pave next names).step spot name = .folder next := by
        rw [← hput]
        exact step_eq_of_entry_eq (fun _ => entry_pave names) (by simp [hput])
      simpa [pave, follow, hstep, hmade] using ih (folders.put next .folder) next
    | obstacle => simp [pave, follow, hstep]

theorem find_make (folders : Folders) (path : String) (s : Spot) :
    (folders.make path).find path ≠ .nothing s := by
  by_cases h : isPath path
  · simpa [make, find, h] using follow_pave folders [] (path.splitOn "/") s
  · simp [find, h]

end Folders

end ContactsIndex
