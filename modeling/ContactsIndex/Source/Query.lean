import ContactsIndex.Program.Basic

/-!
# Asking the contacts provider

The replies of the provider are read strictly: having nothing to read from is an
error, and must not be taken for nothing having changed.
-/

namespace ContactsIndex.Source

variable {α : Type}

def rowsOf (query : String) (reply : Except ProviderError (Option α)) : Program (Except SourceError α) :=
  match reply with
  | .error e => return .error (.provider e)
  | .ok none => do
    Program.record (.sourceFailure query)
    return .error (.noCursor query)
  | .ok (some rows) => return .ok rows

def listing (query : String) (since : Int) (limit : Limit) (reply : Except ProviderError (Option (List ChangeRow))) :
    Program (Except SourceError Listing) := do
  return (← rowsOf query reply).map (Listing.ofRows since · limit)

def listUpdated (since : Int) (limit : Limit) : Program (Except SourceError Listing) := do
  listing "updated" since limit (← Program.ask (.updated since limit))

def listDeleted (since : Int) : Program (Except SourceError Listing) := do
  listing "deleted" since .unlimited (← Program.ask (.deleted since))

/-- The contacts with these ids that are still there; the provider is not asked for none. -/
def readContacts (ids : List String) : Program (Except SourceError (List Contact)) :=
  if ids = [] then return .ok []
  else do rowsOf "contacts" (← Program.ask (.contacts ids))

/-- The listings of changed and of deleted contacts. Both are asked for at once; the
first that fails ends the matter, and the changes failing at once leave the deletions
unasked. -/
def listBoth (updatedSince : Int) (limit : Limit) (deletedSince : Int) :
    Program (Except SourceError (Listing × Listing)) :=
  .both (.updated updatedSince limit) (.deleted deletedSince)
    (fun reply => do
      match ← listing "updated" updatedSince limit reply with
      | .error e => return .error e
      | .ok updated => return (← listDeleted deletedSince).map fun deleted => (updated, deleted))
    (fun reply => do
      match ← listing "deleted" deletedSince .unlimited reply with
      | .error e => return .error e
      | .ok deleted => return (← listUpdated updatedSince limit).map fun updated => (updated, deleted))

end ContactsIndex.Source
