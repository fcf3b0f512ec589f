import ContactsIndex.Settings.Folders

/-!
# A settings file among folders

A settings file that is written has its folder made first. What happens to the file
then is said by its place.
-/

namespace ContactsIndex

structure SettingsFile where
  folders : Folders
  folder : String
  deriving Repr

namespace SettingsFile

def place (file : SettingsFile) : SettingsPlace :=
  if isPath (pathBelow file.folder settingsFileName) then
    match file.folders.find file.folder with
    | .folder spot => .folder (file.folders.entry (settingsFileName :: spot))
    | .nothing _ => .missing
    | .obstacle => .blocked
  else .blocked

def makeFolder (file : SettingsFile) : SettingsFile :=
  { file with folders := file.folders.make file.folder }

def change {α : Type} (file : SettingsFile) (act : SettingsPlace → α × SettingsPlace) : α × SettingsFile :=
  let (answer, place) := act file.place
  match place, file.folders.find file.folder with
  | .folder entry, .folder spot =>
    (answer, { file with folders := file.folders.put (settingsFileName :: spot) entry })
  | _, _ => (answer, file)

/-- A folder that was to be made is there, or something stands in its way. -/
theorem place_makeFolder (file : SettingsFile) : file.makeFolder.place ≠ .missing := by
  unfold place
  split
  · split
    · simp
    · next h => exact absurd h (file.folders.find_make file.folder _)
    · simp
  · simp

def write (file : SettingsFile) (content : List UInt8) : Except SettingsError Unit × SettingsFile :=
  file.makeFolder.change (·.write content)

def persist (file : SettingsFile) (s : Settings) : Except SettingsError Unit × SettingsFile :=
  file.makeFolder.change (·.persist s)

def obstruct (file : SettingsFile) : SettingsFile :=
  (file.makeFolder.change fun place => ((), place.obstruct)).2

def remove (file : SettingsFile) : Bool × SettingsFile :=
  file.change SettingsPlace.remove

def names (file : SettingsFile) : List String :=
  match file.folders.find file.folder with
  | .folder spot => file.folders.names spot
  | _ => []

end SettingsFile

end ContactsIndex
