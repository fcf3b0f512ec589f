import ContactsIndex.Scheduler
import ContactsIndex.Settings.Codec

/-!
# The settings file

Settings are kept in one file of a folder that belongs to the user. The file is
replaced as a whole: a write either succeeds or leaves what was there. It fails
when something that is not a folder stands where the folder should be, or a folder
where the file should be.
-/

namespace ContactsIndex

def settingsFileName : String := "contacts_indexer_settings.pb"

def pathBelow (base name : String) : String :=
  if base.isEmpty || base.endsWith "/" then base ++ name else base ++ "/" ++ name

/-- The path without the steps at its front that lead nowhere: empty ones and dots. -/
def trimPath (path : String) : String :=
  "/".intercalate ((path.splitOn "/").dropWhile fun step => step = "" || step = ".")

def UserId.settingsFolder (base : String) (user : UserId) : String :=
  pathBelow base (toString user)

def settingsPath (folder : String) : String :=
  trimPath (pathBelow folder settingsFileName)

inductive FileEntry where
  | absent
  | file (content : List UInt8)
  | folder
  deriving DecidableEq, Repr

inductive SettingsPlace where
  | missing
  | blocked
  | folder (entry : FileEntry)
  deriving DecidableEq, Repr

namespace SettingsPlace

def makeFolder : SettingsPlace → Bool × SettingsPlace
  | missing => (true, folder .absent)
  | blocked => (false, blocked)
  | folder entry => (true, folder entry)

def read : SettingsPlace → Except SettingsError (Option Settings)
  | missing => .ok none
  | blocked => .error .io
  | folder .absent => .ok none
  | folder .folder => .error .io
  | folder (.file content) => (Settings.decode content).map some

/-- The settings to start from: those of the file, and zeros if there are none
or the file is damaged. -/
def load (place : SettingsPlace) : Settings :=
  match place.read with
  | .ok (some s) => s
  | _ => .zero

def write (place : SettingsPlace) (content : List UInt8) : Except SettingsError Unit × SettingsPlace :=
  match place.makeFolder with
  | (true, folder .folder) => (.error .io, folder .folder)
  | (true, _) => (.ok (), folder (.file content))
  | (false, place) => (.error .io, place)

def persist (place : SettingsPlace) (s : Settings) : Except SettingsError Unit × SettingsPlace :=
  place.write s.encode

/-! ## The file from outside -/

def obstruct : SettingsPlace → SettingsPlace
  | blocked => blocked
  | _ => folder .folder

def remove : SettingsPlace → Bool × SettingsPlace
  | folder (.file _) => (true, folder .absent)
  | place => (false, place)

def content? : SettingsPlace → Option (List UInt8)
  | folder (.file content) => some content
  | _ => none

end SettingsPlace

end ContactsIndex
