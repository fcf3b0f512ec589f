import ContactsIndex.Bytes

/-!
# Person documents

What the index stores for a contact. Its e-mail addresses, telephone numbers and
postal addresses are grouped into one contact point per label.
-/

namespace ContactsIndex

structure Fingerprint where
  bytes : Vector UInt8 32
  deriving DecidableEq, Repr

def Fingerprint.zero : Fingerprint :=
  ⟨Vector.replicate 32 0⟩

def Fingerprint.hex (f : Fingerprint) : String :=
  hexText f.bytes.toList

structure ContactPoint where
  label : String
  emails : List String
  phones : List String
  addresses : List String
  deriving DecidableEq, Repr

def ContactPoint.empty (label : String) : ContactPoint :=
  ⟨label, [], [], []⟩

structure Document where
  id : String
  name : String
  givenName : Option String
  middleName : Option String
  familyName : Option String
  additionalNames : List String
  contactPoints : List ContactPoint
  affiliations : List String
  relations : List String
  notes : List String
  imageUri : Option String
  isImportant : Bool
  /-- When the contact entered the index, in milliseconds. -/
  createdAt : Int
  fingerprint : Fingerprint
  deriving DecidableEq, Repr

def Document.blank : Document where
  id := ""
  name := ""
  givenName := none
  middleName := none
  familyName := none
  additionalNames := []
  contactPoints := []
  affiliations := []
  relations := []
  notes := []
  imageUri := none
  isImportant := false
  createdAt := 0
  fingerprint := .zero

end ContactsIndex
