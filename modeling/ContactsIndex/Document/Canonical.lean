import ContactsIndex.Ascending
import ContactsIndex.Bytes
import ContactsIndex.Digest.Sha256
import ContactsIndex.Document.Basic
import ContactsIndex.Text

/-!
# The canonical form of a document

The fingerprint of a document is the digest of its canonical form, a sequence of
fields that holds the content and nothing else: texts are tidied and left out when
blank, lists of values are taken as sets, and neither the creation time nor the
stored fingerprint takes part.
-/

namespace ContactsIndex

/-- A field: its tag, the length of its content in four bytes, and the content. -/
def frame (tag : UInt8) (content : List UInt8) : List UInt8 :=
  tag :: LittleEndian.encode 4 content.length ++ content

def utf8 (text : String) : List UInt8 :=
  text.toUTF8.data.toList

/-- A text field is left out when the text has no words. -/
def textField (tag : UInt8) (text : String) : List UInt8 :=
  if normalize text = "" then [] else frame tag (utf8 (normalize text))

def optionalField (tag : UInt8) : Option String → List UInt8
  | none => []
  | some text => textField tag text

def tidySet (texts : List String) : List String :=
  ascending ((texts.map normalize).filter (· ≠ ""))

def setField (tag : UInt8) (texts : List String) : List UInt8 :=
  (tidySet texts).flatMap fun text => frame tag (utf8 text)

namespace ContactPoint

/-- A point that was never given a value is left out of the fingerprint. -/
def isBare (point : ContactPoint) : Bool :=
  point.emails.isEmpty && point.phones.isEmpty && point.addresses.isEmpty

def canonical (point : ContactPoint) : List UInt8 :=
  textField 1 point.label ++ setField 2 point.emails ++ setField 3 point.phones ++ setField 4 point.addresses

end ContactPoint

namespace Document

def canonicalPoints (doc : Document) : List (List UInt8) :=
  ascending ((doc.contactPoints.filter (!·.isBare)).map ContactPoint.canonical)

def canonical (doc : Document) : List UInt8 :=
  textField 1 doc.id ++ textField 2 doc.name ++ optionalField 3 doc.givenName ++ optionalField 4 doc.middleName ++
    optionalField 5 doc.familyName ++ setField 6 doc.additionalNames ++
    doc.canonicalPoints.flatMap (frame 7) ++
    setField 8 doc.affiliations ++ setField 9 doc.relations ++ setField 10 doc.notes ++
    optionalField 11 doc.imageUri ++ (if doc.isImportant then frame 12 [1] else [])

def contentFingerprint (doc : Document) : Fingerprint :=
  ⟨Sha256.digest doc.canonical⟩

def sealed (doc : Document) : Document :=
  { doc with fingerprint := doc.contentFingerprint }

theorem canonical_claimed (doc : Document) (time : Int) (claimed : Fingerprint) :
    ({ doc with createdAt := time, fingerprint := claimed } : Document).canonical = doc.canonical := rfl

theorem contentFingerprint_claimed (doc : Document) (time : Int) (claimed : Fingerprint) :
    ({ doc with createdAt := time, fingerprint := claimed } : Document).contentFingerprint = doc.contentFingerprint := by
  rw [contentFingerprint, contentFingerprint, canonical_claimed]

theorem contentFingerprint_sealed (doc : Document) (time : Int) :
    ({ doc.sealed with createdAt := time } : Document).contentFingerprint = doc.sealed.fingerprint := by
  unfold sealed
  exact doc.contentFingerprint_claimed time _

end Document

end ContactsIndex
