import ContactsIndex.Proofs.Document.Framing
import Mathlib.Data.Finset.Image

/-!
# What a document says

The content of a document: its texts tidied, its lists as sets of the tidy texts that
are not empty, and its contact points as a set, without those that have no such text.
Apart from the content, the canonical form shows the labels of the hollow points, which
were given values and have only blank ones.
-/

namespace ContactsIndex

def tidyValues (texts : List String) : Finset String :=
  ((texts.map normalize).filter (· ≠ "")).toFinset

@[simp] theorem tidyValues_nil : tidyValues [] = ∅ := rfl

structure PointContent where
  label : String
  emails : Finset String
  phones : Finset String
  addresses : Finset String
  deriving DecidableEq

namespace PointContent

def IsEmpty (content : PointContent) : Prop :=
  content.emails = ∅ ∧ content.phones = ∅ ∧ content.addresses = ∅

instance (content : PointContent) : Decidable content.IsEmpty :=
  inferInstanceAs (Decidable (_ ∧ _))

end PointContent

def ContactPoint.content (point : ContactPoint) : PointContent where
  label := normalize point.label
  emails := tidyValues point.emails
  phones := tidyValues point.phones
  addresses := tidyValues point.addresses

/-- What a document says, where a text that is absent counts as blank. -/
structure Content where
  id : String
  name : String
  givenName : String
  middleName : String
  familyName : String
  additionalNames : Finset String
  points : Finset PointContent
  affiliations : Finset String
  relations : Finset String
  notes : Finset String
  imageUri : String
  isImportant : Bool
  deriving DecidableEq

namespace Document

def content (doc : Document) : Content where
  id := normalize doc.id
  name := normalize doc.name
  givenName := normalize (doc.givenName.getD "")
  middleName := normalize (doc.middleName.getD "")
  familyName := normalize (doc.familyName.getD "")
  additionalNames := tidyValues doc.additionalNames
  points := (doc.contactPoints.map ContactPoint.content).toFinset.filter (¬ ·.IsEmpty)
  affiliations := tidyValues doc.affiliations
  relations := tidyValues doc.relations
  notes := tidyValues doc.notes
  imageUri := normalize (doc.imageUri.getD "")
  isImportant := doc.isImportant

/-- The points with values of which none is anything but blank. -/
def hollowPoints (doc : Document) : List ContactPoint :=
  doc.contactPoints.filter fun point => !point.isBare && point.content.IsEmpty

def hollowLabels (doc : Document) : Finset String :=
  (doc.hollowPoints.map fun point => normalize point.label).toFinset

end Document

/-! ## Tidy texts -/

theorem normalize_empty : normalize "" = "" := by decide +kernel

theorem tidySet_eq_iff {texts texts' : List String} : tidySet texts = tidySet texts' ↔
    tidyValues texts = tidyValues texts' := by
  simp only [tidySet, tidyValues, ascending_eq_iff, Finset.ext_iff, List.mem_toFinset]

theorem utf8_inj {text text' : String} (h : utf8 text = utf8 text') : text = text' := by
  apply String.toByteArray_inj.mp
  apply ByteArray.ext
  exact Array.toList_inj.mp h

/-! ## Documents as parts -/

def shown (text : String) : List (List UInt8) :=
  if normalize text = "" then [] else [utf8 (normalize text)]

def shownSet (texts : List String) : List (List UInt8) :=
  (tidySet texts).map utf8

theorem shown_eq_iff {text text' : String} : shown text = shown text' ↔ normalize text = normalize text' := by
  constructor
  · intro h
    by_cases hblank : normalize text = "" <;> by_cases hblank' : normalize text' = "" <;>
      simp [shown, hblank, hblank'] at h ⊢
    exact utf8_inj h
  · intro h
    rw [shown, shown, h]

theorem shownSet_eq_iff {texts texts' : List String} :
    shownSet texts = shownSet texts' ↔ tidyValues texts = tidyValues texts' :=
  (List.map_inj_right fun _ _ => utf8_inj).trans tidySet_eq_iff

theorem framed_shown (tag : UInt8) (text : String) : framed (tagged tag (shown text)) = textField tag text := by
  by_cases h : normalize text = "" <;> simp [framed_tagged, shown, textField, h]

theorem framed_shownSet (tag : UInt8) (texts : List String) :
    framed (tagged tag (shownSet texts)) = setField tag texts := by
  rw [framed_tagged, shownSet, List.flatMap_map, setField]

theorem optionalField_eq (tag : UInt8) (text : Option String) :
    optionalField tag text = textField tag (text.getD "") := by
  cases text <;> simp [optionalField, textField, normalize_empty]

def ContactPoint.parts (point : ContactPoint) : List Part :=
  tagged 1 (shown point.label) ++ tagged 2 (shownSet point.emails) ++ tagged 3 (shownSet point.phones) ++
    tagged 4 (shownSet point.addresses)

theorem ContactPoint.framed_parts (point : ContactPoint) : framed point.parts = point.canonical := by
  simp only [parts, canonical, framed_append, framed_shown, framed_shownSet]

namespace Document

def parts (doc : Document) : List Part :=
  tagged 1 (shown doc.id) ++ tagged 2 (shown doc.name) ++ tagged 3 (shown (doc.givenName.getD "")) ++
    tagged 4 (shown (doc.middleName.getD "")) ++ tagged 5 (shown (doc.familyName.getD "")) ++
    tagged 6 (shownSet doc.additionalNames) ++ tagged 7 doc.canonicalPoints ++
    tagged 8 (shownSet doc.affiliations) ++ tagged 9 (shownSet doc.relations) ++ tagged 10 (shownSet doc.notes) ++
    tagged 11 (shown (doc.imageUri.getD "")) ++ tagged 12 (if doc.isImportant then [[1]] else [])

theorem framed_parts (doc : Document) : framed doc.parts = doc.canonical := by
  have hmark : framed (tagged 12 (if doc.isImportant then [[1]] else [])) =
      if doc.isImportant then frame 12 [1] else [] := by
    cases doc.isImportant <;> rfl
  simp only [parts, canonical, framed_append, framed_shown, optionalField_eq, framed_shownSet, hmark,
    framed_tagged 7]

end Document

end ContactsIndex
