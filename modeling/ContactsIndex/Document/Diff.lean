import ContactsIndex.Document.Basic

/-!
# Comparing a document with the index

A document is written when the index has nothing under its id or something with
another fingerprint. Replacing content keeps the creation time of what it replaces.
-/

namespace ContactsIndex

/-- What the index holds under an id, without the content. -/
structure Entry where
  id : String
  fingerprint : Fingerprint
  createdAt : Int
  deriving DecidableEq, Repr

def Document.entry (doc : Document) : Entry :=
  ⟨doc.id, doc.fingerprint, doc.createdAt⟩

inductive Decision where
  | new
  | unchanged
  | changed (firstIndexed : Int)
  deriving DecidableEq, Repr

def Document.decide (doc : Document) : Option Entry → Decision
  | none => .new
  | some entry => if entry.fingerprint = doc.fingerprint then .unchanged else .changed entry.createdAt

structure Diffed where
  document : Document
  decision : Decision
  deriving DecidableEq, Repr

def Document.diff (doc : Document) (entry : Option Entry) : Diffed :=
  ⟨doc, doc.decide entry⟩

def Diffed.needsWrite (diffed : Diffed) : Bool :=
  diffed.decision ≠ .unchanged

def Diffed.indexable (diffed : Diffed) : Option Document :=
  match diffed.decision with
  | .new => some diffed.document
  | .unchanged => none
  | .changed firstIndexed => some { diffed.document with createdAt := firstIndexed }

end ContactsIndex
