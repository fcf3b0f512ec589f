/-!
# Corpus schemas

A schema names the types of the documents in a corpus. A type lists its
properties: what kind of values they hold, how many, and whether the values can
be searched.
-/

namespace ContactsIndex

inductive PropertyKind where
  | text
  | boolean
  | int64
  | document (type : String)
  deriving DecidableEq, Repr

inductive Cardinality where
  | optional
  | required
  | repeated
  deriving DecidableEq, Repr

structure Property where
  name : String
  kind : PropertyKind
  cardinality : Cardinality
  indexed : Bool
  deriving DecidableEq, Repr

structure SchemaType where
  name : String
  properties : List Property
  deriving DecidableEq, Repr

structure Schema where
  version : Nat
  types : List SchemaType
  deriving DecidableEq, Repr

def SchemaType.property? (type : SchemaType) (name : String) : Option Property :=
  type.properties.find? (·.name = name)

def Schema.type? (schema : Schema) (name : String) : Option SchemaType :=
  schema.types.find? (·.name = name)

/-!
## The person corpus

Two types: a person, and the contact point that is nested in it.
-/

def personTypeName : String := "builtin:Person"

def contactPointTypeName : String := "builtin:ContactPoint"

def Property.searchable (name : String) (cardinality : Cardinality) : Property :=
  ⟨name, .text, cardinality, true⟩

def SchemaType.contactPoint : SchemaType where
  name := contactPointTypeName
  properties := [
    .searchable "label" .optional,
    .searchable "email" .repeated,
    .searchable "telephone" .repeated,
    .searchable "address" .repeated]

def SchemaType.person : SchemaType where
  name := personTypeName
  properties := [
    .searchable "name" .optional,
    .searchable "givenName" .optional,
    .searchable "middleName" .optional,
    .searchable "familyName" .optional,
    .searchable "additionalNames" .repeated,
    ⟨"contactPoints", .document contactPointTypeName, .repeated, true⟩,
    .searchable "affiliations" .repeated,
    .searchable "relations" .repeated,
    .searchable "notes" .repeated,
    ⟨"imageUri", .text, .optional, false⟩,
    ⟨"isImportant", .boolean, .optional, false⟩,
    ⟨"fingerprint", .text, .optional, false⟩]

def Schema.personCorpus : Schema where
  version := 1
  types := [.contactPoint, .person]

/-!
## Replacing a schema

A new schema keeps the documents of an old one when every old type is still there,
with all its properties, each of the same kind and holding at least as many
values, and with no new property that a document would be required to have.
-/

def Cardinality.widensTo : Cardinality → Cardinality → Bool
  | .required, _ => true
  | .optional, .optional => true
  | .optional, .repeated => true
  | .repeated, .repeated => true
  | _, _ => false

namespace SchemaType

def keeps (new : SchemaType) (old : Property) : Bool :=
  match new.property? old.name with
  | none => false
  | some prop => prop.kind = old.kind && old.cardinality.widensTo prop.cardinality

def acceptsDocumentsOf (new old : SchemaType) : Bool :=
  old.properties.all new.keeps &&
    new.properties.all fun prop => (old.property? prop.name).isSome || prop.cardinality ≠ .required

end SchemaType

inductive Compatibility where
  | fresh
  | unchanged
  | compatible
  /-- The old types whose documents the new schema does not take, by name. -/
  | incompatible (types : List String)
  deriving DecidableEq, Repr

namespace Schema

def accepts (new : Schema) (old : SchemaType) : Bool :=
  match new.type? old.name with
  | none => false
  | some type => type.acceptsDocumentsOf old

def refusedTypes (installed desired : Schema) : List String :=
  ((installed.types.filter (!desired.accepts ·)).map (·.name)).mergeSort (· ≤ ·)

def compatibility (installed : Option Schema) (desired : Schema) : Compatibility :=
  match installed with
  | none => .fresh
  | some old =>
    if old = desired then .unchanged
    else if old.refusedTypes desired = [] then .compatible
    else .incompatible (old.refusedTypes desired)

end Schema

end ContactsIndex
