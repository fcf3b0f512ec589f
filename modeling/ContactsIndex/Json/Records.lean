import ContactsIndex.Config
import ContactsIndex.Json.Basic
import ContactsIndex.Contact
import ContactsIndex.Document.Basic
import ContactsIndex.Schema

/-!
# Contacts, documents, schemas and configurations in JSON

Field names are in snake case. A fingerprint is the list of its 32 bytes.
-/

namespace ContactsIndex

open Json

/-! ## Contacts and documents -/

def Labeled.ofJson? (json : Json) : Option Labeled := do
  let form ← json.form? 2
  return { label := ← form.required 0 "label" string?, value := ← form.required 1 "value" string? }

def Labeled.toJson (v : Labeled) : Json :=
  object [("label", string v.label), ("value", string v.value)]

def Contact.ofJson? (json : Json) : Option Contact := do
  let form ← json.form? 16
  return {
    id := ← form.required 0 "id" string?
    displayName := ← form.required 1 "display_name" string?
    givenName := ← form.optional 2 "given_name" string?
    middleName := ← form.optional 3 "middle_name" string?
    familyName := ← form.optional 4 "family_name" string?
    phoneticName := ← form.optional 5 "phonetic_name" string?
    nicknames := ← form.required 6 "nicknames" (list? string?)
    emails := ← form.required 7 "emails" (list? Labeled.ofJson?)
    phones := ← form.required 8 "phones" (list? Labeled.ofJson?)
    postalAddresses := ← form.required 9 "postal_addresses" (list? Labeled.ofJson?)
    organizations := ← form.required 10 "organizations" (list? string?)
    relations := ← form.required 11 "relations" (list? string?)
    note := ← form.optional 12 "note" string?
    photoUri := ← form.optional 13 "photo_uri" string?
    starred := ← form.required 14 "starred" bool?
    lastUpdated := ← form.required 15 "last_updated_millis" stamp? }

def Contact.toJson (c : Contact) : Json :=
  object [
    ("id", string c.id), ("display_name", string c.displayName),
    ("given_name", orNull string c.givenName), ("middle_name", orNull string c.middleName),
    ("family_name", orNull string c.familyName), ("phonetic_name", orNull string c.phoneticName),
    ("nicknames", strings c.nicknames), ("emails", array (c.emails.map Labeled.toJson)),
    ("phones", array (c.phones.map Labeled.toJson)),
    ("postal_addresses", array (c.postalAddresses.map Labeled.toJson)),
    ("organizations", strings c.organizations), ("relations", strings c.relations),
    ("note", orNull string c.note), ("photo_uri", orNull string c.photoUri),
    ("starred", bool c.starred), ("last_updated_millis", int c.lastUpdated)]

def ContactPoint.ofJson? (json : Json) : Option ContactPoint := do
  let form ← json.form? 4
  return {
    label := ← form.required 0 "label" string?
    emails := ← form.required 1 "emails" (list? string?)
    phones := ← form.required 2 "phones" (list? string?)
    addresses := ← form.required 3 "addresses" (list? string?) }

def ContactPoint.toJson (p : ContactPoint) : Json :=
  object [
    ("label", string p.label), ("emails", strings p.emails), ("phones", strings p.phones),
    ("addresses", strings p.addresses)]

def Fingerprint.ofJson? (json : Json) : Option Fingerprint := do
  let bytes ← json.list? (word? 1)
  if h : bytes.length = 32 then
    return ⟨⟨(bytes.map UInt8.ofNat).toArray, by simp [h]⟩⟩
  else
    none

def Fingerprint.toJson (f : Fingerprint) : Json :=
  array (f.bytes.toList.map fun b => nat b.toNat)

def Document.ofJson? (json : Json) : Option Document := do
  let form ← json.form? 14
  return {
    id := ← form.required 0 "id" string?
    name := ← form.required 1 "name" string?
    givenName := ← form.optional 2 "given_name" string?
    middleName := ← form.optional 3 "middle_name" string?
    familyName := ← form.optional 4 "family_name" string?
    additionalNames := ← form.required 5 "additional_names" (list? string?)
    contactPoints := ← form.required 6 "contact_points" (list? ContactPoint.ofJson?)
    affiliations := ← form.required 7 "affiliations" (list? string?)
    relations := ← form.required 8 "relations" (list? string?)
    notes := ← form.required 9 "notes" (list? string?)
    imageUri := ← form.optional 10 "image_uri" string?
    isImportant := ← form.required 11 "is_important" bool?
    createdAt := ← form.required 12 "creation_timestamp_millis" stamp?
    fingerprint := ← form.required 13 "fingerprint" Fingerprint.ofJson? }

def Document.toJsonWith (writeFingerprint : Fingerprint → Json) (d : Document) : Json :=
  object [
    ("id", string d.id), ("name", string d.name), ("given_name", orNull string d.givenName),
    ("middle_name", orNull string d.middleName), ("family_name", orNull string d.familyName),
    ("additional_names", strings d.additionalNames),
    ("contact_points", array (d.contactPoints.map ContactPoint.toJson)),
    ("affiliations", strings d.affiliations), ("relations", strings d.relations), ("notes", strings d.notes),
    ("image_uri", orNull string d.imageUri), ("is_important", bool d.isImportant),
    ("creation_timestamp_millis", int d.createdAt), ("fingerprint", writeFingerprint d.fingerprint)]

def Document.toJson : Document → Json :=
  Document.toJsonWith Fingerprint.toJson

/-!
## Schemas

A kind or a cardinality is its name, which may also stand as the only member of
an object over `null`; a nested document is an object over the name of its type.
-/

def Json.caseName? : Json → Option String
  | string name => some name
  | object [(name, null)] => some name
  | _ => none

def PropertyKind.ofJson? : Json → Option PropertyKind
  | object [("Document", type)] => type.string?.map .document
  | json => do
    match ← json.caseName? with
    | "Text" => some .text
    | "Boolean" => some .boolean
    | "Int64" => some .int64
    | _ => none

def PropertyKind.toJson : PropertyKind → Json
  | .text => string "Text"
  | .boolean => string "Boolean"
  | .int64 => string "Int64"
  | .document type => object [("Document", string type)]

def Cardinality.ofJson? (json : Json) : Option Cardinality := do
  match ← json.caseName? with
  | "Optional" => some .optional
  | "Required" => some .required
  | "Repeated" => some .repeated
  | _ => none

def Cardinality.toJson : Cardinality → Json
  | .optional => string "Optional"
  | .required => string "Required"
  | .repeated => string "Repeated"

def Property.ofJson? (json : Json) : Option Property := do
  let form ← json.form? 4
  return {
    name := ← form.required 0 "name" string?
    kind := ← form.required 1 "kind" PropertyKind.ofJson?
    cardinality := ← form.required 2 "cardinality" Cardinality.ofJson?
    indexed := ← form.required 3 "indexed" bool? }

def Property.toJson (p : Property) : Json :=
  object [("name", string p.name), ("kind", p.kind.toJson), ("cardinality", p.cardinality.toJson),
    ("indexed", bool p.indexed)]

def SchemaType.ofJson? (json : Json) : Option SchemaType := do
  let form ← json.form? 2
  return {
    name := ← form.required 0 "name" string?
    properties := ← form.required 1 "properties" (list? Property.ofJson?) }

def SchemaType.toJson (t : SchemaType) : Json :=
  object [("name", string t.name), ("properties", array (t.properties.map Property.toJson))]

def Schema.ofJson? (json : Json) : Option Schema := do
  let form ← json.form? 2
  return {
    version := ← form.required 0 "version" (word? 4)
    types := ← form.required 1 "types" (list? SchemaType.ofJson?) }

def Schema.toJson (s : Schema) : Json :=
  object [("version", nat s.version), ("types", array (s.types.map SchemaType.toJson))]

/-!
## Configuration

Each field may be left out and has its standard value then. A limit of `null` is
no limit.
-/

def Config.ofJson? (json : Json) : Option Config := do
  let form ← json.form? 9
  let standard := Config.standard
  return {
    enabled := ← form.withDefault 0 "enabled" standard.enabled bool?
    firstRunLimit := ← form.withDefault 1 "first_run_indexing_limit" standard.firstRunLimit (orNull? (word? 8))
    deltaLimit := ← form.withDefault 2 "delta_update_limit" standard.deltaLimit (orNull? (word? 8))
    fullLimit := ← form.withDefault 3 "full_update_limit" standard.fullLimit (orNull? (word? 8))
    fullInterval := ← form.withDefault 4 "full_update_interval_millis" standard.fullInterval (word? 8)
    updateBatchSize := ← form.withDefault 5 "update_batch_size" standard.updateBatchSize (word? 8)
    deleteBatchSize := ← form.withDefault 6 "delete_batch_size" standard.deleteBatchSize (word? 8)
    keepUpdatingOnError := ← form.withDefault 7 "keep_updating_on_error" standard.keepUpdatingOnError bool?
    baseDir := ← form.withDefault 8 "base_dir" standard.baseDir string? }

def Config.members (c : Config) : List (String × Json) := [
  ("enabled", bool c.enabled), ("first_run_indexing_limit", orNull nat c.firstRunLimit),
  ("delta_update_limit", orNull nat c.deltaLimit), ("full_update_limit", orNull nat c.fullLimit),
  ("full_update_interval_millis", nat c.fullInterval), ("update_batch_size", nat c.updateBatchSize),
  ("delete_batch_size", nat c.deleteBatchSize), ("keep_updating_on_error", bool c.keepUpdatingOnError),
  ("base_dir", string c.baseDir)]

end ContactsIndex
