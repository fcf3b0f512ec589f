import ContactsIndex.Schema

/-!
# What compatible means

A document is a finite tree of named values. `Schema.Holds` says which values belong to a
kind under a schema, and so which documents are valid. One cardinality widens to another
just if it admits no count that the other refuses (`widensTo_iff`), and from there on the
check is exact: a schema takes every valid document of the types that it accepts
(`Holds.widened`), and where it does not accept a type of plain values, one of each of
them, with another count for one property, is a document that it refuses
(`Distinct.accepts_of_valid`).
-/

namespace ContactsIndex

/-- A value of a document. A nested document has values under the names of its properties. -/
inductive Value where
  | text (text : String)
  | boolean (flag : Bool)
  | int64 (number : Int64)
  | document (type : String) (fields : List (String × Value))

abbrev Fields := List (String × Value)

def Fields.values (fields : Fields) (name : String) : List Value :=
  (fields.filter (·.1 = name)).map (·.2)

def Cardinality.Admits : Cardinality → Nat → Prop
  | optional, n => n ≤ 1
  | required, n => n = 1
  | repeated, _ => True

inductive Schema.Holds (schema : Schema) : PropertyKind → Value → Prop
  | text (text : String) : Holds schema .text (.text text)
  | boolean (flag : Bool) : Holds schema .boolean (.boolean flag)
  | int64 (number : Int64) : Holds schema .int64 (.int64 number)
  | document {name : String} {fields : Fields} {type : SchemaType}
      (found : schema.type? name = some type)
      (known : ∀ field ∈ fields, (type.property? field.1).isSome)
      (counts : ∀ prop ∈ type.properties, prop.cardinality.Admits (fields.values prop.name).length)
      (kinds : ∀ prop ∈ type.properties, ∀ value ∈ fields.values prop.name, Holds schema prop.kind value) :
      Holds schema (.document name) (.document name fields)

def Schema.Valid (schema : Schema) (type : String) (fields : Fields) : Prop :=
  schema.Holds (.document type) (.document type fields)

/-- No two types have the same name, nor two properties of one type. -/
structure Schema.Distinct (schema : Schema) : Prop where
  types : (schema.types.map (·.name)).Nodup
  properties : ∀ type ∈ schema.types, (type.properties.map (·.name)).Nodup

instance (schema : Schema) : Decidable schema.Distinct :=
  decidable_of_iff ((schema.types.map (·.name)).Nodup ∧ ∀ type ∈ schema.types, (type.properties.map (·.name)).Nodup)
    ⟨fun h => ⟨h.1, h.2⟩, fun h => ⟨h.types, h.properties⟩⟩

def PropertyKind.IsScalar : PropertyKind → Prop
  | document _ => False
  | _ => True

instance : (kind : PropertyKind) → Decidable kind.IsScalar
  | .text | .boolean | .int64 => isTrue trivial
  | .document _ => isFalse id

/-! ## Looking up -/

theorem find?_name_of_mem {α : Type} {name : α → String} {x : α} : ∀ {xs : List α},
    (xs.map name).Nodup → x ∈ xs → xs.find? (name · = name x) = some x
  | y :: ys, hn, hx => by
    rw [List.map_cons, List.nodup_cons] at hn
    cases hx with
    | head => simp
    | tail _ hx =>
      have hne : name y ≠ name x := fun he => hn.1 (he ▸ List.mem_map_of_mem hx)
      rw [List.find?_cons_of_neg (by simpa using hne)]
      exact find?_name_of_mem hn.2 hx

theorem Schema.mem_of_type? {schema : Schema} {name : String} {type : SchemaType}
    (h : schema.type? name = some type) : type ∈ schema.types ∧ type.name = name :=
  ⟨List.mem_of_find?_eq_some h, by simpa using List.find?_some h⟩

theorem SchemaType.mem_of_property? {type : SchemaType} {name : String} {prop : Property}
    (h : type.property? name = some prop) : prop ∈ type.properties ∧ prop.name = name :=
  ⟨List.mem_of_find?_eq_some h, by simpa using List.find?_some h⟩

theorem Schema.Distinct.type?_name {schema : Schema} (h : schema.Distinct) {type : SchemaType}
    (ht : type ∈ schema.types) : schema.type? type.name = some type :=
  find?_name_of_mem h.types ht

theorem Schema.Distinct.property?_name {schema : Schema} (h : schema.Distinct) {type : SchemaType}
    (ht : type ∈ schema.types) {prop : Property} (hp : prop ∈ type.properties) :
    type.property? prop.name = some prop :=
  find?_name_of_mem (h.properties type ht) hp

/-! ## What the check asks -/

theorem Cardinality.admits_one (c : Cardinality) : c.Admits 1 := by
  cases c <;> simp [Admits]

theorem Cardinality.widensTo_iff {c d : Cardinality} : c.widensTo d = true ↔ ∀ n, c.Admits n → d.Admits n := by
  cases c with
  | required => simpa [widensTo, Admits] using d.admits_one
  | optional =>
    cases d with
    | optional => simp [widensTo, Admits]
    | required => simpa [widensTo, Admits] using ⟨0, by simp⟩
    | repeated => simp [widensTo, Admits]
  | repeated =>
    cases d with
    | optional => simpa [widensTo, Admits] using ⟨2, by simp⟩
    | required => simpa [widensTo, Admits] using ⟨0, by simp⟩
    | repeated => simp [widensTo, Admits]

theorem SchemaType.keeps_iff {new : SchemaType} {old : Property} : new.keeps old = true ↔
    ∃ prop, new.property? old.name = some prop ∧ prop.kind = old.kind ∧ old.cardinality.widensTo prop.cardinality := by
  unfold keeps
  cases new.property? old.name <;> simp

theorem SchemaType.acceptsDocumentsOf_iff {new old : SchemaType} : new.acceptsDocumentsOf old = true ↔
    (∀ prop ∈ old.properties, new.keeps prop) ∧
      ∀ prop ∈ new.properties, prop.cardinality = .required → (old.property? prop.name).isSome := by
  simp only [acceptsDocumentsOf, Bool.and_eq_true, List.all_eq_true, Bool.or_eq_true, decide_eq_true_eq]
  refine and_congr_right fun _ => forall₂_congr fun prop _ => ?_
  rw [or_comm, ← Decidable.imp_iff_not_or]

theorem Schema.accepts_iff {new : Schema} {old : SchemaType} :
    new.accepts old = true ↔ ∃ type, new.type? old.name = some type ∧ type.acceptsDocumentsOf old := by
  unfold accepts
  cases new.type? old.name <;> simp

theorem Schema.mem_refusedTypes {installed desired : Schema} {name : String} :
    name ∈ installed.refusedTypes desired ↔
      ∃ type ∈ installed.types, desired.accepts type = false ∧ type.name = name := by
  simp [refusedTypes, and_assoc]

theorem Schema.compatibility_cases (installed desired : Schema) :
    (installed = desired ∧ compatibility (some installed) desired = .unchanged) ∨
      (installed.refusedTypes desired = [] ∧ compatibility (some installed) desired = .compatible) ∨
      compatibility (some installed) desired = .incompatible (installed.refusedTypes desired) := by
  simp only [compatibility]
  split
  · exact .inl ⟨‹_›, rfl⟩
  · split
    · exact .inr (.inl ⟨‹_›, rfl⟩)
    · exact .inr (.inr rfl)

theorem Schema.accepts_of_kept {installed desired : Schema}
    (h : compatibility (some installed) desired = .unchanged ∨ compatibility (some installed) desired = .compatible) :
    installed = desired ∨ ∀ type ∈ installed.types, desired.accepts type = true := by
  rcases compatibility_cases installed desired with ⟨hsame, -⟩ | ⟨hnil, -⟩ | hinc
  · exact .inl hsame
  · refine .inr fun type ht => ?_
    cases hacc : desired.accepts type with
    | true => rfl
    | false =>
      have hmem : type.name ∈ installed.refusedTypes desired := mem_refusedTypes.mpr ⟨type, ht, hacc, rfl⟩
      simp [hnil] at hmem
  · simp [hinc] at h

theorem Schema.refused_of_incompatible {installed desired : Schema} {names : List String}
    (h : compatibility (some installed) desired = .incompatible names) : installed.refusedTypes desired = names := by
  rcases compatibility_cases installed desired with ⟨-, he⟩ | ⟨-, he⟩ | he <;> rw [he] at h
  · cases h
  · cases h
  · exact Compatibility.incompatible.inj h

/-! ## Documents stay valid -/

theorem Fields.values_eq_nil {fields : Fields} {name : String} (h : ∀ field ∈ fields, field.1 ≠ name) :
    fields.values name = [] := by
  rw [values, List.map_eq_nil_iff, List.filter_eq_nil_iff]
  simpa using h

/-- What the accepting schema says of a property is nothing new, or it is no demand. -/
theorem SchemaType.old_or_undemanding {new old : SchemaType} (hn : (new.properties.map (·.name)).Nodup)
    (h : new.acceptsDocumentsOf old) {prop : Property} (hp : prop ∈ new.properties) :
    (∃ was ∈ old.properties, was.name = prop.name ∧ was.kind = prop.kind ∧
        ∀ n, was.cardinality.Admits n → prop.cardinality.Admits n) ∨
      (old.property? prop.name = none ∧ prop.cardinality.Admits 0) := by
  obtain ⟨hkeeps, hadded⟩ := acceptsDocumentsOf_iff.mp h
  cases hw : old.property? prop.name with
  | some was =>
    obtain ⟨hwas, hname⟩ := mem_of_property? hw
    obtain ⟨now, hnow, hkind, hwide⟩ := keeps_iff.mp (hkeeps was hwas)
    rw [hname, property?, find?_name_of_mem hn hp] at hnow
    cases hnow
    exact .inl ⟨was, hwas, hname, hkind.symm, Cardinality.widensTo_iff.mp hwide⟩
  | none =>
    refine .inr ⟨rfl, ?_⟩
    cases hc : prop.cardinality with
    | required => simpa [hw] using hadded prop hp hc
    | optional => simp [Cardinality.Admits]
    | repeated => trivial

theorem Schema.Holds.widened {old new : Schema} (hd : new.Distinct) (h : ∀ type ∈ old.types, new.accepts type)
    {kind : PropertyKind} {value : Value} (hv : old.Holds kind value) : new.Holds kind value := by
  induction hv with
  | text text => exact .text text
  | boolean flag => exact .boolean flag
  | int64 number => exact .int64 number
  | @document name fields type found known counts kinds ih =>
    obtain ⟨htype, rfl⟩ := mem_of_type? found
    obtain ⟨after, hafter, haccepts⟩ := accepts_iff.mp (h type htype)
    have hprops := @SchemaType.old_or_undemanding _ _ (hd.properties after (mem_of_type? hafter).1) haccepts
    -- a property that is new has no values in a document of the old type
    have hnone : ∀ prop : Property, type.property? prop.name = none → fields.values prop.name = [] := by
      intro prop hn
      refine Fields.values_eq_nil fun field hf he => ?_
      simpa [he, hn] using known field hf
    refine .document hafter (fun field hf => ?_) (fun prop hp => ?_) (fun prop hp value hvalue => ?_)
    · obtain ⟨was, hwas⟩ := Option.isSome_iff_exists.mp (known field hf)
      obtain ⟨hmem, hname⟩ := SchemaType.mem_of_property? hwas
      obtain ⟨now, hnow, -⟩ := SchemaType.keeps_iff.mp ((SchemaType.acceptsDocumentsOf_iff.mp haccepts).1 was hmem)
      simp [← hname, hnow]
    · cases hprops hp with
      | inl hwas =>
        obtain ⟨was, hmem, hname, -, hwide⟩ := hwas
        exact hwide _ (hname ▸ counts was hmem)
      | inr hnew => simpa [hnone prop hnew.1] using hnew.2
    · cases hprops hp with
      | inl hwas =>
        obtain ⟨was, hmem, hname, hkind, -⟩ := hwas
        exact hkind ▸ ih was hmem value (hname ▸ hvalue)
      | inr hnew => simp [hnone prop hnew.1] at hvalue

/-! ## Documents that are refused -/

def PropertyKind.sample : PropertyKind → Value
  | text => .text ""
  | boolean => .boolean false
  | int64 => .int64 0
  | document type => .document type []

theorem Schema.holds_sample (schema : Schema) {kind : PropertyKind} (h : kind.IsScalar) :
    schema.Holds kind kind.sample := by
  cases kind with
  | text => exact .text _
  | boolean => exact .boolean _
  | int64 => exact .int64 _
  | document type => cases h

theorem Schema.Holds.kind_eq {schema : Schema} {kind other : PropertyKind} (h : other.IsScalar)
    (hv : schema.Holds kind other.sample) : kind = other := by
  cases other with
  | text => cases hv; rfl
  | boolean => cases hv; rfl
  | int64 => cases hv; rfl
  | document type => cases h

def Fields.sampled (count : Property → Nat) (properties : List Property) : Fields :=
  properties.flatMap fun prop => List.replicate (count prop) (prop.name, prop.kind.sample)

theorem Fields.exists_of_mem_sampled {count : Property → Nat} {properties : List Property} {field : String × Value}
    (h : field ∈ sampled count properties) : ∃ prop ∈ properties, prop.name = field.1 := by
  obtain ⟨prop, hp, hf⟩ := List.mem_flatMap.mp h
  exact ⟨prop, hp, by rw [(List.mem_replicate.mp hf).2]⟩

theorem Fields.values_append (fields more : Fields) (name : String) :
    values (fields ++ more) name = values fields name ++ values more name := by
  simp [values]

theorem Fields.values_sampled {count : Property → Nat} {prop : Property} : ∀ {properties : List Property},
    (properties.map (·.name)).Nodup → prop ∈ properties →
      (sampled count properties).values prop.name = List.replicate (count prop) prop.kind.sample
  | other :: rest, hn, hp => by
    rw [List.map_cons, List.nodup_cons] at hn
    have hsplit : sampled count (other :: rest) =
        List.replicate (count other) (other.name, other.kind.sample) ++ sampled count rest := List.flatMap_cons ..
    rw [hsplit, values_append]
    cases hp with
    | head =>
      have hrest : (sampled count rest).values prop.name = [] := by
        refine values_eq_nil fun field hf he => ?_
        obtain ⟨q, hq, hqf⟩ := exists_of_mem_sampled hf
        exact hn.1 (List.mem_map.mpr ⟨q, hq, hqf.trans he⟩)
      rw [hrest, List.append_nil]
      simp [values]
    | tail _ hp =>
      have hne : other.name ≠ prop.name := fun he => hn.1 (he ▸ List.mem_map_of_mem hp)
      have hfirst : values (List.replicate (count other) (other.name, other.kind.sample)) prop.name = [] :=
        values_eq_nil fun field hf => by rw [(List.mem_replicate.mp hf).2]; exact hne
      rw [hfirst, List.nil_append, values_sampled hn.2 hp]

theorem Schema.Distinct.valid_sampled {schema : Schema} (h : schema.Distinct) {type : SchemaType}
    (ht : type ∈ schema.types) (hs : ∀ prop ∈ type.properties, prop.kind.IsScalar) {count : Property → Nat}
    (hc : ∀ prop ∈ type.properties, prop.cardinality.Admits (count prop)) :
    schema.Valid type.name (.sampled count type.properties) := by
  refine .document (h.type?_name ht) (fun field hf => ?_) (fun prop hp => ?_) (fun prop hp value hv => ?_)
  · obtain ⟨prop, hp, hname⟩ := Fields.exists_of_mem_sampled hf
    simp [← hname, h.property?_name ht hp]
  · simpa [Fields.values_sampled (h.properties type ht) hp] using hc prop hp
  · rw [Fields.values_sampled (h.properties type ht) hp] at hv
    rw [(List.mem_replicate.mp hv).2]
    exact schema.holds_sample (hs prop hp)

/-- A type whose documents are all taken is accepted: it is enough to take those that have
one value of each property but of one, and of that as many as it admits. -/
theorem Schema.Distinct.accepts_of_valid {installed desired : Schema} (h : installed.Distinct) {type : SchemaType}
    (ht : type ∈ installed.types) (hs : ∀ prop ∈ type.properties, prop.kind.IsScalar)
    (hv : ∀ fields, installed.Valid type.name fields → desired.Valid type.name fields) :
    desired.accepts type = true := by
  have hn := h.properties type ht
  -- the documents that have `n` values of one property and one of each other
  have hsampled : ∀ prop ∈ type.properties, ∀ n, prop.cardinality.Admits n →
      desired.Valid type.name (.sampled (fun p => if p = prop then n else 1) type.properties) := by
    intro prop hp n hadm
    refine hv _ (h.valid_sampled ht hs fun p _ => ?_)
    by_cases he : p = prop
    · simpa [he] using hadm
    · simpa [he] using p.cardinality.admits_one
  have hone : desired.Valid type.name (.sampled (fun _ => 1) type.properties) :=
    hv _ (h.valid_sampled ht hs fun p _ => p.cardinality.admits_one)
  cases hone with
  | @document _ _ after found known counts kinds =>
  refine accepts_iff.mpr ⟨after, found,
    SchemaType.acceptsDocumentsOf_iff.mpr ⟨fun prop hp => ?_, fun prop hp hreq => ?_⟩⟩
  · have hfield : (prop.name, prop.kind.sample) ∈ Fields.sampled (fun _ => 1) type.properties :=
      List.mem_flatMap.mpr ⟨prop, hp, by simp⟩
    obtain ⟨now, hnow⟩ := Option.isSome_iff_exists.mp (known _ hfield)
    obtain ⟨hmem, hname⟩ := SchemaType.mem_of_property? hnow
    refine SchemaType.keeps_iff.mpr ⟨now, hnow, ?_, Cardinality.widensTo_iff.mpr fun n hadm => ?_⟩
    · refine (kinds now hmem prop.kind.sample ?_).kind_eq (hs prop hp)
      rw [hname, Fields.values_sampled hn hp]
      simp
    · cases hsampled prop hp n hadm with
      | @document _ _ again found' _ counts' _ =>
      cases found.symm.trans found'
      simpa [hname, Fields.values_sampled hn hp] using counts' now hmem
  · have hcount := counts prop hp
    rw [hreq] at hcount
    obtain ⟨value, hvalue⟩ := List.exists_mem_of_length_eq_add_one hcount
    obtain ⟨field, hf, -⟩ := List.mem_map.mp hvalue
    obtain ⟨hf, he⟩ := List.mem_filter.mp hf
    obtain ⟨was, hwas, hname⟩ := Fields.exists_of_mem_sampled hf
    have heq : was.name = prop.name := hname.trans (by simpa using he)
    simp [← heq, h.property?_name ht hwas]

/-! ## The check -/

/-- Where the check says that nothing is lost, all valid documents stay valid; and of each
type that it names, if the values are plain, some valid document does not. -/
theorem Schema.compatibility_exact {installed desired : Schema} (hi : installed.Distinct) (hd : desired.Distinct) :
    (compatibility (some installed) desired = .unchanged ∨ compatibility (some installed) desired = .compatible →
      ∀ type fields, installed.Valid type fields → desired.Valid type fields) ∧
    ∀ names, compatibility (some installed) desired = .incompatible names → ∀ name ∈ names,
      ∃ type, installed.type? name = some type ∧ ((∀ prop ∈ type.properties, prop.kind.IsScalar) →
        ∃ fields, installed.Valid name fields ∧ ¬ desired.Valid name fields) := by
  constructor
  · intro h type fields hv
    cases accepts_of_kept h with
    | inl hsame => exact hsame ▸ hv
    | inr hacc => exact hv.widened hd hacc
  · intro names h name hname
    rw [← refused_of_incompatible h] at hname
    obtain ⟨type, ht, hrefused, rfl⟩ := mem_refusedTypes.mp hname
    refine ⟨type, hi.type?_name ht, fun hs => ?_⟩
    apply Classical.byContradiction
    intro hall
    have hvalid : ∀ fields, installed.Valid type.name fields → desired.Valid type.name fields := by
      simpa using hall
    rw [hi.accepts_of_valid ht hs hvalid] at hrefused
    cases hrefused

def Schema.oneEmail : Schema :=
  { personCorpus with
    types := [
      ⟨contactPointTypeName, [.searchable "label" .optional, .searchable "email" .optional,
        .searchable "telephone" .repeated, .searchable "address" .repeated]⟩,
      .person] }

/-- More addresses may be allowed later; to allow but one again drops contact points. -/
theorem Schema.compatibility_exact_emails :
    (∀ type fields, oneEmail.Valid type fields → personCorpus.Valid type fields) ∧
      ∃ fields, personCorpus.Valid contactPointTypeName fields ∧ ¬ oneEmail.Valid contactPointTypeName fields := by
  have hone : oneEmail.Distinct := by decide
  have hmany : personCorpus.Distinct := by decide
  refine ⟨(compatibility_exact hone hmany).1 (.inr (by decide +kernel)), ?_⟩
  obtain ⟨type, ht, hrefused⟩ :=
    (compatibility_exact hmany hone).2 [contactPointTypeName] (by decide +kernel) _ (List.mem_singleton_self _)
  obtain rfl : SchemaType.contactPoint = type := Option.some.inj ht
  exact hrefused (by decide)

end ContactsIndex
