import ContactsIndex.Document.OfContact
import ContactsIndex.Proofs.Text.ByteOrder

/-!
# Grouping by label

Each value of a contact ends up in the point of its label, and in the order in which the
contact has it: the points are those of the labels that the contact uses, by ascending
label, and a point has all that is entered under its label (`points_eq`). A document has
them by the bytes of their labels (`contactPoints_grouped`).
-/

namespace ContactsIndex

def valuesUnder (label : String) (values : List Labeled) : List String :=
  (values.filter (·.label = label)).map (·.value)

namespace PointTable

def pointAt (table : PointTable) (label : String) : ContactPoint :=
  table[label]?.getD (.empty label)

variable {table : PointTable} {label : String} {values : List Labeled} {add : ContactPoint → String → ContactPoint}

def enterOne (add : ContactPoint → String → ContactPoint) (table : PointTable) (v : Labeled) : PointTable :=
  table.alter v.label fun point => some (add (point.getD (.empty v.label)) v.value)

theorem enter_cons (add : ContactPoint → String → ContactPoint) (table : PointTable) (v : Labeled)
    (values : List Labeled) : table.enter add (v :: values) = (table.enterOne add v).enter add values := rfl

theorem pointAt_enterOne (v : Labeled) : (table.enterOne add v).pointAt label =
    if v.label = label then add (table.pointAt label) v.value else table.pointAt label := by
  simp only [pointAt, enterOne, Std.TreeMap.getElem?_alter, Std.compare_eq_iff_eq]
  by_cases h : v.label = label
  · subst h
    simp
  · simp [h]

theorem mem_enterOne (v : Labeled) : label ∈ table.enterOne add v ↔ label ∈ table ∨ label = v.label := by
  simp only [enterOne, Std.TreeMap.mem_alter, Std.compare_eq_iff_eq]
  by_cases h : v.label = label
  · simp [h]
  · simp [h, Ne.symm h]

theorem pointAt_enter (add : ContactPoint → String → ContactPoint) (values : List Labeled) (table : PointTable)
    (label : String) :
    (table.enter add values).pointAt label = (valuesUnder label values).foldl add (table.pointAt label) := by
  induction values generalizing table with
  | nil => rfl
  | cons v values ih =>
    rw [enter_cons, ih, pointAt_enterOne]
    by_cases h : v.label = label <;> simp [valuesUnder, h]

theorem mem_enter : label ∈ table.enter add values ↔ label ∈ table ∨ label ∈ values.map (·.label) := by
  induction values generalizing table with
  | nil => simp [enter]
  | cons v values ih =>
    rw [enter_cons, ih, mem_enterOne, List.map_cons, List.mem_cons, or_assoc]

theorem values_eq_map (table : PointTable) : table.values = table.keys.map table.pointAt := by
  rw [values_eq, ← Std.TreeMap.map_fst_toList_eq_keys, List.map_map]
  refine List.map_congr_left fun entry hm => ?_
  have hfound : table[entry.1]? = some entry.2 := Std.TreeMap.mem_toList_iff_getElem?_eq_some.mp hm
  simp [pointAt, hfound]

end PointTable

/-! ## The points of a contact -/

namespace ContactPoint

variable (point : ContactPoint) (values : List String)

theorem foldl_addEmail : values.foldl addEmail point = { point with emails := point.emails ++ values } := by
  induction values generalizing point with
  | nil => simp
  | cons value values ih => simp [ih, addEmail]

theorem foldl_addPhone : values.foldl addPhone point = { point with phones := point.phones ++ values } := by
  induction values generalizing point with
  | nil => simp
  | cons value values ih => simp [ih, addPhone]

theorem foldl_addAddress : values.foldl addAddress point = { point with addresses := point.addresses ++ values } := by
  induction values generalizing point with
  | nil => simp
  | cons value values ih => simp [ih, addAddress]

end ContactPoint

namespace Contact

def labels (contact : Contact) : List String :=
  (contact.emails ++ contact.phones ++ contact.postalAddresses).map (·.label)

/-- All that the contact has under the label. -/
def pointUnder (contact : Contact) (label : String) : ContactPoint where
  label := label
  emails := valuesUnder label contact.emails
  phones := valuesUnder label contact.phones
  addresses := valuesUnder label contact.postalAddresses

def pointTable (contact : Contact) : PointTable :=
  ((PointTable.enter ContactPoint.addEmail ∅ contact.emails).enter ContactPoint.addPhone contact.phones).enter
    ContactPoint.addAddress contact.postalAddresses

theorem points_eq_values (contact : Contact) : contact.points = contact.pointTable.values := rfl

theorem pointAt_pointTable (contact : Contact) (label : String) :
    contact.pointTable.pointAt label = contact.pointUnder label := by
  have hempty : PointTable.pointAt ∅ label = .empty label := rfl
  rw [pointTable, PointTable.pointAt_enter, PointTable.pointAt_enter, PointTable.pointAt_enter, hempty,
    ContactPoint.foldl_addEmail, ContactPoint.foldl_addPhone, ContactPoint.foldl_addAddress]
  rfl

theorem mem_pointTable {contact : Contact} {label : String} : label ∈ contact.pointTable ↔ label ∈ contact.labels := by
  simp only [pointTable, PointTable.mem_enter, Std.TreeMap.not_mem_emptyc, false_or, labels, List.map_append,
    List.mem_append]

theorem keys_pointTable (contact : Contact) : contact.pointTable.keys = ascending contact.labels :=
  eq_ascending Std.TreeMap.ordered_keys fun _ => Std.TreeMap.mem_keys.trans mem_pointTable

theorem points_eq (contact : Contact) : contact.points = (ascending contact.labels).map contact.pointUnder := by
  rw [points_eq_values, PointTable.values_eq_map, keys_pointTable]
  exact List.map_congr_left fun label _ => contact.pointAt_pointTable label

theorem mem_points {contact : Contact} {point : ContactPoint} :
    point ∈ contact.points ↔ ∃ label ∈ contact.labels, contact.pointUnder label = point := by
  rw [points_eq, List.mem_map]
  simp only [mem_ascending]

theorem label_points (contact : Contact) : contact.points.map (·.label) = ascending contact.labels := by
  rw [points_eq, List.map_map]
  exact List.map_id _

theorem mem_labels_iff {contact : Contact} {label : String} : label ∈ contact.labels ↔
    ∃ v, (v ∈ contact.emails ∨ v ∈ contact.phones ∨ v ∈ contact.postalAddresses) ∧ v.label = label := by
  simp only [labels, List.mem_map, List.mem_append, or_assoc]

end Contact

/-- No value of a contact is lost: its document has one point for each label in use, by the bytes of the
labels, and the point of a label has the values that carry it, in order and as often as they are there. -/
theorem Document.contactPoints_grouped (contact : Contact) (createdAt : Int) :
    let points := (Document.ofContact contact createdAt).contactPoints
    (points.map (·.label)).Nodup ∧ (points.map fun point => utf8 point.label).Pairwise (· < ·) ∧
    (∀ label, label ∈ points.map (·.label) ↔
      ∃ v, (v ∈ contact.emails ∨ v ∈ contact.phones ∨ v ∈ contact.postalAddresses) ∧ v.label = label) ∧
    ∀ point ∈ points,
      point.emails = valuesUnder point.label contact.emails ∧
      point.phones = valuesUnder point.label contact.phones ∧
      point.addresses = valuesUnder point.label contact.postalAddresses := by
  intro points
  have hpoints : points = contact.points := rfl
  have hbytes : (points.map fun point => utf8 point.label) = (ascending contact.labels).map utf8 := by
    rw [hpoints, ← Contact.label_points, List.map_map]
    rfl
  have hascending := pairwise_utf8_ascending contact.labels
  have hapart : ∀ label other, utf8 label < utf8 other → label ≠ other := fun label other hlt hsame =>
    List.lt_irrefl _ (hsame ▸ hlt)
  refine ⟨?_, hbytes ▸ hascending, fun label => ?_, fun point hp => ?_⟩
  · rw [hpoints, Contact.label_points]
    exact (List.pairwise_map.mp hascending).imp (hapart _ _)
  · rw [hpoints, Contact.label_points, mem_ascending, Contact.mem_labels_iff]
  · obtain ⟨label, -, rfl⟩ := Contact.mem_points.mp hp
    exact ⟨rfl, rfl, rfl⟩

end ContactsIndex
