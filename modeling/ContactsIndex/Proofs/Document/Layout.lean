import ContactsIndex.Proofs.Document.Fingerprint
import ContactsIndex.Proofs.Document.Grouping
import ContactsIndex.Proofs.Text.Words

/-!
# What a fingerprint does not see of a contact

Contacts are alike when they differ in the order and repetition of their values, in the
blanks around the words of their texts, and in when they were touched. The labels alone
have to be the same as they stand. Alike contacts have points of the same content under each
label (`Alike.content_pointUnder`), and so the same fingerprint (`fingerprint_of_alike`).
-/

namespace ContactsIndex

/-! ## Contents of contacts -/

theorem valuesUnder_eq_nil {label : String} {values : List Labeled} :
    valuesUnder label values = [] ↔ label ∉ values.map (·.label) := by
  simp only [valuesUnder, List.map_eq_nil_iff, List.filter_eq_nil_iff, decide_eq_true_eq, List.mem_map, not_exists,
    not_and]

theorem mem_valuesUnder {label value : String} {values : List Labeled} :
    value ∈ valuesUnder label values ↔ ∃ v ∈ values, v.label = label ∧ v.value = value := by
  simp [valuesUnder, and_assoc]

theorem mem_tidyValues {texts : List String} {tidy : String} :
    tidy ∈ tidyValues texts ↔ (∃ text ∈ texts, normalize text = tidy) ∧ tidy ≠ "" := by
  simp [tidyValues]

theorem Contact.isBare_pointUnder {contact : Contact} {label : String} (h : label ∈ contact.labels) :
    (contact.pointUnder label).isBare = false := by
  by_contra hbare
  simp only [Bool.not_eq_false, ContactPoint.isBare, pointUnder, Bool.and_eq_true, List.isEmpty_iff,
    valuesUnder_eq_nil] at hbare
  simp only [labels, List.map_append, List.mem_append] at h
  tauto

namespace Document

variable {doc doc' : Document} {contact : Contact} {time : Int}

def plainContent (doc : Document) : Content :=
  { doc.content with points := ∅ }

theorem canonical_congr_of_shown (hplain : doc.plainContent = doc'.plainContent)
    (hpoints : doc.shownPoints = doc'.shownPoints) : doc.canonical = doc'.canonical := by
  obtain ⟨hpoints, hlabels⟩ := shownPoints_eq_iff.mp hpoints
  have hcontent : doc.content = doc'.content := calc doc.content
      = { doc.plainContent with points := doc.content.points } := rfl
    _ = { doc'.plainContent with points := doc'.content.points } := by rw [hplain, hpoints]
    _ = doc'.content := rfl
  exact canonical_congr hcontent hlabels

theorem mem_shownPoints_ofContact {content : PointContent} : content ∈ (ofContact contact time).shownPoints ↔
    ∃ label ∈ contact.labels, (contact.pointUnder label).content = content := by
  have hpoints : (ofContact contact time).contactPoints = contact.points := rfl
  simp only [mem_shownPoints, hpoints, Contact.mem_points]
  constructor
  · rintro ⟨_, ⟨label, hlabel, rfl⟩, -, hcontent⟩
    exact ⟨label, hlabel, hcontent⟩
  · rintro ⟨label, hlabel, hcontent⟩
    exact ⟨_, ⟨label, hlabel, rfl⟩, Contact.isBare_pointUnder hlabel, hcontent⟩

end Document

/-! ## Alike contacts -/

/-- The texts have the same words one after the other, whatever blanks are around them. -/
def SameWords (text text' : String) : Prop :=
  words text.toList = words text'.toList

instance (text text' : String) : Decidable (SameWords text text') :=
  inferInstanceAs (Decidable (_ = _))

/-- The lists have the same entries up to the relation, in any order and each any number of times. -/
structure SameEntries {α : Type} (R : α → α → Prop) (xs ys : List α) : Prop where
  forth : ∀ x ∈ xs, ∃ y ∈ ys, R x y
  back : ∀ y ∈ ys, ∃ x ∈ xs, R x y

instance {α : Type} (R : α → α → Prop) [DecidableRel R] (xs ys : List α) : Decidable (SameEntries R xs ys) :=
  decidable_of_iff ((∀ x ∈ xs, ∃ y ∈ ys, R x y) ∧ ∀ y ∈ ys, ∃ x ∈ xs, R x y)
    ⟨fun h => ⟨h.1, h.2⟩, fun h => ⟨h.forth, h.back⟩⟩

def Labeled.Alike (v v' : Labeled) : Prop :=
  v.label = v'.label ∧ SameWords v.value v'.value

instance (v v' : Labeled) : Decidable (v.Alike v') :=
  inferInstanceAs (Decidable (_ ∧ _))

structure Contact.Alike (contact contact' : Contact) : Prop where
  id : SameWords contact.id contact'.id
  displayName : SameWords contact.displayName contact'.displayName
  givenName : Option.Rel SameWords contact.givenName contact'.givenName
  middleName : Option.Rel SameWords contact.middleName contact'.middleName
  familyName : Option.Rel SameWords contact.familyName contact'.familyName
  phoneticName : Option.Rel SameWords contact.phoneticName contact'.phoneticName
  nicknames : SameEntries SameWords contact.nicknames contact'.nicknames
  emails : SameEntries Labeled.Alike contact.emails contact'.emails
  phones : SameEntries Labeled.Alike contact.phones contact'.phones
  postalAddresses : SameEntries Labeled.Alike contact.postalAddresses contact'.postalAddresses
  organizations : SameEntries SameWords contact.organizations contact'.organizations
  relations : SameEntries SameWords contact.relations contact'.relations
  note : Option.Rel SameWords contact.note contact'.note
  photoUri : Option.Rel SameWords contact.photoUri contact'.photoUri
  starred : contact.starred = contact'.starred

section

variable {α : Type} {R : α → α → Prop} {xs xs' ys ys' : List α} {texts texts' : List String}
  {values values' : List Labeled}

theorem SameEntries.append (h : SameEntries R xs ys) (h' : SameEntries R xs' ys') :
    SameEntries R (xs ++ xs') (ys ++ ys') where
  forth x hx := by
    rcases List.mem_append.mp hx with hx | hx
    · obtain ⟨y, hy, hxy⟩ := h.forth x hx
      exact ⟨y, List.mem_append_left _ hy, hxy⟩
    · obtain ⟨y, hy, hxy⟩ := h'.forth x hx
      exact ⟨y, List.mem_append_right _ hy, hxy⟩
  back y hy := by
    rcases List.mem_append.mp hy with hy | hy
    · obtain ⟨x, hx, hxy⟩ := h.back y hy
      exact ⟨x, List.mem_append_left _ hx, hxy⟩
    · obtain ⟨x, hx, hxy⟩ := h'.back y hy
      exact ⟨x, List.mem_append_right _ hx, hxy⟩

theorem sameEntries_toList {x y : Option α} (h : Option.Rel R x y) : SameEntries R x.toList y.toList := by
  cases h with
  | none => exact ⟨fun _ hx => absurd hx List.not_mem_nil, fun _ hy => absurd hy List.not_mem_nil⟩
  | some h => exact ⟨by simpa using h, by simpa using h⟩

theorem SameWords.normalize_eq {text text' : String} (h : SameWords text text') : normalize text = normalize text' :=
  normalize_eq_iff.mpr h

theorem normalize_getD_eq {text text' : Option String} (h : Option.Rel SameWords text text') :
    normalize (text.getD "") = normalize (text'.getD "") := by
  cases h with
  | none => rfl
  | some h => exact h.normalize_eq

theorem SameEntries.mem_map_iff {β : Type} {f : α → β} {b : β} (h : SameEntries R xs ys)
    (hf : ∀ {x y}, R x y → f x = f y) : b ∈ xs.map f ↔ b ∈ ys.map f := by
  simp only [List.mem_map]
  constructor
  · rintro ⟨x, hx, rfl⟩
    obtain ⟨y, hy, hxy⟩ := h.forth x hx
    exact ⟨y, hy, (hf hxy).symm⟩
  · rintro ⟨y, hy, rfl⟩
    obtain ⟨x, hx, hxy⟩ := h.back y hy
    exact ⟨x, hx, hf hxy⟩

theorem SameEntries.tidyValues_eq (h : SameEntries SameWords texts texts') : tidyValues texts = tidyValues texts' := by
  ext tidy
  rw [mem_tidyValues, mem_tidyValues, ← List.mem_map, ← List.mem_map, h.mem_map_iff SameWords.normalize_eq]

theorem SameEntries.valuesUnder (h : SameEntries Labeled.Alike values values') (label : String) :
    SameEntries SameWords (valuesUnder label values) (valuesUnder label values') where
  forth value hvalue := by
    obtain ⟨v, hv, rfl, rfl⟩ := mem_valuesUnder.mp hvalue
    obtain ⟨v', hv', hlabel, hwords⟩ := h.forth v hv
    exact ⟨v'.value, mem_valuesUnder.mpr ⟨v', hv', hlabel.symm, rfl⟩, hwords⟩
  back value hvalue := by
    obtain ⟨v', hv', rfl, rfl⟩ := mem_valuesUnder.mp hvalue
    obtain ⟨v, hv, hlabel, hwords⟩ := h.back v' hv'
    exact ⟨v.value, mem_valuesUnder.mpr ⟨v, hv, hlabel, rfl⟩, hwords⟩

end

namespace Contact.Alike

variable {contact contact' : Contact}

theorem mem_labels (h : contact.Alike contact') (label : String) : label ∈ contact.labels ↔ label ∈ contact'.labels := by
  simp only [Contact.labels]
  exact ((h.emails.append h.phones).append h.postalAddresses).mem_map_iff And.left

theorem content_pointUnder (h : contact.Alike contact') (label : String) :
    (contact.pointUnder label).content = (contact'.pointUnder label).content := by
  simp only [ContactPoint.content, Contact.pointUnder, (h.emails.valuesUnder label).tidyValues_eq,
    (h.phones.valuesUnder label).tidyValues_eq, (h.postalAddresses.valuesUnder label).tidyValues_eq]

theorem shownPoints_eq (h : contact.Alike contact') (time time' : Int) :
    (Document.ofContact contact time).shownPoints = (Document.ofContact contact' time').shownPoints := by
  ext content
  simp only [Document.mem_shownPoints_ofContact, h.mem_labels, h.content_pointUnder]

theorem plainContent_eq (h : contact.Alike contact') (time time' : Int) :
    (Document.ofContact contact time).plainContent = (Document.ofContact contact' time').plainContent := by
  have hnames : tidyValues (contact.nicknames ++ contact.phoneticName.toList) =
      tidyValues (contact'.nicknames ++ contact'.phoneticName.toList) :=
    (h.nicknames.append (sameEntries_toList h.phoneticName)).tidyValues_eq
  have hnotes : tidyValues contact.note.toList = tidyValues contact'.note.toList :=
    (sameEntries_toList h.note).tidyValues_eq
  simp only [Document.plainContent, Document.content, Document.ofContact, Document.sealed, h.id.normalize_eq,
    h.displayName.normalize_eq, normalize_getD_eq h.givenName, normalize_getD_eq h.middleName,
    normalize_getD_eq h.familyName, hnames, h.organizations.tidyValues_eq, h.relations.tidyValues_eq, hnotes,
    normalize_getD_eq h.photoUri, h.starred]

end Contact.Alike

theorem Document.fingerprint_ofContact_eq {contact contact' : Contact} {time time' : Int}
    (h : (ofContact contact time).canonical = (ofContact contact' time').canonical) :
    (ofContact contact time).fingerprint = (ofContact contact' time').fingerprint := by
  have hsealed : ∀ contact time, (ofContact contact time).fingerprint = (ofContact contact time).contentFingerprint :=
    fun _ time => (contentFingerprint_sealed _ time).symm
  rw [hsealed, hsealed, contentFingerprint, contentFingerprint, h]

/-- Whenever their documents are made. -/
theorem fingerprint_of_alike {contact contact' : Contact} (h : contact.Alike contact') (time time' : Int) :
    (Document.ofContact contact time).fingerprint = (Document.ofContact contact' time').fingerprint :=
  Document.fingerprint_ofContact_eq
    (Document.canonical_congr_of_shown (h.plainContent_eq time time') (h.shownPoints_eq time time'))

def Contact.jotted : Contact :=
  { Contact.named "1" " Ada  Byron" with
    phoneticName := some "Aida"
    nicknames := ["Addie", "A. B."]
    emails := [⟨"home", "a@x"⟩, ⟨"work", "ada@y"⟩]
    phones := [⟨"home", "1 2"⟩, ⟨"home ", "3"⟩]
    note := some "met\tin London" }

def Contact.copied : Contact :=
  { Contact.named "1" "Ada Byron " with
    phoneticName := some "Aida "
    nicknames := ["A.  B.", "Addie", "A. B. "]
    emails := [⟨"work", " ada@y"⟩, ⟨"home", "a@x"⟩, ⟨"work", "ada@y"⟩]
    phones := [⟨"home ", "3"⟩, ⟨"home", "1  2"⟩]
    note := some "met in\nLondon"
    lastUpdated := 5 }

theorem fingerprint_of_alike_copied : Contact.jotted.Alike Contact.copied ∧
    (Document.ofContact Contact.jotted 0).fingerprint = (Document.ofContact Contact.copied 7).fingerprint := by
  have h : Contact.jotted.Alike Contact.copied :=
    { id := by decide +kernel
      displayName := by decide +kernel
      givenName := .none
      middleName := .none
      familyName := .none
      phoneticName := .some (by decide +kernel)
      nicknames := by decide +kernel
      emails := by decide +kernel
      phones := by decide +kernel
      postalAddresses := by decide +kernel
      organizations := by decide +kernel
      relations := by decide +kernel
      note := .some (by decide +kernel)
      photoUri := .none
      starred := rfl }
  exact ⟨h, fingerprint_of_alike h 0 7⟩

end ContactsIndex
