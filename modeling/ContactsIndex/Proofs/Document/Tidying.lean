import ContactsIndex.Proofs.Document.Layout

/-!
# Tidying a contact

A contact is tidied by tidying each of its texts. Values are grouped by their labels as
they stand, so labels that differ in their blanks alone make several points, of which
tidying makes one. It says the same as they did only if each of them had all its values:
that is when the fingerprint stays (`fingerprint_of_tidied`).
-/

namespace ContactsIndex

def Labeled.tidied (v : Labeled) : Labeled :=
  ⟨normalize v.label, normalize v.value⟩

namespace Contact

def tidied (contact : Contact) : Contact where
  id := normalize contact.id
  displayName := normalize contact.displayName
  givenName := contact.givenName.map normalize
  middleName := contact.middleName.map normalize
  familyName := contact.familyName.map normalize
  phoneticName := contact.phoneticName.map normalize
  nicknames := contact.nicknames.map normalize
  emails := contact.emails.map Labeled.tidied
  phones := contact.phones.map Labeled.tidied
  postalAddresses := contact.postalAddresses.map Labeled.tidied
  organizations := contact.organizations.map normalize
  relations := contact.relations.map normalize
  note := contact.note.map normalize
  photoUri := contact.photoUri.map normalize
  starred := contact.starred
  lastUpdated := contact.lastUpdated

/-- Labels with the same words have the same values. -/
def LabelsAgree (contact : Contact) : Prop :=
  ∀ label ∈ contact.labels, ∀ other ∈ contact.labels, normalize label = normalize other →
    (contact.pointUnder label).content = (contact.pointUnder other).content

instance (contact : Contact) : Decidable contact.LabelsAgree :=
  inferInstanceAs (Decidable (∀ label ∈ contact.labels, ∀ other ∈ contact.labels, _ → _))

end Contact

/-! ## Outside the points -/

theorem tidyValues_map_normalize (texts : List String) : tidyValues (texts.map normalize) = tidyValues texts := by
  ext tidy
  simp [mem_tidyValues]

theorem normalize_getD_map (text : Option String) :
    normalize ((text.map normalize).getD "") = normalize (text.getD "") := by
  cases text <;> simp

theorem Contact.plainContent_tidied (contact : Contact) (time time' : Int) :
    (Document.ofContact contact.tidied time').plainContent = (Document.ofContact contact time).plainContent := by
  have hnames : tidyValues (contact.nicknames.map normalize ++ (contact.phoneticName.map normalize).toList) =
      tidyValues (contact.nicknames ++ contact.phoneticName.toList) := by
    rw [Option.toList_map, ← List.map_append, tidyValues_map_normalize]
  have hnotes : tidyValues (contact.note.map normalize).toList = tidyValues contact.note.toList := by
    rw [Option.toList_map, tidyValues_map_normalize]
  simp only [Document.plainContent, Document.content, Document.ofContact, Document.sealed, tidied, normalize_normalize,
    normalize_getD_map, tidyValues_map_normalize, hnames, hnotes]

/-! ## Points that fall together -/

theorem labels_map_tidied (values : List Labeled) :
    (values.map Labeled.tidied).map (·.label) = (values.map (·.label)).map normalize := by
  simp [Labeled.tidied]

theorem mem_tidyValues_tidied {values : List Labeled} {label tidy : String} :
    tidy ∈ tidyValues (valuesUnder label (values.map Labeled.tidied)) ↔
      ∃ other ∈ values.map (·.label), normalize other = label ∧ tidy ∈ tidyValues (valuesUnder other values) := by
  simp only [mem_tidyValues, mem_valuesUnder, List.mem_map]
  constructor
  · rintro ⟨⟨_, ⟨_, ⟨v, hv, rfl⟩, rfl, rfl⟩, rfl⟩, hne⟩
    exact ⟨v.label, ⟨v, hv, rfl⟩, rfl, ⟨v.value, ⟨v, hv, rfl, rfl⟩, (normalize_normalize v.value).symm⟩, hne⟩
  · rintro ⟨_, -, rfl, ⟨_, ⟨v, hv, rfl, rfl⟩, rfl⟩, hne⟩
    exact ⟨⟨_, ⟨v.tidied, ⟨v, hv, rfl⟩, rfl, rfl⟩, normalize_normalize v.value⟩, hne⟩

theorem tidyValues_tidied {values : List Labeled} {label : String}
    (h : ∀ other ∈ values.map (·.label), normalize other = normalize label →
      tidyValues (valuesUnder other values) = tidyValues (valuesUnder label values)) :
    tidyValues (valuesUnder (normalize label) (values.map Labeled.tidied)) = tidyValues (valuesUnder label values) := by
  ext tidy
  rw [mem_tidyValues_tidied]
  constructor
  · rintro ⟨other, hother, hsame, htidy⟩
    exact h other hother hsame ▸ htidy
  · intro htidy
    have hlabel : label ∈ values.map (·.label) := by
      by_contra hnone
      rw [valuesUnder_eq_nil.mpr hnone] at htidy
      simp at htidy
    exact ⟨label, hlabel, rfl, htidy⟩

namespace Contact

variable {contact : Contact} {label : String}

theorem labels_tidied (contact : Contact) : contact.tidied.labels = contact.labels.map normalize := by
  simp only [labels, tidied, List.map_append, labels_map_tidied]

theorem label_content_pointUnder (contact : Contact) (label : String) :
    (contact.pointUnder label).content.label = normalize label := rfl

theorem content_tidied (h : contact.LabelsAgree) (hlabel : label ∈ contact.labels) :
    (contact.tidied.pointUnder (normalize label)).content = (contact.pointUnder label).content := by
  have hagree : ∀ other ∈ contact.labels, normalize other = normalize label →
      (contact.pointUnder other).content = (contact.pointUnder label).content := fun other hother =>
    h other hother label hlabel
  simp only [labels, List.map_append, List.mem_append] at hagree
  have hemails := tidyValues_tidied fun other ho hsame =>
    congrArg PointContent.emails (hagree other (.inl (.inl ho)) hsame)
  have hphones := tidyValues_tidied fun other ho hsame =>
    congrArg PointContent.phones (hagree other (.inl (.inr ho)) hsame)
  have haddresses := tidyValues_tidied fun other ho hsame =>
    congrArg PointContent.addresses (hagree other (.inr ho) hsame)
  simp only [pointUnder, tidied, ContactPoint.content, normalize_normalize, hemails, hphones, haddresses]

theorem shownPoints_tidied_iff (contact : Contact) (time time' : Int) :
    (Document.ofContact contact time).shownPoints = (Document.ofContact contact.tidied time').shownPoints ↔
      contact.LabelsAgree := by
  constructor
  · intro h label hlabel other hother hsame
    -- a point that is shown is the one of the tidy label
    have honly : ∀ label ∈ contact.labels, (contact.pointUnder label).content =
        (contact.tidied.pointUnder (normalize label)).content := by
      intro label hlabel
      have hshown : (contact.pointUnder label).content ∈ (Document.ofContact contact.tidied time').shownPoints := by
        rw [← h]
        exact Document.mem_shownPoints_ofContact.mpr ⟨label, hlabel, rfl⟩
      obtain ⟨tidy, htidy, hcontent⟩ := Document.mem_shownPoints_ofContact.mp hshown
      rw [labels_tidied] at htidy
      obtain ⟨original, -, rfl⟩ := List.mem_map.mp htidy
      have hsame := congrArg PointContent.label hcontent
      rw [label_content_pointUnder, label_content_pointUnder, normalize_normalize] at hsame
      rw [← hcontent, hsame]
    rw [honly label hlabel, honly other hother, hsame]
  · intro h
    ext content
    simp only [Document.mem_shownPoints_ofContact, labels_tidied, List.mem_map]
    constructor
    · rintro ⟨label, hlabel, rfl⟩
      exact ⟨_, ⟨label, hlabel, rfl⟩, content_tidied h hlabel⟩
    · rintro ⟨_, ⟨label, hlabel, rfl⟩, rfl⟩
      exact ⟨label, hlabel, (content_tidied h hlabel).symm⟩

end Contact

/-- Tidying keeps the fingerprint where the labels with the same words have the same values; where
they have not, it changes what the fingerprint is made of. -/
theorem fingerprint_of_tidied (contact : Contact) (time time' : Int) :
    (contact.LabelsAgree →
      (Document.ofContact contact time).fingerprint = (Document.ofContact contact.tidied time').fingerprint) ∧
    (¬ contact.LabelsAgree → (Document.ofContact contact time).Fits → (Document.ofContact contact.tidied time').Fits →
      (Document.ofContact contact time).canonical ≠ (Document.ofContact contact.tidied time').canonical) := by
  constructor
  · intro h
    exact Document.fingerprint_ofContact_eq (Document.canonical_congr_of_shown
      (contact.plainContent_tidied time time').symm ((contact.shownPoints_tidied_iff time time').mpr h))
  · intro hsplit fits fits' hcanonical
    have hsame := (Document.canonical_eq_iff fits fits').mp hcanonical
    have hshown := Document.shownPoints_eq_iff.mpr ⟨congrArg Content.points hsame.1, hsame.2⟩
    exact hsplit ((contact.shownPoints_tidied_iff time time').mp hshown)

def Contact.doubled : Contact :=
  { Contact.named "1" " Ada" with emails := [⟨"home", "a@x"⟩, ⟨"home ", " a@x"⟩] }

def Contact.split : Contact :=
  { Contact.named "1" "Ada" with emails := [⟨"home", "a@x"⟩, ⟨"home ", "b@x"⟩] }

theorem fingerprint_of_tidied_split :
    (Contact.doubled.LabelsAgree ∧
      (Document.ofContact Contact.doubled 0).fingerprint = (Document.ofContact Contact.doubled.tidied 7).fingerprint) ∧
    ¬ Contact.split.LabelsAgree ∧
    (Document.ofContact Contact.split 0).canonical ≠ (Document.ofContact Contact.split.tidied 0).canonical ∧
    (Document.ofContact Contact.split 0).fingerprint ≠ (Document.ofContact Contact.split.tidied 0).fingerprint := by
  have hagree : Contact.doubled.LabelsAgree := by decide +kernel
  have hsplit : ¬ Contact.split.LabelsAgree := by decide +kernel
  have fits : (Document.ofContact Contact.split 0).Fits := ⟨by decide +kernel, by decide +kernel⟩
  have fits' : (Document.ofContact Contact.split.tidied 0).Fits := ⟨by decide +kernel, by decide +kernel⟩
  exact ⟨⟨hagree, (fingerprint_of_tidied Contact.doubled 0 7).1 hagree⟩, hsplit,
    (fingerprint_of_tidied Contact.split 0 0).2 hsplit fits fits', by decide +kernel⟩

end ContactsIndex
