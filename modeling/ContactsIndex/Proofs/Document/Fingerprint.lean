import ContactsIndex.Proofs.Document.Content

/-!
# What the fingerprint tells apart

The canonical form says the content of a document and the labels of its hollow points,
and nothing else (`canonical_eq_iff`). So a change of content is never missed
(`content_eq_of_canonical_eq`); but of two documents that say the same, one may have a
hollow point that the other has not, and then their canonical forms differ
(`fingerprint_of_same_content`).
-/

namespace ContactsIndex

/-! ## Contact points -/

theorem ContactPoint.isEmpty_of_isBare {point : ContactPoint} (h : point.isBare) : point.content.IsEmpty := by
  simp only [isBare, Bool.and_eq_true, List.isEmpty_iff] at h
  obtain ⟨⟨hemails, hphones⟩, haddresses⟩ := h
  simp [PointContent.IsEmpty, content, hemails, hphones, haddresses]

theorem ContactPoint.canonical_congr {point point' : ContactPoint} (h : point.content = point'.content) :
    point.canonical = point'.canonical := by
  simp only [content, PointContent.mk.injEq] at h
  obtain ⟨hlabel, hemails, hphones, haddresses⟩ := h
  rw [← framed_parts, ← framed_parts, parts, parts, shown_eq_iff.mpr hlabel, shownSet_eq_iff.mpr hemails,
    shownSet_eq_iff.mpr hphones, shownSet_eq_iff.mpr haddresses]

theorem ContactPoint.content_eq {point point' : ContactPoint} (fits : point.canonical.length < 2 ^ 32)
    (fits' : point'.canonical.length < 2 ^ 32) (h : point.canonical = point'.canonical) :
    point.content = point'.content := by
  have hparts : point.parts = point'.parts := by
    rw [← framed_parts] at fits fits' h
    rw [← framed_parts] at h
    exact framed_inj (framable_of_length fits) (framable_of_length fits') h
  have hunder : ∀ tag, under tag point.parts = under tag point'.parts := fun tag => by rw [hparts]
  have hlabel := hunder 1
  have hemails := hunder 2
  have hphones := hunder 3
  have haddresses := hunder 4
  simp [parts, shown_eq_iff, shownSet_eq_iff] at hlabel hemails hphones haddresses
  rw [content, content, hlabel, hemails, hphones, haddresses]

namespace Document

/-! ## The points that are shown -/

def shownPoints (doc : Document) : Finset PointContent :=
  ((doc.contactPoints.filter (!·.isBare)).map ContactPoint.content).toFinset

theorem mem_shownPoints {doc : Document} {content : PointContent} : content ∈ doc.shownPoints ↔
    ∃ point ∈ doc.contactPoints, point.isBare = false ∧ point.content = content := by
  simp [shownPoints, and_assoc]

theorem points_content (doc : Document) : doc.content.points = doc.shownPoints.filter (¬ ·.IsEmpty) := by
  ext content
  simp only [Document.content, Finset.mem_filter, mem_shownPoints, List.mem_toFinset, List.mem_map]
  constructor
  · rintro ⟨⟨point, hpoint, rfl⟩, hfull⟩
    have hbare : point.isBare = false := by
      simpa using mt ContactPoint.isEmpty_of_isBare hfull
    exact ⟨⟨point, hpoint, hbare, rfl⟩, hfull⟩
  · rintro ⟨⟨point, hpoint, -, rfl⟩, hfull⟩
    exact ⟨⟨point, hpoint, rfl⟩, hfull⟩

theorem hollowLabels_eq (doc : Document) :
    doc.hollowLabels = (doc.shownPoints.filter (·.IsEmpty)).image PointContent.label := by
  ext label
  simp only [hollowLabels, hollowPoints, Finset.mem_image, Finset.mem_filter, mem_shownPoints, List.mem_toFinset,
    List.mem_map, List.mem_filter]
  constructor
  · rintro ⟨point, ⟨hpoint, hhollow⟩, rfl⟩
    simp only [Bool.and_eq_true, Bool.not_eq_true', decide_eq_true_eq] at hhollow
    exact ⟨point.content, ⟨⟨point, hpoint, hhollow.1, rfl⟩, hhollow.2⟩, rfl⟩
  · rintro ⟨content, ⟨⟨point, hpoint, hbare, rfl⟩, hempty⟩, rfl⟩
    exact ⟨point, ⟨hpoint, by simp [hbare, hempty]⟩, rfl⟩

theorem mem_shownPoints_iff {doc : Document} {content : PointContent} : content ∈ doc.shownPoints ↔
    content ∈ doc.content.points ∨ content.IsEmpty ∧ content.label ∈ doc.hollowLabels := by
  rw [points_content, hollowLabels_eq]
  by_cases hempty : content.IsEmpty
  · -- a content without values is no more than its label
    have hsame : ∀ other : PointContent, other.IsEmpty → other.label = content.label → other = content := by
      intro other hother hlabel
      obtain ⟨hemails, hphones, haddresses⟩ := hempty
      obtain ⟨hemails', hphones', haddresses'⟩ := hother
      cases other
      cases content
      simp_all
    simp only [Finset.mem_filter, Finset.mem_image, hempty, not_true_eq_false, and_false, true_and, false_or]
    constructor
    · intro h
      exact ⟨content, ⟨h, hempty⟩, rfl⟩
    · rintro ⟨other, ⟨h, hother⟩, hlabel⟩
      rwa [← hsame other hother hlabel]
  · simp [hempty]

theorem shownPoints_eq_iff {doc doc' : Document} : doc.shownPoints = doc'.shownPoints ↔
    doc.content.points = doc'.content.points ∧ doc.hollowLabels = doc'.hollowLabels := by
  constructor
  · intro h
    rw [points_content, points_content, hollowLabels_eq, hollowLabels_eq, h]
    exact ⟨rfl, rfl⟩
  · rintro ⟨hpoints, hlabels⟩
    ext content
    rw [mem_shownPoints_iff, mem_shownPoints_iff, hpoints, hlabels]

theorem mem_canonicalPoints {doc : Document} {bytes : List UInt8} : bytes ∈ doc.canonicalPoints ↔
    ∃ point ∈ doc.contactPoints, point.isBare = false ∧ point.canonical = bytes := by
  simp [canonicalPoints, mem_ascending, and_assoc]

theorem canonicalPoints_subset {doc doc' : Document} (h : doc.shownPoints ⊆ doc'.shownPoints) :
    ∀ bytes ∈ doc.canonicalPoints, bytes ∈ doc'.canonicalPoints := by
  intro bytes hbytes
  obtain ⟨point, hpoint, hbare, rfl⟩ := mem_canonicalPoints.mp hbytes
  have hshown := h (mem_shownPoints.mpr ⟨point, hpoint, hbare, rfl⟩)
  obtain ⟨point', hpoint', hbare', hcontent⟩ := mem_shownPoints.mp hshown
  exact mem_canonicalPoints.mpr ⟨point', hpoint', hbare', ContactPoint.canonical_congr hcontent⟩

theorem canonicalPoints_congr {doc doc' : Document} (h : doc.shownPoints = doc'.shownPoints) :
    doc.canonicalPoints = doc'.canonicalPoints := by
  have hmem : ∀ bytes, bytes ∈ doc.canonicalPoints ↔ bytes ∈ doc'.canonicalPoints := fun bytes =>
    ⟨canonicalPoints_subset h.subset bytes, canonicalPoints_subset h.symm.subset bytes⟩
  apply ascending_eq_iff.mpr
  simpa only [canonicalPoints, mem_ascending] using hmem

/-! ## Documents -/

def texts (doc : Document) : List String :=
  [doc.id, doc.name] ++ doc.givenName.toList ++ doc.middleName.toList ++ doc.familyName.toList ++
    doc.additionalNames ++ doc.affiliations ++ doc.relations ++ doc.notes ++ doc.imageUri.toList

/-- The lengths of all that is framed have room in the four bytes for them. -/
structure Fits (doc : Document) : Prop where
  texts : ∀ text ∈ doc.texts, (utf8 (normalize text)).length < 2 ^ 32
  points : ∀ point ∈ doc.contactPoints, point.isBare = false → point.canonical.length < 2 ^ 32

theorem shownPoints_subset {doc doc' : Document} (fits : doc.Fits) (fits' : doc'.Fits)
    (h : doc.canonicalPoints = doc'.canonicalPoints) : doc.shownPoints ⊆ doc'.shownPoints := by
  intro content hcontent
  obtain ⟨point, hpoint, hbare, rfl⟩ := mem_shownPoints.mp hcontent
  have hbytes : point.canonical ∈ doc'.canonicalPoints := h ▸ mem_canonicalPoints.mpr ⟨point, hpoint, hbare, rfl⟩
  obtain ⟨point', hpoint', hbare', heq⟩ := mem_canonicalPoints.mp hbytes
  refine mem_shownPoints.mpr ⟨point', hpoint', hbare', ?_⟩
  exact ContactPoint.content_eq (fits'.points point' hpoint' hbare') (fits.points point hpoint hbare) heq

theorem length_shown {text : String} (h : (utf8 (normalize text)).length < 2 ^ 32) :
    ∀ bytes ∈ shown text, bytes.length < 2 ^ 32 := by
  by_cases hblank : normalize text = ""
  · simp [shown, hblank]
  · simpa [shown, hblank] using h

theorem length_shownSet {texts : List String} (h : ∀ text ∈ texts, (utf8 (normalize text)).length < 2 ^ 32) :
    ∀ bytes ∈ shownSet texts, bytes.length < 2 ^ 32 := by
  intro bytes hbytes
  obtain ⟨tidy, htidy, rfl⟩ := List.mem_map.mp hbytes
  rw [tidySet, mem_ascending, List.mem_filter] at htidy
  obtain ⟨text, htext, rfl⟩ := List.mem_map.mp htidy.1
  exact h text htext

theorem length_optional {text : Option String} (h : ∀ t ∈ text.toList, (utf8 (normalize t)).length < 2 ^ 32) :
    ∀ bytes ∈ shown (text.getD ""), bytes.length < 2 ^ 32 := by
  cases text with
  | none => simp [shown, normalize_empty]
  | some text => exact length_shown (h text (by simp))

theorem Fits.framable {doc : Document} (fits : doc.Fits) : Framable doc.parts := by
  have hpoints : ∀ bytes ∈ doc.canonicalPoints, bytes.length < 2 ^ 32 := by
    intro bytes hbytes
    obtain ⟨point, hpoint, hbare, rfl⟩ := mem_canonicalPoints.mp hbytes
    exact fits.points point hpoint hbare
  have hmark : ∀ bytes ∈ (if doc.isImportant then [[1]] else [] : List (List UInt8)), bytes.length < 2 ^ 32 := by
    cases doc.isImportant <;> simp
  have htexts := fits.texts
  simp only [Document.texts, List.mem_append, or_imp, forall_and, List.mem_cons, List.not_mem_nil] at htexts
  obtain ⟨⟨⟨⟨⟨⟨⟨⟨⟨hid, hname, -⟩, hgiven⟩, hmiddle⟩, hfamily⟩, hadditional⟩, haffiliations⟩, hrelations⟩, hnotes⟩,
    himage⟩ := htexts
  simp only [Document.parts, framable_append, framable_tagged]
  exact ⟨⟨⟨⟨⟨⟨⟨⟨⟨⟨⟨length_shown (hid _ rfl), length_shown (hname _ rfl)⟩, length_optional hgiven⟩,
    length_optional hmiddle⟩, length_optional hfamily⟩, length_shownSet hadditional⟩, hpoints⟩,
    length_shownSet haffiliations⟩, length_shownSet hrelations⟩, length_shownSet hnotes⟩, length_optional himage⟩,
    hmark⟩

theorem canonical_congr {doc doc' : Document} (h : doc.content = doc'.content)
    (hlabels : doc.hollowLabels = doc'.hollowLabels) : doc.canonical = doc'.canonical := by
  have hpoints := canonicalPoints_congr (shownPoints_eq_iff.mpr ⟨congrArg Content.points h, hlabels⟩)
  simp only [Document.content, Content.mk.injEq, ← shown_eq_iff, ← shownSet_eq_iff] at h
  obtain ⟨hid, hname, hgiven, hmiddle, hfamily, hadditional, -, haffiliations, hrelations, hnotes, himage, hmark⟩ := h
  rw [← framed_parts, ← framed_parts, Document.parts, Document.parts, hid, hname, hgiven, hmiddle, hfamily,
    hadditional, hpoints, haffiliations, hrelations, hnotes, himage, hmark]

theorem canonical_eq_iff {doc doc' : Document} (fits : doc.Fits) (fits' : doc'.Fits) :
    doc.canonical = doc'.canonical ↔ doc.content = doc'.content ∧ doc.hollowLabels = doc'.hollowLabels := by
  refine ⟨fun h => ?_, fun h => canonical_congr h.1 h.2⟩
  have hparts : doc.parts = doc'.parts := by
    rw [← framed_parts, ← framed_parts] at h
    exact framed_inj fits.framable fits'.framable h
  have hunder : ∀ tag, under tag doc.parts = under tag doc'.parts := fun tag => by rw [hparts]
  have hpoints : doc.canonicalPoints = doc'.canonicalPoints := by simpa [Document.parts] using hunder 7
  have hshown : doc.shownPoints = doc'.shownPoints :=
    (shownPoints_subset fits fits' hpoints).antisymm (shownPoints_subset fits' fits hpoints.symm)
  obtain ⟨hpoints, hlabels⟩ := shownPoints_eq_iff.mp hshown
  refine ⟨?_, hlabels⟩
  have hid := hunder 1
  have hname := hunder 2
  have hgiven := hunder 3
  have hmiddle := hunder 4
  have hfamily := hunder 5
  have hadditional := hunder 6
  have haffiliations := hunder 8
  have hrelations := hunder 9
  have hnotes := hunder 10
  have himage := hunder 11
  have hmark := hunder 12
  simp [Document.parts, shown_eq_iff] at hid hname hgiven hmiddle hfamily himage
  simp [Document.parts, shownSet_eq_iff] at hadditional haffiliations hrelations hnotes
  have himportant : doc.isImportant = doc'.isImportant := by
    cases h : doc.isImportant <;> cases h' : doc'.isImportant <;> simp [Document.parts, h, h'] at hmark ⊢
  simp only [Document.content, Content.mk.injEq] at hpoints ⊢
  exact ⟨hid, hname, hgiven, hmiddle, hfamily, hadditional, hpoints, haffiliations, hrelations, hnotes, himage,
    himportant⟩

/-! ## The fingerprint -/

theorem content_eq_of_canonical_eq {doc doc' : Document} (fits : doc.Fits) (fits' : doc'.Fits)
    (h : doc.canonical = doc'.canonical) : doc.content = doc'.content :=
  ((canonical_eq_iff fits fits').mp h).1

def untidy : Document :=
  { blank with
    id := "1"
    name := " Ada \t Lovelace"
    givenName := some " "
    additionalNames := ["Countess", " AAL", "Countess "]
    contactPoints := [⟨"work", [], [], []⟩, ⟨" home", ["b@x", "a@x", "b@x "], [" "], []⟩] }

def tidied : Document :=
  { blank with
    id := "1"
    name := "Ada Lovelace"
    additionalNames := ["AAL", "Countess"]
    contactPoints := [⟨"home", ["a@x", "b@x"], [], []⟩]
    createdAt := 7 }

theorem content_eq_of_canonical_eq_untidy : untidy.Fits ∧ tidied.Fits ∧ untidy.canonical = tidied.canonical ∧
    untidy.content = tidied.content := by
  have fits : untidy.Fits := ⟨by decide +kernel, by decide +kernel⟩
  have fits' : tidied.Fits := ⟨by decide +kernel, by decide +kernel⟩
  have h : untidy.canonical = tidied.canonical := by decide +kernel
  exact ⟨fits, fits', h, content_eq_of_canonical_eq fits fits' h⟩

/-- Of documents that say the same, those with the same hollow labels have the same
fingerprint; where the labels differ, so does what the fingerprint is made of. -/
theorem fingerprint_of_same_content {doc doc' : Document} (h : doc.content = doc'.content) :
    (doc.hollowLabels = doc'.hollowLabels → doc.contentFingerprint = doc'.contentFingerprint) ∧
    (doc.hollowLabels ≠ doc'.hollowLabels → doc.Fits → doc'.Fits → doc.canonical ≠ doc'.canonical) := by
  constructor
  · intro hlabels
    rw [contentFingerprint, contentFingerprint, canonical_congr h hlabels]
  · intro hlabels fits fits' hcanonical
    exact hlabels ((canonical_eq_iff fits fits').mp hcanonical).2

def unlabelled : Document :=
  { blank with id := "1", name := "Ada" }

def hollow : Document :=
  { unlabelled with contactPoints := [⟨"home", [" "], [], []⟩] }

def hollowed : Document :=
  { unlabelled with contactPoints := [⟨" home", [], ["", "\t"], []⟩], createdAt := 7 }

theorem fingerprint_of_hollow : unlabelled.content = hollow.content ∧ hollow.content = hollowed.content ∧
    unlabelled.canonical ≠ hollow.canonical ∧ unlabelled.contentFingerprint ≠ hollow.contentFingerprint ∧
    hollow.contentFingerprint = hollowed.contentFingerprint := by
  have hsame : unlabelled.content = hollow.content := by decide +kernel
  have hsame' : hollow.content = hollowed.content := by decide +kernel
  have fits : unlabelled.Fits := ⟨by decide +kernel, by decide +kernel⟩
  have fits' : hollow.Fits := ⟨by decide +kernel, by decide +kernel⟩
  refine ⟨hsame, hsame', ?_, by decide +kernel, ?_⟩
  · exact (fingerprint_of_same_content hsame).2 (by decide +kernel) fits fits'
  · exact (fingerprint_of_same_content hsame').1 (by decide +kernel)

end Document

end ContactsIndex
