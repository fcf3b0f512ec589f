import ContactsIndex.Settings.Codec
import Mathlib.Algebra.Group.Nat.Defs

/-!
# Files of settings

A file of settings is a header with a version and, after it, whole fields, those of
the four times with eight bytes each. Reading accepts these files and no other
bytes, and takes the last time under each tag; of other bytes it says where they
first go wrong, from the front (`decode_iff_file`).
-/

namespace ContactsIndex.Settings

open LittleEndian (length_encode exists_encode decodeInt)

theorem span_two : LittleEndian.span 2 = 2 ^ 16 := by decide

theorem span_four : LittleEndian.span 4 = 2 ^ 32 := by decide

/-! ## Fields and files -/

namespace Field

structure Fits (field : Field) : Prop where
  tag_lt : field.tag < 2 ^ 16
  length_lt : field.payload.length < 2 ^ 32

def isTime (field : Field) : Bool :=
  1 ≤ field.tag && field.tag ≤ 4

structure Legal (field : Field) : Prop extends Fits field where
  width : field.isTime → field.payload.length = 8

def front (tag length : Nat) : List UInt8 :=
  LittleEndian.encode 2 tag ++ LittleEndian.encode 4 length

@[simp] theorem length_front (tag length : Nat) : (front tag length).length = 6 := by
  simp [front]

theorem encode_eq (field : Field) : field.encode = front field.tag field.payload.length ++ field.payload := rfl

theorem encode_ne_nil (field : Field) (rest : List UInt8) : field.encode ++ rest ≠ [] := by
  simp [encode, LittleEndian.encode]

theorem isTime_eq_false {field : Field} : field.isTime = false ↔ field.tag = 0 ∨ 4 < field.tag := by
  simp [isTime]
  omega

end Field

def file (version : Nat) (fields : List Field) : List UInt8 :=
  header version ++ fields.flatMap Field.encode

def lastTime (otherwise : Int) (tag : Nat) (fields : List Field) : Int :=
  (fields.filter (·.tag = tag)).getLast?.elim otherwise fun field => decodeInt field.payload

def withFields (s : Settings) (fields : List Field) : Settings where
  lastFull := lastTime s.lastFull 1 fields
  lastDelta := lastTime s.lastDelta 2 fields
  contactUpdate := lastTime s.contactUpdate 3 fields
  contactDelete := lastTime s.contactDelete 4 fields

/-- What is wrong where a field should begin. -/
inductive Broken : List UInt8 → SettingsError → Prop where
  | header {bytes : List UInt8} (some : bytes ≠ []) (short : bytes.length < 6) :
      Broken bytes (.truncated 6 bytes.length)
  | payload {tag length : Nat} {bytes : List UInt8} (tag_lt : tag < 2 ^ 16) (length_lt : length < 2 ^ 32)
      (short : bytes.length < length) :
      Broken (Field.front tag length ++ bytes) (.truncated length bytes.length)
  | width {field : Field} {rest : List UInt8} (fits : field.Fits) (time : field.isTime)
      (wrong : field.payload.length ≠ 8) :
      Broken (field.encode ++ rest) (.badFieldLength field.tag field.payload.length)

/-- What is wrong with bytes that are no file, at the first place where something is. -/
inductive Faulty : List UInt8 → SettingsError → Prop where
  | short {bytes : List UInt8} (short : bytes.length < 6) : Faulty bytes (.truncated 6 bytes.length)
  | letters {letters rest : List UInt8} (four : letters.length = 4) (long : 2 ≤ rest.length)
      (other : letters ≠ magic) : Faulty (letters ++ rest) (.badMagic letters)
  | version {rest : List UInt8} : Faulty (Settings.header 0 ++ rest) (.unsupportedVersion 0)
  | field {version : Nat} {fields : List Field} {rest : List UInt8} {e : SettingsError} (pos : 0 < version)
      (version_lt : version < 2 ^ 16) (legal : ∀ field ∈ fields, field.Legal) (broken : Broken rest e) :
      Faulty (file version fields ++ rest) e

/-! ## The last time under a tag -/

@[simp] theorem lastTime_nil (otherwise : Int) (tag : Nat) : lastTime otherwise tag [] = otherwise := rfl

theorem lastTime_cons (otherwise : Int) (tag : Nat) (field : Field) (fields : List Field) :
    lastTime otherwise tag (field :: fields) =
      lastTime (if field.tag = tag then decodeInt field.payload else otherwise) tag fields := by
  by_cases h : field.tag = tag
  · simp only [lastTime, h, List.filter_cons, decide_true, ↓reduceIte, List.getLast?_cons]
    cases (fields.filter (·.tag = tag)).getLast? <;> rfl
  · simp [lastTime, h]

theorem withFields_cons (s : Settings) (field : Field) (fields : List Field) :
    s.withFields (field :: fields) = (s.withFields [field]).withFields fields := by
  simp [withFields, lastTime_cons]

theorem withField_legal {field : Field} (s : Settings) (h : field.Legal) :
    s.withField field = .ok (s.withFields [field]) := by
  obtain ⟨tag, payload⟩ := field
  unfold withField
  by_cases htag : tag = 0 ∨ 4 < tag
  · have hne : tag ≠ 1 ∧ tag ≠ 2 ∧ tag ≠ 3 ∧ tag ≠ 4 := by omega
    simp [htag, withFields, lastTime_cons, hne]
  · have hwidth : payload.length = 8 := h.width (by simp [Field.isTime]; omega)
    have hcases : tag = 1 ∨ tag = 2 ∨ tag = 3 ∨ tag = 4 := by omega
    rcases hcases with rfl | rfl | rfl | rfl <;> simp [hwidth, withFields, lastTime_cons]

theorem withField_wide {field : Field} (s : Settings) (time : field.isTime) (h : field.payload.length ≠ 8) :
    s.withField field = .error (.badFieldLength field.tag field.payload.length) := by
  have htag : ¬ (field.tag = 0 ∨ 4 < field.tag) := by
    rw [← Field.isTime_eq_false]
    simp [time]
  simp [withField, htag, h]

/-! ## One field -/

theorem takeField_front {tag length : Nat} {rest : List UInt8} (ht : tag < 2 ^ 16) (hl : length < 2 ^ 32) :
    takeField (Field.front tag length ++ rest) =
      if rest.length < length then .error (.truncated length rest.length)
      else .ok (⟨tag, rest.take length⟩, rest.drop length) := by
  have htag : (LittleEndian.encode 2 tag).length = 2 := length_encode ..
  have hlen : (LittleEndian.encode 4 length).length = 4 := length_encode ..
  have hfront : (Field.front tag length ++ rest).take 2 = LittleEndian.encode 2 tag := by
    rw [Field.front, List.append_assoc, List.take_left' htag]
  have hback : (Field.front tag length ++ rest).drop 2 = LittleEndian.encode 4 length ++ rest := by
    rw [Field.front, List.append_assoc, List.drop_left' htag]
  have hpayload : (Field.front tag length ++ rest).drop fieldHeaderLength = rest :=
    List.drop_left' (Field.length_front tag length)
  have hsize : ¬ (Field.front tag length ++ rest).length < fieldHeaderLength := by
    simp [fieldHeaderLength]
  unfold takeField
  simp only [hpayload, hfront, hback, List.take_left' hlen, LittleEndian.decode_encode, span_two, span_four,
    Nat.mod_eq_of_lt ht, Nat.mod_eq_of_lt hl]
  rw [if_neg hsize]

theorem takeField_encode {field : Field} (fits : field.Fits) (rest : List UInt8) :
    takeField (field.encode ++ rest) = .ok (field, rest) := by
  rw [Field.encode_eq, List.append_assoc, takeField_front fits.tag_lt fits.length_lt, if_neg (by simp),
    List.take_left, List.drop_left]

theorem exists_front {bytes : List UInt8} (h : 6 ≤ bytes.length) :
    ∃ tag < 2 ^ 16, ∃ length < 2 ^ 32, ∃ rest, bytes = Field.front tag length ++ rest := by
  have hfront : (bytes.take 2).length = 2 := by simp; omega
  have hmiddle : ((bytes.drop 2).take 4).length = 4 := by simp; omega
  obtain ⟨tag, htag, hfront⟩ := exists_encode hfront
  obtain ⟨length, hlength, hmiddle⟩ := exists_encode hmiddle
  rw [span_two] at htag
  rw [span_four] at hlength
  refine ⟨tag, htag, length, hlength, (bytes.drop 2).drop 4, ?_⟩
  rw [Field.front, hfront, hmiddle, List.append_assoc, List.take_append_drop, List.take_append_drop]

theorem takeField_eq {bytes rest : List UInt8} {field : Field} (h : takeField bytes = .ok (field, rest)) :
    field.Fits ∧ bytes = field.encode ++ rest := by
  have hlong : 6 ≤ bytes.length := by
    apply Nat.not_lt.mp
    intro hshort
    simp [takeField, fieldHeaderLength, hshort] at h
  obtain ⟨tag, htag, length, hlength, payload, rfl⟩ := exists_front hlong
  rw [takeField_front htag hlength] at h
  by_cases hshort : payload.length < length
  · simp [hshort] at h
  · simp only [hshort, ↓reduceIte, Except.ok.injEq, Prod.mk.injEq] at h
    obtain ⟨rfl, rfl⟩ := h
    have htake : (payload.take length).length = length := by simp; omega
    refine ⟨⟨htag, by rwa [htake]⟩, ?_⟩
    rw [Field.encode_eq, htake, List.append_assoc, List.take_append_drop]

theorem takeField_eq_error {bytes : List UInt8} {e : SettingsError} (hne : bytes ≠ [])
    (h : takeField bytes = .error e) : Broken bytes e := by
  by_cases hshort : bytes.length < 6
  · simp only [takeField, fieldHeaderLength, hshort, ↓reduceIte, Except.error.injEq] at h
    exact h ▸ .header hne hshort
  · obtain ⟨tag, htag, length, hlength, payload, rfl⟩ := exists_front (Nat.not_lt.mp hshort)
    rw [takeField_front htag hlength] at h
    by_cases hcut : payload.length < length
    · simp only [hcut, ↓reduceIte, Except.error.injEq] at h
      exact h ▸ .payload htag hlength hcut
    · simp [hcut] at h

/-! ## All fields -/

theorem decodeFields_cons {s : Settings} {field : Field} {rest : List UInt8} (fits : field.Fits) :
    decodeFields s (field.encode ++ rest) =
      match s.withField field with
      | .error e => .error e
      | .ok s => decodeFields s rest := by
  rw [decodeFields, if_neg (field.encode_ne_nil rest)]
  -- the match keeps its equation for termination, so it is split and not rewritten
  split
  · next htaken => rw [takeField_encode fits] at htaken; cases htaken
  · next htaken => rw [takeField_encode fits] at htaken; cases htaken; rfl

theorem decodeFields_append {fields : List Field} (s : Settings) (rest : List UInt8)
    (legal : ∀ field ∈ fields, field.Legal) :
    decodeFields s (fields.flatMap Field.encode ++ rest) = decodeFields (s.withFields fields) rest := by
  induction fields generalizing s with
  | nil => rfl
  | cons field fields ih =>
    have hfield := legal field (by simp)
    rw [List.flatMap_cons, List.append_assoc, decodeFields_cons hfield.toFits, withField_legal s hfield,
      withFields_cons s field fields]
    exact ih _ fun f hf => legal f (by simp [hf])

theorem decodeFields_of_error {bytes : List UInt8} {e : SettingsError} (s : Settings) (hne : bytes ≠ [])
    (h : takeField bytes = .error e) : decodeFields s bytes = .error e := by
  rw [decodeFields, if_neg hne]
  split
  · next htaken => rw [h] at htaken; cases htaken; rfl
  · next htaken => rw [h] at htaken; cases htaken

theorem decodeFields_broken {bytes : List UInt8} {e : SettingsError} (s : Settings) (h : Broken bytes e) :
    decodeFields s bytes = .error e := by
  cases h with
  | header hne short => exact decodeFields_of_error s hne (by simp [takeField, fieldHeaderLength, short])
  | payload htag hlength short =>
    apply decodeFields_of_error s (by simp [Field.front, LittleEndian.encode])
    rw [takeField_front htag hlength, if_pos short]
  | width fits time wrong => rw [decodeFields_cons fits, withField_wide s time wrong]

/-- Bytes are either legal fields to their end, or legal fields up to a place that is broken. -/
theorem exists_fields (bytes : List UInt8) : ∃ (fields : List Field) (rest : List UInt8),
    (∀ field ∈ fields, field.Legal) ∧ bytes = fields.flatMap Field.encode ++ rest ∧
      (rest = [] ∨ ∃ e, Broken rest e) := by
  -- on the number of bytes: a field that was taken leaves fewer of them
  induction hn : bytes.length using Nat.strongRecOn generalizing bytes with
  | _ n ih =>
    by_cases hne : bytes = []
    · exact ⟨[], [], by simp, by simp [hne], .inl rfl⟩
    cases htaken : takeField bytes with
    | error e => exact ⟨[], bytes, by simp, by simp, .inr ⟨e, takeField_eq_error hne htaken⟩⟩
    | ok taken =>
      obtain ⟨field, after⟩ := taken
      obtain ⟨fits, rfl⟩ := takeField_eq htaken
      by_cases hwidth : field.isTime → field.payload.length = 8
      · obtain ⟨fields, rest, legal, rfl, hrest⟩ := ih _ (hn ▸ length_of_takeField htaken) after rfl
        refine ⟨field :: fields, rest, ?_, by simp, hrest⟩
        simpa using ⟨⟨fits, hwidth⟩, legal⟩
      · obtain ⟨time, wrong⟩ := Classical.not_imp.mp hwidth
        exact ⟨[], _, by simp, rfl, .inr ⟨_, .width fits time wrong⟩⟩

/-! ## Whole files -/

theorem decode_header {version : Nat} {rest : List UInt8} (h : version < 2 ^ 16) : decode (header version ++ rest) =
    if version = 0 then .error (.unsupportedVersion version) else decodeFields .zero rest := by
  have hversion : (LittleEndian.encode 2 version).length = 2 := LittleEndian.length_encode ..
  have hfour : magic.length = 4 := rfl
  have hmagic : (header version ++ rest).take 4 = magic := by
    rw [header, List.append_assoc, List.take_left' hfour]
  have hback : (header version ++ rest).drop 4 = LittleEndian.encode 2 version ++ rest := by
    rw [header, List.append_assoc, List.drop_left' hfour]
  have hbody : (header version ++ rest).drop headerLength = rest := by
    rw [show headerLength = 4 + 2 from rfl, ← List.drop_drop, hback, List.drop_left' hversion]
  have hsize : ¬ (header version ++ rest).length < headerLength := by
    simp [header, magic, headerLength]
  unfold decode
  simp only [hsize, hmagic, hback, hbody, List.take_left' hversion, LittleEndian.decode_encode, span_two,
    Nat.mod_eq_of_lt h, ↓reduceIte, ne_eq, not_true_eq_false]

theorem decode_file_append {version : Nat} {fields : List Field} (rest : List UInt8) (pos : 0 < version)
    (version_lt : version < 2 ^ 16) (legal : ∀ field ∈ fields, field.Legal) :
    decode (file version fields ++ rest) = decodeFields (Settings.zero.withFields fields) rest := by
  rw [file, List.append_assoc, decode_header version_lt, if_neg (Nat.ne_of_gt pos), decodeFields_append _ _ legal]

theorem decode_file {version : Nat} {fields : List Field} (pos : 0 < version) (version_lt : version < 2 ^ 16)
    (legal : ∀ field ∈ fields, field.Legal) :
    decode (file version fields) = .ok (Settings.zero.withFields fields) := by
  rw [← List.append_nil (file version fields), decode_file_append _ pos version_lt legal, decodeFields, if_pos rfl]

theorem decode_faulty {bytes : List UInt8} {e : SettingsError} (h : Faulty bytes e) : decode bytes = .error e := by
  cases h with
  | short short => simp [decode, headerLength, short]
  | @letters letters rest four long other =>
    have hsize : ¬ (letters ++ rest).length < headerLength := by
      simp only [List.length_append, four, headerLength]
      omega
    simp only [decode, hsize, ↓reduceIte, List.take_left' four, ne_eq, other, not_false_eq_true]
  | version => rw [decode_header (by decide), if_pos rfl]
  | field pos version_lt legal broken => rw [decode_file_append _ pos version_lt legal, decodeFields_broken _ broken]

theorem file_or_faulty (bytes : List UInt8) : (∃ version fields, 0 < version ∧ version < 2 ^ 16 ∧
    (∀ field ∈ fields, field.Legal) ∧ bytes = file version fields) ∨ ∃ e, Faulty bytes e := by
  by_cases hsize : bytes.length < 6
  · exact .inr ⟨_, .short hsize⟩
  by_cases hmagic : bytes.take 4 = magic
  · have hlong : ((bytes.drop 4).take 2).length = 2 := by simp; omega
    obtain ⟨version, hversion, hbytes⟩ := exists_encode hlong
    rw [span_two] at hversion
    have hheader : bytes = header version ++ (bytes.drop 4).drop 2 := by
      rw [header, hbytes, ← hmagic, List.append_assoc, List.take_append_drop, List.take_append_drop]
    obtain ⟨fields, rest, legal, hfields, hrest⟩ := exists_fields ((bytes.drop 4).drop 2)
    rw [hheader, hfields, ← List.append_assoc]
    rcases Nat.eq_zero_or_pos version with rfl | pos
    · exact .inr ⟨_, by rw [List.append_assoc]; exact .version⟩
    rcases hrest with rfl | ⟨e, broken⟩
    · exact .inl ⟨version, fields, pos, hversion, legal, List.append_nil _⟩
    · exact .inr ⟨e, .field pos hversion legal broken⟩
  · have hfour : (bytes.take 4).length = 4 := by simp; omega
    have hlong : 2 ≤ (bytes.drop 4).length := by simp; omega
    have hfaulty := Faulty.letters hfour hlong hmagic
    rw [List.take_append_drop] at hfaulty
    exact .inr ⟨_, hfaulty⟩

/-- Reading accepts the files and nothing else, with the last time under each tag, and
gives the first fault of anything else. -/
theorem decode_iff_file (bytes : List UInt8) :
    (∀ s, decode bytes = .ok s ↔ ∃ version fields, 0 < version ∧ version < 2 ^ 16 ∧
      (∀ field ∈ fields, field.Legal) ∧ bytes = file version fields ∧ s = Settings.zero.withFields fields) ∧
    ∀ e, decode bytes = .error e ↔ Faulty bytes e := by
  refine ⟨fun s => ⟨fun h => ?_, ?_⟩, fun e => ⟨fun h => ?_, decode_faulty⟩⟩
  · rcases file_or_faulty bytes with ⟨version, fields, pos, version_lt, legal, rfl⟩ | ⟨e, faulty⟩
    · rw [decode_file pos version_lt legal] at h
      exact ⟨version, fields, pos, version_lt, legal, rfl, (Except.ok.inj h).symm⟩
    · rw [decode_faulty faulty] at h
      cases h
  · rintro ⟨version, fields, pos, version_lt, legal, rfl, rfl⟩
    exact decode_file pos version_lt legal
  · rcases file_or_faulty bytes with ⟨version, fields, pos, version_lt, legal, rfl⟩ | ⟨e', faulty⟩
    · rw [decode_file pos version_lt legal] at h
      cases h
    · rw [decode_faulty faulty] at h
      exact Except.error.inj h ▸ faulty

end ContactsIndex.Settings
