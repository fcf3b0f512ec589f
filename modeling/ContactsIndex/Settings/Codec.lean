import ContactsIndex.Bytes
import ContactsIndex.Settings.Basic

/-!
# Settings as bytes

The format is a header, four letters and a version, and then any number of
fields: a tag in two bytes, the length of the payload in four, and the payload.
Numbers are written lowest byte first. The fields with tags 1 to 4 are the four
times, in eight bytes each; other fields are passed over, so that a later version
can add some. Of two fields with one tag the last counts.
-/

namespace ContactsIndex

inductive SettingsError where
  | io
  | truncated (needed available : Nat)
  | badMagic (found : List UInt8)
  | unsupportedVersion (version : Nat)
  | badFieldLength (tag length : Nat)
  deriving DecidableEq, Repr

namespace Settings

def magic : List UInt8 :=
  [0x43, 0x49, 0x58, 0x53]

def formatVersion : Nat := 1

def headerLength : Nat := 6

def fieldHeaderLength : Nat := 6

structure Field where
  tag : Nat
  payload : List UInt8
  deriving DecidableEq, Repr

def Field.encode (field : Field) : List UInt8 :=
  LittleEndian.encode 2 field.tag ++ LittleEndian.encode 4 field.payload.length ++ field.payload

def timeField (tag : Nat) (time : Int) : Field :=
  ⟨tag, LittleEndian.encodeInt 8 time⟩

def fields (s : Settings) : List Field :=
  [timeField 1 s.lastFull, timeField 2 s.lastDelta, timeField 3 s.contactUpdate, timeField 4 s.contactDelete]

def header (version : Nat) : List UInt8 :=
  magic ++ LittleEndian.encode 2 version

def encode (s : Settings) : List UInt8 :=
  header formatVersion ++ s.fields.flatMap Field.encode

def withField (s : Settings) (field : Field) : Except SettingsError Settings :=
  if field.tag = 0 ∨ 4 < field.tag then .ok s
  else if field.payload.length ≠ 8 then .error (.badFieldLength field.tag field.payload.length)
  else
    let time := LittleEndian.decodeInt field.payload
    .ok <| match field.tag with
      | 1 => { s with lastFull := time }
      | 2 => { s with lastDelta := time }
      | 3 => { s with contactUpdate := time }
      | _ => { s with contactDelete := time }

def takeField (bytes : List UInt8) : Except SettingsError (Field × List UInt8) :=
  let payload := bytes.drop fieldHeaderLength
  let length := LittleEndian.decode ((bytes.drop 2).take 4)
  if bytes.length < fieldHeaderLength then .error (.truncated fieldHeaderLength bytes.length)
  else if payload.length < length then .error (.truncated length payload.length)
  else .ok (⟨LittleEndian.decode (bytes.take 2), payload.take length⟩, payload.drop length)

theorem length_of_takeField {bytes rest : List UInt8} {field : Field} (h : takeField bytes = .ok (field, rest)) :
    rest.length < bytes.length := by
  unfold takeField fieldHeaderLength at h
  by_cases hh : bytes.length < 6
  · simp [hh] at h
  · by_cases hp : (bytes.drop 6).length < LittleEndian.decode ((bytes.drop 2).take 4)
    · simp only [hh, hp, ↓reduceIte] at h
      cases h
    · simp only [hh, hp, ↓reduceIte, Except.ok.injEq, Prod.mk.injEq] at h
      rw [← h.2, List.length_drop, List.length_drop]
      omega

def decodeFields (s : Settings) (bytes : List UInt8) : Except SettingsError Settings :=
  if bytes = [] then .ok s
  else
    match _taken : takeField bytes with
    | .error e => .error e
    | .ok (field, rest) =>
      match s.withField field with
      | .error e => .error e
      | .ok s => decodeFields s rest
termination_by bytes.length
decreasing_by exact length_of_takeField _taken

def decode (bytes : List UInt8) : Except SettingsError Settings :=
  let version := LittleEndian.decode ((bytes.drop 4).take 2)
  if bytes.length < headerLength then .error (.truncated headerLength bytes.length)
  else if bytes.take 4 ≠ magic then .error (.badMagic (bytes.take 4))
  else if version = 0 then .error (.unsupportedVersion version)
  else decodeFields .zero (bytes.drop headerLength)

end Settings

end ContactsIndex
