import ContactsIndex.Proofs.Settings.Grammar
import ContactsIndex.Settings.Place
import Mathlib.Algebra.Group.Int.Defs

/-!
# Reading back the settings file

What was written is read back, with each time taken to the range of 64 bits
(`decode_encode`); a file that was written is loaded as it was (`load_persist`).
-/

namespace ContactsIndex

namespace Settings

open LittleEndian (span length_encodeInt decodeInt_encodeInt)

/-- A time as it is after being written in eight bytes and read again. -/
def wrap (time : Int) : Int :=
  time.bmod (span 8)

theorem wrap_eq {time : Int} (h : -2 ^ 63 ≤ time) (hlt : time < 2 ^ 63) : wrap time = time := by
  have hspan : span 8 = 18446744073709551616 := by decide
  unfold wrap
  rw [hspan]
  exact Int.bmod_eq_of_le (by omega) (by omega)

theorem legal_time {tag : Nat} (h : tag < 2 ^ 16) (time : Int) : (timeField tag time).Legal where
  tag_lt := h
  length_lt := by simp [timeField]
  width _ := length_encodeInt 8 time

theorem legal_fields (s : Settings) : ∀ field ∈ s.fields, field.Legal := by
  simp [fields, legal_time]

theorem encode_eq_file (s : Settings) : s.encode = file formatVersion s.fields := rfl

theorem decodeInt_time (tag : Nat) (time : Int) : LittleEndian.decodeInt (timeField tag time).payload = wrap time :=
  decodeInt_encodeInt 8 time

theorem lastTime_time (otherwise : Int) (tag tag' : Nat) (time : Int) (fields : List Field) :
    lastTime otherwise tag (timeField tag' time :: fields) =
      lastTime (if tag' = tag then wrap time else otherwise) tag fields := by
  rw [lastTime_cons, decodeInt_time]
  rfl

theorem decode_encode (s : Settings) :
    decode s.encode = .ok ⟨wrap s.lastFull, wrap s.lastDelta, wrap s.contactUpdate,
      wrap s.contactDelete⟩ := by
  rw [encode_eq_file, decode_file (by decide) (by decide) s.legal_fields]
  simp [withFields, fields, lastTime_time]

end Settings

namespace SettingsPlace

theorem load_persist (place : SettingsPlace) (s : Settings) :
    ((∃ e, (place.persist s).1 = .error e) ∧ (place.persist s).2.load = place.load) ∨
      ((place.persist s).1 = .ok () ∧ (place.persist s).2.load =
        ⟨Settings.wrap s.lastFull, Settings.wrap s.lastDelta, Settings.wrap s.contactUpdate,
          Settings.wrap s.contactDelete⟩) := by
  have hwritten : ∀ entry, (folder (.file entry)).load = match Settings.decode entry with
      | .ok s => s
      | .error _ => .zero := by
    intro entry
    unfold load read
    dsimp only
    cases Settings.decode entry <;> rfl
  rcases place with _ | _ | _ | content | _
  · exact .inr ⟨rfl, by rw [persist, write, makeFolder]; simp [hwritten, Settings.decode_encode]⟩
  · exact .inl ⟨⟨_, rfl⟩, rfl⟩
  · exact .inr ⟨rfl, by rw [persist, write, makeFolder]; simp [hwritten, Settings.decode_encode]⟩
  · exact .inr ⟨rfl, by rw [persist, write, makeFolder]; simp [hwritten, Settings.decode_encode]⟩
  · exact .inl ⟨⟨_, rfl⟩, rfl⟩

theorem load_makeFolder (place : SettingsPlace) : place.makeFolder.2.load = place.load := by
  cases place <;> rfl

end SettingsPlace

end ContactsIndex
