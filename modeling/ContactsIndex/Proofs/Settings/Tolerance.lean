import ContactsIndex.Proofs.Settings.Codec

/-!
# Foreign fields and cut files

Settings come back from their file whatever other fields a later version puts
between theirs. A file that is cut off is found to be, unless the cut is where a
field ends: then the times in front of it are read and the others are zero
(`decode_foreign_and_cut`).
-/

namespace ContactsIndex.Settings

def Bounded (s : Settings) : Prop :=
  ∀ time ∈ [s.lastFull, s.lastDelta, s.contactUpdate, s.contactDelete], -2 ^ 63 ≤ time ∧ time < 2 ^ 63

/-- The settings with only the first so many times. -/
def firstTimes (s : Settings) (count : Nat) : Settings where
  lastFull := if 0 < count then s.lastFull else 0
  lastDelta := if 1 < count then s.lastDelta else 0
  contactUpdate := if 2 < count then s.contactUpdate else 0
  contactDelete := if 3 < count then s.contactDelete else 0

theorem Bounded.wrap_eq {s : Settings} (h : s.Bounded) : wrap s.lastFull = s.lastFull ∧
    wrap s.lastDelta = s.lastDelta ∧ wrap s.contactUpdate = s.contactUpdate ∧
    wrap s.contactDelete = s.contactDelete := by
  have hwrap : ∀ time ∈ [s.lastFull, s.lastDelta, s.contactUpdate, s.contactDelete], wrap time = time :=
    fun time htime => Settings.wrap_eq (h time htime).1 (h time htime).2
  simpa using hwrap

theorem withFields_take {s : Settings} (h : s.Bounded) {count : Nat} (hcount : count ≤ 4) :
    Settings.zero.withFields (s.fields.take count) = s.firstTimes count := by
  obtain ⟨hfull, hdelta, hupdate, hdelete⟩ := h.wrap_eq
  have hcases : count = 0 ∨ count = 1 ∨ count = 2 ∨ count = 3 ∨ count = 4 := by omega
  rcases hcases with rfl | rfl | rfl | rfl | rfl <;>
    simp [withFields, fields, lastTime_time, firstTimes, Settings.zero, hfull, hdelta, hupdate, hdelete]

theorem withFields_fields {s : Settings} (h : s.Bounded) : Settings.zero.withFields s.fields = s :=
  withFields_take h (Nat.le_refl 4)

/-! ## Foreign fields -/

theorem lastTime_filter (otherwise : Int) {tag : Nat} (h : 0 < tag) (h' : tag ≤ 4) (fields : List Field) :
    lastTime otherwise tag (fields.filter Field.isTime) = lastTime otherwise tag fields := by
  have hsame : ∀ field : Field, (decide (field.tag = tag) && field.isTime) = decide (field.tag = tag) := by
    intro field
    by_cases htag : field.tag = tag
    · simp [Field.isTime, htag]
      omega
    · simp [htag]
  simp only [lastTime, List.filter_filter, hsame]

theorem withFields_filter (s : Settings) (fields : List Field) :
    s.withFields (fields.filter Field.isTime) = s.withFields fields := by
  simp [withFields, lastTime_filter]

theorem decode_foreign {s : Settings} {fields : List Field} (h : s.Bounded) (fits : ∀ field ∈ fields, field.Fits)
    (own : fields.filter Field.isTime = s.fields) : decode (file formatVersion fields) = .ok s := by
  have legal : ∀ field ∈ fields, field.Legal := by
    intro field hfield
    refine ⟨fits field hfield, fun time => ?_⟩
    exact (s.legal_fields field (own ▸ List.mem_filter.mpr ⟨hfield, time⟩)).width time
  rw [decode_file (by decide) (by decide) legal, ← withFields_filter, own, withFields_fields h]

/-! ## Cut files -/

theorem length_encode_time (tag : Nat) (time : Int) : (timeField tag time).encode.length = 14 := by
  simp [Field.encode, timeField]

theorem take_encode_time (tag : Nat) (time : Int) {n : Nat} (h : 6 ≤ n) : (timeField tag time).encode.take n =
    Field.front tag 8 ++ (LittleEndian.encodeInt 8 time).take (n - 6) := by
  have hfront := Field.length_front tag 8
  rw [Field.encode_eq, timeField, LittleEndian.length_encodeInt, List.take_append, hfront,
    List.take_of_length_le (hfront ▸ h)]

theorem broken_cut {tag : Nat} {time : Int} {n : Nat} (htag : tag < 2 ^ 16) (pos : 0 < n) (h : n < 14) :
    ∃ needed available, Broken ((timeField tag time).encode.take n) (.truncated needed available) := by
  by_cases hheader : n < 6
  · have hlength : ((timeField tag time).encode.take n).length = n := by
      rw [List.length_take, length_encode_time]
      omega
    refine ⟨_, _, .header (List.ne_nil_of_length_pos ?_) ?_⟩
    · rwa [hlength]
    · rwa [hlength]
  · rw [take_encode_time tag time (Nat.not_lt.mp hheader)]
    exact ⟨_, _, .payload htag (by decide) (by simp; omega)⟩

theorem take_flatMap {α β : Type} {f : α → List β} {k : Nat} {xs : List α} (hf : ∀ x ∈ xs, (f x).length = k)
    {j n : Nat} (h : n ≤ k) :
    (xs.flatMap f).take (k * j + n) = (xs.take j).flatMap f ++ (xs[j]?.elim [] f).take n := by
  induction j generalizing xs with
  | zero =>
    cases xs with
    | nil => simp
    | cons x xs => simp [List.take_append, hf, h]
  | succ j ih =>
    cases xs with
    | nil => simp
    | cons x xs =>
      have hlong : k * (j + 1) + n = (f x).length + (k * j + n) := by
        rw [hf x (by simp), Nat.mul_succ]
        omega
      rw [List.flatMap_cons, hlong, List.take_length_add_append, ih fun y hy => hf y (by simp [hy])]
      simp

theorem exists_time (s : Settings) {j : Nat} (h : j < 4) :
    ∃ tag time, tag < 2 ^ 16 ∧ s.fields[j]? = some (timeField tag time) := by
  have hcases : j = 0 ∨ j = 1 ∨ j = 2 ∨ j = 3 := by omega
  rcases hcases with rfl | rfl | rfl | rfl <;> exact ⟨_, _, by decide, rfl⟩

theorem take_encode (s : Settings) (j : Nat) {n : Nat} (h : n ≤ 14) : s.encode.take (6 + (14 * j + n)) =
    file formatVersion (s.fields.take j) ++ (s.fields[j]?.elim [] Field.encode).take n := by
  have hheader : (header formatVersion).length = 6 := rfl
  have hfields : ∀ field ∈ s.fields, field.encode.length = 14 := by
    simp [fields, length_encode_time]
  rw [encode, ← hheader, List.take_length_add_append, take_flatMap hfields h, file, List.append_assoc]

theorem length_encode (s : Settings) : s.encode.length = 62 := by
  simp [encode, fields, length_encode_time, header, magic]

theorem legal_take (s : Settings) (j : Nat) : ∀ field ∈ s.fields.take j, field.Legal :=
  fun field hfield => s.legal_fields field (List.mem_of_mem_take hfield)

theorem decode_cut_between {s : Settings} (h : s.Bounded) {j : Nat} (hj : j ≤ 4) :
    decode (s.encode.take (6 + 14 * j)) = .ok (s.firstTimes j) := by
  rw [← Nat.add_zero (14 * j), take_encode s j (Nat.zero_le 14), List.take_zero, List.append_nil,
    decode_file (by decide) (by decide) (s.legal_take j), withFields_take h hj]

theorem decode_cut_within (s : Settings) {j n : Nat} (hj : j < 4) (pos : 0 < n) (h : n < 14) :
    ∃ needed available, decode (s.encode.take (6 + (14 * j + n))) = .error (.truncated needed available) := by
  obtain ⟨tag, time, htag, hfield⟩ := s.exists_time hj
  obtain ⟨needed, available, broken⟩ := @broken_cut tag time n htag pos h
  refine ⟨needed, available, ?_⟩
  rw [take_encode s j (Nat.le_of_lt h), hfield, Option.elim_some]
  exact decode_faulty (.field (by decide) (by decide) (s.legal_take j) broken)

theorem decode_foreign_and_cut {s : Settings} (h : s.Bounded) :
    (∀ fields : List Field, (∀ field ∈ fields, field.Fits) → fields.filter Field.isTime = s.fields →
      decode (file formatVersion fields) = .ok s) ∧
    (∀ j < 4, decode (s.encode.take (6 + 14 * j)) = .ok (s.firstTimes j)) ∧
    ∀ n < s.encode.length, (∀ j < 4, n ≠ 6 + 14 * j) →
      ∃ needed available, decode (s.encode.take n) = .error (.truncated needed available) := by
  refine ⟨fun fields => decode_foreign h, fun j hj => decode_cut_between h (Nat.le_of_lt hj), ?_⟩
  intro n hn hne
  rw [length_encode] at hn
  by_cases hheader : n < 6
  · exact ⟨6, _, decode_faulty (.short (by simp [length_encode]; omega))⟩
  · obtain ⟨j, r, hr, rfl⟩ : ∃ j r, r < 14 ∧ n = 6 + (14 * j + r) :=
      ⟨(n - 6) / 14, (n - 6) % 14, Nat.mod_lt _ (by decide), by omega⟩
    have hj : j < 4 := by omega
    have pos : 0 < r := by
      have := hne j hj
      omega
    exact s.decode_cut_within hj pos hr

theorem decode_foreign_and_cut_some : (⟨11, 22, 33, -44⟩ : Settings).Bounded ∧
    decode (file formatVersion [⟨99, [120, 121, 122]⟩, timeField 1 11, timeField 2 22, ⟨0, []⟩, timeField 3 33,
      timeField 4 (-44), ⟨5, [1]⟩]) = .ok ⟨11, 22, 33, -44⟩ ∧
    decode ((⟨11, 22, 33, -44⟩ : Settings).encode.take 34) = .ok ⟨11, 22, 0, 0⟩ ∧
    ∃ needed available,
      decode ((⟨11, 22, 33, -44⟩ : Settings).encode.take 59) = .error (.truncated needed available) := by
  have hbounded : (⟨11, 22, 33, -44⟩ : Settings).Bounded := by
    simp [Bounded]
  obtain ⟨hforeign, hbetween, hwithin⟩ := decode_foreign_and_cut hbounded
  refine ⟨hbounded, hforeign _ ?_ rfl, hbetween 2 (by decide), hwithin 59 (by rw [length_encode]; decide) (by omega)⟩
  simp only [List.mem_cons, List.not_mem_nil, or_false]
  rintro field (rfl | rfl | rfl | rfl | rfl | rfl | rfl)
  all_goals exact ⟨by decide, by simp [timeField]⟩

end ContactsIndex.Settings
