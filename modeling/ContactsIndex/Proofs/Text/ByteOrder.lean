import ContactsIndex.Document.Canonical
import Mathlib.Algebra.Group.Nat.Defs

/-!
# Texts in the order of their bytes

Texts are compared by their code points. That is the order of their bytes in UTF-8 too
(`utf8_lt_iff`): of two code points the greater one has the greater first byte, or else as
many bytes with the same first one, and after that the digits of the code points to the
base 64 (`leading_lt_or`).
-/

namespace ContactsIndex

namespace Utf8

/-- The `k` bytes after the first one: digits of the code point to the base 64, each marked. -/
def trail : Nat → Nat → List UInt8
  | 0, _ => []
  | k + 1, n => .ofNat (n / 64 ^ k % 64 + 128) :: trail k n

def trailing (n : Nat) : Nat :=
  if n ≤ 0x7F then 0 else if n ≤ 0x7FF then 1 else if n ≤ 0xFFFF then 2 else 3

def leading (n : Nat) : Nat :=
  if n ≤ 0x7F then n else if n ≤ 0x7FF then 192 + n / 64 else if n ≤ 0xFFFF then 224 + n / 4096
  else 240 + n / 262144

theorem toNat_lt (c : Char) : c.toNat < 0x110000 := by
  have hvalid := c.valid
  simp only [UInt32.isValidChar, Nat.isValidChar] at hvalid
  have hnat : c.toNat = c.val.toNat := rfl
  omega

theorem leading_cases (n : Nat) :
    (n ≤ 0x7F ∧ leading n = n ∧ trailing n = 0) ∨
    (0x7F < n ∧ n ≤ 0x7FF ∧ leading n = 192 + n / 64 ∧ trailing n = 1) ∨
    (0x7FF < n ∧ n ≤ 0xFFFF ∧ leading n = 224 + n / 4096 ∧ trailing n = 2) ∨
    (0xFFFF < n ∧ leading n = 240 + n / 262144 ∧ trailing n = 3) := by
  by_cases h : n ≤ 0x7F
  · exact .inl ⟨h, if_pos h, if_pos h⟩
  by_cases h' : n ≤ 0x7FF
  · exact .inr (.inl ⟨by omega, h', by simp [leading, h, h'], by simp [trailing, h, h']⟩)
  by_cases h'' : n ≤ 0xFFFF
  · exact .inr (.inr (.inl ⟨by omega, h'', by simp [leading, h, h', h''], by simp [trailing, h, h', h'']⟩))
  · exact .inr (.inr (.inr ⟨by omega, by simp [leading, h, h', h''], by simp [trailing, h, h', h'']⟩))

theorem encode_eq (c : Char) :
    String.utf8EncodeChar c = .ofNat (leading c.toNat) :: trail (trailing c.toNat) c.toNat := by
  have hlt := toNat_lt c
  have hnat : c.val.toNat = c.toNat := rfl
  simp only [String.utf8EncodeChar, hnat, leading, trailing]
  split
  · rfl
  split
  · have hfirst : c.toNat / 64 % 32 + 192 = 192 + c.toNat / 64 := by omega
    simp [trail, hfirst]
  split
  · have hfirst : c.toNat / 4096 % 16 + 224 = 224 + c.toNat / 4096 := by omega
    simp [trail, hfirst]
  · have hfirst : c.toNat / 262144 % 8 + 240 = 240 + c.toNat / 262144 := by omega
    simp [trail, hfirst]

/-! ## Greater code points -/

theorem leading_lt {n : Nat} (h : n < 0x110000) : leading n < 256 := by
  have hcases := leading_cases n
  omega

theorem leading_lt_or {m n : Nat} (h : m < n) (hn : n < 0x110000) : leading m < leading n ∨
    leading m = leading n ∧ trailing m = trailing n ∧ m % 64 ^ trailing n < n % 64 ^ trailing n := by
  have hm := leading_cases m
  rcases leading_cases n with ⟨_, _, hk⟩ | ⟨_, _, _, hk⟩ | ⟨_, _, _, hk⟩ | ⟨_, _, hk⟩ <;> rw [hk] <;> omega

theorem ofNat_lt_iff {m n : Nat} (hm : m < 256) (hn : n < 256) : UInt8.ofNat m < UInt8.ofNat n ↔ m < n := by
  rw [UInt8.lt_iff_toNat_lt, UInt8.toNat_ofNat', UInt8.toNat_ofNat']
  omega

theorem trail_lt {k m n : Nat} (h : m % 64 ^ k < n % 64 ^ k) (x y : List UInt8) : trail k m ++ x < trail k n ++ y := by
  induction k with
  | zero => simp [Nat.mod_one] at h
  | succ k ih =>
    simp only [trail, List.cons_append, List.cons_lt_cons_iff]
    rw [Nat.mod_pow_succ, Nat.mod_pow_succ] at h
    have hdigit : ∀ l : Nat, l / 64 ^ k % 64 + 128 < 256 := by omega
    rcases Nat.lt_trichotomy (m / 64 ^ k % 64) (n / 64 ^ k % 64) with hlt | hsame | hgt
    · exact .inl ((ofNat_lt_iff (hdigit m) (hdigit n)).mpr (by omega))
    · rw [hsame] at h
      exact .inr ⟨by rw [hsame], ih (by omega)⟩
    · -- then the digits below would make up for it, but they are less than one of this digit
      have hdigits := Nat.mul_le_mul_left (64 ^ k) hgt
      have hbelow : n % 64 ^ k < 64 ^ k := Nat.mod_lt _ (Nat.pow_pos (by omega))
      rw [Nat.mul_succ] at hdigits
      omega

theorem encode_lt {c d : Char} (h : c < d) (x y : List UInt8) :
    String.utf8EncodeChar c ++ x < String.utf8EncodeChar d ++ y := by
  have hlt : c.toNat < d.toNat := UInt32.lt_iff_toNat_lt.mp (Char.lt_def.mp h)
  simp only [encode_eq, List.cons_append, List.cons_lt_cons_iff]
  rcases leading_lt_or hlt (toNat_lt d) with hfirst | ⟨hfirst, htrailing, hrest⟩
  · exact .inl ((ofNat_lt_iff (leading_lt (toNat_lt c)) (leading_lt (toNat_lt d))).mpr hfirst)
  · exact .inr ⟨congrArg _ hfirst, htrailing ▸ trail_lt hrest x y⟩

end Utf8

/-! ## Texts -/

theorem utf8_eq (text : String) : utf8 text = text.toList.flatMap String.utf8EncodeChar := by
  have hbytes : text.toUTF8 = text.toList.utf8Encode := String.utf8Encode_toList.symm
  rw [utf8, hbytes, List.utf8Encode, List.toList_data_toByteArray]

theorem flatMap_utf8EncodeChar_lt {cs ds : List Char} (h : cs < ds) :
    cs.flatMap String.utf8EncodeChar < ds.flatMap String.utf8EncodeChar := by
  induction cs generalizing ds with
  | nil =>
    cases ds with
    | nil => cases h
    | cons d ds => simp [Utf8.encode_eq]
  | cons c cs ih =>
    cases ds with
    | nil => cases h
    | cons d ds =>
      rw [List.flatMap_cons, List.flatMap_cons]
      rcases List.cons_lt_cons_iff.mp h with hlt | ⟨rfl, hlt⟩
      · exact Utf8.encode_lt hlt _ _
      · exact List.append_left_lt (ih hlt)

theorem utf8_lt {text other : String} (h : text < other) : utf8 text < utf8 other := by
  rw [utf8_eq, utf8_eq]
  exact flatMap_utf8EncodeChar_lt (String.lt_iff.mp h)

theorem utf8_lt_iff {text other : String} : utf8 text < utf8 other ↔ text < other := by
  refine ⟨fun h => String.not_le.mp fun hle => ?_, utf8_lt⟩
  by_cases hge : text ≤ other
  · rw [String.le_antisymm hge hle] at h
    exact List.lt_irrefl _ h
  · exact List.lt_asymm h (utf8_lt (String.not_le.mp hge))

theorem compare_eq_lt_iff {text other : String} : compare text other = .lt ↔ text < other :=
  compareOfLessAndEq_eq_lt

theorem pairwise_utf8_ascending (texts : List String) : ((ascending texts).map utf8).Pairwise (· < ·) :=
  List.pairwise_map.mpr ((pairwise_ascending texts).imp fun h => utf8_lt_iff.mpr (compare_eq_lt_iff.mp h))

end ContactsIndex
