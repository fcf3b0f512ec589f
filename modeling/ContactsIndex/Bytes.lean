/-!
# Bytes

A number is written in a fixed number of bytes, lowest byte first; what does not fit is
cut off, so reading back gives the number modulo the width. A signed number is written as
its residue, and read back from the upper half of the range as negative. Bytes are shown
in hexadecimal, two digits a byte, the higher one first.
-/

namespace ContactsIndex

namespace LittleEndian

def span : (width : Nat) → Nat
  | 0 => 1
  | width + 1 => 256 * span width

theorem span_pos (width : Nat) : 0 < span width := by
  induction width with
  | zero => decide
  | succ width ih => rw [span]; omega

def encode : (width : Nat) → Nat → List UInt8
  | 0, _ => []
  | width + 1, n => UInt8.ofNat n :: encode width (n / 256)

def decode : List UInt8 → Nat
  | [] => 0
  | b :: bs => b.toNat + 256 * decode bs

@[simp] theorem length_encode (width n : Nat) : (encode width n).length = width := by
  induction width generalizing n with
  | zero => rfl
  | succ width ih => simp [encode, ih]

theorem decode_encode (width n : Nat) : decode (encode width n) = n % span width := by
  induction width generalizing n with
  | zero => simp [encode, decode, span, Nat.mod_one]
  | succ width ih =>
    rw [encode, decode, ih, span, Nat.mod_mul]
    simp [UInt8.toNat_ofNat']

theorem decode_lt (bs : List UInt8) : decode bs < span bs.length := by
  induction bs with
  | nil => decide
  | cons b bs ih =>
    have := b.toNat_lt
    rw [decode, List.length_cons, span]
    omega

theorem encode_decode (bs : List UInt8) : encode bs.length (decode bs) = bs := by
  induction bs with
  | nil => rfl
  | cons b bs ih =>
    have hb := b.toNat_lt
    have hq : (b.toNat + 256 * decode bs) / 256 = decode bs := by omega
    have hr : UInt8.ofNat (b.toNat + 256 * decode bs) = b := by
      apply UInt8.toNat_inj.mp
      simp only [UInt8.toNat_ofNat']
      omega
    rw [List.length_cons, decode, encode, hq, hr, ih]

theorem encode_inj {width n n' : Nat} (h : n < span width) (h' : n' < span width)
    (heq : encode width n = encode width n') : n = n' := by
  have hdecode := congrArg decode heq
  rwa [decode_encode, decode_encode, Nat.mod_eq_of_lt h, Nat.mod_eq_of_lt h'] at hdecode

theorem exists_encode {width : Nat} {bytes : List UInt8} (h : bytes.length = width) :
    ∃ n < span width, encode width n = bytes := by
  subst h
  exact ⟨decode bytes, decode_lt bytes, encode_decode bytes⟩

/-! ## Signed numbers -/

/-- The residue of `x` modulo the width. -/
def encodeInt (width : Nat) (x : Int) : List UInt8 :=
  encode width (x % span width).toNat

def decodeInt (bs : List UInt8) : Int :=
  (decode bs : Int).bmod (span bs.length)

@[simp] theorem length_encodeInt (width : Nat) (x : Int) : (encodeInt width x).length = width :=
  length_encode _ _

theorem decodeInt_encodeInt (width : Nat) (x : Int) :
    decodeInt (encodeInt width x) = x.bmod (span width) := by
  have hpos : (0 : Int) < span width := Int.natCast_pos.mpr (span_pos width)
  have h0 := Int.emod_nonneg x (Int.ne_of_gt hpos)
  have h1 := Int.emod_lt_of_pos x hpos
  have hd : decode (encodeInt width x) = (x % span width).toNat := by
    rw [encodeInt, decode_encode, Nat.mod_eq_of_lt]
    exact (Int.toNat_lt h0).mpr h1
  rw [decodeInt, length_encodeInt, hd, Int.toNat_of_nonneg h0, Int.emod_bmod]

end LittleEndian

/-! ## Hexadecimal -/

def hexDigit (n : Nat) : Char :=
  "0123456789abcdef".toList[n]?.getD '0'

def hexText (bytes : List UInt8) : String :=
  String.ofList (bytes.flatMap fun b => [hexDigit (b.toNat / 16), hexDigit (b.toNat % 16)])

def hexValue? (c : Char) : Option Nat :=
  if '0' ≤ c ∧ c ≤ '9' then some (c.toNat - 48)
  else if 'a' ≤ c ∧ c ≤ 'f' then some (c.toNat - 87)
  else if 'A' ≤ c ∧ c ≤ 'F' then some (c.toNat - 55)
  else none

def hexBytes? : List Char → Option (List UInt8)
  | [] => some []
  | [_] => none
  | high :: low :: rest => do
    let b := (← hexValue? high) * 16 + (← hexValue? low)
    return UInt8.ofNat b :: (← hexBytes? rest)

end ContactsIndex
