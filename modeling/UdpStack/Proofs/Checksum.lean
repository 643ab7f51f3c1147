/-
The internet checksum as arithmetic. The words of a byte string add up to a number (`total`), and a
checksum is that number with its carries added back in (`carried`): it keeps the remainder modulo
65535, and it is zero only if the number is. So a sum is all ones exactly if the number is a positive
multiple of 65535 (`ofBytes_eq_ones_iff`), and adding the complement of a checksum makes it one
(`add_complement_mod`).
-/
import UdpStack.Checksum
import Mathlib.Tactic

namespace UdpStack.Checksum

open Octets

/-! ## Adding words -/

/-- The sum of the words in network byte order, an odd last byte being the high byte of a word. -/
def total : Octets → Nat
  | hi :: lo :: rest => hi.toNat * 256 + lo.toNat + total rest
  | [hi] => hi.toNat * 256
  | [] => 0

theorem total_le : ∀ b : Octets, total b ≤ 65535 * ((b.length + 1) / 2)
  | hi :: lo :: rest => by
    have := total_le rest
    have := hi.toNat_lt
    have := lo.toNat_lt
    simp only [total, List.length_cons]
    omega
  | [hi] => by
    have := hi.toNat_lt
    simp only [total, List.length_singleton]
    omega
  | [] => le_rfl

/-- So many bytes can be added up in 32 bits, whatever they are. -/
theorem total_lt {b : Octets} (h : b.length ≤ 131074) : total b < 2 ^ 32 := by
  have := total_le b
  omega

/-- Behind a part of even length the words start anew. -/
theorem total_append : ∀ {a : Octets} (b : Octets), a.length % 2 = 0 → total (a ++ b) = total a + total b
  | hi :: lo :: rest, b, h => by
    have ih := total_append (a := rest) b (by simp only [List.length_cons] at h; omega)
    simp only [List.cons_append, total, ih]
    omega
  | [_], _, h => by cases h
  | [], b, _ => (Nat.zero_add _).symm

@[simp] theorem total_ofWord16 (w : UInt16) : total (ofWord16 w) = w.toNat :=
  (Nat.add_zero _).trans ((toNat_word16 ..).symm.trans (congrArg UInt16.toNat (word16_ofWord16 w)))

/-- A sum of 32 bits loses no carry. -/
theorem toNat_wordSum : ∀ {b : Octets}, total b < 2 ^ 32 → (wordSum b).toNat = total b
  | hi :: lo :: rest, h => by
    simp only [total] at h
    have ih := toNat_wordSum (b := rest) (by omega)
    have := hi.toNat_lt
    have := lo.toNat_lt
    simp only [wordSum, total, UInt32.toNat_add, UInt16.toNat_toUInt32, toNat_word16, ih]
    omega
  | [hi], _ => by
    simp only [wordSum, total, UInt16.toNat_toUInt32, toNat_word16, UInt8.toNat_zero, Nat.add_zero]
  | [], _ => rfl

/-! ## Adding the carries back in -/

/-- A sum of words with its carries added back in. -/
def carried (w : Nat) : Nat := if w = 0 then 0 else (w - 1) % 65535 + 1

theorem carried_lt (w : Nat) : carried w < 65536 := by
  unfold carried
  split <;> omega

@[simp] theorem carried_mod (w : Nat) : carried w % 65535 = w % 65535 := by
  unfold carried
  split <;> omega

@[simp] theorem carried_eq_zero_iff (w : Nat) : carried w = 0 ↔ w = 0 := by
  unfold carried
  split <;> omega

theorem carried_eq_max_iff (w : Nat) : carried w = 65535 ↔ w ≠ 0 ∧ w % 65535 = 0 := by
  unfold carried
  split <;> omega

/-- Carries may be added back into a part of a sum first. -/
theorem carried_add_left (v w : Nat) : carried (carried v + w) = carried (v + w) := by
  have hz := carried_eq_zero_iff v
  have hm := carried_mod v
  generalize hc : carried v = c at hz hm
  unfold carried
  split <;> split <;> omega

theorem carried_add_right (v w : Nat) : carried (v + carried w) = carried (v + w) := by
  rw [Nat.add_comm, carried_add_left, Nat.add_comm]

/-- The complement of a checksum makes the sum a multiple of 65535. -/
theorem add_complement_mod (w : Nat) : (w + (65535 - carried w)) % 65535 = 0 := by
  have := carried_mod w
  have := carried_lt w
  omega

/-- Adding the high word to the low one, and the carry of that to its result, leaves no carry. -/
theorem fold_eq_carried {q r : Nat} (hq : q < 65536) (hr : r < 65536) :
    ((q + r) / 65536 + (q + r)) % 65536 = carried (65536 * q + r) := by
  unfold carried
  split
  · omega
  · have hs : 65536 * q + r - 1 = 65535 * q + (q + r - 1) := by omega
    rw [hs, Nat.mul_add_mod]
    -- the sum of both words has a carry or not
    rcases Nat.lt_or_ge (q + r) 65536 with h | h
    · rw [Nat.div_eq_of_lt h, Nat.mod_eq_of_lt (show q + r - 1 < 65535 by omega)]
      omega
    · have hd : (q + r) / 65536 = 1 := by omega
      rw [hd]
      omega

theorem toNat_high (w : UInt32) : (w >>> 16).toNat = w.toNat / 65536 := by
  rw [UInt32.toNat_shiftRight]
  exact Nat.shiftRight_eq_div_pow ..

theorem toNat_low (w : UInt32) : (w &&& 0xffff).toNat = w.toNat % 65536 := by
  rw [UInt32.toNat_and]
  exact Nat.and_two_pow_sub_one_eq_mod _ 16

theorem toNat_high_add_low (w : UInt32) :
    ((w >>> 16) + (w &&& 0xffff)).toNat = w.toNat / 65536 + w.toNat % 65536 := by
  have hw := w.toNat_lt
  rw [UInt32.toNat_add, toNat_high, toNat_low]
  omega

/-- Two rounds of adding back are enough for a sum of 32 bits. -/
theorem toNat_foldCarries (w : UInt32) : (foldCarries w).toNat = carried w.toNat := by
  have hw := w.toNat_lt
  unfold foldCarries
  dsimp only
  rw [UInt16.toNat_add, UInt32.toNat_toUInt16, UInt32.toNat_toUInt16, toNat_high, toNat_high_add_low, ← Nat.add_mod]
  apply (fold_eq_carried (by omega) (by omega)).trans
  rw [Nat.div_add_mod]

/-! ## Checksums -/

theorem toNat_ofBytes_of_lt {b : Octets} (h : total b < 2 ^ 32) : (ofBytes b).toNat = carried (total b) := by
  unfold ofBytes
  rw [toNat_foldCarries, toNat_wordSum h]

theorem toNat_ofBytes {b : Octets} (h : b.length ≤ 65535) : (ofBytes b).toNat = carried (total b) :=
  toNat_ofBytes_of_lt (total_lt (by omega))

/-- The words of a byte string add up to all ones: with the carries added back in, a sum of words is all ones
exactly if it is a positive multiple of 65535. -/
def AllOnes (b : Octets) : Prop := 0 < total b ∧ 65535 ∣ total b

instance (b : Octets) : Decidable (AllOnes b) := inferInstanceAs (Decidable (_ ∧ _))

theorem carried_total_eq_max_iff (b : Octets) : carried (total b) = 65535 ↔ AllOnes b := by
  rw [carried_eq_max_iff]
  unfold AllOnes
  omega

theorem ofBytes_eq_ones_iff {b : Octets} (h : b.length ≤ 65535) : ofBytes b = 0xffff ↔ AllOnes b := by
  rw [← UInt16.toNat_inj, toNat_ofBytes h]
  exact carried_total_eq_max_iff b

theorem sum_toNat_le : ∀ sums : List UInt16, (sums.map (·.toNat)).sum ≤ 65535 * sums.length
  | [] => le_rfl
  | s :: sums => by
    have ih := sum_toNat_le sums
    have hs := s.toNat_lt
    rw [List.map_cons, List.sum_cons, List.length_cons]
    omega

theorem toNat_foldl_add : ∀ (sums : List UInt16) (acc : UInt32),
    acc.toNat + (sums.map (·.toNat)).sum < 2 ^ 32 →
    (sums.foldl (fun acc s => acc + s.toUInt32) acc).toNat = acc.toNat + (sums.map (·.toNat)).sum
  | [], _, _ => rfl
  | s :: sums, acc, h => by
    rw [List.map_cons, List.sum_cons] at h
    have ha : (acc + s.toUInt32).toNat = acc.toNat + s.toNat := by
      rw [UInt32.toNat_add, UInt16.toNat_toUInt32]
      omega
    rw [List.foldl_cons, toNat_foldl_add sums _ (by rw [ha]; omega), ha, List.map_cons, List.sum_cons,
      Nat.add_assoc]

theorem toNat_combine {sums : List UInt16} (h : sums.length ≤ 65537) :
    (combine sums).toNat = carried (sums.map (·.toNat)).sum := by
  have hle := sum_toNat_le sums
  unfold combine
  rw [toNat_foldCarries, toNat_foldl_add sums 0 (by have : (0 : UInt32).toNat = 0 := rfl; omega)]
  exact congrArg carried (Nat.zero_add _)

/-- The bytes of a pseudo header: both addresses, the number of the protocol and a length. -/
def pseudoOctets (src dst : Ipv4.Address) (protocol : UInt8) (len : UInt16) : Octets :=
  src.octets ++ dst.octets ++ ([0, protocol] ++ ofWord16 len)

@[simp] theorem length_pseudoOctets (src dst : Ipv4.Address) (protocol : UInt8) (len : UInt16) :
    (pseudoOctets src dst protocol len).length = 12 := rfl

theorem total_pseudoOctets (src dst : Ipv4.Address) (protocol : UInt8) (len : UInt16) :
    total (pseudoOctets src dst protocol len) = total (src.octets ++ dst.octets) + (protocol.toNat + len.toNat) := by
  have hboth : (src.octets ++ dst.octets).length % 2 = 0 := by simp
  have hprotocol : ([0, protocol] : Octets).length % 2 = 0 := by simp
  unfold pseudoOctets
  rw [total_append _ hboth, total_append _ hprotocol, total_ofWord16]
  show _ + (0 * 256 + protocol.toNat + 0 + len.toNat) = _
  omega

theorem toNat_pseudoHeader (src dst : Ipv4.Address) (protocol : UInt8) (len : UInt16) :
    (pseudoHeader src dst protocol len).toNat = carried (total (pseudoOctets src dst protocol len)) := by
  have hsrc : src.octets.length % 2 = 0 := by simp
  have hboth : (src.octets ++ dst.octets).length % 2 = 0 := by simp
  unfold pseudoHeader pseudoOctets
  rw [toNat_combine (by simp), total_append _ hboth, total_append _ hsrc]
  simp only [List.map_cons, List.map_nil, List.sum_cons, List.sum_nil]
  rw [toNat_ofBytes (by simp), toNat_ofBytes (by simp), toNat_ofBytes (by simp), carried_add_left]
  rw [Nat.add_zero, ← Nat.add_assoc, carried_add_right, Nat.add_right_comm, carried_add_right,
    Nat.add_right_comm]

theorem toNat_complement (x : UInt16) : (~~~x).toNat = 65535 - x.toNat := by
  rw [UInt16.toNat_not]
  rfl

end UdpStack.Checksum
