/-
What the check sequence of a frame notices. Dividing bits out of the remainder is linear in exclusive or
(`shiftBits_xor`) and loses nothing (`shiftBits_injective`), so up to four bytes are taken into the remainder like
one word (`foldl_absorb`). A frame leaves one and the same remainder together with its check sequence, whatever the
frame is, and no other trailer does (`verify_eq_ok_iff`). So four bytes anywhere, in the trailer as well, cannot be
exchanged for others (`bursts_noticed`).
-/
import UdpStack.Ethernet.CheckSequence
import Mathlib.Tactic

namespace UdpStack.Ethernet.CheckSequence

open Octets

/-! ## Dividing bits out of the remainder -/

theorem low_eq_one_iff (r : UInt32) : r &&& 1 = 1 ↔ r.toNat % 2 = 1 := by
  rw [← UInt32.toNat_inj, UInt32.toNat_and]
  exact iff_of_eq (congrArg (· = 1) (Nat.and_one_is_mod _))

theorem shiftBit_xor (r s : UInt32) : shiftBit (r ^^^ s) = shiftBit r ^^^ shiftBit s := by
  have hlow : (r ^^^ s) &&& 1 = 1 ↔ ¬ (r &&& 1 = 1 ↔ s &&& 1 = 1) := by
    simp only [low_eq_one_iff, UInt32.toNat_xor]
    exact Nat.xor_mod_two_eq_one
  unfold shiftBit
  rw [UInt32.shiftRight_xor]
  by_cases hr : r &&& 1 = 1 <;> by_cases hs : s &&& 1 = 1
  · -- the divisor is taken off both, and so not at all
    have hcancel : ∀ x y d : UInt32, x ^^^ d ^^^ (y ^^^ d) = x ^^^ y ^^^ (d ^^^ d) := fun x y d => by ac_rfl
    rw [if_neg (mt hlow.1 (not_not_intro (iff_of_true hr hs))), if_pos hr, if_pos hs, hcancel, UInt32.xor_self,
      UInt32.xor_zero]
  · rw [if_pos (hlow.2 fun h => hs (h.1 hr)), if_pos hr, if_neg hs]
    ac_rfl
  · rw [if_pos (hlow.2 fun h => hr (h.2 hs)), if_neg hr, if_pos hs, UInt32.xor_assoc]
  · rw [if_neg (mt hlow.1 (not_not_intro (iff_of_false hr hs))), if_neg hr, if_neg hs]

theorem toNat_half (r : UInt32) : (r >>> 1).toNat = r.toNat / 2 := by
  rw [UInt32.toNat_shiftRight]
  exact Nat.shiftRight_eq_div_pow ..

/-- Where the divisor was taken off, the highest bit tells it. -/
theorem shiftBit_eq_zero {r : UInt32} (h : shiftBit r = 0) : r = 0 := by
  have hlt := r.toNat_lt
  have hzero : (0 : UInt32).toNat = 0 := rfl
  unfold shiftBit at h
  split at h
  · have hdivisor : (0xedb88320 : UInt32).toNat = 0xedb88320 := rfl
    rw [UInt32.xor_eq_zero_iff, ← UInt32.toNat_inj, toNat_half] at h
    omega
  · rename_i hlow
    rw [low_eq_one_iff] at hlow
    rw [← UInt32.toNat_inj, toNat_half] at h
    rw [← UInt32.toNat_inj]
    omega

/-- The remainder when so many bits are divided out. -/
def shiftBits (n : Nat) (r : UInt32) : UInt32 := Nat.repeat shiftBit n r

theorem shiftBits_succ (n : Nat) (r : UInt32) : shiftBits (n + 1) r = shiftBit (shiftBits n r) := rfl

theorem shiftBits_add (m : Nat) : ∀ (n : Nat) (r : UInt32), shiftBits (m + n) r = shiftBits n (shiftBits m r)
  | 0, _ => rfl
  | n + 1, r => by rw [← Nat.add_assoc, shiftBits_succ, shiftBits_succ, shiftBits_add m n]

theorem shiftBits_xor : ∀ (n : Nat) (r s : UInt32), shiftBits n (r ^^^ s) = shiftBits n r ^^^ shiftBits n s
  | 0, _, _ => rfl
  | n + 1, r, s => by rw [shiftBits_succ, shiftBits_xor n, shiftBit_xor, shiftBits_succ, shiftBits_succ]

theorem shiftBits_eq_zero : ∀ {n : Nat} {r : UInt32}, shiftBits n r = 0 → r = 0
  | 0, _, h => h
  | _ + 1, _, h => shiftBits_eq_zero (shiftBit_eq_zero h)

theorem shiftBits_injective (n : Nat) : Function.Injective (shiftBits n) := by
  intro r s h
  rw [← UInt32.xor_eq_zero_iff] at h ⊢
  rw [← shiftBits_xor] at h
  exact shiftBits_eq_zero h

/-- Bits that are zero are just passed. -/
theorem toNat_shiftBits : ∀ {n : Nat} {r : UInt32}, 2 ^ n ∣ r.toNat → (shiftBits n r).toNat = r.toNat / 2 ^ n
  | 0, r, _ => by
    rw [pow_zero, Nat.div_one]
    rfl
  | n + 1, r, h => by
    have ih := toNat_shiftBits (n := n) ((pow_dvd_pow 2 n.le_succ).trans h)
    have heven : (shiftBits n r).toNat % 2 = 0 := by
      obtain ⟨k, hk⟩ := h
      rw [ih, hk, pow_succ, Nat.mul_assoc, Nat.mul_div_cancel_left _ (by positivity), Nat.mul_mod_right]
    rw [shiftBits_succ, shiftBit, if_neg (by rw [low_eq_one_iff]; omega), toNat_half, ih, Nat.div_div_eq_div_mul,
      pow_succ]

/-! ## Bytes as one word -/

/-- The number of bytes that stand least significant first. -/
def number : Octets → Nat
  | [] => 0
  | byte :: rest => byte.toNat + 256 * number rest

theorem number_lt : ∀ b : Octets, number b < 256 ^ b.length
  | [] => Nat.one_pos
  | byte :: rest => by
    have ih := number_lt rest
    have hbyte := byte.toNat_lt
    rw [number, List.length_cons, pow_succ]
    omega

theorem number_lt_of_le {b : Octets} {n : Nat} (h : b.length ≤ n) : number b < 256 ^ n :=
  (number_lt b).trans_le (Nat.pow_le_pow_right (by decide) h)

theorem toNat_ofNat_number {b : Octets} (h : b.length ≤ 4) : (UInt32.ofNat (number b)).toNat = number b := by
  have hlt : number b < 256 ^ 4 := number_lt_of_le h
  rw [UInt32.toNat_ofNat', Nat.mod_eq_of_lt (by omega)]

theorem number_injective : ∀ {a b : Octets}, a.length = b.length → number a = number b → a = b
  | [], [], _, _ => rfl
  | x :: a, y :: b, hl, h => by
    have hx := x.toNat_lt
    have hy := y.toNat_lt
    rw [number, number] at h
    rw [List.length_cons, List.length_cons, Nat.add_right_cancel_iff] at hl
    rw [UInt8.toNat_inj.1 (show x.toNat = y.toNat by omega), number_injective hl (by omega)]

theorem number_octets (value : UInt32) : number (octets value) = value.toNat := by
  have hlt := value.toNat_lt
  show (UInt8.ofNat value.toNat).toNat + 256 * ((UInt8.ofNat (value.toNat / 256)).toNat +
    256 * ((UInt8.ofNat (value.toNat / 65536)).toNat +
      256 * ((UInt8.ofNat (value.toNat / 16777216)).toNat + 256 * 0))) = _
  simp only [UInt8.toNat_ofNat']
  omega

/-- The lowest byte of a word stands for itself. -/
theorem xor_byte (byte : UInt8) {v : Nat} (hv : v < 256 ^ 3) :
    byte.toUInt32 ^^^ UInt32.ofNat (256 * v) = UInt32.ofNat (byte.toNat + 256 * v) := by
  have hbyte := byte.toNat_lt
  rw [← UInt32.toNat_inj, UInt32.toNat_xor, UInt8.toNat_toUInt32, UInt32.toNat_ofNat', UInt32.toNat_ofNat',
    Nat.mod_eq_of_lt (by omega), Nat.mod_eq_of_lt (by omega)]
  have hlow := Nat.xor_mod_two_pow (a := byte.toNat) (b := 256 * v) (n := 8)
  have hhigh := Nat.xor_div_two_pow (a := byte.toNat) (b := 256 * v) (n := 8)
  rw [show byte.toNat % 2 ^ 8 = byte.toNat by omega, show 256 * v % 2 ^ 8 = 0 by omega, Nat.xor_zero] at hlow
  rw [show byte.toNat / 2 ^ 8 = 0 by omega, show 256 * v / 2 ^ 8 = v by omega, Nat.zero_xor] at hhigh
  omega

theorem absorb_eq (r : UInt32) (byte : UInt8) : absorb r byte = shiftBits 8 (r ^^^ byte.toUInt32) := rfl

theorem shiftBits_ofNat {v : Nat} (hv : v < 256 ^ 3) : shiftBits 8 (UInt32.ofNat (256 * v)) = UInt32.ofNat v := by
  have hword : (UInt32.ofNat (256 * v)).toNat = 256 * v := by
    rw [UInt32.toNat_ofNat', Nat.mod_eq_of_lt (by omega)]
  rw [← UInt32.toNat_inj, toNat_shiftBits (by rw [hword]; exact Nat.dvd_mul_right ..), hword, UInt32.toNat_ofNat',
    Nat.mod_eq_of_lt (by omega)]
  exact Nat.mul_div_cancel_left v (by decide)

/-- Up to four bytes are taken into the remainder at once: all bits of a byte are still there when those of the
bytes in front of it were divided out. -/
theorem foldl_absorb : ∀ {b : Octets} (r : UInt32), b.length ≤ 4 →
    b.foldl absorb r = shiftBits (8 * b.length) (r ^^^ UInt32.ofNat (number b))
  | [], r, _ => (UInt32.xor_zero).symm
  | byte :: rest, r, h => by
    rw [List.length_cons] at h
    have hrest : number rest < 256 ^ 3 := number_lt_of_le (Nat.le_of_succ_le_succ h)
    calc rest.foldl absorb (absorb r byte)
        = shiftBits (8 * rest.length) (absorb r byte ^^^ UInt32.ofNat (number rest)) :=
          foldl_absorb _ (by omega)
      _ = shiftBits (8 * rest.length) (shiftBits 8 (r ^^^ (byte.toUInt32 ^^^ UInt32.ofNat (256 * number rest)))) := by
          rw [← UInt32.xor_assoc, shiftBits_xor 8, shiftBits_ofNat hrest, absorb_eq]
      _ = _ := by
          rw [xor_byte byte hrest, ← shiftBits_add, List.length_cons, Nat.mul_succ, Nat.add_comm 8]
          rfl

theorem foldl_absorb_inj {a b : Octets} {r : UInt32} (hl : a.length = b.length) (h4 : b.length ≤ 4)
    (h : a.foldl absorb r = b.foldl absorb r) : a = b := by
  rw [foldl_absorb r (by omega), foldl_absorb r h4, hl] at h
  have hword := (UInt32.xor_right_inj r).1 (shiftBits_injective _ h)
  rw [← UInt32.toNat_inj, toNat_ofNat_number (by omega), toNat_ofNat_number h4] at hword
  exact number_injective hl hword

/-- What follows keeps remainders apart. -/
theorem foldl_absorb_injective : ∀ b : Octets, Function.Injective fun r => b.foldl absorb r
  | [], _, _, h => h
  | byte :: rest, r, s, h => by
    have hfirst : absorb r byte = absorb s byte := foldl_absorb_injective rest h
    rw [absorb_eq, absorb_eq] at hfirst
    exact (UInt32.xor_left_inj byte.toUInt32).1 (shiftBits_injective 8 hfirst)

/-! ## Frames with their check sequence -/

/-- The remainder that bytes leave. -/
def remainder (b : Octets) : UInt32 := b.foldl absorb 0xffffffff

/-- The remainder that every frame leaves together with its check sequence. -/
def residue : UInt32 := shiftBits 32 0xffffffff

theorem remainder_append (a b : Octets) : remainder (a ++ b) = b.foldl absorb (remainder a) := List.foldl_append

theorem remainder_eq_residue_iff {frame trailer : Octets} (h : trailer.length = 4) :
    remainder (frame ++ trailer) = residue ↔ octets (compute frame) = trailer := by
  have hones : (0xffffffff : UInt32) = remainder frame ^^^ compute frame := by
    show _ = remainder frame ^^^ ~~~remainder frame
    rw [UInt32.xor_not, UInt32.xor_self]
    rfl
  have hlen : (octets (compute frame)).length = trailer.length := h.symm
  rw [remainder_append, foldl_absorb _ h.le, h, residue, hones, (shiftBits_injective 32).eq_iff, UInt32.xor_right_inj,
    ← UInt32.toNat_inj, toNat_ofNat_number h.le, ← number_octets (compute frame)]
  exact ⟨fun he => number_injective hlen he.symm, fun he => by rw [he]⟩

theorem verify_eq_truncated_iff (w : Octets) : verify w = .error .truncated ↔ w.length < size := by
  unfold verify
  split
  · simp [*]
  · split <;> simp [*]

theorem verify_eq_ok_iff (w : Octets) : verify w = .ok () ↔ size ≤ w.length ∧ remainder w = residue := by
  unfold verify
  by_cases hlen : w.length < size
  · rw [if_pos hlen]
    exact iff_of_false nofun fun h => Nat.not_le.2 hlen h.1
  · have hdrop : (w.drop (w.length - size)).length = 4 := by
      rw [List.length_drop]
      exact Nat.sub_sub_self (Nat.not_lt.1 hlen)
    have hiff := @remainder_eq_residue_iff (w.take (w.length - size)) _ hdrop
    rw [List.take_append_drop] at hiff
    rw [if_neg hlen, hiff, and_iff_right (Nat.not_lt.1 hlen)]
    split <;> simp [*]

/-- Whatever is not accepted and not too short has a wrong check sequence. -/
theorem verify_eq_wrongChecksum {w : Octets} (hlen : size ≤ w.length) (h : verify w ≠ .ok ()) :
    verify w = .error .wrongChecksum := by
  unfold verify at h ⊢
  rw [if_neg (Nat.not_lt.2 hlen)] at h ⊢
  split at h
  · exact absurd rfl h
  · rename_i hne
    rw [if_neg hne]

theorem emit?_of_le {trailer : Octets} (value : UInt32) (h : size ≤ trailer.length) :
    emit? value trailer = some (octets value ++ trailer.drop size) := by
  have hlen : (octets value).length = size := rfl
  unfold emit? write?
  rw [if_pos (by omega), Nat.zero_add, hlen]
  rfl

theorem verify_emitted (frame : Octets) : verify (frame ++ octets (compute frame)) = .ok () := by
  have hlen : (octets (compute frame)).length = 4 := rfl
  rw [verify_eq_ok_iff]
  refine ⟨?_, (remainder_eq_residue_iff hlen).2 rfl⟩
  rw [List.length_append, hlen]
  exact Nat.le_add_left ..

/-! ## Bursts -/

/-- Bytes in front of, in and behind four positions. -/
theorem parts_eq (w : Octets) (k : Nat) : w.take k ++ (w.drop k).take 4 ++ w.drop (k + 4) = w := by
  rw [← List.take_add, List.take_append_drop]

/-- Four bytes in the place of others leave another remainder. -/
theorem eq_of_remainder {w w' : Octets} {k : Nat} (hl : w'.length = w.length) (htake : w'.take k = w.take k)
    (hdrop : w'.drop (k + 4) = w.drop (k + 4)) (h : remainder w' = remainder w) : w' = w := by
  rw [← parts_eq w k, ← parts_eq w' k, htake, hdrop] at h ⊢
  rw [remainder_append, remainder_append, remainder_append, remainder_append] at h
  have hmiddle := foldl_absorb_inj (by simp only [List.length_take, List.length_drop, hl])
    (List.length_take_le ..) (foldl_absorb_injective _ h)
  rw [hmiddle]

theorem eq_of_burst {w w' : Octets} {i : Nat} (h4 : 4 ≤ w.length) (hl : w'.length = w.length)
    (hsame : ∀ j, j < i ∨ i + 4 ≤ j → w'[j]? = w[j]?) (h : remainder w' = remainder w) : w' = w := by
  -- four positions that start too late are moved down to the last four
  apply eq_of_remainder (k := min i (w.length - 4)) hl ?_ ?_ h
  · apply List.ext_getElem?
    intro j
    rw [List.getElem?_take, List.getElem?_take]
    split
    · exact hsame j (.inl (by omega))
    · rfl
  · apply List.ext_getElem?
    intro j
    rw [List.getElem?_drop, List.getElem?_drop]
    rcases Nat.lt_or_ge (min i (w.length - 4) + 4 + j) w.length with hlt | hge
    · exact hsame _ (.inr (by omega))
    · rw [List.getElem?_eq_none (by omega), List.getElem?_eq_none hge]

/-- The check sequence of a frame of any length. The four bytes that carry its check value complete it to bytes that
are accepted. Other bytes of the same length that differ from accepted ones within four positions, be they in the
frame, in the check sequence or in both, are not accepted. Fewer bytes than a check sequence are too short. -/
theorem bursts_noticed :
    (∀ frame trailer : Octets, size ≤ trailer.length → ∃ t, emit? (compute frame) trailer = some t ∧
      t.drop size = trailer.drop size ∧ verify (frame ++ t.take size) = .ok ()) ∧
    (∀ (w w' : Octets) (i : Nat), verify w = .ok () → w'.length = w.length → w' ≠ w →
      (∀ j, j < i ∨ i + 4 ≤ j → w'[j]? = w[j]?) → verify w' = .error .wrongChecksum) ∧
    ∀ w : Octets, verify w = .error .truncated ↔ w.length < size := by
  refine ⟨fun frame trailer h => ?_, fun w w' i hw hl hne hsame => ?_, verify_eq_truncated_iff⟩
  · have hlen : (octets (compute frame)).length = size := rfl
    refine ⟨_, emit?_of_le _ h, List.drop_left' hlen, ?_⟩
    rw [List.take_left' hlen]
    exact verify_emitted frame
  · rw [verify_eq_ok_iff] at hw
    apply verify_eq_wrongChecksum (hl ▸ hw.1)
    rw [ne_eq, verify_eq_ok_iff]
    rintro ⟨-, hw'⟩
    exact hne (eq_of_burst hw.1 hl hsame (hw'.trans hw.2.symm))

/-- Nine digits with their check sequence. -/
def digits : Octets := [0x31, 0x32, 0x33, 0x34, 0x35, 0x36, 0x37, 0x38, 0x39, 0x26, 0x39, 0xf4, 0xcb]

example : compute (digits.take 9) = 0xcbf43926 := by decide +kernel

/-- The last two digits with the digits of 60 in their place, and the first two bytes of the check sequence as well. -/
def misread : Octets := [0x31, 0x32, 0x33, 0x34, 0x35, 0x36, 0x37, 0x36, 0x30, 0, 0xff, 0xf4, 0xcb]

/-- Both are as long, but only one is accepted. The check sequence is written over the first four of five bytes, and
half of it is too short. -/
theorem bursts_noticed_across :
    (∃ t, emit? (compute (digits.take 9)) [0, 0, 0, 0, 7] = some t ∧ t.drop 4 = [7] ∧
      verify (digits.take 9 ++ t.take 4) = .ok ()) ∧
    verify digits = .ok () ∧ misread.length = digits.length ∧ misread ≠ digits ∧
    verify misread = .error .wrongChecksum ∧ verify (digits.drop 11) = .error .truncated := by
  obtain ⟨hemit, hburst, hshort⟩ := bursts_noticed
  have hok : verify digits = .ok () := by decide +kernel
  have hinside : ∀ j < 13, j < 7 ∨ 7 + 4 ≤ j → misread[j]? = digits[j]? := by decide
  have hsame : ∀ j, j < 7 ∨ 7 + 4 ≤ j → misread[j]? = digits[j]? := fun j hj => by
    rcases Nat.lt_or_ge j 13 with hlt | hge
    · exact hinside j hlt hj
    · rw [List.getElem?_eq_none hge, List.getElem?_eq_none hge]
  exact ⟨hemit (digits.take 9) [0, 0, 0, 0, 7] (by decide), hok, rfl, by decide,
    hburst digits misread 7 hok rfl (by decide) hsame, (hshort _).2 (by decide)⟩

end UdpStack.Ethernet.CheckSequence
