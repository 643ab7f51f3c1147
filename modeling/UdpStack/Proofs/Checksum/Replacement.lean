/-
What a checksum tells apart. The words of a byte string add up as numbers, so a byte or a word that takes the
place of another one changes the sum by just their difference (`total_set`, `total_setWord`). A sum that is all
ones therefore notices each single byte (`not_allOnes_set`) and each single word, but for the two words that are
the same in ones' complement, zero and all ones (`allOnes_setWord_iff`).
-/
import UdpStack.Proofs.Checksum
import UdpStack.Proofs.Octets

namespace UdpStack

namespace Octets

/-! ## A byte in the place of another -/

theorem byte_set_self {b : Octets} {i : Nat} (h : i < b.length) (v : UInt8) : byte (b.set i v) i = v.toNat := by
  unfold byte
  rw [List.getD_eq_getElem?_getD, List.getElem?_set_self h]
  rfl

theorem byte_set_ne (b : Octets) {i j : Nat} (h : i ≠ j) (v : UInt8) : byte (b.set i v) j = byte b j := by
  unfold byte
  rw [List.getD_eq_getElem?_getD, List.getElem?_set_ne h, ← List.getD_eq_getElem?_getD]

theorem byte_take (b : Octets) {i n : Nat} (h : i < n) : byte (b.take n) i = byte b i := by
  unfold byte
  rw [List.getD_eq_getElem?_getD, List.getElem?_take_of_lt h, ← List.getD_eq_getElem?_getD]

theorem word_take (b : Octets) {i n : Nat} (h : i + 2 ≤ n) : word (b.take n) i = word b i := by
  unfold word
  rw [byte_take b (by omega), byte_take b (by omega)]

theorem write?_byte {b : Octets} {i : Nat} (h : i < b.length) (v : UInt8) : write? b i [v] = some (b.set i v) := by
  unfold write?
  rw [if_pos (by rw [List.length_singleton]; omega), List.set_eq_take_cons_drop v h, List.append_assoc]
  rfl

/-! ## A word in the place of another -/

/-- The bytes with a word at a position. -/
def setWord (b : Octets) (i : Nat) (w : UInt16) : Octets :=
  (b.set i (UInt8.ofNat (w.toNat / 256))).set (i + 1) (UInt8.ofNat w.toNat)

variable {b : Octets} {i : Nat}

@[simp] theorem length_setWord (b : Octets) (i : Nat) (w : UInt16) : (setWord b i w).length = b.length := by
  unfold setWord
  rw [List.length_set, List.length_set]

theorem write?_word (h : i + 2 ≤ b.length) (w : UInt16) : write? b i (ofWord16 w) = some (setWord b i w) := by
  have hlen : (b.set i (UInt8.ofNat (w.toNat / 256))).length = b.length := List.length_set
  have htake : (b.set i (UInt8.ofNat (w.toNat / 256))).take (i + 1) =
      b.take i ++ [UInt8.ofNat (w.toNat / 256)] := by
    rw [List.take_succ_eq_append_getElem (by omega), List.getElem_set_self, List.take_set,
      List.set_eq_of_length_le (by rw [List.length_take]; omega)]
  have hdrop : (b.set i (UInt8.ofNat (w.toNat / 256))).drop (i + 1 + 1) = b.drop (i + 2) :=
    List.drop_set_of_lt (by omega)
  unfold write? setWord
  rw [length_ofWord16, if_pos h, List.set_eq_take_cons_drop _ (by omega), htake, hdrop, List.append_assoc,
    List.append_assoc]
  rfl

theorem getElem?_setWord_ne (b : Octets) {j : Nat} (h : j ≠ i) (h' : j ≠ i + 1) (w : UInt16) :
    (setWord b i w)[j]? = b[j]? := by
  unfold setWord
  rw [List.getElem?_set_ne h'.symm, List.getElem?_set_ne h.symm]

theorem byte_setWord_ne (b : Octets) {j : Nat} (h : j ≠ i) (h' : j ≠ i + 1) (w : UInt16) :
    byte (setWord b i w) j = byte b j := by
  unfold byte
  rw [List.getD_eq_getElem?_getD, getElem?_setWord_ne b h h', ← List.getD_eq_getElem?_getD]

theorem byte_setWord_self (h : i < b.length) (w : UInt16) : byte (setWord b i w) i = w.toNat / 256 := by
  have hw := w.toNat_lt
  unfold setWord
  rw [byte_set_ne _ (by omega), byte_set_self h, UInt8.toNat_ofNat', Nat.mod_eq_of_lt (by omega)]

theorem word_setWord_self (h : i + 2 ≤ b.length) (w : UInt16) : word (setWord b i w) i = w.toNat := by
  have hw := w.toNat_lt
  have hhigh := byte_setWord_self (b := b) (i := i) (by omega) w
  have hlow : byte (setWord b i w) (i + 1) = w.toNat % 256 := by
    unfold setWord
    rw [byte_set_self (by rw [List.length_set]; omega), UInt8.toNat_ofNat']
  unfold word
  omega

theorem word_setWord_ne (b : Octets) {j : Nat} (h : j + 2 ≤ i ∨ i + 2 ≤ j) (w : UInt16) :
    word (setWord b i w) j = word b j := by
  unfold word
  rw [byte_setWord_ne b (by omega) (by omega), byte_setWord_ne b (by omega) (by omega)]

theorem take_setWord (b : Octets) (i n : Nat) (w : UInt16) : (setWord b i w).take n = setWord (b.take n) i w := by
  unfold setWord
  rw [List.take_set, List.take_set]

theorem setWord_setWord (b : Octets) (i : Nat) (v w : UInt16) : setWord (setWord b i v) i w = setWord b i w := by
  unfold setWord
  rw [List.set_comm _ _ (by omega : i + 1 ≠ i), List.set_set, List.set_set]

end Octets

namespace Checksum

open Octets

/-! ## What the sum changes by -/

/-- What a byte at a position counts for in the sum of the words. -/
def weight (i : Nat) : Nat := if i % 2 = 0 then 256 else 1

theorem total_set : ∀ {b : Octets} {i : Nat}, i < b.length → ∀ v : UInt8,
    total (b.set i v) + weight i * byte b i = total b + weight i * v.toNat
  | hi :: lo :: rest, 0, _, v => by
    show v.toNat * 256 + lo.toNat + total rest + 256 * hi.toNat =
      hi.toNat * 256 + lo.toNat + total rest + 256 * v.toNat
    omega
  | hi :: lo :: rest, 1, _, v => by
    show hi.toNat * 256 + v.toNat + total rest + 1 * lo.toNat =
      hi.toNat * 256 + lo.toNat + total rest + 1 * v.toNat
    omega
  | hi :: lo :: rest, i + 2, h, v => by
    have ih := total_set (b := rest) (i := i) (by simp only [List.length_cons] at h; omega) v
    have hweight : weight (i + 2) = weight i := by unfold weight; rw [Nat.add_mod_right]
    have hbyte : byte (hi :: lo :: rest) (i + 2) = byte rest i := rfl
    have hset : total ((hi :: lo :: rest).set (i + 2) v) =
        hi.toNat * 256 + lo.toNat + total (rest.set i v) := rfl
    have hold : total (hi :: lo :: rest) = hi.toNat * 256 + lo.toNat + total rest := rfl
    rw [hweight, hbyte, hset, hold]
    omega
  | [hi], 0, _, v => by
    show v.toNat * 256 + 256 * hi.toNat = hi.toNat * 256 + 256 * v.toNat
    omega

theorem total_setWord {b : Octets} {i : Nat} (he : i % 2 = 0) (h : i + 2 ≤ b.length) (w : UInt16) :
    total (setWord b i w) + word b i = total b + w.toNat := by
  have hhigh := total_set (b := b) (i := i) (by omega) (UInt8.ofNat (w.toNat / 256))
  have hlow := total_set (b := b.set i (UInt8.ofNat (w.toNat / 256))) (i := i + 1)
    (by rw [List.length_set]; omega) (UInt8.ofNat w.toNat)
  have heven : weight i = 256 := if_pos he
  have hodd : weight (i + 1) = 1 := if_neg (by omega)
  have hw := toNat_ofWord16 w
  rw [heven] at hhigh
  rw [hodd, byte_set_ne b (by omega)] at hlow
  unfold setWord word
  omega

/-- A byte that is not zero is part of the sum. -/
theorem total_pos {b : Octets} {i : Nat} (h : i < b.length) (hb : byte b i ≠ 0) : 0 < total b := by
  have hset := total_set h 0
  have hweight : 0 < weight i := by unfold weight; split <;> decide
  have hpos : 0 < weight i * byte b i := Nat.mul_pos hweight (by omega)
  have hzero : (0 : UInt8).toNat = 0 := rfl
  rw [hzero] at hset
  omega

/-! ## Sums that are all ones -/

/-- In ones' complement zero and all ones are the same, and no other two words are. -/
theorem allOnes_exchanged_iff {c d : Octets} {old new : Nat} (h : total d + old = total c + new) (hc : AllOnes c)
    (hd : 0 < total d) (hold : old < 65536) (hnew : new < 65536) (hne : new ≠ old) :
    AllOnes d ↔ old = 0 ∧ new = 65535 ∨ old = 65535 ∧ new = 0 := by
  obtain ⟨-, hc⟩ := hc
  unfold AllOnes
  omega

/-- Another word in one place is noticed unless these two words are the same in ones' complement. -/
theorem allOnes_setWord_iff {b : Octets} {i : Nat} {w : UInt16} (he : i % 2 = 0) (h : i + 2 ≤ b.length)
    (hw : w.toNat ≠ word b i) (hb : AllOnes b) (hpos : 0 < total (setWord b i w)) :
    AllOnes (setWord b i w) ↔ word b i = 0 ∧ w = 0xffff ∨ word b i = 0xffff ∧ w = 0 := by
  have hones : w = 0xffff ↔ w.toNat = 65535 := UInt16.toNat_inj.symm
  have hnone : w = 0 ↔ w.toNat = 0 := UInt16.toNat_inj.symm
  rw [hones, hnone]
  exact allOnes_exchanged_iff (total_setWord he h w) hb hpos (word_lt b i) w.toNat_lt hw

/-- Another byte in one place is always noticed, for it changes the sum by less than 65535. -/
theorem not_allOnes_set {b : Octets} {i : Nat} {v : UInt8} (h : i < b.length) (hv : v.toNat ≠ byte b i)
    (hb : AllOnes b) : ¬ AllOnes (b.set i v) := by
  intro hset
  have hsum := total_set h v
  have hold := byte_lt b i
  have hnew := v.toNat_lt
  -- a high byte counts for no word of all ones either
  obtain ⟨hne, hsmall, hsmall'⟩ : weight i * v.toNat ≠ weight i * byte b i ∧ weight i * v.toNat < 65535 ∧
      weight i * byte b i < 65535 := by
    unfold weight
    split <;> omega
  have hwhich := (allOnes_exchanged_iff hsum hb hset.1 (by omega) (by omega) hne).1 hset
  omega

end Checksum

end UdpStack
