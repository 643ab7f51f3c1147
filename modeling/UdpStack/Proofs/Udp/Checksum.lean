/-
What the checksum of a user datagram protects. It goes over the addresses of the internet header and over the
datagram (`covered`), and this sum is never zero, for the number of the protocol is part of it. The checksum that
is filled in completes the sum to all ones and is never the zero that stands for no checksum (`dvd_total_filled`).
Afterwards the datagram verifies with the addresses that have the same sum in ones' complement and no others, and
it does not verify with another word in the place of one of its own (`datagram_protected`).
-/
import UdpStack.Proofs.Checksum.Replacement
import UdpStack.Proofs.Udp.Reception

namespace UdpStack.Udp.Header

open Octets

variable {b : Octets}

/-! ## The sum -/

/-- The bytes that a checksum covers: a pseudo header and the datagram. -/
def covered (b : Octets) (src dst : Ipv4.Address) : Octets :=
  Checksum.pseudoOctets src dst 17 (UInt16.ofNat (word b 4)) ++ b.take (word b 4)

theorem total_covered (b : Octets) (src dst : Ipv4.Address) : Checksum.total (covered b src dst) =
    Checksum.total (src.octets ++ dst.octets) + (17 + word b 4) + Checksum.total (b.take (word b 4)) := by
  have heven : (Checksum.pseudoOctets src dst 17 (UInt16.ofNat (word b 4))).length % 2 = 0 := by
    rw [Checksum.length_pseudoOctets]
  unfold covered
  rw [Checksum.total_append _ heven, Checksum.total_pseudoOctets, toNat_ofNat_word]
  rfl

theorem total_covered_pos (b : Octets) (src dst : Ipv4.Address) : 0 < Checksum.total (covered b src dst) := by
  rw [total_covered]
  omega

theorem verifyChecksum?_eq_allOnes (h1 : 8 ≤ word b 4) (h2 : word b 4 ≤ b.length) (hsum : word b 6 ≠ 0)
    (src dst : Ipv4.Address) :
    verifyChecksum? b src dst = some (decide (Checksum.AllOnes (covered b src dst))) := by
  obtain ⟨valid, hv, hvalid⟩ := verifyChecksum?_eq_some h1 h2 src dst
  rw [sumOf_eq_ones_iff, or_iff_right hsum] at hvalid
  rw [hv, Option.some_inj, Bool.eq_iff_iff, hvalid, decide_eq_true_eq]
  rfl

/-! ## Filling the checksum in -/

/-- The datagram with its checksum. -/
def filled (b : Octets) (src dst : Ipv4.Address) : Octets := setWord b 6 (checksumFor (setWord b 6 0) src dst)

theorem fillChecksum?_of_le (h1 : 8 ≤ word b 4) (h2 : word b 4 ≤ b.length) (src dst : Ipv4.Address) :
    fillChecksum? b src dst = some (filled b src dst) := by
  have hlen : word (setWord b 6 0) 4 = word b 4 := word_setWord_ne b (by decide) 0
  unfold fillChecksum? setChecksum?
  rw [write?_word (by omega)]
  simp only [Bind.bind, Option.bind]
  rw [sum?_eq_some (by rw [length_setWord]; omega) (by rw [length_setWord, hlen]; exact h2)]
  show write? (setWord b 6 0) 6 (ofWord16 (checksumFor (setWord b 6 0) src dst)) = _
  rw [write?_word (by rw [length_setWord]; omega), setWord_setWord]
  rfl

theorem length_filled (b : Octets) (src dst : Ipv4.Address) : (filled b src dst).length = b.length :=
  length_setWord ..

theorem word_len_filled (b : Octets) (src dst : Ipv4.Address) : word (filled b src dst) 4 = word b 4 :=
  word_setWord_ne b (by decide) _

theorem word_checksum_filled (h : 8 ≤ b.length) (src dst : Ipv4.Address) : word (filled b src dst) 6 ≠ 0 := by
  unfold filled
  rw [word_setWord_self (by omega)]
  exact (checksumFor_mod _ src dst).1

/-- The checksum makes up for what the other words lack. -/
theorem dvd_total_filled (h1 : 8 ≤ word b 4) (h2 : word b 4 ≤ b.length) (src dst : Ipv4.Address) :
    65535 ∣ Checksum.total (covered (filled b src dst) src dst) := by
  have hlen : word (setWord b 6 0) 4 = word b 4 := word_setWord_ne b (by decide) 0
  have hsix : 6 + 2 ≤ (b.take (word b 4)).length := by rw [List.length_take]; omega
  have hfilled := Checksum.total_setWord rfl hsix (checksumFor (setWord b 6 0) src dst)
  have hcleared := Checksum.total_setWord rfl hsix 0
  have hzero : (0 : UInt16).toNat = 0 := rfl
  obtain ⟨-, hmod⟩ := checksumFor_mod (setWord b 6 0) src dst
  have hlt := (sumOf (setWord b 6 0) src dst).toNat_lt
  -- the sum that the checksum completes, its word still zero
  have hcarried := congrArg (· % 65535) (toNat_sumOf (setWord b 6 0) src dst)
  simp only [Checksum.carried_mod] at hcarried
  rw [Checksum.total_pseudoOctets, toNat_ofNat_word, hlen, take_setWord] at hcarried
  have hprotocol : (17 : UInt8).toNat = 17 := rfl
  rw [total_covered, word_len_filled]
  unfold filled
  rw [take_setWord]
  omega

theorem allOnes_filled_iff (h1 : 8 ≤ word b 4) (h2 : word b 4 ≤ b.length) (src dst src' dst' : Ipv4.Address) :
    Checksum.AllOnes (covered (filled b src dst) src' dst') ↔
      Checksum.total (src'.octets ++ dst'.octets) % 65535 = Checksum.total (src.octets ++ dst.octets) % 65535 := by
  have hdvd := dvd_total_filled h1 h2 src dst
  rw [total_covered] at hdvd
  unfold Checksum.AllOnes
  rw [total_covered]
  omega

/-! ## Changing a datagram -/

theorem byte_covered (src dst : Ipv4.Address) {i : Nat} (h : i < word b 4) :
    byte (covered b src dst) (12 + i) = byte b i := by
  have hlen := Checksum.length_pseudoOctets src dst 17 (UInt16.ofNat (word b 4))
  rw [← byte_take b h]
  unfold covered byte
  rw [List.getD_eq_getElem?_getD, List.getElem?_append_right (by omega), hlen, Nat.add_sub_cancel_left,
    ← List.getD_eq_getElem?_getD]

theorem word_covered (src dst : Ipv4.Address) {i : Nat} (h : i + 2 ≤ word b 4) :
    word (covered b src dst) (12 + i) = word b i := by
  unfold word
  rw [Nat.add_assoc, byte_covered src dst (by omega), byte_covered src dst (by omega)]

theorem length_covered (h : word b 4 ≤ b.length) (src dst : Ipv4.Address) :
    (covered b src dst).length = 12 + word b 4 := by
  unfold covered
  rw [List.length_append, Checksum.length_pseudoOctets, List.length_take, Nat.min_eq_left h]

theorem covered_set (src dst : Ipv4.Address) {i : Nat} {v : UInt8} (h4 : word (b.set i v) 4 = word b 4) :
    covered (b.set i v) src dst = (covered b src dst).set (12 + i) v := by
  have hlen := Checksum.length_pseudoOctets src dst 17 (UInt16.ofNat (word b 4))
  unfold covered
  rw [h4, List.take_set, List.set_append_right _ _ (by omega), hlen, Nat.add_sub_cancel_left]

theorem covered_setWord (src dst : Ipv4.Address) {i : Nat} {w : UInt16} (h4 : word (setWord b i w) 4 = word b 4) :
    covered (setWord b i w) src dst = setWord (covered b src dst) (12 + i) w := by
  have hlen := Checksum.length_pseudoOctets src dst 17 (UInt16.ofNat (word b 4))
  unfold covered
  rw [h4]
  unfold setWord
  rw [List.take_set, List.take_set, List.set_append_right _ _ (by omega), List.set_append_right _ _ (by omega), hlen,
    Nat.add_assoc, Nat.add_sub_cancel_left, Nat.add_sub_cancel_left]

section Change

variable (h1 : 8 ≤ word b 4) (h2 : word b 4 ≤ b.length) {src dst : Ipv4.Address} {i : Nat}

include h1 h2

/-- Another word goes unnoticed only between zero and all ones. -/
theorem verifyChecksum?_setWord (hsum : word b 6 ≠ 0) (hb : Checksum.AllOnes (covered b src dst)) {w : UInt16}
    (he : i % 2 = 0) (hi : i + 2 ≤ word b 4) (hi4 : i ≠ 4) (hi6 : i ≠ 6) (hne : w.toNat ≠ word b i) :
    verifyChecksum? (setWord b i w) src dst =
      some (decide (word b i = 0 ∧ w = 0xffff ∨ word b i = 0xffff ∧ w = 0)) := by
  have h4 : word (setWord b i w) 4 = word b 4 := word_setWord_ne b (by omega) w
  have h6 : word (setWord b i w) 6 = word b 6 := word_setWord_ne b (by omega) w
  have hlen := length_covered h2 src dst
  have hword := word_covered src dst hi
  have hpos := total_covered_pos (setWord b i w) src dst
  rw [covered_setWord src dst h4] at hpos
  rw [verifyChecksum?_eq_allOnes (by omega) (by rw [length_setWord]; omega) (by rw [h6]; exact hsum), Option.some_inj,
    decide_eq_decide, covered_setWord src dst h4, ← hword]
  exact Checksum.allOnes_setWord_iff (by omega) (by omega) (by rw [hword]; exact hne) hb hpos

/-- Another byte never goes unnoticed, be it the last one of an odd length. -/
theorem verifyChecksum?_set (hsum : word b 6 ≠ 0) (hb : Checksum.AllOnes (covered b src dst)) {v : UInt8}
    (hi : i < word b 4) (hout : i < 4 ∨ 8 ≤ i) (hne : v.toNat ≠ byte b i) :
    verifyChecksum? (b.set i v) src dst = some false := by
  have hword : ∀ j, 4 ≤ j → j + 2 ≤ 8 → word (b.set i v) j = word b j := fun j hj hj' => by
    unfold word
    rw [byte_set_ne b (by omega), byte_set_ne b (by omega)]
  have h4 := hword 4 (by decide) (by decide)
  have h6 := hword 6 (by decide) (by decide)
  have hlen := length_covered h2 src dst
  rw [verifyChecksum?_eq_allOnes (by omega) (by rw [List.length_set]; omega) (by rw [h6]; exact hsum), Option.some_inj,
    decide_eq_false_iff_not, covered_set src dst h4]
  exact Checksum.not_allOnes_set (by omega) (by rw [byte_covered src dst hi]; exact hne) hb

end Change

/-- The checksum of a datagram of even or odd length. Filling it in changes just its two bytes and leaves no zero
there. Afterwards the datagram verifies exactly with the addresses whose words have the same sum modulo 65535. With
its own ones it does not verify with another word in the place of one of its own, unless these two are zero and all
ones; and so it does not with any other byte. -/
theorem datagram_protected (h1 : 8 ≤ word b 4) (h2 : word b 4 ≤ b.length) (src dst : Ipv4.Address) :
    ∃ f, fillChecksum? b src dst = some f ∧
      f.length = b.length ∧ (∀ i, i ≠ 6 → i ≠ 7 → f[i]? = b[i]?) ∧ word f 6 ≠ 0 ∧
      verifyChecksum? f src dst = some true ∧
      (∀ src' dst' : Ipv4.Address, verifyChecksum? f src' dst' = some (decide
        (Checksum.total (src'.octets ++ dst'.octets) % 65535 = Checksum.total (src.octets ++ dst.octets) % 65535))) ∧
      (∀ i (w : UInt16), i % 2 = 0 → i + 2 ≤ word b 4 → i ≠ 4 → i ≠ 6 → w.toNat ≠ word f i →
        (write? f i (ofWord16 w)).bind (verifyChecksum? · src dst) =
          some (decide (word f i = 0 ∧ w = 0xffff ∨ word f i = 0xffff ∧ w = 0))) ∧
      (∀ i (v : UInt8), i < word b 4 → i < 4 ∨ 8 ≤ i → v.toNat ≠ byte f i →
        (write? f i [v]).bind (verifyChecksum? · src dst) = some false) := by
  have hfill := fillChecksum?_of_le h1 h2 src dst
  have hkept : ∀ i, i ≠ 6 → i ≠ 7 → (filled b src dst)[i]? = b[i]? := fun i hi hi' => getElem?_setWord_ne b hi hi' _
  have hsum := word_checksum_filled (by omega : 8 ≤ b.length) src dst
  have hlen := length_filled b src dst
  have h4 := word_len_filled b src dst
  have hverify : ∀ src' dst' : Ipv4.Address, verifyChecksum? (filled b src dst) src' dst' = some (decide
      (Checksum.total (src'.octets ++ dst'.octets) % 65535 = Checksum.total (src.octets ++ dst.octets) % 65535)) :=
    fun src' dst' => by
      rw [verifyChecksum?_eq_allOnes (by omega) (by omega) hsum, Option.some_inj, decide_eq_decide]
      exact allOnes_filled_iff h1 h2 src dst src' dst'
  have hones := (allOnes_filled_iff h1 h2 src dst src dst).2 rfl
  generalize filled b src dst = f at *
  refine ⟨f, hfill, hlen, hkept, hsum, (hverify src dst).trans (by rw [decide_eq_true rfl]), hverify, ?_, ?_⟩
  · intro i w he hi hi4 hi6 hne
    rw [write?_word (by omega)]
    exact verifyChecksum?_setWord (by omega) (by omega) hsum hones he (by omega) hi4 hi6 hne
  · intro i v hi hout hne
    rw [write?_byte (by omega)]
    exact verifyChecksum?_set (by omega) (by omega) hsum hones (by omega) hout hne

/-- A datagram of odd length in front of a trailing byte. Between 10.0.0.2 and 10.0.0.1 it adds up to all ones, so
the complement is zero. -/
def oddDatagram : Octets := [0xfc, 0xcd, 0, 7, 0, 11, 0, 0, 0, 0, 0xef, 0xff]

/-- It gets a checksum all the same. This one does not tell the addresses from each other, nor zero from all ones,
but the last byte is protected. -/
theorem datagram_protected_odd : 8 ≤ word oddDatagram 4 ∧ word oddDatagram 4 ≤ oddDatagram.length ∧
    ∃ f, fillChecksum? oddDatagram ⟨10, 0, 0, 2⟩ ⟨10, 0, 0, 1⟩ = some f ∧ word f 6 ≠ 0 ∧
      verifyChecksum? f ⟨10, 0, 0, 1⟩ ⟨10, 0, 0, 2⟩ = some true ∧
      verifyChecksum? f ⟨10, 0, 0, 2⟩ ⟨10, 0, 0, 3⟩ = some false ∧
      (write? f 8 (ofWord16 0xffff)).bind (verifyChecksum? · ⟨10, 0, 0, 2⟩ ⟨10, 0, 0, 1⟩) = some true ∧
      (write? f 10 [0xee]).bind (verifyChecksum? · ⟨10, 0, 0, 2⟩ ⟨10, 0, 0, 1⟩) = some false := by
  have h1 : 8 ≤ word oddDatagram 4 := by decide
  have h2 : word oddDatagram 4 ≤ oddDatagram.length := by decide
  obtain ⟨f, hfill, -, hkept, hsum, -, hverify, hword, hbyte⟩ :=
    datagram_protected h1 h2 ⟨10, 0, 0, 2⟩ ⟨10, 0, 0, 1⟩
  have hread : ∀ i, i ≠ 6 → i ≠ 7 → byte f i = byte oddDatagram i := fun i hi hi' => by
    unfold byte
    rw [List.getD_eq_getElem?_getD, hkept i hi hi', ← List.getD_eq_getElem?_getD]
  have hzero : word f 8 = 0 := by
    unfold word
    rw [hread 8 (by decide) (by decide), hread 9 (by decide) (by decide)]
    decide
  have hlast : byte f 10 = 0xef := (hread 10 (by decide) (by decide)).trans (by decide)
  refine ⟨h1, h2, f, hfill, hsum, (hverify ..).trans (by decide), (hverify ..).trans (by decide), ?_, ?_⟩
  · rw [hword 8 0xffff rfl (by decide) (by decide) (by decide) (by rw [hzero]; decide), hzero]
    decide
  · exact hbyte 10 0xee (by decide) (by decide) (by rw [hlast]; decide)

end UdpStack.Udp.Header
