/-
What the checksum of an internet header protects. Whether a header verifies is told by the sum of its words,
and this sum is never zero, for the length of the header is one of its numbers (`verifyChecksum?_of_kept`). The
checksum that is filled in completes the sum to all ones (`dvd_total_filled`). A header that verifies does not
verify with another word or with another bit, if its length is kept (`header_protected`).
-/
import UdpStack.Proofs.Checksum.Replacement
import UdpStack.Proofs.Ipv4.Reception

namespace UdpStack.Ipv4.Header

open Octets

variable {b : Octets}

theorem verifyChecksum?_eq_allOnes (hl : 20 ≤ b.length) (ho : lengthOf b ≤ b.length) :
    verifyChecksum? b = some (decide (Checksum.AllOnes (b.take (lengthOf b)))) := by
  have hle := lengthOf_le b
  rw [verifyChecksum?_of_le hl ho, beq_eq_decide, Option.some_inj, decide_eq_decide]
  exact Checksum.ofBytes_eq_ones_iff (by rw [List.length_take]; omega)

/-- As long as its length is kept, a header is summed up over the same bytes, and they are not all zero. -/
theorem verifyChecksum?_of_kept (h : checkLength b = .ok ()) {c : Octets} (hlen : c.length = b.length)
    (hkept : byte c 0 % 16 = byte b 0 % 16) :
    verifyChecksum? c = some (decide (Checksum.AllOnes (c.take (lengthOf b)))) ∧
      0 < Checksum.total (c.take (lengthOf b)) := by
  obtain ⟨hl, hi, ho⟩ := checkLength_eq_ok_iff.1 h
  have hof : lengthOf c = lengthOf b := congrArg (4 * ·) hkept
  have hpos : 0 < lengthOf b := by unfold lengthOf; omega
  refine ⟨?_, ?_⟩
  · rw [verifyChecksum?_eq_allOnes (by omega) (by omega), hof]
  · apply Checksum.total_pos (i := 0) (by rw [List.length_take]; omega)
    rw [byte_take c hpos]
    omega

theorem allOnes_of_verified (h : checkLength b = .ok ()) (hv : verifyChecksum? b = some true) :
    Checksum.AllOnes (b.take (lengthOf b)) := by
  rw [(verifyChecksum?_of_kept h rfl rfl).1, Option.some_inj, decide_eq_true_eq] at hv
  exact hv

/-! ## Filling the checksum in -/

/-- The complement of the sum without a checksum. -/
def checksumFor (b : Octets) : UInt16 := ~~~Checksum.ofBytes ((setWord b 10 0).take (lengthOf b))

theorem fillChecksum?_of_le (hl : 20 ≤ b.length) (ho : lengthOf b ≤ b.length) :
    fillChecksum? b = some (setWord b 10 (checksumFor b)) := by
  have hzero : byte (setWord b 10 0) 0 = byte b 0 := byte_setWord_ne b (by decide) (by decide) 0
  have hof : lengthOf (setWord b 10 0) = lengthOf b := congrArg (fun n => 4 * (n % 16)) hzero
  have hregion : region? (setWord b 10 0) = some ((setWord b 10 0).take (lengthOf b)) := by
    unfold region?
    rw [getElem?_of_lt (by rw [length_setWord]; omega), ← hof]
    show slice? _ 0 (declaredLen _) = _
    rw [declaredLen_eq, slice?_of_le (by rw [length_setWord]; omega)]
    rfl
  unfold fillChecksum? setChecksum?
  rw [write?_word (by omega)]
  simp only [Bind.bind, Option.bind]
  rw [hregion]
  show write? (setWord b 10 0) 10 (ofWord16 (checksumFor b)) = _
  rw [write?_word (by rw [length_setWord]; omega), setWord_setWord]

/-- The checksum makes up for what the other words lack. -/
theorem dvd_total_filled (hi : 5 ≤ byte b 0 % 16) (ho : lengthOf b ≤ b.length) :
    65535 ∣ Checksum.total ((setWord b 10 (checksumFor b)).take (lengthOf b)) := by
  have hle := lengthOf_le b
  have hten : 10 + 2 ≤ (b.take (lengthOf b)).length := by rw [List.length_take]; unfold lengthOf at *; omega
  have hfilled := Checksum.total_setWord rfl hten (checksumFor b)
  have hcleared := Checksum.total_setWord rfl hten 0
  have hzero : (0 : UInt16).toNat = 0 := rfl
  have hsum : (checksumFor b).toNat =
      65535 - Checksum.carried (Checksum.total (setWord (b.take (lengthOf b)) 10 0)) := by
    unfold checksumFor
    rw [Checksum.toNat_complement, take_setWord,
      Checksum.toNat_ofBytes (by rw [length_setWord, List.length_take]; omega)]
  have hmod := Checksum.add_complement_mod (Checksum.total (setWord (b.take (lengthOf b)) 10 0))
  rw [take_setWord]
  omega

/-! ## Changing a header that verifies -/

/-- Another word in the header goes unnoticed only between zero and all ones. -/
theorem verifyChecksum?_setWord (h : checkLength b = .ok ()) (hv : verifyChecksum? b = some true) {i : Nat}
    {w : UInt16} (he : i % 2 = 0) (hi : i + 2 ≤ lengthOf b) (hne : w.toNat ≠ word b i)
    (hkept : i = 0 → w.toNat / 256 % 16 = byte b 0 % 16) : verifyChecksum? (setWord b i w) =
      some (decide (word b i = 0 ∧ w = 0xffff ∨ word b i = 0xffff ∧ w = 0)) := by
  obtain ⟨-, -, ho⟩ := checkLength_eq_ok_iff.1 h
  have hbyte : byte (setWord b i w) 0 % 16 = byte b 0 % 16 := by
    rcases Nat.eq_zero_or_pos i with rfl | hpos
    · rw [byte_setWord_self (by omega)]
      exact hkept rfl
    · rw [byte_setWord_ne b (by omega) (by omega)]
  obtain ⟨hafter, hpos⟩ := verifyChecksum?_of_kept h (length_setWord b i w) hbyte
  have hword := word_take b hi
  rw [take_setWord] at hafter hpos
  rw [hafter, Option.some_inj, decide_eq_decide, ← hword]
  exact Checksum.allOnes_setWord_iff he (by rw [List.length_take]; omega) (by rw [hword]; exact hne)
    (allOnes_of_verified h hv) hpos

/-- The bytes with a bit flipped, bit 0 of a byte being the least one. -/
def flipBit (b : Octets) (i k : Nat) : Octets := b.set i (b.getD i 0 ^^^ (1 <<< UInt8.ofNat k))

theorem toNat_flipped (x : UInt8) {k : Nat} (h : k < 8) :
    (x ^^^ (1 <<< UInt8.ofNat k)).toNat = x.toNat ^^^ 2 ^ k := by
  have hbit : ((1 : UInt8) <<< UInt8.ofNat k).toNat = 2 ^ k := by interval_cases k <;> rfl
  rw [UInt8.toNat_xor, hbit]

theorem toNat_flipped_ne (x : UInt8) {k : Nat} (h : k < 8) : (x ^^^ (1 <<< UInt8.ofNat k)).toNat ≠ x.toNat := by
  rw [toNat_flipped x h]
  intro hsame
  have hcancel : x.toNat ^^^ 2 ^ k = x.toNat ^^^ 0 := by rw [hsame, Nat.xor_zero]
  exact absurd (Nat.xor_right_inj.1 hcancel) (by positivity)

/-- A bit of the upper half of a byte is none of its lower half. -/
theorem toNat_flipped_mod (x : UInt8) {k : Nat} (h : k < 8) (hk : 4 ≤ k) :
    (x ^^^ (1 <<< UInt8.ofNat k)).toNat % 16 = x.toNat % 16 := by
  have hlow : 2 ^ k % 2 ^ 4 = 0 := Nat.mod_eq_zero_of_dvd (pow_dvd_pow 2 hk)
  rw [toNat_flipped x h]
  show _ % 2 ^ 4 = _ % 2 ^ 4
  rw [Nat.xor_mod_two_pow, hlow, Nat.xor_zero]

theorem verifyChecksum?_flipBit (h : checkLength b = .ok ()) (hv : verifyChecksum? b = some true) {i k : Nat}
    (hi : i < lengthOf b) (hk : k < 8) (hkept : i = 0 → 4 ≤ k) : verifyChecksum? (flipBit b i k) = some false := by
  obtain ⟨-, -, ho⟩ := checkLength_eq_ok_iff.1 h
  have hbyte : byte (flipBit b i k) 0 % 16 = byte b 0 % 16 := by
    unfold flipBit
    rcases Nat.eq_zero_or_pos i with rfl | hpos
    · rw [byte_set_self (by omega)]
      exact toNat_flipped_mod _ hk (hkept rfl)
    · rw [byte_set_ne b (by omega)]
  have hne : (b.getD i 0 ^^^ (1 <<< UInt8.ofNat k)).toNat ≠ byte (b.take (lengthOf b)) i := by
    rw [byte_take b hi]
    exact toNat_flipped_ne _ hk
  rw [(verifyChecksum?_of_kept h (c := flipBit b i k) List.length_set hbyte).1, Option.some_inj,
    decide_eq_false_iff_not]
  unfold flipBit
  rw [List.take_set]
  exact Checksum.not_allOnes_set (by rw [List.length_take]; omega) hne (allOnes_of_verified h hv)

/-- The checksum of a header. Filling it in changes just its two bytes, and then it verifies. As long as the length
of a header that verifies is kept, it does not verify with another word in the place of one of its own, unless these
two are zero and all ones; and so it does not with any other bit. -/
theorem header_protected (h : checkLength b = .ok ()) :
    (∃ f, fillChecksum? b = some f ∧ f.length = b.length ∧ (∀ i, i ≠ 10 → i ≠ 11 → f[i]? = b[i]?) ∧
      verifyChecksum? f = some true) ∧
    (verifyChecksum? b = some true →
      (∀ i (w : UInt16), i % 2 = 0 → i + 2 ≤ lengthOf b → w.toNat ≠ word b i →
        (i = 0 → w.toNat / 256 % 16 = byte b 0 % 16) →
        (write? b i (ofWord16 w)).bind verifyChecksum? =
          some (decide (word b i = 0 ∧ w = 0xffff ∨ word b i = 0xffff ∧ w = 0))) ∧
      (∀ i k, i < lengthOf b → k < 8 → (i = 0 → 4 ≤ k) → verifyChecksum? (flipBit b i k) = some false)) := by
  obtain ⟨hl, hi, ho⟩ := checkLength_eq_ok_iff.1 h
  refine ⟨⟨_, fillChecksum?_of_le hl ho, length_setWord .., fun i h1 h2 => getElem?_setWord_ne b h1 h2 _, ?_⟩,
    fun hv => ⟨fun i w he hw hne hkept => ?_, fun i k hib hk hkept => verifyChecksum?_flipBit h hv hib hk hkept⟩⟩
  · obtain ⟨hafter, hpos⟩ := verifyChecksum?_of_kept h (length_setWord b 10 (checksumFor b))
      (by rw [byte_setWord_ne b (by decide) (by decide)])
    rw [hafter, Option.some_inj, decide_eq_true_eq]
    exact ⟨hpos, dvd_total_filled hi ho⟩
  · rw [write?_word (by omega)]
    exact verifyChecksum?_setWord h hv he hw hne hkept

/-- A header with options, no number and a checksum. -/
def withOptions : Octets :=
  [0x46, 0, 0, 24, 0, 0, 0x40, 0, 64, 17, 0x23, 0xd2, 10, 0, 0, 2, 10, 0, 0, 1, 1, 1, 1, 0]

/-- Its number may become all ones, but no other one; and its options are protected as well. -/
theorem header_protected_options : checkLength withOptions = .ok () ∧ verifyChecksum? withOptions = some true ∧
    (write? withOptions 4 (ofWord16 0xffff)).bind verifyChecksum? = some true ∧
    (write? withOptions 4 (ofWord16 1)).bind verifyChecksum? = some false ∧
    verifyChecksum? (flipBit withOptions 23 0) = some false := by
  have h : checkLength withOptions = .ok () := rfl
  have hv : verifyChecksum? withOptions = some true := by decide
  obtain ⟨-, hchanged⟩ := header_protected h
  obtain ⟨hword, hbit⟩ := hchanged hv
  have hones := hword 4 0xffff rfl (by decide) (by decide) (by decide)
  have hone := hword 4 1 rfl (by decide) (by decide) (by decide)
  exact ⟨h, hv, hones.trans (by decide), hone.trans (by decide), hbit 23 0 (by decide) (by decide) (by decide)⟩

end UdpStack.Ipv4.Header
