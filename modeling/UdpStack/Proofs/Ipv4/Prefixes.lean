/-
Masks as prefixes, bit by bit. A mask of `n` leading ones is told by its bits (`bit_netmask`), so an address under it is
known by its first `n` bits (`mask_netmask_eq_iff`), and a mask has no length exactly if a one stands behind a zero
(`contiguous_iff`). A route covers the addresses that begin like its network; with a longer mask it
covers fewer of them (`masks_are_prefixes`).
-/
import UdpStack.Proofs.Ipv4.Routes

namespace UdpStack.Ipv4

namespace Address

/-- The bits of an address, the most significant one first. -/
def bit (x : Address) (i : Nat) : Bool := x.toWord.toNat.testBit (31 - i)

theorem testBit_toWord (x : Address) {i : Nat} (hi : i < 32) : x.toWord.toNat.testBit i = x.bit (31 - i) := by
  unfold bit
  congr 1
  omega

/-- An address is known by its bits. -/
theorem eq_iff_bits {x y : Address} : x = y ↔ ∀ i < 32, x.bit i = y.bit i := by
  constructor
  · rintro rfl i -
    rfl
  · intro h
    have hword : x.toWord = y.toWord := by
      apply UInt32.toNat_inj.1
      apply Nat.eq_of_testBit_eq
      intro i
      by_cases hi : i < 32
      · rw [testBit_toWord x hi, testBit_toWord y hi]
        exact h _ (by omega)
      · have hpow : 2 ^ 32 ≤ 2 ^ i := Nat.pow_le_pow_right (by decide) (by omega)
        rw [Nat.testBit_lt_two_pow (Nat.lt_of_lt_of_le x.toWord.toNat_lt hpow),
          Nat.testBit_lt_two_pow (Nat.lt_of_lt_of_le y.toWord.toNat_lt hpow)]
    rw [← ofWord_toWord x, hword, ofWord_toWord]

theorem bit_mask (x m : Address) (i : Nat) : (x.mask m).bit i = (x.bit i && m.bit i) := by
  unfold bit mask
  rw [toWord_ofWord, UInt32.toNat_and, Nat.testBit_and]

/-- The first bits of a mask are ones, and all others are zeros. -/
theorem bit_netmask {n i : Nat} (hn : n ≤ 32) (hi : i < 32) : (netmask n).bit i = decide (i < n) := by
  have hones : (netmask n).toWord.toNat = 2 ^ (32 - n) * (2 ^ n - 1) := by
    rw [toNat_netmask hn, Nat.mul_sub_one, ← Nat.pow_add, Nat.sub_add_cancel hn]
  unfold bit
  rw [hones, Nat.testBit_two_pow_mul, Nat.testBit_two_pow_sub_one]
  by_cases hlt : i < n
  · simp [hlt]
    omega
  · simp [hlt]
    omega

/-! ## Lengths -/

theorem prefixLen?_eq_some_iff {m : Address} {n : Nat} : m.prefixLen? = some n ↔ n ≤ 32 ∧ m = netmask n := by
  constructor
  · intro h
    exact eq_netmask_of_prefixLen? h
  · rintro ⟨hn, rfl⟩
    exact prefixLen?_netmask hn

/-- The ones of a mask without a gap are followed by zeros only. -/
theorem contiguous_iff {m : Address} :
    m.Contiguous ↔ ∀ i j, i < j → j < 32 → m.bit j = true → m.bit i = true := by
  constructor
  · rintro ⟨n, hn, rfl⟩ i j hij hj hbit
    rw [bit_netmask hn hj, decide_eq_true_eq] at hbit
    rw [bit_netmask hn (by omega), decide_eq_true_eq]
    omega
  · intro h
    -- the length is the place of the first zero
    have hex : ∃ n, n = 32 ∨ m.bit n = false := ⟨32, .inl rfl⟩
    have hle : Nat.find hex ≤ 32 := Nat.find_min' hex (.inl rfl)
    refine ⟨Nat.find hex, hle, ?_⟩
    rw [eq_iff_bits]
    intro i hi
    rw [bit_netmask hle hi]
    by_cases hlt : i < Nat.find hex
    · have hone := Nat.find_min hex hlt
      rw [not_or, Bool.not_eq_false] at hone
      rw [hone.2, decide_eq_true hlt]
    · rw [decide_eq_false hlt, ← Bool.not_eq_true]
      intro hbit
      have hzero : m.bit (Nat.find hex) = false := (Nat.find_spec hex).resolve_left (by omega)
      rcases Nat.lt_or_eq_of_le (Nat.not_lt.1 hlt) with hlater | heq
      · rw [h _ _ hlater hi hbit] at hzero
        cases hzero
      · rw [heq, hbit] at hzero
        cases hzero

theorem prefixLen?_eq_none_iff {m : Address} :
    m.prefixLen? = none ↔ ∃ i j, i < j ∧ j < 32 ∧ m.bit i = false ∧ m.bit j = true := by
  rw [← Option.not_isSome_iff_eq_none, prefixLen?_isSome_iff, contiguous_iff]
  constructor
  · intro h
    push Not at h
    obtain ⟨i, j, hij, hj, hone, hzero⟩ := h
    exact ⟨i, j, hij, hj, by simpa using hzero, hone⟩
  · rintro ⟨i, j, hij, hj, hzero, hone⟩ h
    rw [h i j hij hj hone] at hzero
    cases hzero

/-! ## Addresses under a mask -/

/-- Addresses are the same under a mask exactly if they begin with the same bits. -/
theorem mask_netmask_eq_iff {n : Nat} (hn : n ≤ 32) (x y : Address) :
    x.mask (netmask n) = y.mask (netmask n) ↔ ∀ i < n, x.bit i = y.bit i := by
  rw [eq_iff_bits]
  constructor
  · intro h i hi
    have hbit := h i (by omega)
    rw [bit_mask, bit_mask, bit_netmask hn (by omega), decide_eq_true hi, Bool.and_true, Bool.and_true] at hbit
    exact hbit
  · intro h i hi
    rw [bit_mask, bit_mask, bit_netmask hn hi]
    by_cases hlt : i < n
    · rw [h i hlt]
    · rw [decide_eq_false hlt, Bool.and_false, Bool.and_false]

end Address

open Address

/-- A route covers the addresses that begin like its network. -/
theorem Route.contains_iff {r : Route} {n : Nat} (h : r.mask.prefixLen? = some n) (x : Address) :
    r.contains x = true ↔ ∀ i < n, r.net.bit i = x.bit i := by
  obtain ⟨hn, hmask⟩ := prefixLen?_eq_some_iff.1 h
  unfold contains
  rw [hmask, beq_iff_eq, mask_netmask_eq_iff hn]

/-- The masks with a length are just the 33 masks of leading ones, one for each length, and any other mask has a one
behind a zero. Under a mask of `n` leading ones two addresses are the same exactly if their first `n` bits are. So of
two routes to one network the one with the longer mask covers nothing that the other one does not cover. -/
theorem masks_are_prefixes :
    (∀ (m : Address) (n : Nat), m.prefixLen? = some n ↔ n ≤ 32 ∧ m = netmask n) ∧
    (∀ m : Address, m.prefixLen? = none ↔ ∃ i j, i < j ∧ j < 32 ∧ m.bit i = false ∧ m.bit j = true) ∧
    (∀ n ≤ 32, ∀ i < 32, (netmask n).bit i = decide (i < n)) ∧
    (∀ n ≤ 32, ∀ x y : Address, x.mask (netmask n) = y.mask (netmask n) ↔ ∀ i < n, x.bit i = y.bit i) ∧
    ∀ (r r' : Route) (k n : Nat), r.net = r'.net → r.mask.prefixLen? = some k → r'.mask.prefixLen? = some n →
      n ≤ k → ∀ x, r.contains x = true → r'.contains x = true := by
  refine ⟨fun m n => prefixLen?_eq_some_iff, fun m => prefixLen?_eq_none_iff, fun n hn i hi => bit_netmask hn hi,
    fun n hn x y => mask_netmask_eq_iff hn x y, ?_⟩
  intro r r' k n hnet hk hn hle x hx
  rw [Route.contains_iff hk] at hx
  rw [Route.contains_iff hn]
  intro i hi
  rw [← hnet]
  exact hx i (by omega)

/-- Two routes to one network, with lengths inside different octets, and an address that both cover. -/
theorem masks_are_prefixes_nested :
    let r : Route := ⟨⟨10, 10, 15, 0⟩, ⟨255, 255, 240, 0⟩, .ethernet⟩
    let r' : Route := ⟨⟨10, 10, 15, 0⟩, ⟨255, 254, 0, 0⟩, .loopback⟩
    let x : Address := ⟨10, 10, 3, 5⟩
    (20 ≤ 32 ∧ 19 < 32 ∧ (netmask 20).bit 19 = true) ∧
    (20 ≤ 32 ∧ (∀ i < 20, r.net.bit i = x.bit i) ∧ r.net.mask (netmask 20) = x.mask (netmask 20)) ∧
    r.net = r'.net ∧ r.mask.prefixLen? = some 20 ∧ r'.mask.prefixLen? = some 15 ∧ 15 ≤ 20 ∧
      r.contains x = true ∧ r'.contains x = true := by
  intro r r' x
  obtain ⟨hlength, -, hones, hmask, hroutes⟩ := masks_are_prefixes
  have hbits : ∀ i < 20, r.net.bit i = x.bit i := by decide
  have hnet : r.net = r'.net := rfl
  have hk : r.mask.prefixLen? = some 20 := (hlength r.mask 20).2 ⟨by decide, by decide⟩
  have hn : r'.mask.prefixLen? = some 15 := (hlength r'.mask 15).2 ⟨by decide, by decide⟩
  have hx : r.contains x = true := by decide
  refine ⟨⟨by decide, by decide, (hones 20 (by decide) 19 (by decide)).trans (by decide)⟩,
    ⟨by decide, hbits, (hmask 20 (by decide) r.net x).2 hbits⟩, hnet, hk, hn, by decide, hx, ?_⟩
  exact hroutes r r' 20 15 hnet hk hn (by decide) x hx

end UdpStack.Ipv4
