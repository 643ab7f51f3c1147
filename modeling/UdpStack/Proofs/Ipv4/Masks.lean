/-
Masks and subnets, octet by octet. A mask keeps, and the last address of a subnet fills, each octet
for itself (`mask_eq`, `subnetBroadcast_eq`), so all addresses of a subnet share its last address
(`subnetBroadcast_congr`), and that one belongs to the subnet (`mask_subnetBroadcast`). Under a mask of at
least eight leading bits it also has their first octet (`a_subnetBroadcast`). An address is itself the last one
of its subnet when all its bits behind the mask are ones (`subnetBroadcast_eq_self_iff`). The masks without a gap
are those that have a length (`prefixLen?_isSome_iff`), and under such a mask the subnet of an address that is no
group does not end in one (`isMulticast_subnetBroadcast`).
-/
import UdpStack.Ipv4.Address
import Mathlib.Tactic

namespace UdpStack.Ipv4.Address

open Octets

/-! ## Words bit by bit -/

/-- The bits of a word are those of its octets, the last octet first. -/
theorem testBit_word32 (a b c d : UInt8) (i : Nat) : (word32 a b c d).toNat.testBit i =
    if i < 8 then d.toNat.testBit i
    else if i - 8 < 8 then c.toNat.testBit (i - 8)
    else if i - 8 - 8 < 8 then b.toNat.testBit (i - 8 - 8)
    else a.toNat.testBit (i - 8 - 8 - 8) := by
  have hd : d.toNat < 2 ^ 8 := d.toNat_lt
  have hc : c.toNat < 2 ^ 8 := c.toNat_lt
  have hb : b.toNat < 2 ^ 8 := b.toNat_lt
  have hw : (word32 a b c d).toNat = 2 ^ 8 * (2 ^ 8 * (2 ^ 8 * a.toNat + b.toNat) + c.toNat) + d.toNat := by
    rw [toNat_word32]
    omega
  rw [hw, Nat.testBit_two_pow_mul_add _ hd, Nat.testBit_two_pow_mul_add _ hc, Nat.testBit_two_pow_mul_add _ hb]

/-- An operation on each pair of bits acts on each octet for itself. -/
theorem word32_zipBits {f : Bool → Bool → Bool} {op : UInt8 → UInt8 → UInt8} {op' : UInt32 → UInt32 → UInt32}
    (hop : ∀ x y i, (op x y).toNat.testBit i = f (x.toNat.testBit i) (y.toNat.testBit i))
    (hop' : ∀ x y i, (op' x y).toNat.testBit i = f (x.toNat.testBit i) (y.toNat.testBit i))
    (a b c d a' b' c' d' : UInt8) :
    op' (word32 a b c d) (word32 a' b' c' d') = word32 (op a a') (op b b') (op c c') (op d d') := by
  apply UInt32.toNat_inj.1
  apply Nat.eq_of_testBit_eq
  intro i
  simp only [hop, hop', testBit_word32]
  split
  · rfl
  split
  · rfl
  split <;> rfl

theorem word32_and (a b c d a' b' c' d' : UInt8) :
    word32 a b c d &&& word32 a' b' c' d' = word32 (a &&& a') (b &&& b') (c &&& c') (d &&& d') :=
  word32_zipBits (fun x y i => by rw [UInt8.toNat_and, Nat.testBit_and])
    (fun x y i => by rw [UInt32.toNat_and, Nat.testBit_and]) a b c d a' b' c' d'

theorem word32_or (a b c d a' b' c' d' : UInt8) :
    word32 a b c d ||| word32 a' b' c' d' = word32 (a ||| a') (b ||| b') (c ||| c') (d ||| d') :=
  word32_zipBits (fun x y i => by rw [UInt8.toNat_or, Nat.testBit_or])
    (fun x y i => by rw [UInt32.toNat_or, Nat.testBit_or]) a b c d a' b' c' d'

theorem word32_not (a b c d : UInt8) : ~~~word32 a b c d = word32 (~~~a) (~~~b) (~~~c) (~~~d) := by
  apply UInt32.toNat_inj.1
  have := a.toNat_lt
  have := b.toNat_lt
  have := c.toNat_lt
  have := d.toNat_lt
  simp only [UInt32.toNat_not, UInt8.toNat_not, toNat_word32, UInt32.size, UInt8.size]
  omega

/-! ## Subnets -/

/-- A mask keeps bits of each octet. -/
theorem mask_eq (x m : Address) : x.mask m = ⟨x.a &&& m.a, x.b &&& m.b, x.c &&& m.c, x.d &&& m.d⟩ := by
  unfold mask toWord
  rw [word32_and]
  exact ofWord_toWord ⟨_, _, _, _⟩

/-- The last address has all bits that the mask leaves. -/
theorem subnetBroadcast_eq (x m : Address) :
    x.subnetBroadcast m = ⟨x.a ||| ~~~m.a, x.b ||| ~~~m.b, x.c ||| ~~~m.c, x.d ||| ~~~m.d⟩ := by
  unfold subnetBroadcast toWord
  rw [word32_not, word32_or]
  exact ofWord_toWord ⟨_, _, _, _⟩

theorem or_not_and (x m : UInt8) : (x ||| ~~~m) &&& m = x &&& m := by
  apply UInt8.toBitVec_inj.1
  ext i hi
  simp only [UInt8.toBitVec_and, UInt8.toBitVec_or, UInt8.toBitVec_not, BitVec.getElem_and, BitVec.getElem_or,
    BitVec.getElem_not]
  cases x.toBitVec[i] <;> cases m.toBitVec[i] <;> rfl

theorem and_or_not (x m : UInt8) : x &&& m ||| ~~~m = x ||| ~~~m := by
  apply UInt8.toBitVec_inj.1
  ext i hi
  simp only [UInt8.toBitVec_and, UInt8.toBitVec_or, UInt8.toBitVec_not, BitVec.getElem_and, BitVec.getElem_or,
    BitVec.getElem_not]
  cases x.toBitVec[i] <;> cases m.toBitVec[i] <;> rfl

/-- The last address belongs to the subnet. -/
theorem mask_subnetBroadcast (x m : Address) : (x.subnetBroadcast m).mask m = x.mask m := by
  rw [mask_eq, mask_eq, subnetBroadcast_eq]
  simp only [or_not_and]

/-- Masking twice is masking once. -/
theorem mask_mask (x m : Address) : (x.mask m).mask m = x.mask m := by
  simp only [mask_eq, UInt8.and_assoc, UInt8.and_self]

theorem subnetBroadcast_mask (x m : Address) : (x.mask m).subnetBroadcast m = x.subnetBroadcast m := by
  simp only [subnetBroadcast_eq, mask_eq, and_or_not]

/-- All addresses of a subnet have the same last address. -/
theorem subnetBroadcast_congr {x y m : Address} (h : x.mask m = y.mask m) :
    x.subnetBroadcast m = y.subnetBroadcast m := by
  rw [← subnetBroadcast_mask x, h, subnetBroadcast_mask]

/-! ## Leading bits -/

/-- The leading ones are ones. -/
theorem testBit_of_leadingOnes (w : Nat) : ∀ (k i : Nat), i < k → k ≤ leadingOnes w k + i → w.testBit i = true
  | k + 1, i, hi, hk => by
    unfold leadingOnes at hk
    split at hk
    · rename_i hw
      rcases Nat.lt_succ_iff_lt_or_eq.1 hi with hi | rfl
      · exact testBit_of_leadingOnes w k i hi (by omega)
      · exact hw
    · omega

theorem leadingOnes_of_prefixLen? {m : Address} {k : Nat} (h : m.prefixLen? = some k) :
    leadingOnes m.toWord.toNat 32 = k := by
  unfold prefixLen? at h
  dsimp only at h
  split at h
  · exact Option.some.inj h
  · cases h

/-- A mask of eight leading bits or more has all bits of the first octet. -/
theorem a_of_prefixLen? {m : Address} {k : Nat} (h : m.prefixLen? = some k) (hk : 8 ≤ k) : m.a = 255 := by
  have hones := leadingOnes_of_prefixLen? h
  apply UInt8.toNat_inj.1
  apply Nat.eq_of_testBit_eq
  intro i
  show m.a.toNat.testBit i = (2 ^ 8 - 1).testBit i
  rw [Nat.testBit_two_pow_sub_one]
  by_cases hi : i < 8
  · have hw := testBit_of_leadingOnes m.toWord.toNat 32 (i + 8 + 8 + 8) (by omega) (by omega)
    unfold toWord at hw
    rw [testBit_word32] at hw
    simp only [Nat.add_sub_cancel] at hw
    rw [if_neg (by omega), if_neg (by omega), if_neg (by omega)] at hw
    rw [hw, decide_eq_true hi]
  · have hlt : m.a.toNat < 2 ^ i :=
      Nat.lt_of_lt_of_le m.a.toNat_lt (Nat.pow_le_pow_right (by decide) (by omega))
    rw [Nat.testBit_lt_two_pow hlt, decide_eq_false hi]

/-- The last address keeps the first octet under a mask of eight leading bits or more. -/
theorem a_subnetBroadcast {x m : Address} {k : Nat} (h : m.prefixLen? = some k) (hk : 8 ≤ k) :
    (x.subnetBroadcast m).a = x.a := by
  rw [subnetBroadcast_eq, a_of_prefixLen? h hk]
  show x.a ||| 0 = x.a
  exact UInt8.or_zero

/-! ## The last address of its own subnet -/

/-- Setting bits that are set already changes nothing. -/
theorem or_eq_left_iff (x y : Nat) : x ||| y = x ↔ y &&& x = y := by
  constructor
  · intro h
    rw [← h]
    apply Nat.eq_of_testBit_eq
    intro i
    simp only [Nat.testBit_and, Nat.testBit_or]
    cases x.testBit i <;> cases y.testBit i <;> rfl
  · intro h
    rw [← h]
    apply Nat.eq_of_testBit_eq
    intro i
    simp only [Nat.testBit_and, Nat.testBit_or]
    cases x.testBit i <;> cases y.testBit i <;> rfl

theorem toNat_netmask {p : Nat} (hp : p ≤ 32) : (netmask p).toWord.toNat = 2 ^ 32 - 2 ^ (32 - p) := by
  have h : ∀ q < 33, (netmask q).toWord.toNat = 2 ^ 32 - 2 ^ (32 - q) := by decide +kernel
  exact h p (by omega)

/-- An address is the last one of its subnet exactly when all its bits behind the mask are ones. -/
theorem subnetBroadcast_eq_self_iff (x : Address) {p : Nat} (hp : p ≤ 32) :
    x.subnetBroadcast (netmask p) = x ↔ x.toWord.toNat % 2 ^ (32 - p) = 2 ^ (32 - p) - 1 := by
  have hpos : 0 < 2 ^ (32 - p) := Nat.pow_pos (by decide)
  have hle : 2 ^ (32 - p) ≤ 2 ^ 32 := Nat.pow_le_pow_right (by decide) (by omega)
  have hrest : (~~~(netmask p).toWord).toNat = 2 ^ (32 - p) - 1 := by
    rw [UInt32.toNat_not, toNat_netmask hp, UInt32.size]
    omega
  have hword : x.subnetBroadcast (netmask p) = x ↔ x.toWord ||| ~~~(netmask p).toWord = x.toWord := by
    unfold subnetBroadcast
    constructor
    · intro h
      rw [← toWord_ofWord (x.toWord ||| _), h]
    · intro h
      rw [h, ofWord_toWord]
  rw [hword, ← UInt32.toNat_inj, UInt32.toNat_or, hrest, or_eq_left_iff, Nat.and_comm,
    Nat.and_two_pow_sub_one_eq_mod]

/-! ## Masks without a gap -/

/-- Masks that are one run of leading ones. -/
def Contiguous (m : Address) : Prop := ∃ n ≤ 32, m = netmask n

instance (m : Address) : Decidable m.Contiguous := inferInstanceAs (Decidable (∃ n ≤ 32, m = netmask n))

theorem prefixLen?_netmask {n : Nat} (hn : n ≤ 32) : (netmask n).prefixLen? = some n := by
  have h : ∀ k < 33, (netmask k).prefixLen? = some k := by decide +kernel
  exact h n (by omega)

theorem leadingOnes_le (w : Nat) : ∀ k : Nat, leadingOnes w k ≤ k
  | 0 => Nat.le_refl 0
  | k + 1 => by
    have ih := leadingOnes_le w k
    unfold leadingOnes
    split <;> omega

/-- The ones in front of a mask with nothing behind them are all of its ones. -/
theorem toNat_of_prefixLen? {m : Address} {k : Nat} (h : m.prefixLen? = some k) :
    m.toWord.toNat = 2 ^ 32 - 2 ^ (32 - k) := by
  have hones := leadingOnes_of_prefixLen? h
  have hk : k ≤ 32 := hones ▸ leadingOnes_le _ 32
  have hlt : m.toWord.toNat < 2 ^ 32 := m.toWord.toNat_lt
  have hsplit : 2 ^ (32 - k) * 2 ^ k = 2 ^ 32 := by rw [← Nat.pow_add, Nat.sub_add_cancel hk]
  have hrest : m.toWord.toNat % 2 ^ (32 - k) = 0 := by
    unfold prefixLen? at h
    dsimp only at h
    split at h
    · rename_i hz
      rw [hones, Nat.shiftLeft_eq, show UInt32.size = 2 ^ 32 from rfl, ← hsplit] at hz
      rw [Nat.mul_mod_mul_right] at hz
      exact (Nat.mul_eq_zero.1 hz).resolve_right (Nat.two_pow_pos k).ne'
    · cases h
  have hfront : m.toWord.toNat / 2 ^ (32 - k) = 2 ^ k - 1 := by
    apply Nat.eq_of_testBit_eq
    intro i
    rw [Nat.testBit_div_two_pow, Nat.testBit_two_pow_sub_one]
    by_cases hi : i < k
    · rw [testBit_of_leadingOnes _ 32 _ (by omega) (by omega), decide_eq_true hi]
    · have hpow : 2 ^ 32 ≤ 2 ^ (i + (32 - k)) := Nat.pow_le_pow_right (by decide) (by omega)
      rw [Nat.testBit_lt_two_pow (Nat.lt_of_lt_of_le hlt hpow), decide_eq_false hi]
  rw [← Nat.div_add_mod m.toWord.toNat (2 ^ (32 - k)), hfront, hrest, Nat.add_zero, Nat.mul_sub_one, hsplit]

theorem eq_netmask_of_prefixLen? {m : Address} {k : Nat} (h : m.prefixLen? = some k) :
    k ≤ 32 ∧ m = netmask k := by
  have hk : k ≤ 32 := leadingOnes_of_prefixLen? h ▸ leadingOnes_le _ 32
  refine ⟨hk, ?_⟩
  have hword : m.toWord = (netmask k).toWord := by
    apply UInt32.toNat_inj.1
    rw [toNat_of_prefixLen? h, toNat_netmask hk]
  rw [← ofWord_toWord m, hword, ofWord_toWord]

/-- A mask has a length exactly when it has no gap. -/
theorem prefixLen?_isSome_iff {m : Address} : m.prefixLen?.isSome = true ↔ m.Contiguous := by
  constructor
  · intro h
    obtain ⟨k, hk⟩ := Option.isSome_iff_exists.1 h
    exact ⟨k, eq_netmask_of_prefixLen? hk⟩
  · rintro ⟨n, hn, rfl⟩
    rw [prefixLen?_netmask hn]
    rfl

/-! ## The loopback -/

/-- Only a subnet of loopback addresses ends in the address of the loopback: the masks of others leave the
last octet open, or keep the first. -/
theorem subnetBroadcast_ne_loopback {x m : Address} (hm : m.prefixLen?.isSome = true) (hx : x.isLoopback = false) :
    x.subnetBroadcast m ≠ .loopback := by
  obtain ⟨k, hk⟩ := Option.isSome_iff_exists.1 hm
  intro h
  by_cases hlong : 8 ≤ k
  · have ha := a_subnetBroadcast (x := x) hk hlong
    rw [h] at ha
    unfold isLoopback at hx
    rw [← ha] at hx
    cases hx
  · obtain ⟨-, rfl⟩ := eq_netmask_of_prefixLen? hk
    have hopen : ∀ n < 8, (netmask n).d = 0 := by decide +kernel
    have hd : x.d ||| ~~~(netmask k).d = 1 := by
      rw [subnetBroadcast_eq] at h
      exact congrArg d h
    rw [hopen k (by omega)] at hd
    have hall : x.d ||| ~~~0 = ~~~0 := UInt8.or_neg_one
    rw [hall] at hd
    exact absurd hd (by decide)

/-! ## Groups -/

/-- A mask leaves nothing of the first four bits of an address open, or at least the fourth one. -/
theorem a_netmask {n : Nat} (hn : n ≤ 32) :
    ~~~(netmask n).a &&& 0xf0 = 0 ∨ ~~~(netmask n).a &&& 0x10 = 0x10 := by
  have h : ∀ k < 33, ~~~(netmask k).a &&& 0xf0 = 0 ∨ ~~~(netmask k).a &&& 0x10 = 0x10 := by decide +kernel
  exact h n (by omega)

theorem or_and (x y z : UInt8) : (x ||| y) &&& z = x &&& z ||| y &&& z := by
  apply UInt8.toBitVec_inj.1
  simp only [UInt8.toBitVec_and, UInt8.toBitVec_or, BitVec.and_or_distrib_right]

/-- The subnet of an address that is no group does not end in a group. -/
theorem isMulticast_subnetBroadcast {x m : Address} (hm : m.prefixLen?.isSome = true) (hx : x.isMulticast = false) :
    (x.subnetBroadcast m).isMulticast = false := by
  obtain ⟨n, hn, rfl⟩ := prefixLen?_isSome_iff.1 hm
  unfold isMulticast at hx ⊢
  rw [subnetBroadcast_eq]
  dsimp only
  rcases a_netmask hn with hkept | hopen
  · rw [or_and, hkept, UInt8.or_zero]
    exact hx
  · -- the fourth bit of a group is not set
    rw [beq_eq_false_iff_ne]
    intro h
    have hbit : (x.a ||| ~~~(netmask n).a) &&& 0x10 = 0 := by
      have hsplit : (0x10 : UInt8) = 0xf0 &&& 0x10 := by decide
      rw [hsplit, ← UInt8.and_assoc, h]
      decide
    rw [or_and, hopen, UInt8.or_eq_zero_iff] at hbit
    exact absurd hbit.2 (by decide)

end UdpStack.Ipv4.Address
