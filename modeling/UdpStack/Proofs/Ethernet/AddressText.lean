/-
The texts that are read as hardware addresses. A text has one list of components that are joined by colons
(`components_iff`), and reading takes the first six of them in turn; each is the numeral of one octet in base sixteen,
of any length and after at most one plus sign (`octet?_eq_some_iff`). So a text is read exactly if it has six components
and all are such numerals, and otherwise the first six alone decide which fault is reported (`ofText_grammar`).
-/
import UdpStack.Ethernet.Address
import Mathlib.Tactic

namespace UdpStack.Text

/-! ## Numerals in base sixteen -/

/-- The digits of either case, each one at the place of its value. -/
def lowerDigits : List Char := "0123456789abcdef".toList

def upperDigits : List Char := "0123456789ABCDEF".toList

/-- A character is the digit of a value. -/
def IsHexDigit (c : Char) (v : Nat) : Prop := lowerDigits[v]? = some c ∨ upperDigits[v]? = some c

/-- Characters are the digits of a number, the most significant one first. -/
def IsHex (digits : List Char) (k : Nat) : Prop :=
  ∃ vs, List.Forall₂ IsHexDigit digits vs ∧ Nat.ofDigits 16 vs.reverse = k

instance (c : Char) (v : Nat) : Decidable (IsHexDigit c v) := inferInstanceAs (Decidable (_ ∨ _))

/-- The digits of a range of characters count up from its first one. -/
theorem isHexDigit_of_range {c lo hi : Char} (hc : lo ≤ c ∧ c ≤ hi) {base : Nat}
    (h : ∀ k < hi.toNat + 1, lo.toNat ≤ k → IsHexDigit (Char.ofNat k) (k - base)) :
    IsHexDigit c (c.toNat - base) := by
  have hdigit := h c.toNat (Nat.lt_succ_of_le hc.2) hc.1
  rwa [Char.ofNat_toNat] at hdigit

theorem hexValue?_eq_some_iff {c : Char} {v : Nat} : hexValue? c = some v ↔ IsHexDigit c v := by
  constructor
  · intro h
    unfold hexValue? at h
    split at h
    · rename_i hc
      cases h
      exact isHexDigit_of_range hc (by decide)
    · split at h
      · rename_i hc
        cases h
        exact isHexDigit_of_range hc (by decide)
      · split at h
        · rename_i hc
          cases h
          exact isHexDigit_of_range hc (by decide)
        · cases h
  · have hvalue : ∀ v < 16,
        lowerDigits[v]?.bind hexValue? = some v ∧ upperDigits[v]?.bind hexValue? = some v := by
      decide
    intro h
    have hv : v < 16 := by
      rcases h with h | h <;> exact (List.getElem?_eq_some_iff.1 h).1
    obtain ⟨hlower, hupper⟩ := hvalue v hv
    rcases h with h | h
    · rwa [h] at hlower
    · rwa [h] at hupper

/-! ## Components -/

/-- A text consists of components that are joined by separators. -/
def Components (sep : Char) (s : List Char) (cs : List (List Char)) : Prop :=
  cs ≠ [] ∧ (∀ c ∈ cs, sep ∉ c) ∧ s = [sep].intercalate cs

theorem splitOn_eq (sep : Char) : ∀ s : List Char, splitOn sep s = s.splitOn sep
  | [] => rfl
  | c :: s => by
    rw [splitOn, List.splitOn, List.splitOnP_cons_eq_if_modifyHead, splitOn_eq sep s]
    by_cases hc : c = sep
    · rw [if_pos hc, if_pos (beq_iff_eq.2 hc)]
      rfl
    · rw [if_neg hc, if_neg fun h => hc (beq_iff_eq.1 h), List.splitOn]
      split
      · rename_i hnil
        exact absurd hnil (List.splitOnP_ne_nil _ s)
      · rename_i hcons
        rw [hcons]
        rfl

theorem splitOn_ne_nil (sep : Char) : ∀ s : List Char, splitOn sep s ≠ []
  | [] => by simp [splitOn]
  | c :: s => by
    unfold splitOn
    split
    · simp
    · split <;> simp

theorem not_mem_of_mem_splitOn (sep : Char) : ∀ s : List Char, ∀ c ∈ splitOn sep s, sep ∉ c
  | [] => by simp [splitOn]
  | d :: s => by
    have ih := not_mem_of_mem_splitOn sep s
    unfold splitOn
    split
    · rintro c (_ | ⟨_, hc⟩)
      · exact List.not_mem_nil
      · exact ih c hc
    · rename_i hd
      split
      · simpa using Ne.symm hd
      · rename_i t ts ht
        rw [ht] at ih
        rintro c (_ | ⟨_, hc⟩)
        · rw [List.mem_cons, not_or]
          exact ⟨Ne.symm hd, ih t List.mem_cons_self⟩
        · exact ih c (List.mem_cons_of_mem _ hc)

/-- Every text has exactly one list of components. -/
theorem components_iff {sep : Char} {s : List Char} {cs : List (List Char)} :
    Components sep s cs ↔ cs = splitOn sep s := by
  constructor
  · rintro ⟨hne, hfree, rfl⟩
    rw [splitOn_eq, List.splitOn_intercalate sep hfree hne]
  · rintro rfl
    refine ⟨splitOn_ne_nil sep s, not_mem_of_mem_splitOn sep s, ?_⟩
    rw [splitOn_eq, List.intercalate_splitOn]

end UdpStack.Text

namespace UdpStack.Ethernet.Address

open Text

/-! ## Single components -/

/-- A component is the numeral of an octet, after a plus sign if there is one. -/
def Spells (s : List Char) (o : UInt8) : Prop :=
  ∃ digits, (s = digits ∨ s = '+' :: digits) ∧ digits ≠ [] ∧ IsHex digits o.toNat

/-- One more digit multiplies what was read by sixteen. -/
theorem accumulate_cons (acc v : Nat) (vs : List Nat) :
    acc * 16 ^ (vs.length + 1) + Nat.ofDigits 16 (v :: vs).reverse =
      (acc * 16 + v) * 16 ^ vs.length + Nat.ofDigits 16 vs.reverse := by
  rw [List.reverse_cons, Nat.ofDigits_append, Nat.ofDigits_singleton, List.length_reverse]
  ring

/-- Reading stops at the first number that is no octet, but more digits would only have made it larger. -/
theorem octetFrom?_eq_some_iff {k : Nat} : ∀ {digits : List Char} {acc : Nat}, acc < 256 →
    (octetFrom? acc digits = some k ↔ k < 256 ∧ ∃ vs, List.Forall₂ IsHexDigit digits vs ∧
      acc * 16 ^ vs.length + Nat.ofDigits 16 vs.reverse = k)
  | [], acc, hacc => by
    constructor
    · rintro ⟨⟩
      exact ⟨hacc, [], .nil, by simp⟩
    · rintro ⟨-, vs, hvs, rfl⟩
      rw [List.forall₂_nil_left_iff.1 hvs]
      simp [octetFrom?]
  | c :: digits, acc, hacc => by
    constructor
    · intro h
      unfold octetFrom? at h
      split at h
      · cases h
      · rename_i v hv
        split at h
        · rename_i hlt
          obtain ⟨hk, vs, hvs, heq⟩ := (octetFrom?_eq_some_iff hlt).1 h
          exact ⟨hk, v :: vs, .cons (hexValue?_eq_some_iff.1 hv) hvs, (accumulate_cons acc v vs).trans heq⟩
        · cases h
    · rintro ⟨hk, us, hus, heq⟩
      obtain ⟨v, vs, hv, hvs, rfl⟩ := List.forall₂_cons_left_iff.1 hus
      rw [List.length_cons, accumulate_cons] at heq
      have hlt : acc * 16 + v < 256 := by
        have hpow : 0 < 16 ^ vs.length := Nat.pow_pos (by decide)
        have := Nat.le_mul_of_pos_right (acc * 16 + v) hpow
        omega
      have hread : octetFrom? acc (c :: digits) = octetFrom? (acc * 16 + v) digits := by
        rw [octetFrom?, hexValue?_eq_some_iff.2 hv]
        exact if_pos hlt
      rw [hread, octetFrom?_eq_some_iff hlt]
      exact ⟨hk, vs, hvs, heq⟩

theorem map_octetFrom?_eq_some_iff {digits : List Char} {o : UInt8} :
    (octetFrom? 0 digits).map UInt8.ofNat = some o ↔ IsHex digits o.toNat := by
  rw [Option.map_eq_some_iff]
  constructor
  · rintro ⟨k, hk, rfl⟩
    obtain ⟨hlt, vs, hvs, heq⟩ := (octetFrom?_eq_some_iff (by decide)).1 hk
    refine ⟨vs, hvs, ?_⟩
    rw [UInt8.toNat_ofNat', Nat.mod_eq_of_lt hlt, ← heq, Nat.zero_mul, Nat.zero_add]
  · rintro ⟨vs, hvs, heq⟩
    refine ⟨o.toNat, (octetFrom?_eq_some_iff (by decide)).2 ⟨o.toNat_lt, vs, hvs, ?_⟩, UInt8.ofNat_toNat⟩
    rw [heq, Nat.zero_mul, Nat.zero_add]

/-- A plus sign is no digit, so no numeral begins with one. -/
theorem not_isHex_plus (digits : List Char) (k : Nat) : ¬ IsHex ('+' :: digits) k := by
  rintro ⟨us, hus, -⟩
  obtain ⟨v, -, hv, -⟩ := List.forall₂_cons_left_iff.1 hus
  rw [← hexValue?_eq_some_iff] at hv
  cases hv

theorem octet?_eq_some_iff {s : List Char} {o : UInt8} : octet? s = some o ↔ Spells s o := by
  unfold octet? Spells
  split
  · simp
  · simp [not_isHex_plus]
  · rename_i digits hne
    rw [map_octetFrom?_eq_some_iff]
    constructor
    · intro h
      exact ⟨digits, .inr rfl, hne, h⟩
    · rintro ⟨t, rfl | ht, -, h⟩
      · exact absurd h (not_isHex_plus _ _)
      · cases ht
        exact h
  · rename_i hne _ hplus
    rw [map_octetFrom?_eq_some_iff]
    constructor
    · intro h
      exact ⟨s, .inl rfl, hne, h⟩
    · rintro ⟨t, rfl | rfl, -, h⟩
      · exact h
      · exact absurd rfl (hplus t)

theorem octet?_eq_none_iff {s : List Char} : octet? s = none ↔ ∀ o, ¬ Spells s o := by
  simp only [Option.eq_none_iff_forall_ne_some, ne_eq, octet?_eq_some_iff]

/-! ## Several components -/

theorem octetsOf_cons_of_some {s : List Char} {o : UInt8} (h : octet? s = some o) (n : Nat) (cs : List (List Char)) :
    octetsOf (n + 1) (s :: cs) = (octetsOf n cs).map (o :: ·) := by
  rw [octetsOf, h]

theorem octetsOf_cons_of_none {s : List Char} (h : octet? s = none) (n : Nat) (cs : List (List Char)) :
    octetsOf (n + 1) (s :: cs) = .error .component := by
  rw [octetsOf, h]

/-- What is read depends on the number of components and on the first `n` of them. -/
theorem octetsOf_cases : ∀ (n : Nat) (cs : List (List Char)),
    (∃ os, octetsOf n cs = .ok os ∧ os.length = n ∧ List.Forall₂ Spells cs os) ∨
    (octetsOf n cs = .error .separator ∧ cs.length ≠ n ∧ ∀ c ∈ cs.take n, ∃ o, Spells c o) ∨
    (octetsOf n cs = .error .component ∧ ∃ c ∈ cs.take n, ∀ o, ¬ Spells c o)
  | 0, [] => .inl ⟨[], rfl, rfl, .nil⟩
  | 0, c :: cs => .inr (.inl ⟨rfl, by simp, by simp⟩)
  | n + 1, [] => .inr (.inl ⟨rfl, by simp, by simp⟩)
  | n + 1, c :: cs => by
    cases hc : octet? c with
    | none =>
      rw [octetsOf_cons_of_none hc]
      exact .inr (.inr ⟨rfl, c, by simp, octet?_eq_none_iff.1 hc⟩)
    | some o =>
      rw [octetsOf_cons_of_some hc]
      rw [octet?_eq_some_iff] at hc
      rcases octetsOf_cases n cs with ⟨os, hread, hlength, hos⟩ | ⟨hread, hlength, hall⟩ | ⟨hread, d, hd, hbad⟩
      · exact .inl ⟨o :: os, by rw [hread]; rfl, by rw [List.length_cons, hlength], .cons hc hos⟩
      · refine .inr (.inl ⟨by rw [hread]; rfl, by simpa using hlength, ?_⟩)
        rintro d (_ | ⟨_, hd⟩)
        · exact ⟨o, hc⟩
        · exact hall d hd
      · exact .inr (.inr ⟨by rw [hread]; rfl, d, List.mem_cons_of_mem _ hd, hbad⟩)

theorem spells_of_mem {cs : List (List Char)} {os : Octets} (h : List.Forall₂ Spells cs os) :
    ∀ c ∈ cs, ∃ o, Spells c o := by
  induction h with
  | nil => simp
  | cons hc _ ih =>
    rintro d (_ | ⟨_, hd⟩)
    · exact ⟨_, hc⟩
    · exact ih d hd

theorem spells_rightUnique : Relator.RightUnique Spells := by
  intro s o o' h h'
  rw [← octet?_eq_some_iff] at h h'
  exact Option.some.inj (h.symm.trans h')

/-! ## Whole texts -/

theorem exists_octets_eq {os : Octets} (h : os.length = 6) : ∃ x : Address, x.octets = os := by
  match os, h with
  | [a, b, c, d, e, f], _ => exact ⟨⟨a, b, c, d, e, f⟩, rfl⟩

theorem octets_injective : Function.Injective octets := by
  intro x y h
  have := congrArg ofOctets? h
  rw [ofOctets?_octets, ofOctets?_octets] at this
  exact Option.some.inj this

theorem ofText_cases (s : String) :
    (∃ x, ofText s = .ok x ∧ List.Forall₂ Spells (splitOn ':' s.toList) x.octets) ∨
    (ofText s = .error .separator ∧ (splitOn ':' s.toList).length ≠ 6 ∧
      ∀ c ∈ (splitOn ':' s.toList).take 6, ∃ o, Spells c o) ∨
    (ofText s = .error .component ∧ ∃ c ∈ (splitOn ':' s.toList).take 6, ∀ o, ¬ Spells c o) := by
  unfold ofText
  rcases octetsOf_cases 6 (splitOn ':' s.toList) with ⟨os, hread, hlength, hos⟩ | ⟨hread, h⟩ | ⟨hread, h⟩
  · obtain ⟨x, rfl⟩ := exists_octets_eq hlength
    rw [hread]
    exact .inl ⟨x, rfl, hos⟩
  · rw [hread]
    exact .inr (.inl ⟨rfl, h⟩)
  · rw [hread]
    exact .inr (.inr ⟨rfl, h⟩)

/-- A text is read exactly if its components are six numerals of octets, and the address has their values. A wrong
number of components is the fault that is reported only if the first six of them, or all if there are fewer, are
numerals. -/
theorem ofText_grammar (s : String) : ∃ cs, (∀ ds, Components ':' s.toList ds ↔ ds = cs) ∧
    ((∃ x, ofText s = .ok x) ↔ cs.length = 6 ∧ ∀ c ∈ cs, ∃ o, Spells c o) ∧
    (∀ x, ofText s = .ok x ↔ List.Forall₂ Spells cs x.octets) ∧
    (ofText s = .error .separator ↔ cs.length ≠ 6 ∧ ∀ c ∈ cs.take 6, ∃ o, Spells c o) ∧
    (ofText s = .error .component ↔ ∃ c ∈ cs.take 6, ∀ o, ¬ Spells c o) := by
  refine ⟨splitOn ':' s.toList, fun ds => components_iff, ?_⟩
  have hcases := ofText_cases s
  generalize splitOn ':' s.toList = cs at hcases ⊢
  have hsix : ∀ x : Address, List.Forall₂ Spells cs x.octets → cs.length = 6 ∧ ∀ c ∈ cs, ∃ o, Spells c o := fun x h =>
    ⟨h.length_eq, spells_of_mem h⟩
  rcases hcases with ⟨x, hread, hx⟩ | ⟨hread, hlength, hall⟩ | ⟨hread, c, hc, hbad⟩
  · obtain ⟨hlength, hall⟩ := hsix x hx
    rw [hread]
    refine ⟨iff_of_true ⟨x, rfl⟩ ⟨hlength, hall⟩, ?_, iff_of_false (by simp) fun h => h.1 hlength,
      iff_of_false (by simp) ?_⟩
    · intro y
      constructor
      · rintro ⟨⟩
        exact hx
      · intro hy
        rw [octets_injective (List.right_unique_forall₂' spells_rightUnique hx hy)]
    · rintro ⟨c, hc, hbad⟩
      obtain ⟨o, ho⟩ := hall c (List.mem_of_mem_take hc)
      exact hbad o ho
  · rw [hread]
    refine ⟨iff_of_false (by simp) fun h => hlength h.1, fun y => iff_of_false (by simp) fun h => hlength (hsix y h).1,
      iff_of_true rfl ⟨hlength, hall⟩, iff_of_false (by simp) ?_⟩
    rintro ⟨c, hc, hbad⟩
    obtain ⟨o, ho⟩ := hall c hc
    exact hbad o ho
  · have hnot : ¬ ∃ o, Spells c o := fun ⟨o, ho⟩ => hbad o ho
    have hmem := List.mem_of_mem_take hc
    rw [hread]
    exact ⟨iff_of_false (by simp) fun h => hnot (h.2 c hmem),
      fun y => iff_of_false (by simp) fun h => hnot ((hsix y h).2 c hmem),
      iff_of_false (by simp) fun h => hnot (h.2 c hc), iff_of_true rfl ⟨c, hc, hbad⟩⟩

example : ofText "007:+F:2:3:4:5" = .ok ⟨7, 15, 2, 3, 4, 5⟩ := by decide

/-- Components of one or two digits are not all that is read: there can be a sign, and any number of zeros. -/
theorem ofText_signed : ¬ ∀ s, (∃ x, ofText s = .ok x) ↔ ∃ cs, Components ':' s.toList cs ∧ cs.length = 6 ∧
    ∀ c ∈ cs, (c.length = 1 ∨ c.length = 2) ∧ ∀ d ∈ c, ∃ v, IsHexDigit d v := by
  intro h
  obtain ⟨cs, hcs, -, hshort⟩ := (h "+001:2:3:4:5:6").1 ⟨⟨1, 2, 3, 4, 5, 6⟩, by decide⟩
  have hmem : ['+', '0', '0', '1'] ∈ cs := by
    rw [components_iff.1 hcs]
    decide
  exact absurd (hshort _ hmem).1 (by decide)

end UdpStack.Ethernet.Address
