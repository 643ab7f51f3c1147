/-
The text that is written for a hardware address. It is the only one whose components are, octet by octet, two digits in
lower case (`eq_text_iff`). Each of them is a numeral, so reading gives the octets back, and then no two addresses
have one text (`text_round_trip`).
-/
import UdpStack.Proofs.Ethernet.AddressText

namespace UdpStack.Ethernet.Address

open Text

/-! ## Two digits of an octet -/

/-- A component is the two digits of an octet, both in lower case. -/
def Writes (s : List Char) (o : UInt8) : Prop :=
  s.length = 2 ∧ (∀ c ∈ s, c ∈ lowerDigits) ∧ IsHex s o.toNat

theorem lowerDigits_eq : lowerDigits = (List.range 16).map hexDigit := by decide

theorem hexDigit_mem_lowerDigits {v : Nat} (hv : v < 16) : hexDigit v ∈ lowerDigits := by
  rw [lowerDigits_eq]
  exact List.mem_map_of_mem (List.mem_range.2 hv)

theorem isHexDigit_hexDigit {v : Nat} (hv : v < 16) : IsHexDigit (hexDigit v) v :=
  hexValue?_eq_some_iff.1 (hexValue?_hexDigit v hv)

/-- A digit in lower case is the one that is written for its value. -/
theorem eq_hexDigit {c : Char} {v : Nat} (hc : c ∈ lowerDigits) (h : IsHexDigit c v) : v < 16 ∧ c = hexDigit v := by
  rw [lowerDigits_eq] at hc
  obtain ⟨u, hu, rfl⟩ := List.mem_map.1 hc
  have hlt : u < 16 := List.mem_range.1 hu
  have hvalue := hexValue?_hexDigit u hlt
  rw [hexValue?_eq_some_iff.2 h] at hvalue
  cases hvalue
  exact ⟨hlt, rfl⟩

theorem hexDigits_two {n : Nat} (hn : n < 256) : hexDigits 2 n = [hexDigit (n / 16), hexDigit (n % 16)] := by
  have hhigh : n / 16 % 16 = n / 16 := by omega
  simp [hexDigits, hhigh]

theorem ofDigits_pair (u v : Nat) : Nat.ofDigits 16 [u, v].reverse = v + 16 * u := by
  simp [Nat.ofDigits]

theorem writes_iff {s : List Char} {o : UInt8} : Writes s o ↔ s = hexDigits 2 o.toNat := by
  have ho := o.toNat_lt
  rw [hexDigits_two ho]
  constructor
  · rintro ⟨hlength, hlower, vs, hvs, hnumber⟩
    obtain ⟨c, d, rfl⟩ := List.length_eq_two.1 hlength
    obtain ⟨u, us, hu, hus, rfl⟩ := List.forall₂_cons_left_iff.1 hvs
    obtain ⟨v, ws, hv, hws, rfl⟩ := List.forall₂_cons_left_iff.1 hus
    obtain rfl := List.forall₂_nil_left_iff.1 hws
    obtain ⟨-, rfl⟩ := eq_hexDigit (hlower c (by simp)) hu
    obtain ⟨hlt, rfl⟩ := eq_hexDigit (hlower d (by simp)) hv
    rw [ofDigits_pair] at hnumber
    have hhigh : o.toNat / 16 = u := by omega
    have hlow : o.toNat % 16 = v := by omega
    rw [hhigh, hlow]
  · rintro rfl
    have hhigh : o.toNat / 16 < 16 := by omega
    have hlow : o.toNat % 16 < 16 := by omega
    refine ⟨rfl, ?_, [o.toNat / 16, o.toNat % 16], ?_, ?_⟩
    · rintro c hc
      simp only [List.mem_cons, List.not_mem_nil, or_false] at hc
      rcases hc with rfl | rfl
      · exact hexDigit_mem_lowerDigits hhigh
      · exact hexDigit_mem_lowerDigits hlow
    · exact .cons (isHexDigit_hexDigit hhigh) (.cons (isHexDigit_hexDigit hlow) .nil)
    · rw [ofDigits_pair]
      omega

theorem Writes.spells {s : List Char} {o : UInt8} (h : Writes s o) : Spells s o := by
  obtain ⟨hlength, -, hhex⟩ := h
  refine ⟨s, .inl rfl, ?_, hhex⟩
  rintro rfl
  cases hlength

/-! ## The text of six octets -/

theorem toList_text (x : Address) : x.text.toList = [':'].intercalate (x.octets.map fun o => hexDigits 2 o.toNat) := by
  simp [text, String.toList_intercalate, Function.comp_def]

theorem components_text (x : Address) : Components ':' x.text.toList (x.octets.map fun o => hexDigits 2 o.toNat) := by
  refine ⟨by simp [octets], ?_, toList_text x⟩
  rintro s hs
  obtain ⟨o, -, rfl⟩ := List.mem_map.1 hs
  obtain ⟨-, hlower, -⟩ := writes_iff.2 (Eq.refl (hexDigits 2 o.toNat))
  intro hcolon
  exact absurd (hlower _ hcolon) (by decide)

theorem forall₂_writes_iff {cs : List (List Char)} {os : Octets} :
    List.Forall₂ Writes cs os ↔ cs = os.map fun o => hexDigits 2 o.toNat := by
  have hwrites : Writes = fun s o => s = hexDigits 2 o.toNat := by
    funext s o
    exact propext writes_iff
  rw [hwrites, ← List.forall₂_map_right_iff, List.forall₂_eq_eq_eq]

/-- Every address has just one text of components with two digits in lower case. -/
theorem eq_text_iff {s : String} {x : Address} :
    s = x.text ↔ ∃ cs, Components ':' s.toList cs ∧ List.Forall₂ Writes cs x.octets := by
  constructor
  · rintro rfl
    exact ⟨_, components_text x, forall₂_writes_iff.2 rfl⟩
  · rintro ⟨cs, ⟨-, -, hs⟩, hcs⟩
    rw [← String.toList_inj, hs, toList_text, forall₂_writes_iff.1 hcs]

/-- A text whose components are the numerals of six octets is read as their address. -/
theorem ofText_of_spells {s : String} {x : Address} {cs : List (List Char)} (hs : Components ':' s.toList cs)
    (hx : List.Forall₂ Spells cs x.octets) : ofText s = .ok x := by
  obtain rfl := components_iff.1 hs
  rcases ofText_cases s with ⟨y, hread, hy⟩ | ⟨-, hlength, -⟩ | ⟨-, c, hc, hbad⟩
  · rw [hread, octets_injective (List.right_unique_forall₂' spells_rightUnique hy hx)]
  · exact absurd hx.length_eq hlength
  · obtain ⟨o, ho⟩ := spells_of_mem hx c (List.mem_of_mem_take hc)
    exact absurd ho (hbad o)

theorem ofText_text (x : Address) : ofText x.text = .ok x := by
  obtain ⟨cs, hcs, hwrites⟩ := eq_text_iff.1 (Eq.refl x.text)
  exact ofText_of_spells hcs (hwrites.imp fun _ _ h => h.spells)

/-- The text of an address is the one with two digits in lower case for each of its six octets, leading zeros
included, joined by colons. Reading it gives the address back, so distinct addresses have distinct texts. -/
theorem text_round_trip (x : Address) :
    (∀ s, s = x.text ↔ ∃ cs, Components ':' s.toList cs ∧ List.Forall₂ Writes cs x.octets) ∧
    ofText x.text = .ok x ∧
    ∀ y : Address, y.text = x.text ↔ y = x := by
  refine ⟨fun s => eq_text_iff, ofText_text x, ?_⟩
  intro y
  constructor
  · intro h
    have hread := ofText_text y
    rw [h, ofText_text x] at hread
    cases hread
    rfl
  · rintro rfl
    rfl

example : (⟨2, 0, 10, 0, 171, 15⟩ : Address).text = "02:00:0a:00:ab:0f" := by decide

end UdpStack.Ethernet.Address
