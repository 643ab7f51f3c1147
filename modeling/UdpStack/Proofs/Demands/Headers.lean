/-
What reading and writing headers takes for granted. Each field is a stretch of the bytes of its header, an
address is made of a whole stretch, and a checksum covers as many bytes as the header itself says. The fields
have values exactly where all their demands are met (`Ipv4.Header.read?_isSome_iff`,
`Udp.Header.verifyChecksum?_isSome_iff` and so on). Bytes that pass the check of their length meet them
(`Ipv4.Header.met_verify`, `Udp.Header.met_read` and so on), whatever the bytes are.
-/
import UdpStack.Arp.Message
import UdpStack.Ethernet.CheckSequence
import UdpStack.Proofs.Demands.Packet
import UdpStack.Proofs.Ipv4.Router
import UdpStack.Proofs.Udp.Ports

namespace UdpStack

open Octets

/-! ## Regions -/

namespace Octets

theorem slice?_eq_none {b : Octets} {start len : Nat} (h : b.length < start + len) : slice? b start len = none :=
  if_neg (Nat.not_le.2 h)

theorem word16?_eq_none {b : Octets} {i : Nat} (h : b.length < i + 2) : word16? b i = none := by
  unfold word16?
  rw [List.getElem?_eq_none (show b.length ≤ i + 1 by omega)]
  cases b[i]? <;> rfl

end Octets

/-- Making an address of the bytes from `start` to `stop` of `n` bytes. -/
def readAddress (size n start stop : Nat) : List Demand := [.range start stop n, .address size (stop - start)]

/-- Copying an address over the bytes from `start` to `stop` of `n` bytes. -/
def writeAddress (size n start stop : Nat) : List Demand := [.range start stop n, .copy (stop - start) size]

/-! ## Checksums -/

namespace Checksum

/-- Going through `n` bytes by two. -/
def pairDemands : Nat → List Demand
  | n + 2 => .range 0 2 (n + 2) :: .range 2 (n + 2) (n + 2) :: pairDemands n
  | _ => []

/-- Adding up `n` bytes, in chunks of 32 as long as there are so many. -/
def sumDemands (n : Nat) : List Demand :=
  if 32 ≤ n then .range 0 32 n :: pairDemands 32 ++ .range 32 n n :: sumDemands (n - 32) else pairDemands n

/-- Adding up the fields of a pseudo header. -/
def pseudoDemands : List Demand := .place 1 4 :: .range 2 4 4 :: sumDemands 4 ++ sumDemands 4 ++ sumDemands 4

theorem met_pair (n : Nat) : AllMet (pairDemands n) := by
  fun_induction pairDemands n with
  | case1 n ih =>
    refine allMet_cons.2 ⟨?_, allMet_cons.2 ⟨?_, ih⟩⟩
    · exact ⟨Nat.zero_le _, Nat.le_add_left ..⟩
    · exact ⟨Nat.le_add_left .., le_rfl⟩
  | case2 => exact allMet_nil

theorem met_sum (n : Nat) : AllMet (sumDemands n) := by
  fun_induction sumDemands n with
  | case1 n hn ih =>
    refine allMet_cons.2 ⟨⟨Nat.zero_le _, hn⟩, allMet_append.2 ⟨met_pair 32, allMet_cons.2 ⟨⟨hn, le_rfl⟩, ih⟩⟩⟩
  | case2 n _ => exact met_pair n

theorem met_pseudo : AllMet pseudoDemands := by
  refine allMet_cons.2 ⟨by decide, allMet_cons.2 ⟨by decide, ?_⟩⟩
  exact allMet_append.2 ⟨allMet_append.2 ⟨met_sum 4, met_sum 4⟩, met_sum 4⟩

end Checksum

/-! ## Frames -/

namespace Ethernet

/-- Reading every field of a frame of `n` bytes. -/
def Header.readDemands (n : Nat) : List Demand := readAddress 6 n 0 6 ++ readAddress 6 n 6 12 ++ [.range 12 14 n]

def Header.writeDemands (n : Nat) : List Demand := writeAddress 6 n 0 6 ++ writeAddress 6 n 6 12 ++ [.range 12 14 n]

theorem Header.met_read {n : Nat} (h : size ≤ n) : AllMet (readDemands n) := by
  simp only [size, readDemands, readAddress, allMet_append, allMet_cons, allMet_nil, Demand.Met, and_true] at h ⊢
  omega

theorem Header.met_write {n : Nat} (h : size ≤ n) : AllMet (writeDemands n) := by
  simp only [size, writeDemands, writeAddress, allMet_append, allMet_cons, allMet_nil, Demand.Met, and_true] at h ⊢
  omega

theorem Header.read?_isSome_iff {b : Octets} : (read? b).isSome = true ↔ AllMet (readDemands b.length) := by
  constructor
  · intro h
    refine met_read (Nat.not_lt.1 fun hlt => ?_)
    simp [read?, word16?_eq_none hlt] at h
  · intro h
    have hlast : (Demand.range 12 14 b.length).Met := h _ (by simp [readDemands])
    rw [read?_of_le hlast.2]
    rfl

/-- Comparing the check sequence at the end of `n` bytes. -/
def CheckSequence.verifyDemands (n : Nat) : List Demand :=
  if n < size then [] else [.minus n size, .range 0 (n - size) n, .range 0 4 (n - (n - size))]

theorem CheckSequence.met_verify (n : Nat) : AllMet (verifyDemands n) := by
  refine allMet_ite (fun _ => allMet_nil) fun hn => ?_
  simp only [size, allMet_cons, allMet_nil, Demand.Met, and_true] at hn ⊢
  omega

end Ethernet

/-! ## Datagrams -/

namespace Ipv4.Header

/-- Checking the length of a header. -/
def checkDemands (b : Octets) : List Demand := if b.length < size then [] else [.place 0 b.length]

/-- Reading every field of a header in `n` bytes. -/
def readDemands (n : Nat) : List Demand :=
  [.place 0 n, .range 2 4 n, .range 4 6 n, .range 6 8 n, .place 8 n, .place 9 n, .range 10 12 n] ++
    readAddress 4 n 12 16 ++ readAddress 4 n 16 20

/-- Adding up a header with its options. -/
def verifyDemands (b : Octets) : List Demand :=
  .place 0 b.length :: .range 0 (lengthOf b) b.length :: Checksum.sumDemands (lengthOf b)

/-- Writing every field but the checksum. -/
def writeDemands (n : Nat) : List Demand :=
  [.place 0 n, .place 1 n, .range 2 4 n, .range 4 6 n, .range 6 8 n, .place 8 n, .place 9 n] ++
    writeAddress 4 n 12 16 ++ writeAddress 4 n 16 20

/-- Computing and writing the checksum. -/
def fillDemands (b : Octets) : List Demand :=
  .range 10 12 b.length :: verifyDemands b ++ [.range 10 12 b.length]

theorem met_check (b : Octets) : AllMet (checkDemands b) := by
  refine allMet_ite (fun _ => allMet_nil) fun hn => ?_
  simp only [size, allMet_cons, allMet_nil, Demand.Met, and_true] at hn ⊢
  omega

theorem met_read {n : Nat} (h : size ≤ n) : AllMet (readDemands n) := by
  simp only [size, readDemands, readAddress, allMet_append, allMet_cons, allMet_nil, Demand.Met, and_true] at h ⊢
  omega

theorem met_write {n : Nat} (h : size ≤ n) : AllMet (writeDemands n) := by
  simp only [size, writeDemands, writeAddress, allMet_append, allMet_cons, allMet_nil, Demand.Met, and_true] at h ⊢
  omega

theorem read?_isSome_iff {b : Octets} : (read? b).isSome = true ↔ AllMet (readDemands b.length) := by
  constructor
  · intro h
    refine met_read (Nat.not_lt.1 fun hlt => ?_)
    have hdst : Address.read? b 16 = none := by rw [Address.read?, slice?_eq_none hlt]; rfl
    simp [read?, hdst] at h
  · intro h
    have hlast : (Demand.range 16 20 b.length).Met := h _ (by simp [readDemands, readAddress])
    rw [read?_of_le hlast.2]
    rfl

theorem complete_of_check {b : Octets} (h : checkLength b = .ok ()) : size ≤ b.length ∧ lengthOf b ≤ b.length := by
  obtain ⟨hl, -, ho⟩ := checkLength_eq_ok_iff.1 h
  exact ⟨hl, ho⟩

theorem met_verify {b : Octets} (h : 0 < b.length) (ho : lengthOf b ≤ b.length) : AllMet (verifyDemands b) :=
  allMet_cons.2 ⟨h, allMet_cons.2 ⟨⟨Nat.zero_le _, ho⟩, Checksum.met_sum _⟩⟩

theorem verifyChecksum?_isSome_iff {b : Octets} : (verifyChecksum? b).isSome = true ↔ AllMet (verifyDemands b) := by
  unfold verifyChecksum? region?
  rw [Option.isSome_map]
  constructor
  · intro h
    obtain ⟨r, hr⟩ := Option.isSome_iff_exists.1 h
    obtain ⟨first, hfirst, hr⟩ := Option.bind_eq_some_iff.1 hr
    obtain ⟨hpos, -⟩ := List.getElem?_eq_some_iff.1 hfirst
    refine met_verify hpos (Nat.not_lt.1 fun hlt => ?_)
    rw [getElem?_of_lt hpos] at hfirst
    cases hfirst
    rw [declaredLen_eq, slice?_eq_none (by omega)] at hr
    cases hr
  · intro h
    simp only [verifyDemands, allMet_cons, Demand.Met] at h
    obtain ⟨hpos, ⟨-, hlen⟩, -⟩ := h
    rw [getElem?_of_lt hpos]
    show (slice? b 0 (declaredLen (b.getD 0 0))).isSome = true
    rw [declaredLen_eq, slice?_of_le (by omega)]
    rfl

theorem met_fill {b : Octets} (h : size ≤ b.length) (ho : lengthOf b ≤ b.length) : AllMet (fillDemands b) := by
  have hfield : (Demand.range 10 12 b.length).Met := by
    simp only [size, Demand.Met] at h ⊢
    omega
  refine allMet_cons.2 ⟨hfield, allMet_append.2 ⟨met_verify ?_ ho, allMet_cons.2 ⟨hfield, allMet_nil⟩⟩⟩
  exact lt_of_lt_of_le (by decide) h

end Ipv4.Header

/-! ## User datagrams -/

namespace Udp.Header

/-- Checking the length of a datagram. -/
def checkDemands (b : Octets) : List Demand := if b.length < size then [] else [.range 4 6 b.length]

/-- Reading every field, and the payload. -/
def readDemands (b : Octets) : List Demand :=
  [.range 0 2 b.length, .range 2 4 b.length, .range 4 6 b.length, .range 6 8 b.length,
    .range size (word b 4) b.length]

/-- Adding up pseudo header and datagram. -/
def sumDemands (b : Octets) : List Demand :=
  .range 4 6 b.length :: .range 0 (word b 4) b.length :: Checksum.pseudoDemands ++ Checksum.sumDemands (word b 4)

/-- Comparing the checksum, if there is one. -/
def verifyDemands (b : Octets) : List Demand :=
  .range 6 8 b.length :: if word b 6 = 0 then [] else sumDemands b

def writeDemands (n : Nat) : List Demand := [.range 0 2 n, .range 2 4 n, .range 4 6 n, .range 6 8 n]

/-- Computing and writing the checksum. -/
def fillDemands (b : Octets) : List Demand := .range 6 8 b.length :: sumDemands b ++ [.range 6 8 b.length]

theorem met_check (b : Octets) : AllMet (checkDemands b) := by
  refine allMet_ite (fun _ => allMet_nil) fun hn => ?_
  simp only [size, allMet_cons, allMet_nil, Demand.Met, and_true] at hn ⊢
  omega

theorem complete_of_check {b : Octets} (h : checkLength b = .ok ()) : size ≤ word b 4 ∧ word b 4 ≤ b.length := by
  by_contra hn
  obtain ⟨f, hf⟩ := checkLength_eq_error hn
  cases h.symm.trans hf

theorem met_write {n : Nat} (h : size ≤ n) : AllMet (writeDemands n) := by
  simp only [size, writeDemands, allMet_cons, allMet_nil, Demand.Met, and_true] at h ⊢
  omega

section bytes

variable {b : Octets}

theorem met_field (h : size ≤ b.length) {start stop : Nat} (hs : start ≤ stop) (hz : stop ≤ size) :
    (Demand.range start stop b.length).Met := ⟨hs, hz.trans h⟩

theorem met_read (h : size ≤ word b 4) (hl : word b 4 ≤ b.length) : AllMet (readDemands b) := by
  simp only [size, readDemands, allMet_cons, allMet_nil, Demand.Met, and_true] at h ⊢
  omega

theorem met_sum (h : 6 ≤ b.length) (hl : word b 4 ≤ b.length) : AllMet (sumDemands b) := by
  refine allMet_cons.2 ⟨⟨by decide, h⟩, allMet_cons.2 ⟨⟨Nat.zero_le _, hl⟩, ?_⟩⟩
  exact allMet_append.2 ⟨Checksum.met_pseudo, Checksum.met_sum _⟩

theorem met_verify (h : size ≤ b.length) (hl : word b 4 ≤ b.length) : AllMet (verifyDemands b) := by
  refine allMet_cons.2 ⟨met_field h (by decide) (by decide), ?_⟩
  exact allMet_ite (fun _ => allMet_nil) fun _ => met_sum (le_trans (by decide) h) hl

theorem payload?_of_le (h : size ≤ b.length) : payload? b = range? b size (word b 4) := by
  unfold payload?
  rw [word16?_of_le (le_trans (by decide) h)]
  show range? b size (UInt16.ofNat (word b 4)).toNat = _
  rw [toNat_ofNat_word]

theorem read?_isSome_iff :
    (read? b).isSome = true ∧ (payload? b).isSome = true ↔ AllMet (readDemands b) := by
  constructor
  · rintro ⟨h, hp⟩
    have hsize : size ≤ b.length := Nat.not_lt.1 fun hlt => by simp [read?, word16?_eq_none hlt] at h
    rw [payload?_of_le hsize] at hp
    obtain ⟨hle, hl⟩ : (Demand.range size (word b 4) b.length).Met := Packet.range?_isSome_iff.1 hp
    exact met_read hle hl
  · intro h
    simp only [readDemands, allMet_cons] at h
    obtain ⟨-, -, -, hlast, hpayload, -⟩ := h
    constructor
    · rw [read?_of_le hlast.2]
      rfl
    · rw [payload?_of_le hlast.2]
      exact Packet.range?_isSome_iff.2 hpayload

theorem sum?_of_le (src dst : Ipv4.Address) (h : 6 ≤ b.length) :
    (sum? b src dst).isSome = (slice? b 0 (word b 4)).isSome := by
  unfold sum?
  rw [word16?_of_le h]
  show ((slice? b 0 (UInt16.ofNat (word b 4)).toNat).bind _).isSome = _
  rw [toNat_ofNat_word]
  cases slice? b 0 (word b 4) <;> rfl

theorem sum?_isSome_iff (src dst : Ipv4.Address) : (sum? b src dst).isSome = true ↔ AllMet (sumDemands b) := by
  constructor
  · intro h
    have hsize : 6 ≤ b.length := Nat.not_lt.1 fun hlt => by simp [sum?, word16?_eq_none hlt] at h
    refine met_sum hsize (Nat.not_lt.1 fun hlt => ?_)
    rw [sum?_of_le src dst hsize, slice?_eq_none (by omega)] at h
    cases h
  · intro h
    simp only [sumDemands, List.cons_append, allMet_cons] at h
    obtain ⟨⟨-, hsize⟩, ⟨-, hlen⟩, -⟩ := h
    rw [sum?_of_le src dst hsize, slice?_of_le (by omega)]
    rfl

theorem verifyChecksum?_isSome_iff (src dst : Ipv4.Address) :
    (verifyChecksum? b src dst).isSome = true ↔ AllMet (verifyDemands b) := by
  unfold verifyChecksum? verifyDemands
  by_cases hsize : 6 + 2 ≤ b.length
  · have hzero : UInt16.ofNat (word b 6) = 0 ↔ word b 6 = 0 := by
      rw [← UInt16.toNat_inj, toNat_ofNat_word]
      rfl
    have hfield : (Demand.range 6 8 b.length).Met := ⟨by decide, hsize⟩
    rw [word16?_of_le hsize, allMet_cons, and_iff_right hfield]
    by_cases h : word b 6 = 0
    · simp [h]
    · rw [if_neg h, ← sum?_isSome_iff src dst]
      simp [hzero, h, Option.isSome_bind]
  · have hfield : ¬ (Demand.range 6 8 b.length).Met := fun h => hsize h.2
    simp [word16?_eq_none (Nat.not_le.1 hsize), hfield]

theorem met_fill (h : size ≤ b.length) (hl : word b 4 ≤ b.length) : AllMet (fillDemands b) := by
  have hfield : (Demand.range 6 8 b.length).Met := met_field h (by decide) (by decide)
  have hsum : AllMet (sumDemands b) := met_sum (le_trans (by decide) h) hl
  exact allMet_cons.2 ⟨hfield, allMet_append.2 ⟨hsum, allMet_cons.2 ⟨hfield, allMet_nil⟩⟩⟩

/-- A checksum is written only where the datagram ends inside the bytes. -/
theorem complete_of_fill {src dst : Ipv4.Address} {r : Octets} (h : fillChecksum? b src dst = some r) :
    size ≤ b.length ∧ word b 4 ≤ b.length := by
  obtain ⟨cleared, hc, h⟩ := Option.bind_eq_some_iff.1 h
  obtain ⟨sum, hs, -⟩ := Option.bind_eq_some_iff.1 h
  obtain ⟨len, hlen, hs⟩ := Option.bind_eq_some_iff.1 hs
  obtain ⟨segment, hsegment, -⟩ := Option.bind_eq_some_iff.1 hs
  have hlength := length_write? hc
  have hsize : size ≤ b.length := by
    unfold setChecksum? write? at hc
    split at hc
    · assumption
    · cases hc
  refine ⟨hsize, ?_⟩
  -- the length does not change with the checksum
  have hword : word16? cleared 4 = word16? b 4 := by
    unfold word16?
    rw [getElem?_write? hc (.inl (by decide)), getElem?_write? hc (.inl (by decide))]
  rw [hword, word16?_of_le (show 4 + 2 ≤ b.length from le_trans (by decide) hsize)] at hlen
  cases hlen
  rw [toNat_ofNat_word] at hsegment
  unfold slice? at hsegment
  split at hsegment
  · omega
  · cases hsegment

end bytes

end Udp.Header

/-! ## Messages of the resolver -/

namespace Arp.Message

/-- Reading every field of a message in `n` bytes. -/
def readDemands (n : Nat) : List Demand :=
  [.range 0 2 n, .range 2 4 n, .place 4 n, .place 5 n, .range 6 8 n] ++ readAddress 6 n 8 14 ++
    readAddress 4 n 14 18 ++ readAddress 6 n 18 24 ++ readAddress 4 n 24 28

def writeDemands (n : Nat) : List Demand :=
  [.range 0 2 n, .range 2 4 n, .place 4 n, .place 5 n, .range 6 8 n] ++ writeAddress 6 n 8 14 ++
    writeAddress 4 n 14 18 ++ writeAddress 6 n 18 24 ++ writeAddress 4 n 24 28

theorem met_read {n : Nat} (h : size ≤ n) : AllMet (readDemands n) := by
  simp only [size, readDemands, readAddress, allMet_append, allMet_cons, allMet_nil, Demand.Met, and_true] at h ⊢
  omega

theorem met_write {n : Nat} (h : size ≤ n) : AllMet (writeDemands n) := by
  simp only [size, writeDemands, writeAddress, allMet_append, allMet_cons, allMet_nil, Demand.Met, and_true] at h ⊢
  omega

theorem read?_isSome_iff {b : Octets} : (Header.read? b).isSome = true ↔ AllMet (readDemands b.length) := by
  constructor
  · intro h
    refine met_read (Nat.not_lt.1 fun hlt => ?_)
    have hdst : Ipv4.Address.read? b 24 = none := by rw [Ipv4.Address.read?, slice?_eq_none hlt]; rfl
    simp [Header.read?, hdst] at h
  · intro h
    have hlast : (Demand.range 24 28 b.length).Met := h _ (by simp [readDemands, readAddress])
    rw [Header.read?_of_le hlast.2]
    rfl

end Arp.Message

end UdpStack
