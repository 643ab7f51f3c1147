/-
Bytes and words of a byte string as numbers, total by reading zero where there is no byte. Inside
the bytes they are what the checked accessors read.
-/
import UdpStack.Arp.Message
import UdpStack.Ipv4.Address
import Mathlib.Tactic

namespace UdpStack

namespace Octets

/-- The number in the byte at a position, zero where there is none. -/
def byte (b : Octets) (i : Nat) : Nat := (b.getD i 0).toNat

/-- The number in the two bytes at a position, in network byte order. -/
def word (b : Octets) (i : Nat) : Nat := byte b i * 256 + byte b (i + 1)

theorem byte_lt (b : Octets) (i : Nat) : byte b i < 256 := UInt8.toNat_lt _

theorem word_lt (b : Octets) (i : Nat) : word b i < 65536 := by
  have := byte_lt b i; have := byte_lt b (i + 1)
  unfold word; omega

theorem getElem?_of_lt {b : Octets} {i : Nat} (h : i < b.length) : b[i]? = some (b.getD i 0) := by
  rw [List.getD_eq_getElem?_getD, List.getElem?_eq_getElem h]; rfl

theorem toNat_ofWord16 (w : UInt16) :
    (UInt8.ofNat (w.toNat / 256)).toNat * 256 + (UInt8.ofNat w.toNat).toNat = w.toNat :=
  (toNat_word16 ..).symm.trans (congrArg UInt16.toNat (word16_ofWord16 w))

theorem word16?_of_le {b : Octets} {i : Nat} (h : i + 2 ≤ b.length) :
    word16? b i = some (UInt16.ofNat (word b i)) := by
  unfold word16?
  rw [getElem?_of_lt (by omega : i < b.length), getElem?_of_lt (by omega : i + 1 < b.length)]
  rfl

@[simp] theorem toNat_ofNat_word (b : Octets) (i : Nat) : (UInt16.ofNat (word b i)).toNat = word b i := by
  rw [UInt16.toNat_ofNat', Nat.mod_eq_of_lt (word_lt b i)]

theorem slice?_of_le {b : Octets} {start len : Nat} (h : start + len ≤ b.length) :
    slice? b start len = some ((b.drop start).take len) := by
  unfold slice?; rw [if_pos h]

theorem take_drop_eq_map {b : Octets} {i n : Nat} (h : i + n ≤ b.length) :
    (b.drop i).take n = (List.range n).map fun k => b.getD (i + k) 0 := by
  apply List.ext_getElem (by simp; omega)
  intro k h1 h2
  simp only [List.length_take, List.length_drop] at h1
  rw [List.getElem_take, List.getElem_drop, List.getElem_map, List.getElem_range,
    List.getD_eq_getElem?_getD, List.getElem?_eq_getElem (by omega)]
  rfl

end Octets

open Octets

/-- The internet address stored at a position. -/
def Ipv4.Address.stored (b : Octets) (i : Nat) : Ipv4.Address :=
  ⟨b.getD i 0, b.getD (i + 1) 0, b.getD (i + 2) 0, b.getD (i + 3) 0⟩

/-- The hardware address stored at a position. -/
def Ethernet.Address.stored (b : Octets) (i : Nat) : Ethernet.Address :=
  ⟨b.getD i 0, b.getD (i + 1) 0, b.getD (i + 2) 0, b.getD (i + 3) 0, b.getD (i + 4) 0, b.getD (i + 5) 0⟩

theorem Ipv4.Address.read?_of_le {b : Octets} {i : Nat} (h : i + 4 ≤ b.length) :
    Ipv4.Address.read? b i = some (.stored b i) := by
  unfold Ipv4.Address.read?
  rw [slice?_of_le h, take_drop_eq_map h]
  rfl

theorem Ethernet.Address.read?_of_le {b : Octets} {i : Nat} (h : i + 6 ≤ b.length) :
    Ethernet.Address.read? b i = some (.stored b i) := by
  unfold Ethernet.Address.read?
  rw [slice?_of_le h, take_drop_eq_map h]
  rfl

theorem Ethernet.Header.read?_of_le {b : Octets} (h : 14 ≤ b.length) :
    Ethernet.Header.read? b =
      some ⟨.stored b 0, .stored b 6, .ofWord (UInt16.ofNat (word b 12))⟩ := by
  unfold Ethernet.Header.read?
  rw [Ethernet.Address.read?_of_le (by omega), Ethernet.Address.read?_of_le (by omega),
    word16?_of_le (by omega)]
  rfl

/-- The fields of at least 28 bytes. -/
def Arp.Header.fields (b : Octets) : Arp.Header where
  hardware := .ofWord (UInt16.ofNat (word b 0))
  protocol := .ofWord (UInt16.ofNat (word b 2))
  hardwareLen := b.getD 4 0
  protocolLen := b.getD 5 0
  message := {
    operation := .ofWord (UInt16.ofNat (word b 6))
    srcHardware := .stored b 8
    srcAddr := .stored b 14
    dstHardware := .stored b 18
    dstAddr := .stored b 24 }

theorem Arp.Header.read?_of_le {b : Octets} (h : 28 ≤ b.length) : Arp.Header.read? b = some (fields b) := by
  unfold Arp.Header.read?
  rw [word16?_of_le (by omega), word16?_of_le (by omega), getElem?_of_lt (by omega), getElem?_of_lt (by omega),
    word16?_of_le (by omega), Ethernet.Address.read?_of_le (by omega), Ipv4.Address.read?_of_le (by omega),
    Ethernet.Address.read?_of_le (by omega), Ipv4.Address.read?_of_le (by omega)]
  rfl

end UdpStack
