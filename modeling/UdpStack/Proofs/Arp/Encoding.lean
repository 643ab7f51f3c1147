/-
Messages and their bytes stand for each other. Every field of a header has bytes of its own, so the fields give the
bytes back, whatever they say (`octets_fields`). A message is read exactly from bytes that speak of Ethernet and
internet addresses and hold a request or a reply (`parse_isOk_iff`), so it has one form only: what was written is
read back, and what was read is written back (`parse_inverts_emit`).
-/
import UdpStack.Proofs.Arp.Messages
import UdpStack.Proofs.Demands.Headers

namespace UdpStack

open Octets

namespace Octets

theorem ofNat_word_eq_iff (b : Octets) (i : Nat) (w : UInt16) : UInt16.ofNat (word b i) = w ↔ word b i = w.toNat := by
  rw [← UInt16.toNat_inj, toNat_ofNat_word]

theorem ofWord16_word (b : Octets) (i : Nat) :
    ofWord16 (UInt16.ofNat (word b i)) = [b.getD i 0, b.getD (i + 1) 0] := by
  have hhigh := byte_lt b i
  have hlow := byte_lt b (i + 1)
  unfold ofWord16
  rw [toNat_ofNat_word]
  congr 1
  · rw [← UInt8.toNat_inj, UInt8.toNat_ofNat']
    unfold word
    show _ = byte b i
    omega
  · congr 1
    rw [← UInt8.toNat_inj, UInt8.toNat_ofNat']
    unfold word
    show _ = byte b (i + 1)
    omega

end Octets

namespace Arp

/-! ## Numbers -/

theorem Hardware.toWord_ofWord (w : UInt16) : (ofWord w).toWord = w := by
  unfold ofWord
  split <;> simp_all [toWord]

theorem Hardware.ofWord_inj (v w : UInt16) : ofWord v = ofWord w ↔ v = w :=
  ⟨fun h => by rw [← toWord_ofWord v, h, toWord_ofWord], congrArg ofWord⟩

theorem Operation.ofWord_inj (v w : UInt16) : ofWord v = ofWord w ↔ v = w :=
  ⟨fun h => by rw [← toWord_ofWord v, h, toWord_ofWord], congrArg ofWord⟩

/-! ## Fields -/

namespace Header

theorem read?_eq_none {b : Octets} (h : b.length < 28) : read? b = none := by
  have hlast : Ipv4.Address.read? b 24 = none := by
    rw [Ipv4.Address.read?, slice?_eq_none h]
    rfl
  simp [read?, hlast]

theorem read?_eq_some_iff {b : Octets} {h : Header} : read? b = some h ↔ 28 ≤ b.length ∧ fields b = h := by
  rcases Nat.lt_or_ge b.length 28 with hlt | hge
  · rw [read?_eq_none hlt]
    exact iff_of_false nofun fun hb => Nat.not_le.2 hlt hb.1
  · rw [read?_of_le hge, Option.some_inj, and_iff_right hge]

/-- The bytes of a header of any kind. -/
def octets (h : Header) : Octets :=
  ofWord16 h.hardware.toWord ++ ofWord16 h.protocol.toWord ++ [h.hardwareLen, h.protocolLen] ++
    ofWord16 h.message.operation.toWord ++ h.message.srcHardware.octets ++ h.message.srcAddr.octets ++
    h.message.dstHardware.octets ++ h.message.dstAddr.octets

/-- No byte of a header is lost. -/
theorem octets_fields {b : Octets} (h : 28 ≤ b.length) : (fields b).octets = b.take 28 := by
  have htake : b.take 28 = (List.range 28).map fun k => b.getD (0 + k) 0 :=
    take_drop_eq_map (i := 0) (by omega)
  unfold octets fields
  rw [Hardware.toWord_ofWord, Ethernet.EtherType.toWord_ofWord, Operation.toWord_ofWord, ofWord16_word, ofWord16_word,
    ofWord16_word, htake]
  rfl

end Header

/-! ## Messages -/

namespace Message

theorem parse_eq_ok_iff {b : Octets} {m : Message} : parse b = .ok m ↔
    Header.read? b = some ⟨.ethernet, .ipv4, 6, 4, m⟩ ∧ (m.operation = .request ∨ m.operation = .reply) := by
  unfold parse
  cases Header.read? b with
  | none => simp
  | some h =>
    obtain ⟨hardware, protocol, hardwareLen, protocolLen, message⟩ := h
    dsimp only
    split
    · rename_i hkind
      obtain ⟨rfl, rfl, rfl, rfl⟩ := hkind
      split
      · rename_i n hn
        constructor
        · nofun
        · rintro ⟨he, hm⟩
          cases he
          simp [hn] at hm
      · rename_i hknown
        constructor
        · intro he
          cases he
          refine ⟨rfl, ?_⟩
          cases ho : m.operation with
          | request => exact .inl rfl
          | reply => exact .inr rfl
          | unknown n => exact absurd ho (hknown n)
        · rintro ⟨he, -⟩
          cases he
          rfl
    · rename_i hkind
      constructor
      · nofun
      · rintro ⟨he, -⟩
        cases he
        exact absurd ⟨rfl, rfl, rfl, rfl⟩ hkind

theorem parse_isOk_iff {b : Octets} : (∃ m, parse b = .ok m) ↔ size ≤ b.length ∧ word b 0 = 1 ∧ word b 2 = 0x0800 ∧
    byte b 4 = 6 ∧ byte b 5 = 4 ∧ (word b 6 = 1 ∨ word b 6 = 2) := by
  have hhardware : (Header.fields b).hardware = .ethernet ↔ word b 0 = 1 :=
    (Hardware.ofWord_inj _ 1).trans (ofNat_word_eq_iff b 0 1)
  have hprotocol : (Header.fields b).protocol = .ipv4 ↔ word b 2 = 0x0800 :=
    (Ethernet.EtherType.ofWord_inj _ 0x0800).trans (ofNat_word_eq_iff b 2 0x0800)
  have hhardwareLen : (Header.fields b).hardwareLen = 6 ↔ byte b 4 = 6 := UInt8.toNat_inj.symm
  have hprotocolLen : (Header.fields b).protocolLen = 4 ↔ byte b 5 = 4 := UInt8.toNat_inj.symm
  have hrequest : (Header.fields b).message.operation = .request ↔ word b 6 = 1 :=
    (Operation.ofWord_inj _ 1).trans (ofNat_word_eq_iff b 6 1)
  have hreply : (Header.fields b).message.operation = .reply ↔ word b 6 = 2 :=
    (Operation.ofWord_inj _ 2).trans (ofNat_word_eq_iff b 6 2)
  rw [← hhardware, ← hprotocol, ← hhardwareLen, ← hprotocolLen, ← hrequest, ← hreply]
  constructor
  · rintro ⟨m, hm⟩
    obtain ⟨hread, hoperation⟩ := parse_eq_ok_iff.1 hm
    obtain ⟨hlen, hfields⟩ := Header.read?_eq_some_iff.1 hread
    rw [hfields]
    exact ⟨hlen, rfl, rfl, rfl, rfl, hoperation⟩
  · rintro ⟨hlen, h1, h2, h3, h4, hoperation⟩
    refine ⟨(Header.fields b).message, parse_eq_ok_iff.2 ⟨Header.read?_eq_some_iff.2 ⟨hlen, ?_⟩, hoperation⟩⟩
    rw [← h1, ← h2, ← h3, ← h4]

theorem emit?_of_le (m : Message) {b : Octets} (h : size ≤ b.length) :
    m.emit? b = some (m.octets ++ b.drop size) := by
  unfold emit? write?
  rw [length_octets, Nat.zero_add, if_pos h]
  rfl

/-- A message that is read from bytes has these bytes. -/
theorem octets_of_parse {b : Octets} {m : Message} (h : parse b = .ok m) : m.octets = b.take size := by
  obtain ⟨hlen, hfields⟩ := Header.read?_eq_some_iff.1 (parse_eq_ok_iff.1 h).1
  have hbytes := Header.octets_fields hlen
  rw [hfields] at hbytes
  exact hbytes

/-- Messages and their bytes. A request or a reply that is written over the first 28 of any bytes is read back as it
is, and no other byte changes. A message is read from bytes exactly if there are 28 of them and they speak of Ethernet
and the internet protocol, with addresses of six and four bytes, and hold a request or a reply; and to write it over
any bytes puts the first 28 it was read from in their place. -/
theorem parse_inverts_emit :
    (∀ (m : Message) (b : Octets), m.operation = .request ∨ m.operation = .reply → size ≤ b.length →
      ∃ r, m.emit? b = some r ∧ r.length = b.length ∧ r.drop size = b.drop size ∧ parse r = .ok m) ∧
    (∀ b : Octets, (∃ m, parse b = .ok m) ↔ size ≤ b.length ∧ word b 0 = 1 ∧ word b 2 = 0x0800 ∧
      byte b 4 = 6 ∧ byte b 5 = 4 ∧ (word b 6 = 1 ∨ word b 6 = 2)) ∧
    ∀ (b c : Octets) (m : Message), parse b = .ok m → size ≤ c.length →
      m.emit? c = some (b.take size ++ c.drop size) := by
  refine ⟨fun m b hm hb => ?_, fun b => parse_isOk_iff, fun b c m hm hc => ?_⟩
  · have hr := emit?_of_le m hb
    exact ⟨_, hr, length_write? hr, List.drop_left' (length_octets m), parse_octets hm _⟩
  · rw [emit?_of_le m hc, octets_of_parse hm]

/-- A question in front of two bytes that stay. -/
theorem parse_inverts_emit_question :
    let m : Message := ⟨.request, ⟨2, 0, 0, 0, 0, 1⟩, ⟨10, 0, 0, 1⟩, .zero, ⟨10, 0, 0, 2⟩⟩
    ∃ r, m.emit? (List.replicate 30 0xaa) = some r ∧ r.drop 28 = [0xaa, 0xaa] ∧ parse r = .ok m ∧
      m.emit? (List.replicate 29 0) = some (r.take 28 ++ [0]) := by
  intro m
  obtain ⟨hemit, -, hwritten⟩ := parse_inverts_emit
  obtain ⟨r, hr, -, hdrop, hparse⟩ := hemit m (List.replicate 30 0xaa) (.inl rfl) (by decide)
  exact ⟨r, hr, hdrop, hparse, hwritten r (List.replicate 29 0) m hparse (by decide)⟩

end Message

end Arp

end UdpStack
