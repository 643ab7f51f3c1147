/-
The fields of frames and of the messages of the resolver. Each field has bytes of its own, and a type that has a
meaning is read as known, however it was named when it was written (`EtherType.ofWord_toWord`). A message is written
by one edit for each of its fields, one behind the other (`emit?_eq_edits`).
-/
import UdpStack.Proofs.Arp.Encoding
import UdpStack.Proofs.Fields.Basic

namespace UdpStack

open Octets

/-! ## Frames -/

namespace Ethernet

/-- The type of the same number, known if the number has a meaning here. -/
def EtherType.canonical : EtherType → EtherType
  | unknown w => ofWord w
  | t => t

theorem EtherType.ofWord_toWord (t : EtherType) : ofWord t.toWord = t.canonical := by
  cases t <;> rfl

theorem EtherType.known_ofWord (w : UInt16) : Known unknown [0x0800, 0x0806] (ofWord w) := by
  intro n hn
  unfold ofWord at hn
  split_ifs at hn
  cases hn
  simp [*]

namespace Header

/-- A field with what is written into it. -/
inductive Edit where
  | dst (x : Address)
  | src (x : Address)
  | etherType (t : EtherType)

def Edit.perform? (b : Octets) : Edit → Option Octets
  | dst x => setDst? b x
  | src x => setSrc? b x
  | etherType t => setEtherType? b t

def Edit.region : Edit → Region
  | dst _ => ⟨0, 6⟩
  | src _ => ⟨6, 6⟩
  | etherType _ => ⟨12, 2⟩

def Edit.apply (h : Header) : Edit → Header
  | dst x => { h with dst := x }
  | src x => { h with src := x }
  | etherType t => { h with etherType := t.canonical }

/-- The header of a frame. -/
def view : View Header Edit where
  check := checkLength
  read? := read?
  perform? := Edit.perform?
  region := Edit.region
  apply := Edit.apply
  Canonical h := Known .unknown [0x0800, 0x0806] h.etherType

/-- The fields of at least 14 bytes. -/
def fields (b : Octets) : Header := ⟨.stored b 0, .stored b 6, .ofWord (UInt16.ofNat (word b 12))⟩

theorem perform?_of_le {b : Octets} (h : size ≤ b.length) (e : Edit) : ∃ r, e.perform? b = some r ∧
    AgreeOutside b r e.region ∧ fields r = e.apply (fields b) := by
  cases e with
  | dst x =>
    refine agreeOutside_of_write (le_trans (by simp [size]) h) fun hr => ?_
    unfold fields
    rw [Address.stored_write?_self hr, Address.stored_write? hr (by simp), word_write? hr (by simp)]
    rfl
  | src x =>
    refine agreeOutside_of_write (le_trans (by simp [size]) h) fun hr => ?_
    unfold fields
    rw [Address.stored_write? hr (by simp), Address.stored_write?_self hr, word_write? hr (by simp)]
    rfl
  | etherType t =>
    refine agreeOutside_of_write (le_trans (by simp [size]) h) fun hr => ?_
    unfold fields
    rw [Address.stored_write? hr (by simp), Address.stored_write? hr (by simp), word_write?_self hr,
      UInt16.ofNat_toNat, EtherType.ofWord_toWord]
    rfl

theorem lawful : view.Lawful size fields where
  complete h := Nat.not_lt.1 fun hlt => by cases h.symm.trans (if_pos hlt)
  read := read?_of_le
  canonical _ := EtherType.known_ofWord _
  perform := perform?_of_le

end Header

end Ethernet

/-! ## Messages of the resolver -/

namespace Arp

def Hardware.canonical : Hardware → Hardware
  | unknown w => ofWord w
  | t => t

def Operation.canonical : Operation → Operation
  | unknown w => ofWord w
  | t => t

theorem Hardware.ofWord_toWord (t : Hardware) : ofWord t.toWord = t.canonical := by
  cases t <;> rfl

theorem Operation.ofWord_toWord (t : Operation) : ofWord t.toWord = t.canonical := by
  cases t <;> rfl

theorem Hardware.known_ofWord (w : UInt16) : Known unknown [1] (ofWord w) := by
  intro n hn
  unfold ofWord at hn
  split_ifs at hn
  cases hn
  simp [*]

theorem Operation.known_ofWord (w : UInt16) : Known unknown [1, 2] (ofWord w) := by
  intro n hn
  unfold ofWord at hn
  split_ifs at hn
  cases hn
  simp [*]

namespace Header

/-- A field with what is written into it. -/
inductive Edit where
  | hardware (t : Hardware)
  | protocol (t : Ethernet.EtherType)
  | hardwareLen (n : UInt8)
  | protocolLen (n : UInt8)
  | operation (t : Operation)
  | srcHardware (x : Ethernet.Address)
  | srcAddr (x : Ipv4.Address)
  | dstHardware (x : Ethernet.Address)
  | dstAddr (x : Ipv4.Address)

def Edit.perform? (b : Octets) : Edit → Option Octets
  | hardware t => write? b 0 (ofWord16 t.toWord)
  | protocol t => write? b 2 (ofWord16 t.toWord)
  | hardwareLen n => write? b 4 [n]
  | protocolLen n => write? b 5 [n]
  | operation t => write? b 6 (ofWord16 t.toWord)
  | srcHardware x => write? b 8 x.octets
  | srcAddr x => write? b 14 x.octets
  | dstHardware x => write? b 18 x.octets
  | dstAddr x => write? b 24 x.octets

def Edit.region : Edit → Region
  | hardware _ => ⟨0, 2⟩
  | protocol _ => ⟨2, 2⟩
  | hardwareLen _ => ⟨4, 1⟩
  | protocolLen _ => ⟨5, 1⟩
  | operation _ => ⟨6, 2⟩
  | srcHardware _ => ⟨8, 6⟩
  | srcAddr _ => ⟨14, 4⟩
  | dstHardware _ => ⟨18, 6⟩
  | dstAddr _ => ⟨24, 4⟩

def Edit.apply (h : Header) : Edit → Header
  | hardware t => { h with hardware := t.canonical }
  | protocol t => { h with protocol := t.canonical }
  | hardwareLen n => { h with hardwareLen := n }
  | protocolLen n => { h with protocolLen := n }
  | operation t => { h with message.operation := t.canonical }
  | srcHardware x => { h with message.srcHardware := x }
  | srcAddr x => { h with message.srcAddr := x }
  | dstHardware x => { h with message.dstHardware := x }
  | dstAddr x => { h with message.dstAddr := x }

/-- The header of a message. -/
def view : View Header Edit where
  check := Message.checkLength
  read? := read?
  perform? := Edit.perform?
  region := Edit.region
  apply := Edit.apply
  Canonical h := Known .unknown [1] h.hardware ∧ Known .unknown [0x0800, 0x0806] h.protocol ∧
    Known .unknown [1, 2] h.message.operation

theorem perform?_of_le {b : Octets} (h : Message.size ≤ b.length) (e : Edit) : ∃ r, e.perform? b = some r ∧
    AgreeOutside b r e.region ∧ fields r = e.apply (fields b) := by
  -- the other fields are the ones of `b`, and the field that was written is left over
  cases e <;> refine agreeOutside_of_write (le_trans (by simp [Message.size]) h) fun hr => ?_ <;>
    simp (disch := simp) only [fields, Edit.apply, getD_write? hr, word_write? hr, Ethernet.Address.stored_write? hr,
      Ipv4.Address.stored_write? hr]
  case hardware => rw [word_write?_self hr, UInt16.ofNat_toNat, Hardware.ofWord_toWord]
  case protocol => rw [word_write?_self hr, UInt16.ofNat_toNat, Ethernet.EtherType.ofWord_toWord]
  case hardwareLen => rw [getD_write?_byte hr]
  case protocolLen => rw [getD_write?_byte hr]
  case operation => rw [word_write?_self hr, UInt16.ofNat_toNat, Operation.ofWord_toWord]
  case srcHardware => rw [Ethernet.Address.stored_write?_self hr]
  case srcAddr => rw [Ipv4.Address.stored_write?_self hr]
  case dstHardware => rw [Ethernet.Address.stored_write?_self hr]
  case dstAddr => rw [Ipv4.Address.stored_write?_self hr]

theorem lawful : view.Lawful Message.size fields where
  complete h := Nat.not_lt.1 fun hlt => by cases h.symm.trans (if_pos hlt)
  read := read?_of_le
  canonical _ := ⟨Hardware.known_ofWord _, Ethernet.EtherType.known_ofWord _, Operation.known_ofWord _⟩
  perform := perform?_of_le

end Header

namespace Message

/-- The fields of a message in the order in which they are written. -/
def edits (m : Message) : List Header.Edit :=
  [.hardware .ethernet, .protocol .ipv4, .hardwareLen 6, .protocolLen 4, .operation m.operation,
    .srcHardware m.srcHardware, .srcAddr m.srcAddr, .dstHardware m.dstHardware, .dstAddr m.dstAddr]

/-- To write a message is to write its fields. -/
theorem emit?_eq_edits (m : Message) (b : Octets) : m.emit? b = m.edits.foldlM Header.Edit.perform? b := by
  have hoctets : m.octets = ofWord16 Hardware.ethernet.toWord ++ (ofWord16 Ethernet.EtherType.ipv4.toWord ++
      ([6] ++ ([4] ++ (ofWord16 m.operation.toWord ++ (m.srcHardware.octets ++ (m.srcAddr.octets ++
        (m.dstHardware.octets ++ m.dstAddr.octets))))))) := by
    simp [octets]
  rw [emit?, hoctets]
  simp only [write?_append, length_ofWord16, Ethernet.Address.length_octets, Ipv4.Address.length_octets,
    List.length_singleton, Nat.reduceAdd]
  simp [edits, Header.Edit.perform?]

/-- All fields of a message are written, and nothing behind them. -/
theorem emit?_fields (m : Message) {b : Octets} (h : size ≤ b.length) : ∃ r, m.emit? b = some r ∧
    Header.read? r = some ⟨.ethernet, .ipv4, 6, 4, { m with operation := m.operation.canonical }⟩ ∧
    AgreeOutside b r ⟨0, size⟩ := by
  obtain ⟨r, hr, hread, -⟩ := Header.lawful.run h m.edits
  have hw : m.emit? b = some r := (emit?_eq_edits m b).trans hr
  exact ⟨r, hw, hread, .of_write hw⟩

end Message

end Arp

end UdpStack
