/-
The fields of datagrams, and the fields of all headers. A flag and the place of a fragment stand in one word, of which
an edit changes only its own bits (`fragOffset_set_moreFrags`, `moreFrags_set_fragOffset`). To fill in a checksum is to
write that one field (`fillChecksum?_eq_set`). The fields of every header are independent (`fields_independent`).
-/
import UdpStack.Proofs.Fields.Link
import UdpStack.Proofs.Ipv4.HeaderChecksum
import UdpStack.Proofs.Udp.Checksum

namespace UdpStack

open Octets

/-! ## Datagrams -/

namespace Ipv4

def Protocol.canonical : Protocol → Protocol
  | unknown n => ofByte n
  | p => p

theorem Protocol.ofByte_toByte (p : Protocol) : ofByte p.toByte = p.canonical := by
  cases p <;> rfl

theorem Protocol.known_ofByte (n : UInt8) : Known unknown [1, 6, 17] (ofByte n) := by
  intro m hm
  unfold ofByte at hm
  split_ifs at hm
  cases hm
  simp [*]

namespace Header

/-! ### Flags and the place of a fragment -/

/-- Bits are picked out of either word. -/
theorem or_and_distrib (v w m : UInt16) : (v ||| w) &&& m = v &&& m ||| w &&& m :=
  UInt16.toBitVec_inj.1 BitVec.and_or_distrib_right

theorem moreFrags_set (w : UInt16) (v : Bool) :
    ((if v then w ||| 0x2000 else w &&& 0xdfff) &&& 0x2000 != 0) = v := by
  cases v with
  | false =>
    have h : w &&& 0xdfff &&& 0x2000 = 0 := by rw [UInt16.and_assoc]; exact UInt16.and_zero
    simp [h]
  | true =>
    have h : (w ||| 0x2000) &&& 0x2000 ≠ 0 := by
      rw [or_and_distrib, UInt16.and_self, ne_eq, UInt16.or_eq_zero_iff]
      simp
    simpa using h

theorem fragOffset_set_moreFrags (w : UInt16) (v : Bool) :
    (if v then w ||| 0x2000 else w &&& 0xdfff) <<< (3 : UInt16) = w <<< (3 : UInt16) := by
  cases v with
  | false =>
    -- the flags are shifted out, whether they are cleared before or not
    have hmask : (0xdfff : UInt16) <<< (3 : UInt16) = (-1 : UInt16) <<< (3 : UInt16) := rfl
    show (w &&& (0xdfff : UInt16)) <<< (3 : UInt16) = _
    rw [UInt16.shiftLeft_and, hmask, ← UInt16.shiftLeft_and, UInt16.and_neg_one]
  | true =>
    show (w ||| (0x2000 : UInt16)) <<< (3 : UInt16) = _
    rw [UInt16.shiftLeft_or]
    exact UInt16.or_zero

theorem moreFrags_set_fragOffset (w v : UInt16) :
    (w &&& (0xe000 : UInt16) ||| v >>> (3 : UInt16)) &&& (0x2000 : UInt16) = w &&& 0x2000 := by
  have hv : v >>> (3 : UInt16) &&& 0x2000 = 0 := by
    rw [← UInt16.and_neg_one (a := v), UInt16.shiftRight_and, UInt16.and_assoc]
    exact UInt16.and_zero
  rw [or_and_distrib, UInt16.and_assoc, hv]
  exact UInt16.or_zero

theorem fragOffset_set (w v : UInt16) :
    (w &&& (0xe000 : UInt16) ||| v >>> (3 : UInt16)) <<< (3 : UInt16) = v / 8 * 8 := by
  have hflags : (w &&& (0xe000 : UInt16)) <<< (3 : UInt16) = 0 := by
    rw [UInt16.shiftLeft_and]
    exact UInt16.and_zero
  have hv : v >>> (3 : UInt16) <<< (3 : UInt16) = v / 8 * 8 := by
    rw [← UInt16.toNat_inj]
    simp [UInt16.toNat_shiftLeft, Nat.shiftLeft_eq, Nat.shiftRight_eq_div_pow]
  rw [UInt16.shiftLeft_or, hflags, hv]
  exact UInt16.zero_or

/-! ### Edits -/

/-- A field with what is written into it. -/
inductive Edit where
  | versionAndLen
  | totalLen (v : UInt16)
  | ident (v : UInt16)
  | clearFlags
  | moreFrags (v : Bool)
  | fragOffset (v : UInt16)
  | hopLimit (v : UInt8)
  | protocol (p : Protocol)
  | checksum (v : UInt16)
  | src (x : Address)
  | dst (x : Address)

def Edit.perform? (b : Octets) : Edit → Option Octets
  | versionAndLen => setVersionAndLen? b
  | totalLen v => setTotalLen? b v
  | ident v => setIdent? b v
  | clearFlags => clearFlags? b
  | moreFrags v => setMoreFrags? b v
  | fragOffset v => setFragOffset? b v
  | hopLimit v => setHopLimit? b v
  | protocol p => setProtocol? b p
  | checksum v => setChecksum? b v
  | src x => setSrc? b x
  | dst x => setDst? b x

/-- The version and the length share the first byte, and the service class behind them is written with them. The flags
share a word with the place of a fragment. -/
def Edit.region : Edit → Region
  | versionAndLen => ⟨0, 2⟩
  | totalLen _ => ⟨2, 2⟩
  | ident _ => ⟨4, 2⟩
  | clearFlags => ⟨6, 2⟩
  | moreFrags _ => ⟨6, 2⟩
  | fragOffset _ => ⟨6, 2⟩
  | hopLimit _ => ⟨8, 1⟩
  | protocol _ => ⟨9, 1⟩
  | checksum _ => ⟨10, 2⟩
  | src _ => ⟨12, 4⟩
  | dst _ => ⟨16, 4⟩

def Edit.apply (h : Header) : Edit → Header
  | versionAndLen => { h with version := 4, headerLen := 20 }
  | totalLen v => { h with totalLen := v }
  | ident v => { h with ident := v }
  | clearFlags => { h with moreFrags := false, fragOffset := 0 }
  | moreFrags v => { h with moreFrags := v }
  | fragOffset v => { h with fragOffset := v / 8 * 8 }
  | hopLimit v => { h with hopLimit := v }
  | protocol p => { h with protocol := p.canonical }
  | checksum v => { h with checksum := v }
  | src x => { h with src := x }
  | dst x => { h with dst := x }

/-- The header of an internet datagram. -/
def view : View Header Edit where
  check := checkLength
  read? := read?
  perform? := Edit.perform?
  region := Edit.region
  apply := Edit.apply
  Canonical h := Known .unknown [1, 6, 17] h.protocol

theorem setMoreFrags?_of_le {b : Octets} (h : size ≤ b.length) (v : Bool) : setMoreFrags? b v =
    write? b 6 (ofWord16 (if v then UInt16.ofNat (word b 6) ||| 0x2000 else UInt16.ofNat (word b 6) &&& 0xdfff)) := by
  unfold setMoreFrags?
  rw [word16?_of_le (le_trans (by decide) h)]
  rfl

theorem setFragOffset?_of_le {b : Octets} (h : size ≤ b.length) (v : UInt16) : setFragOffset? b v =
    write? b 6 (ofWord16 (UInt16.ofNat (word b 6) &&& (0xe000 : UInt16) ||| v >>> (3 : UInt16))) := by
  unfold setFragOffset?
  rw [word16?_of_le (le_trans (by decide) h)]
  rfl

theorem perform?_of_le {b : Octets} (h : size ≤ b.length) (e : Edit) : ∃ r, e.perform? b = some r ∧
    AgreeOutside b r e.region ∧ fields r = e.apply (fields b) := by
  cases e <;> simp only [Edit.perform?, setMoreFrags?_of_le h, setFragOffset?_of_le h] <;>
    refine agreeOutside_of_write (le_trans (by simp [size]) h) fun hr => ?_ <;>
    simp (disch := simp) only [fields, Edit.apply, getD_write? hr, word_write? hr, Address.stored_write? hr]
  case versionAndLen =>
    have hfirst : ∀ {r}, write? b 0 [0x45, 0] = some r → r.getD 0 0 = 0x45 :=
      fun hr => getD_write?_self (k := 0) hr Nat.two_pos
    rw [hfirst hr]
    rfl
  case totalLen => rw [word_write?_self hr, UInt16.ofNat_toNat]
  case ident => rw [word_write?_self hr, UInt16.ofNat_toNat]
  case clearFlags =>
    rw [word_write?_self hr]
    rfl
  case moreFrags => rw [word_write?_self hr, UInt16.ofNat_toNat, moreFrags_set, fragOffset_set_moreFrags]
  case fragOffset => rw [word_write?_self hr, UInt16.ofNat_toNat, moreFrags_set_fragOffset, fragOffset_set]
  case hopLimit => rw [getD_write?_byte hr]
  case protocol => rw [getD_write?_byte hr, Protocol.ofByte_toByte]
  case checksum => rw [word_write?_self hr, UInt16.ofNat_toNat]
  case src => rw [Address.stored_write?_self hr]
  case dst => rw [Address.stored_write?_self hr]

theorem lawful : view.Lawful size fields where
  complete h := (checkLength_eq_ok_iff.1 h).1
  read := read?_of_le
  canonical _ := Protocol.known_ofByte _
  perform := perform?_of_le

/-- The service class is cleared together with the version and the length. -/
theorem setVersionAndLen?_of_le {b : Octets} (h : size ≤ b.length) :
    ∃ r, setVersionAndLen? b = some r ∧ slice? r 0 2 = some [0x45, 0] :=
  have hw : setVersionAndLen? b = some _ := if_pos (le_trans (by decide) h)
  ⟨_, hw, slice?_write?_self hw⟩

/-- To fill in the checksum is to write a checksum. -/
theorem fillChecksum?_eq_set {b : Octets} (h : checkLength b = .ok ()) :
    ∃ c r, fillChecksum? b = some r ∧ setChecksum? b c = some r := by
  obtain ⟨hl, -, ho⟩ := checkLength_eq_ok_iff.1 h
  exact ⟨_, _, fillChecksum?_of_le hl ho, write?_word (by omega) _⟩

end Header

end Ipv4

/-! ## User datagrams -/

namespace Udp.Header

/-- A field with what is written into it. -/
inductive Edit where
  | srcPort (v : UInt16)
  | dstPort (v : UInt16)
  | len (v : UInt16)
  | checksum (v : UInt16)

def Edit.perform? (b : Octets) : Edit → Option Octets
  | srcPort v => setSrcPort? b v
  | dstPort v => setDstPort? b v
  | len v => setLen? b v
  | checksum v => setChecksum? b v

def Edit.region : Edit → Region
  | srcPort _ => ⟨0, 2⟩
  | dstPort _ => ⟨2, 2⟩
  | len _ => ⟨4, 2⟩
  | checksum _ => ⟨6, 2⟩

def Edit.apply (h : Header) : Edit → Header
  | srcPort v => { h with srcPort := v }
  | dstPort v => { h with dstPort := v }
  | len v => { h with len := v }
  | checksum v => { h with checksum := v }

/-- The header of a user datagram. -/
def view : View Header Edit where
  check := checkLength
  read? := read?
  perform? := Edit.perform?
  region := Edit.region
  apply := Edit.apply
  Canonical _ := True

/-- The fields of at least 8 bytes. -/
def fields (b : Octets) : Header where
  srcPort := UInt16.ofNat (word b 0)
  dstPort := UInt16.ofNat (word b 2)
  len := UInt16.ofNat (word b 4)
  checksum := UInt16.ofNat (word b 6)

theorem perform?_of_le {b : Octets} (h : size ≤ b.length) (e : Edit) : ∃ r, e.perform? b = some r ∧
    AgreeOutside b r e.region ∧ fields r = e.apply (fields b) := by
  cases e <;> refine agreeOutside_of_write (le_trans (by simp [size]) h) fun hr => ?_ <;>
    simp (disch := simp) only [fields, Edit.apply, word_write? hr, word_write?_self hr, UInt16.ofNat_toNat]

theorem lawful : view.Lawful size fields where
  complete h := (complete_of_check h).1.trans (complete_of_check h).2
  read := read?_of_le
  canonical _ := trivial
  perform := perform?_of_le

/-- To fill in the checksum is to write a checksum. -/
theorem fillChecksum?_eq_set {b : Octets} (h : checkLength b = .ok ()) (src dst : Ipv4.Address) :
    ∃ c r, fillChecksum? b src dst = some r ∧ setChecksum? b c = some r := by
  obtain ⟨hleast, hl⟩ := complete_of_check h
  exact ⟨_, _, fillChecksum?_of_le hleast hl src dst, write?_word (hleast.trans hl) _⟩

end Udp.Header

/-! ## All views -/

/-- The fields of all headers can be read and written one by one in bytes whose length was accepted. Each is read as
it was last written, and no other field and no byte outside changes with it. In an internet header the service class is
cleared with the version and the length. A message of the resolver is written field by field. A payload is read, a
checksum compared and a checksum filled in wherever the length was accepted, and to fill in a checksum writes no other
field. -/
theorem fields_independent :
    Ethernet.Header.view.Independent ∧ Arp.Header.view.Independent ∧ Ipv4.Header.view.Independent ∧
    Udp.Header.view.Independent ∧
    (∀ (m : Arp.Message) (b : Octets), m.emit? b = m.edits.foldlM Arp.Header.Edit.perform? b ∧
      (Arp.Message.checkLength b = .ok () → ∃ r, m.emit? b = some r ∧ Arp.Header.read? r =
        some ⟨.ethernet, .ipv4, 6, 4, { m with operation := m.operation.canonical }⟩ ∧ AgreeOutside b r ⟨0, 28⟩)) ∧
    (∀ b, Ipv4.Header.checkLength b = .ok () →
      (∃ r, Ipv4.Header.setVersionAndLen? b = some r ∧ slice? r 0 2 = some [0x45, 0]) ∧
      (Ipv4.Header.verifyChecksum? b).isSome = true ∧
      ∃ c r, Ipv4.Header.fillChecksum? b = some r ∧ Ipv4.Header.setChecksum? b c = some r) ∧
    ∀ b, Udp.Header.checkLength b = .ok () → (Udp.Header.payload? b).isSome = true ∧ ∀ src dst,
      (Udp.Header.verifyChecksum? b src dst).isSome = true ∧
      ∃ c r, Udp.Header.fillChecksum? b src dst = some r ∧ Udp.Header.setChecksum? b c = some r := by
  refine ⟨Ethernet.Header.lawful.independent, Arp.Header.lawful.independent, Ipv4.Header.lawful.independent,
    Udp.Header.lawful.independent, fun m b => ⟨m.emit?_eq_edits b, fun hb => ?_⟩, fun b hb => ?_, fun b hb => ?_⟩
  · exact m.emit?_fields (Arp.Header.lawful.complete hb)
  · obtain ⟨hl, -, ho⟩ := Ipv4.Header.checkLength_eq_ok_iff.1 hb
    refine ⟨Ipv4.Header.setVersionAndLen?_of_le hl, ?_, Ipv4.Header.fillChecksum?_eq_set hb⟩
    rw [Ipv4.Header.verifyChecksum?_of_le hl ho]
    rfl
  · obtain ⟨hleast, hl⟩ := Udp.Header.complete_of_check hb
    refine ⟨(Udp.Header.read?_isSome_iff.2 (Udp.Header.met_read hleast hl)).2, fun src dst => ⟨?_, ?_⟩⟩
    · exact (Udp.Header.verifyChecksum?_isSome_iff src dst).2 (Udp.Header.met_verify (hleast.trans hl) hl)
    · exact Udp.Header.fillChecksum?_eq_set hb src dst

/-- Bytes that every view accepts. As an internet datagram they are a fragment, and their header has options. -/
def fragment : Octets :=
  [0x46, 7, 0, 28, 0, 9, 0x20, 5, 64, 17, 0, 0, 10, 0, 0, 1, 10, 0, 0, 2, 1, 1, 1, 0, 1, 2, 3, 4]

/-- The flag of a fragment stays when its place is written, and a type that has a meaning is not read as unknown. -/
theorem fields_independent_fragment :
    (∃ x r, Ipv4.Header.read? fragment = some x ∧ x.moreFrags = true ∧
      Ipv4.Header.setFragOffset? fragment 4095 = some r ∧
      Ipv4.Header.read? r = some { x with fragOffset := 4088 } ∧ r[5]? = some 9) ∧
    (∃ x r, Ethernet.Header.setEtherType? fragment (.unknown 0x0806) = some r ∧
      Ethernet.Header.read? r = some x ∧ x.etherType = .arp) ∧
    (∃ x r, Udp.Header.setLen? fragment 7 = some r ∧ Udp.Header.read? r = some x ∧ x.len = 7 ∧ x.dstPort = 28) ∧
    (∃ x r, Arp.Header.Edit.perform? fragment (.operation (.unknown 2)) = some r ∧ Arp.Header.read? r = some x ∧
      x.message.operation = .reply) ∧
    (Ipv4.Header.verifyChecksum? fragment).isSome = true ∧ (Udp.Header.payload? fragment).isSome = true := by
  obtain ⟨hframe, hmessage, hinternet, huser, -, hsum, hpayload⟩ := fields_independent
  obtain ⟨w, -, -, hframe⟩ := hframe fragment (by decide)
  obtain ⟨x, -, -, hmessage⟩ := hmessage fragment (by decide)
  obtain ⟨y, hy, -, hinternet⟩ := hinternet fragment (by decide)
  obtain ⟨z, hz, -, huser⟩ := huser fragment (by decide)
  obtain rfl : Ipv4.Header.fields fragment = y := Option.some.inj ((Ipv4.Header.read?_of_le (by decide)).symm.trans hy)
  obtain rfl : Udp.Header.fields fragment = z := Option.some.inj ((Udp.Header.read?_of_le (by decide)).symm.trans hz)
  refine ⟨?_, ?_, ?_, ?_, (hsum fragment (by decide)).2.1, (hpayload fragment (by decide)).1⟩
  · obtain ⟨r, hr, hread, hagree⟩ := hinternet (.fragOffset 4095)
    exact ⟨_, r, hy, rfl, hr, hread, hagree.byte 5 (.inl (by decide))⟩
  · obtain ⟨r, hr, hread, -⟩ := hframe (.etherType (.unknown 0x0806))
    exact ⟨_, r, hr, hread, rfl⟩
  · obtain ⟨r, hr, hread, -⟩ := huser (.len 7)
    exact ⟨_, r, hr, hread, rfl, rfl⟩
  · obtain ⟨r, hr, hread, -⟩ := hmessage (.operation (.unknown 2))
    exact ⟨_, r, hr, hread, rfl⟩

end UdpStack
