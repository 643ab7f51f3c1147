/-
What a packet shows of its buffer. Passes read and send nothing but the stacked headers and the
payload; whatever else is in the buffer, be it in front of the headers, behind the payload or in the
bytes that a header is about to claim, makes no difference. Two packets that differ in nothing else
stay alike through every layer, in both directions, with the same results.
-/
import UdpStack.Ethernet.Endpoint
import UdpStack.Ipv4.Router
import UdpStack.Proofs.Packet
import UdpStack.Udp.Ports
import UdpStack.Udp.Socket

namespace UdpStack

open Octets

/-- Two outcomes that fail alike, or succeed with values that stand in a relation. -/
inductive Both {α β : Type} (R : α → β → Prop) : Except Fault α → Except Fault β → Prop where
  | error (f : Fault) : Both R (.error f) (.error f)
  | ok {a : α} {b : β} : R a b → Both R (.ok a) (.ok b)

theorem Both.cases {α β : Type} {R : α → β → Prop} {x : Except Fault α} {y : Except Fault β} (h : Both R x y) :
    (∃ f, x = .error f ∧ y = .error f) ∨ ∃ a b, x = .ok a ∧ y = .ok b ∧ R a b := by
  cases h with
  | error f => exact .inl ⟨f, rfl, rfl⟩
  | ok hr => exact .inr ⟨_, _, rfl, rfl, hr⟩

theorem slice?_congr {b d : Octets} {start len : Nat} (hl : d.length = b.length)
    (h : ∀ i, start ≤ i → i < start + len → d[i]? = b[i]?) : slice? d start len = slice? b start len := by
  unfold slice?
  rw [hl]
  split
  · refine congrArg some (List.ext_getElem? fun k => ?_)
    rw [List.getElem?_take, List.getElem?_take, List.getElem?_drop, List.getElem?_drop]
    split
    · exact h _ (by omega) (by omega)
    · rfl
  · rfl

namespace Packet

theorem getElem?_fill {p : Packet} {r : Region} (data : Octets) (hr : r.start ≤ p.bytes.length) (i : Nat) :
    (p.fill r data).bytes[i]? =
      if i < r.start ∨ r.start + (data.take r.len).length ≤ i then p.bytes[i]?
      else (data.take r.len)[i - r.start]? := by
  have hs : (p.bytes.take r.start).length = r.start := by rw [List.length_take]; omega
  show (p.bytes.take r.start ++ data.take r.len ++ p.bytes.drop _)[i]? = _
  split
  · rename_i hi
    rcases hi with hi | hi
    · rw [List.append_assoc, List.getElem?_append_left (by omega), List.getElem?_take_of_lt hi]
    · rw [List.getElem?_append_right (by rw [List.length_append]; omega), List.getElem?_drop, List.length_append, hs]
      congr 1
      omega
  · rw [List.getElem?_append_left (by rw [List.length_append]; omega), List.getElem?_append_right (by omega), hs]

/-- Two packets that differ in nothing but bytes outside of their headers and payload. -/
structure Alike (p q : Packet) : Prop where
  header : q.header = p.header
  boundary : q.boundary = p.boundary
  read : q.read = p.read
  write : q.write = p.write
  length : q.bytes.length = p.bytes.length
  header_le : p.header ≤ p.read
  read_le : p.read ≤ p.write
  write_le : p.write ≤ p.bytes.length
  bytes : ∀ i, p.header ≤ i → i < p.write → q.bytes[i]? = p.bytes[i]?

variable {p q : Packet}

theorem Alike.available (h : p.Alike q) : q.available = p.available := by
  unfold Packet.available; rw [h.read, h.write]

theorem Alike.payloadLen (h : p.Alike q) : q.payloadLen = p.payloadLen := by
  unfold Packet.payloadLen; rw [h.boundary, h.write]

theorem Alike.headerLen (h : p.Alike q) : q.headerLen = p.headerLen := by
  unfold Packet.headerLen; rw [h.boundary, h.header]

theorem Alike.slice? (h : p.Alike q) {start len : Nat} (hs : p.header ≤ start) (hl : start + len ≤ p.write) :
    Octets.slice? q.bytes start len = Octets.slice? p.bytes start len :=
  slice?_congr h.length fun i h1 h2 => h.bytes i (by omega) (by omega)

theorem Alike.range? (h : p.Alike q) {start : Nat} (hs : p.header ≤ start) :
    Octets.range? q.bytes start q.write = Octets.range? p.bytes start p.write := by
  unfold Octets.range?
  rw [h.write]
  split
  · exact h.slice? hs (by omega)
  · rfl

theorem Alike.unread? (h : p.Alike q) : q.unread? = p.unread? := by
  unfold Packet.unread?
  rw [h.read]
  exact h.range? h.header_le

theorem Alike.frame? (h : p.Alike q) : q.frame? = p.frame? := by
  unfold Packet.frame?
  rw [h.header]
  exact h.range? le_rfl

theorem Alike.stackedRegion? (h : p.Alike q) (depth : Nat) : q.stackedRegion? depth = p.stackedRegion? depth := by
  unfold Packet.stackedRegion? between? capacity
  rw [h.headerLen, h.boundary, h.write, h.length]

theorem Alike.content? (h : p.Alike q) {r : Region} (hs : p.header ≤ r.start) (hl : r.start + r.len ≤ p.write) :
    q.content? r = p.content? r := h.slice? hs hl

theorem Alike.skip (h : p.Alike q) (len : Nat) : Both Alike (p.skip len) (q.skip len) := by
  have := h.header_le
  unfold Packet.skip
  rw [h.available]
  unfold Packet.available
  split
  · exact .error _
  · exact .ok ⟨h.header, h.boundary, congrArg (· + len) h.read, h.write, h.length, by dsimp only; omega,
      by have := h.read_le; dsimp only; omega, h.write_le, h.bytes⟩

theorem Alike.truncate (h : p.Alike q) (len : Nat) : Both Alike (p.truncate len) (q.truncate len) := by
  have := h.read_le
  have := h.write_le
  unfold Packet.truncate
  rw [h.available]
  unfold Packet.available
  split
  · exact .error _
  · exact .ok ⟨h.header, h.boundary, h.read, congrArg (· + len) h.read, h.length, h.header_le,
      by dsimp only; omega, by dsimp only; omega, fun i h1 h2 => h.bytes i h1 (by dsimp only at h2; omega)⟩

theorem Alike.peek (h : p.Alike q) (len : Nat) : q.peek len = p.peek len := by
  have := h.header_le
  unfold Packet.peek
  rw [h.available]
  unfold Packet.available
  split
  · rfl
  · refine congrArg Except.ok (List.ext_getElem? fun k => ?_)
    rw [h.read, List.getElem?_take, List.getElem?_take, List.getElem?_drop, List.getElem?_drop]
    split
    · exact h.bytes _ (by omega) (by omega)
    · rfl

theorem Alike.take (h : p.Alike q) (len : Nat) :
    Both (fun x y => y.1 = x.1 ∧ x.2.Alike y.2) (p.take len) (q.take len) := by
  have hs := h.skip len
  unfold Packet.skip at hs
  unfold Packet.take
  rw [h.peek]
  unfold Packet.peek
  split
  · exact .error _
  · rename_i hle
    rw [if_neg hle, if_neg (by rw [h.available]; exact hle)] at hs
    cases hs with
    | ok ha => exact .ok ⟨rfl, ha⟩

theorem Alike.resetReadHeaders (h : p.Alike q) : p.resetReadHeaders.Alike q.resetReadHeaders :=
  ⟨h.header, h.boundary, h.header, h.write, h.length, le_rfl, h.header_le.trans h.read_le, h.write_le, h.bytes⟩

/-! ## Writing -/

/-- Writing the same bytes over the same region keeps what agrees, and makes the region agree. -/
theorem Alike.fill (h : p.Alike q) {r : Region} (data : Octets) {header header' write write' : Nat}
    (hr : r.start + (data.take r.len).length ≤ p.bytes.length) (hh : header ≤ p.read) (hw : p.read ≤ write)
    (hl : write ≤ p.bytes.length) (hheader : header' = header) (hwrite : write' = write)
    (ho : ∀ i, header ≤ i → i < write → i < r.start ∨ r.start + (data.take r.len).length ≤ i →
      p.header ≤ i ∧ i < p.write) :
    (({ p with header := header, write := write } : Packet).fill r data).Alike
      (({ q with header := header', write := write' } : Packet).fill r data) := by
  have hp : (({ p with header := header, write := write } : Packet).fill r data).bytes.length = p.bytes.length :=
    length_fill data hr
  have hq : (({ q with header := header', write := write' } : Packet).fill r data).bytes.length =
      q.bytes.length := length_fill data (by rw [← h.length] at hr; exact hr)
  refine ⟨hheader, h.boundary, h.read, hwrite, by rw [hp, hq, h.length], hh, hw, by rw [hp]; exact hl,
    fun i h1 h2 => ?_⟩
  rw [getElem?_fill data (by have := h.length; dsimp only; omega), getElem?_fill data (by dsimp only; omega)]
  split
  · rename_i hi
    obtain ⟨h3, h4⟩ := ho i h1 h2 hi
    exact h.bytes i h3 h4
  · rfl

theorem Alike.pushHeader (h : p.Alike q) (data : Octets) : Both Alike (p.pushHeader data) (q.pushHeader data) := by
  have := h.header_le
  have := h.read_le
  have := h.write_le
  by_cases hle : data.length ≤ p.header
  · rw [pushHeader_of_le hle, pushHeader_of_le (by rw [h.header]; exact hle), h.header]
    exact .ok (h.fill (r := ⟨p.header - data.length, data.length⟩) data (by simp; omega) (by omega) h.read_le
      h.write_le rfl h.write (by simp; omega))
  · unfold Packet.pushHeader allocHeader
    rw [h.header, if_pos (by omega), if_pos (by omega)]
    exact .error _

theorem Alike.push (h : p.Alike q) (data : Octets) : Both Alike (p.push data) (q.push data) := by
  have := h.header_le
  have := h.read_le
  by_cases hle : p.write + data.length ≤ p.bytes.length
  · rw [push_of_le hle, push_of_le (by rw [h.write, h.length]; exact hle), h.write]
    exact .ok (h.fill (r := ⟨p.write, data.length⟩) data (by simpa using hle) h.header_le (by omega) hle h.header
      rfl (by simp; omega))
  · unfold Packet.push claim capacity
    rw [h.write, h.length, if_pos (by omega), if_pos (by omega)]
    exact .error _

theorem Alike.pushZeros (h : p.Alike q) (len : Nat) : Both Alike (p.pushZeros len) (q.pushZeros len) := by
  unfold Packet.pushZeros capacity
  rw [h.write, h.length]
  split
  · exact .error _
  · exact h.push _

theorem stackedRegion?_eq_ok {depth : Nat} {r : Region} (h : p.stackedRegion? depth = some (.ok r))
    (hd : 0 < depth) : p.header ≤ r.start ∧ r.start + r.len = p.write ∧ p.write ≤ p.bytes.length := by
  unfold Packet.stackedRegion? Packet.headerLen between? capacity at h
  split at h
  · cases h
  · split at h
    · cases h
      dsimp only
      omega
    · cases h

/-- New packets in two buffers have no bytes that could differ. -/
theorem create_alike {b c : Octets} (hl : c.length = b.length) (room : Nat) :
    Both Alike (create b room) (create c room) := by
  unfold create
  rw [hl]
  split
  · exact .error _
  · exact .ok ⟨rfl, rfl, rfl, rfl, hl, le_rfl, le_rfl, by dsimp only; omega, fun i h1 h2 => by dsimp only at *; omega⟩

end Packet

/-! ## Layers -/

/-- Two packets on their way that no layer can tell apart. -/
structure Transit.Alike (t u : Transit) : Prop where
  packet : t.packet.Alike u.packet
  info : u.info = t.info

/-- The same result, with packets that no layer can tell apart. -/
structure Passed {α : Type} (x y : α × Transit) : Prop where
  result : y.1 = x.1
  transit : x.2.Alike y.2

variable {t u : Transit}

theorem Transit.Alike.same {α : Type} (h : t.Alike u) (r : α) : Option.Rel Passed (some (r, t)) (some (r, u)) :=
  .some ⟨rfl, h⟩

theorem stripCheck_alike {p q : Packet} (e : Ethernet.Endpoint) (bytes : Octets) (h : p.Alike q) :
    Both Packet.Alike (e.stripCheck bytes p) (e.stripCheck bytes q) := by
  unfold Ethernet.Endpoint.stripCheck
  rw [h.available]
  split
  · exact .ok h
  · split
    · exact .error _
    · split
      · exact .error _
      · exact h.truncate _

theorem endpoint_receivePass_alike (e : Ethernet.Endpoint) (h : t.Alike u) :
    Option.Rel Passed (e.receivePass t) (e.receivePass u) := by
  unfold Ethernet.Endpoint.receivePass
  rw [h.packet.unread?, h.info]
  cases t.packet.unread? with
  | none => exact .none
  | some bytes =>
    simp only [bind, Option.bind, pure]
    split
    · exact h.same _
    · cases Ethernet.Header.read? bytes with
      | none => exact .none
      | some header =>
        dsimp only
        split
        · rcases (stripCheck_alike e bytes h.packet).cases with ⟨f, hp, hq⟩ | ⟨p, q, hp, hq, ha⟩
          · rw [hp, hq]; exact h.same _
          · rw [hp, hq]
            dsimp only
            split
            · exact .some ⟨rfl, ha, rfl⟩
            · rcases (ha.skip Ethernet.Header.size).cases with ⟨f, hp, hq⟩ | ⟨p, q, hp, hq, ha'⟩
              · rw [hp, hq]; exact .some ⟨rfl, ha, rfl⟩
              · rw [hp, hq]; exact .some ⟨rfl, ha', rfl⟩
        · split
          · exact h.same _
          · exact h.same _

/-- Leaving a header behind and cutting off what does not belong to the content. -/
theorem skip_truncate_alike {p q : Packet} (h : p.Alike q) (skipped kept : Nat) (next : Except Fault Next)
    (info : Info) :
    Option.Rel Passed
      (match p.skip skipped with
        | .error f => some (.error f, ⟨p, info⟩)
        | .ok p => match p.truncate kept with
          | .error f => some (.error f, ⟨p, info⟩)
          | .ok p => some (next, ⟨p, info⟩))
      (match q.skip skipped with
        | .error f => some (.error f, ⟨q, info⟩)
        | .ok q => match q.truncate kept with
          | .error f => some (.error f, ⟨q, info⟩)
          | .ok q => some (next, ⟨q, info⟩)) := by
  rcases (h.skip skipped).cases with ⟨f, hp, hq⟩ | ⟨p, q, hp, hq, h⟩
  · rw [hp, hq]; exact .some ⟨rfl, h, rfl⟩
  · rw [hp, hq]
    dsimp only
    rcases (h.truncate kept).cases with ⟨f, hp, hq⟩ | ⟨p, q, hp, hq, h'⟩
    · rw [hp, hq]; exact .some ⟨rfl, h, rfl⟩
    · rw [hp, hq]; exact .some ⟨rfl, h', rfl⟩

theorem router_receivePass_alike (r : Ipv4.Router) (h : t.Alike u) (caller : Layer) :
    Option.Rel Passed (r.receivePass t caller) (r.receivePass u caller) := by
  unfold Ipv4.Router.receivePass
  rw [h.packet.unread?, h.info, h.packet.available]
  cases t.packet.unread? with
  | none => exact .none
  | some bytes =>
    simp only [bind, Option.bind, pure]
    split
    · exact h.same _
    cases Ipv4.Header.read? bytes with
    | none => exact .none
    | some header =>
      cases Ipv4.Header.verifyChecksum? bytes with
      | none => exact .none
      | some valid =>
        dsimp only
        iterate 6
          split
          · exact h.same _
        split
        · exact h.same _
        · exact skip_truncate_alike h.packet ..

theorem ports_receivePass_alike (p : Udp.Ports) (h : t.Alike u) :
    Option.Rel Passed (p.receivePass t) (p.receivePass u) := by
  unfold Udp.Ports.receivePass
  rw [h.packet.unread?, h.info]
  cases t.packet.unread? with
  | none => exact .none
  | some bytes =>
    simp only [bind, Option.bind, pure]
    split
    · exact h.same _
    cases Udp.Header.read? bytes with
    | none => exact .none
    | some header =>
      dsimp only
      cases Udp.Header.verifyChecksum? bytes t.info.srcAddr t.info.dstAddr with
      | none => exact .none
      | some valid =>
        dsimp only
        split
        · exact h.same _
        split
        · exact h.same _
        · exact skip_truncate_alike h.packet ..

/-- A socket keeps of a datagram what is left to read. -/
theorem socket_receivePass_alike (s : Udp.Socket) (h : t.Alike u) (w : Wakeups) :
    (s.receivePass u w).1 = (s.receivePass t w).1 ∧ (s.receivePass u w).2.1 = (s.receivePass t w).2.1 ∧
      (s.receivePass t w).2.2.1.Alike (s.receivePass u w).2.2.1 ∧
      (s.receivePass u w).2.2.2 = (s.receivePass t w).2.2.2 := by
  unfold Udp.Socket.receivePass Udp.Socket.enqueue
  rw [h.info, h.packet.available]
  split
  · exact ⟨rfl, rfl, h.packet, rfl⟩
  dsimp only
  generalize (if s.queue.isFull = true then
    { s with queue := s.queue.pop.2, evicted := s.evicted + 1 } else s : Udp.Socket) = s
  cases s.queue.reserve .empty with
  | error f => exact ⟨rfl, rfl, h.packet, rfl⟩
  | ok queue =>
    dsimp only
    rcases (h.packet.take (min t.packet.available Limits.datagramBytes)).cases with
      ⟨f, hp, hq⟩ | ⟨⟨data, p⟩, ⟨data', q⟩, hp, hq, hdata, h'⟩
    · rw [hp, hq]; exact ⟨rfl, rfl, h.packet, rfl⟩
    · rw [hp, hq]
      cases hdata
      dsimp only
      split
      · exact ⟨rfl, rfl, h', rfl⟩
      · exact ⟨rfl, rfl, h', rfl⟩

theorem endpoint_transmitPass_alike (e : Ethernet.Endpoint) (r : Arp.Resolver) (now : Instant) (h : t.Alike u)
    (caller : Layer) :
    (e.transmitPass r now u caller).1 = (e.transmitPass r now t caller).1 ∧
      (e.transmitPass r now u caller).2.1 = (e.transmitPass r now t caller).2.1 ∧
      (e.transmitPass r now t caller).2.2.Alike (e.transmitPass r now u caller).2.2 := by
  unfold Ethernet.Endpoint.transmitPass
  rw [h.info]
  cases e.etherTypes.keyOf? caller with
  | none => exact ⟨rfl, rfl, h⟩
  | some etherType =>
    dsimp only
    split
    · exact ⟨rfl, rfl, h⟩
    · rename_i dst _ _
      rcases (h.packet.pushHeader (Ethernet.Header.octets ⟨dst, e.addr, etherType⟩)).cases with
        ⟨f, hp, hq⟩ | ⟨p, q, hp, hq, h'⟩
      · rw [hp, hq]; exact ⟨rfl, rfl, h⟩
      · rw [hp, hq]; exact ⟨rfl, rfl, h', rfl⟩

theorem router_transmitPass_alike (r : Ipv4.Router) (h : t.Alike u) (caller : Layer) :
    (r.transmitPass u caller).1 = (r.transmitPass t caller).1 ∧
      (r.transmitPass u caller).2.1 = (r.transmitPass t caller).2.1 ∧
      (r.transmitPass t caller).2.2.Alike (r.transmitPass u caller).2.2 := by
  unfold Ipv4.Router.transmitPass
  rw [h.info, h.packet.headerLen, h.packet.payloadLen]
  cases r.protocols.keyOf? caller with
  | none => exact ⟨rfl, rfl, h⟩
  | some protocol =>
    cases r.routes.lookup t.info.dstAddr with
    | none => exact ⟨rfl, rfl, h⟩
    | some route =>
      dsimp only
      split
      · exact ⟨rfl, rfl, h.packet, rfl⟩
      · generalize Ipv4.Router.sealedHeader _ _ _ _ _ = header
        rcases (h.packet.pushHeader header).cases with ⟨f, hp, hq⟩ | ⟨p, q, hp, hq, h'⟩
        · rw [hp, hq]; exact ⟨rfl, rfl, h.packet, rfl⟩
        · rw [hp, hq]; exact ⟨rfl, rfl, h', rfl⟩

theorem ports_transmitPass_alike (p : Udp.Ports) (h : t.Alike u) (caller : Layer) :
    Passed (p.transmitPass t caller) (p.transmitPass u caller) := by
  unfold Udp.Ports.transmitPass
  rw [h.info, h.packet.headerLen, h.packet.payloadLen]
  split
  · exact ⟨rfl, h⟩
  cases p.portOf? caller with
  | none => exact ⟨rfl, h⟩
  | some port =>
    dsimp only
    split
    · exact ⟨rfl, h⟩
    · generalize ofWord16 port ++ _ ++ _ ++ _ = header
      rcases (h.packet.pushHeader header).cases with ⟨f, hp, hq⟩ | ⟨p, q, hp, hq, h'⟩
      · rw [hp, hq]; exact ⟨rfl, h⟩
      · rw [hp, hq]; exact ⟨rfl, h', rfl⟩

theorem pad_alike {p q : Packet} (h : p.Alike q) (len : Nat) :
    Both Packet.Alike (Ethernet.Endpoint.pad p len) (Ethernet.Endpoint.pad q len) := by
  unfold Ethernet.Endpoint.pad
  split
  · exact h.pushZeros _
  · exact .ok h

/-- The same result, with finished packets that no layer can tell apart. -/
structure Finished {α : Type} (x y : α × Packet) : Prop where
  result : y.1 = x.1
  packet : x.2.Alike y.2

/-- Padding and check sequence are made from the frame alone. -/
theorem endpoint_finishPass_alike {p q : Packet} (e : Ethernet.Endpoint) (h : p.Alike q) :
    Option.Rel Finished (e.finishPass p) (e.finishPass q) := by
  unfold Ethernet.Endpoint.finishPass
  rw [h.frame?]
  cases p.frame? with
  | none => exact .none
  | some frame =>
    simp only [bind, Option.bind, pure]
    rcases (pad_alike h frame.length).cases with ⟨f, hp, hq⟩ | ⟨p, q, hp, hq, h⟩
    · rw [hp, hq]; exact .some ⟨rfl, h⟩
    · rw [hp, hq]
      dsimp only
      rw [h.frame?]
      split
      · exact .some ⟨rfl, h⟩
      cases p.frame? with
      | none => exact .none
      | some padded =>
        dsimp only
        rcases (h.push (Ethernet.CheckSequence.octets (Ethernet.CheckSequence.compute padded))).cases with
          ⟨f, hp, hq⟩ | ⟨p, q, hp, hq, h⟩
        · rw [hp, hq]; exact .some ⟨rfl, h⟩
        · rw [hp, hq]; exact .some ⟨rfl, h⟩

/-- A checksum is made from stacked headers and the payload alone. -/
theorem ports_finishPass_alike (h : t.Alike u) :
    Option.Rel Finished (Udp.Ports.finishPass t) (Udp.Ports.finishPass u) := by
  unfold Udp.Ports.finishPass
  rw [h.info, h.packet.stackedRegion?]
  cases hs : t.packet.stackedRegion? Udp.Header.size with
  | none => exact .none
  | some region =>
    simp only [bind, Option.bind, pure]
    cases region with
    | error f => exact .some ⟨rfl, h.packet⟩
    | ok r =>
      obtain ⟨hstart, hstop, hle⟩ := Packet.stackedRegion?_eq_ok hs (by decide)
      dsimp only
      rw [h.packet.content? hstart hstop.le]
      cases t.packet.content? r with
      | none => exact .none
      | some bytes =>
        dsimp only
        cases Udp.Header.fillChecksum? bytes t.info.srcAddr t.info.dstAddr with
        | none => exact .none
        | some filled =>
          have hlen : (filled.take r.len).length ≤ r.len := List.length_take_le ..
          exact .some ⟨rfl, h.packet.fill filled (by omega) h.packet.header_le h.packet.read_le h.packet.write_le
            h.packet.header h.packet.write fun i h1 h2 _ => ⟨h1, h2⟩⟩

end UdpStack
