/-
Packets: a buffer with room for headers in front of a boundary and the payload behind it. Headers
are stacked downwards from the boundary, the payload grows upwards, and a read cursor moves through
either. No operation but a write into a region changes a byte.
-/
import UdpStack.Fault
import UdpStack.Octets
import UdpStack.Text

namespace UdpStack

open Octets

/-- A buffer with its cursors. -/
structure Packet where
  bytes : Octets
  /-- The first byte of the stacked headers. -/
  header : Nat
  /-- The end of the headers and the start of the payload. -/
  boundary : Nat
  /-- The next byte to read. -/
  read : Nat
  /-- The end of the payload. -/
  write : Nat
  deriving DecidableEq, Repr

/-- A stretch of a buffer. -/
structure Region where
  start : Nat
  len : Nat
  deriving DecidableEq, Repr

namespace Packet

/-- An empty packet with room for headers. -/
def create (bytes : Octets) (room : Nat) : Except Fault Packet :=
  if bytes.length < room then .error .badSize else .ok ⟨bytes, room, room, room, room⟩

/-! ## Sizes -/

/-- The size of the buffer. -/
def capacity (p : Packet) : Nat := p.bytes.length

/-- The number of payload bytes that the buffer can hold. -/
def payloadCapacity (p : Packet) : Nat := p.capacity - p.boundary

/-- The number of payload bytes. -/
def payloadLen (p : Packet) : Nat := p.write - p.boundary

/-- The number of bytes in stacked headers. -/
def headerLen (p : Packet) : Nat := p.boundary - p.header

/-- The room left for headers. -/
def headerRoom (p : Packet) : Nat := p.header

/-- The number of bytes left to read. -/
def available (p : Packet) : Nat := p.write - p.read

/-! ## Regions -/

/-- The bytes of a region, none unless all of them exist. -/
def content? (p : Packet) (r : Region) : Option Octets := slice? p.bytes r.start r.len

/-- Write as much of `data` into a region as fits. -/
def fill (p : Packet) (r : Region) (data : Octets) : Packet :=
  { p with bytes := p.bytes.take r.start ++ data.take r.len ++
      p.bytes.drop (r.start + (data.take r.len).length) }

/-- The region between two cursors, none if they are out of order. -/
def between? (p : Packet) (start stop : Nat) : Option Region :=
  if start ≤ stop ∧ stop ≤ p.capacity then some ⟨start, stop - start⟩ else none

/-- The stacked headers and the payload. -/
def frameRegion? (p : Packet) : Option Region := p.between? p.header p.write

/-- The bytes of the stacked headers and the payload. -/
def frame? (p : Packet) : Option Octets := range? p.bytes p.header p.write

/-- The bytes that are left to read. -/
def unread? (p : Packet) : Option Octets := range? p.bytes p.read p.write

/-- The last `depth` bytes of the stacked headers with the payload. There is no such region if
the payload ends before it starts. -/
def stackedRegion? (p : Packet) (depth : Nat) : Option (Except Fault Region) :=
  if p.headerLen < depth then some (.error .badSize)
  else (p.between? (p.boundary - depth) p.write).map .ok

/-! ## Writing payload -/

/-- Claim bytes behind the payload with the content they have. -/
def claim (p : Packet) (len : Nat) : Except Fault (Region × Packet) :=
  if p.capacity < p.write + len then .error .badSize
  else .ok (⟨p.write, len⟩, { p with write := p.write + len })

/-- Move the end of the payload without writing. -/
def advance (p : Packet) (len : Nat) : Except Fault Packet := (p.claim len).map (·.2)

/-- Append bytes to the payload. -/
def push (p : Packet) (data : Octets) : Except Fault Packet :=
  (p.claim data.length).map fun (r, q) => q.fill r data

/-- Append zero bytes to the payload. -/
def pushZeros (p : Packet) (len : Nat) : Except Fault Packet :=
  if p.capacity < p.write + len then .error .badSize else p.push (List.replicate len 0)

/-- A packet whose payload is a frame that was put into the buffer. -/
def ofFrame (bytes : Octets) (len : Nat) : Except Fault Packet :=
  (create bytes 0).bind fun p => p.advance len

/-! ## Headers -/

/-- Claim bytes in front of the stacked headers with the content they have. -/
def allocHeader (p : Packet) (len : Nat) : Except Fault (Region × Packet) :=
  if p.header < len then .error .badSize
  else .ok (⟨p.header - len, len⟩, { p with header := p.header - len })

/-- Stack a header. -/
def pushHeader (p : Packet) (data : Octets) : Except Fault Packet :=
  (p.allocHeader data.length).map fun (r, q) => q.fill r data

/-! ## Reading -/

/-- The next bytes to read. -/
def peekRegion (p : Packet) (len : Nat) : Except Fault Region :=
  if p.available < len then .error .badSize else .ok ⟨p.read, len⟩

/-- Move the read cursor. -/
def skip (p : Packet) (len : Nat) : Except Fault Packet :=
  if p.available < len then .error .badSize else .ok { p with read := p.read + len }

/-- Cut off all but the next `len` bytes. -/
def truncate (p : Packet) (len : Nat) : Except Fault Packet :=
  if p.available < len then .error .badSize else .ok { p with write := p.read + len }

/-- Look at the next bytes. -/
def peek (p : Packet) (len : Nat) : Except Fault Octets :=
  if p.available < len then .error .badSize else .ok ((p.bytes.drop p.read).take len)

/-- Take the next bytes. -/
def take (p : Packet) (len : Nat) : Except Fault (Octets × Packet) :=
  (p.peek len).map fun data => (data, { p with read := p.read + len })

/-- The number that bytes in network byte order denote. -/
def number (data : Octets) : Nat := data.foldl (fun acc o => acc * 256 + o.toNat) 0

/-- Take a number of `len` bytes in network byte order. -/
def takeNumber (p : Packet) (len : Nat) : Except Fault (Nat × Packet) :=
  (p.take len).map fun (data, q) => (number data, q)

/-! ## Starting over -/

/-- Read from the start of the payload. -/
def resetRead (p : Packet) : Packet := { p with read := p.boundary }

/-- Read from the outermost header. -/
def resetReadHeaders (p : Packet) : Packet := { p with read := p.header }

/-- Discard the payload. -/
def resetWrite (p : Packet) : Packet := { p with write := p.boundary, read := p.boundary }

/-- Discard the stacked headers. -/
def resetHeaders (p : Packet) : Packet :=
  { p with header := p.boundary, read := max p.read p.boundary }

/-- The cursors for reports. -/
def describe (p : Packet) : String :=
  Text.record "Packet" [("capacity", toString p.capacity), ("header", toString p.header),
    ("boundary", toString p.boundary), ("read", toString p.read), ("write", toString p.write)]

end Packet

end UdpStack
