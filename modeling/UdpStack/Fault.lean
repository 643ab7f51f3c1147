/-
The causes of failure: of a layer that handles a packet, and of reading a header.
-/

namespace UdpStack

/-- Why a layer or a table refused an operation. -/
inductive Fault where
  /-- The operation is not permitted. -/
  | illegal
  /-- A buffer is too small. -/
  | badSize
  /-- The destination is not known. -/
  | unreachable
  /-- A table, queue or pool has no room. -/
  | exhausted
  /-- The packet is not well formed. -/
  | malformed
  /-- The packet is well formed but meant for someone else. -/
  | dropped
  /-- The operation has to wait; the task was recorded. -/
  | wouldBlock
  /-- Another task is waiting. -/
  | busy
  deriving DecidableEq, Repr

/-- The name of a fault. -/
def Fault.name : Fault → String
  | illegal => "Illegal"
  | badSize => "BadSize"
  | unreachable => "Unreachable"
  | exhausted => "Exhausted"
  | malformed => "Malformed"
  | dropped => "Dropped"
  | wouldBlock => "WouldBlock"
  | busy => "Busy"

/-- The report of a fault. -/
def Fault.message : Fault → String
  | illegal => "illegal operation"
  | badSize => "buffer size exceeded"
  | unreachable => "destination unreachable"
  | exhausted => "resources exhausted"
  | malformed => "malformed packet"
  | dropped => "packet dropped"
  | wouldBlock => "operation would block"
  | busy => "another task is waiting"

/-- Why bytes were not taken for a header. -/
inductive HeaderFault where
  /-- There are fewer bytes than the header has or declares. -/
  | truncated
  /-- A checksum or check sequence does not match. -/
  | wrongChecksum
  /-- A field holds a value that is not supported here. -/
  | unrecognized
  /-- The header contradicts itself. -/
  | malformed
  /-- The header asks for a feature that does not exist here. -/
  | unsupported
  deriving DecidableEq, Repr

/-- The name of a fault. -/
def HeaderFault.name : HeaderFault → String
  | truncated => "Truncated"
  | wrongChecksum => "WrongChecksum"
  | unrecognized => "Unrecognized"
  | malformed => "Malformed"
  | unsupported => "Unsupported"

/-- The report of a fault. -/
def HeaderFault.message : HeaderFault → String
  | truncated => "truncated packet"
  | wrongChecksum => "checksum error"
  | unrecognized => "unrecognized packet"
  | malformed => "malformed packet"
  | unsupported => "unsupported feature"

/-- Layers do not tell the faults of headers apart. -/
def HeaderFault.toFault (_ : HeaderFault) : Fault := .malformed

end UdpStack
