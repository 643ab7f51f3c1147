/-
Frames as devices keep them: at most as many bytes as a frame buffer holds.
-/
import UdpStack.Fault
import UdpStack.Limits
import UdpStack.Octets
import UdpStack.Text

namespace UdpStack.Device

/-- A stored frame. -/
structure Frame where
  bytes : Octets
  deriving DecidableEq, Repr, Inhabited

namespace Frame

/-- The frame without bytes. -/
def empty : Frame := ⟨[]⟩

/-- A frame of these bytes, unless they are too many. -/
def ofOctets (bytes : Octets) : Except Fault Frame :=
  if Limits.frameBuffer < bytes.length then .error .badSize else .ok ⟨bytes⟩

/-- A buffer with the frame over its first bytes, unless the buffer is too small. -/
def copyTo (f : Frame) (buffer : Octets) : Except Fault Octets :=
  if buffer.length < f.bytes.length then .error .badSize
  else .ok (f.bytes ++ buffer.drop f.bytes.length)

/-- The frame for reports. -/
def describe (f : Frame) : String :=
  Text.record "Frame" [("len", toString f.bytes.length),
    ("data", Text.bracketed (f.bytes.map fun o => toString o.toNat))]

end Frame

end UdpStack.Device
