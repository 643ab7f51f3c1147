/-
The internet checksum: the ones' complement sum of the words of a byte string. Sums of parts
combine, which is how a datagram is summed together with its pseudo header.
-/
import UdpStack.Ipv4.Address

namespace UdpStack.Checksum

open Octets

/-- The sum of the words in network byte order, an odd last byte being the high byte of a word. -/
def wordSum : Octets → UInt32
  | hi :: lo :: rest => (word16 hi lo).toUInt32 + wordSum rest
  | [hi] => (word16 hi 0).toUInt32
  | [] => 0

/-- Add the carries above sixteen bits back in, twice. -/
def foldCarries (w : UInt32) : UInt16 :=
  let sum := (w >>> 16) + (w &&& 0xffff)
  (sum >>> 16).toUInt16 + sum.toUInt16

/-- The checksum of a byte string, not yet complemented. -/
def ofBytes (b : Octets) : UInt16 := foldCarries (wordSum b)

/-- The checksum of parts of even length from the checksums of the parts. -/
def combine (sums : List UInt16) : UInt16 :=
  foldCarries (sums.foldl (fun acc s => acc + s.toUInt32) 0)

/-- The checksum of the pseudo header of a datagram of `len` bytes. -/
def pseudoHeader (src dst : Ipv4.Address) (protocol : UInt8) (len : UInt16) : UInt16 :=
  combine [ofBytes src.octets, ofBytes dst.octets, ofBytes ([0, protocol] ++ ofWord16 len)]

end UdpStack.Checksum
