/-
The check sequence of a frame: a cyclic redundancy check of 32 bits, reflected, started and
finished with all ones, and sent least significant byte first.
-/
import UdpStack.Fault
import UdpStack.Octets

namespace UdpStack.Ethernet.CheckSequence

open Octets

/-- The length of the check sequence. -/
def size : Nat := 4

/-- Divide one bit out of the remainder. -/
def shiftBit (r : UInt32) : UInt32 :=
  if r &&& 1 = 1 then (r >>> 1) ^^^ 0xedb88320 else r >>> 1

/-- Take one byte into the remainder. -/
def absorb (r : UInt32) (byte : UInt8) : UInt32 :=
  Nat.repeat shiftBit 8 (r ^^^ byte.toUInt32)

/-- The check value of a frame, as every implementation of CRC-32/ISO-HDLC computes it: the generator 0x04c11db7 with
its bits reversed, and ones before the first byte and over the result. That a hasher used for frames is such an
implementation is assumed. -/
def compute (frame : Octets) : UInt32 := ~~~frame.foldl absorb 0xffffffff

/-- The four bytes that carry a check value. -/
def octets (value : UInt32) : Octets := (ofWord32 value).reverse

/-- Write a check value over the first four bytes. -/
def emit? (value : UInt32) (trailer : Octets) : Option Octets := write? trailer 0 (octets value)

/-- Accept a frame that ends in its check sequence. -/
def verify (frame : Octets) : Except HeaderFault Unit :=
  if frame.length < size then .error .truncated
  else if octets (compute (frame.take (frame.length - size))) = frame.drop (frame.length - size) then
    .ok ()
  else .error .wrongChecksum

end UdpStack.Ethernet.CheckSequence
