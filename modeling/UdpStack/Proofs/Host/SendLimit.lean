/-
The limit of a send. It is computed from the device and the buffers, while six places on the way of a datagram
check sizes for themselves: the packet, the ports, the internet layer, the device, the padding with the check
sequence, and the storage for frames. What keeps the limit passes all of them, wherever a route leads
(`transmit_ne_badSize`): all ways down but the one to the device end for other reasons (`Heads`), and the frame of a
datagram fits the device (`transmit_carried`) and a frame buffer (`Carries.length_le`). So a send is refused for its
size exactly above the limit (`send_badSize_iff`).
-/
import UdpStack.Proofs.Host.Passage

namespace UdpStack

namespace Device

open Bounded

/-! ## Devices with frames of full size -/

/-- A device that takes every frame that fits a frame buffer, as far as the size of the frame is concerned. -/
class Roomy (δ : Type) [Nic δ] : Prop where
  transmit_ne_badSize : ∀ (d : δ) {bytes : Octets}, bytes.length ≤ Limits.frameBuffer →
    (Nic.transmit d bytes).1 ≠ .error .badSize

theorem enqueue_ne_badSize {n : Nat} (q : Queue Frame n) {bytes : Octets} (hl : bytes.length ≤ Limits.frameBuffer) :
    (enqueue q bytes).1 ≠ .error .badSize := by
  unfold enqueue Queue.reserve Frame.ofOctets
  rw [if_neg (Nat.not_lt.2 hl)]
  cases q.isFull <;> simp

instance (n : Nat) : Roomy (External n) := ⟨fun d _ => enqueue_ne_badSize d.outbound⟩

instance (n : Nat) : Roomy (Loopback n) := ⟨fun d _ => enqueue_ne_badSize d.frames⟩

end Device

namespace Host

open Bounded Device Octets

variable {δ : Type} [Nic δ]

/-! ## What keeps the limit -/

omit [Nic δ] in
theorem Carries.length_le {h : Host δ} {b : Udp.Binding} {task : Task} {dst : Ipv4.Address} {port : UInt16}
    {payload frame : Octets} {layer : Layer} (hc : h.Carries b task dst port payload layer frame)
    (hsize : payload.length ≤ 512) : frame.length ≤ Limits.frameBuffer := by
  cases hc with
  | bare =>
    rw [length_datagram]
    exact (Nat.add_le_add_right hsize 28).trans (by decide)
  | framed _ => exact length_wire_fits h _ _ b dst port hsize

section limit

variable {manual : Bool} {h : Host δ} {s : Handle} {payload : Octets}

/-- A datagram that fits the device meets no limit of size on its way. -/
theorem transmit_ne_badSize [Roomy δ] (hs : h.Steady manual) {p : Packet} {front back : Octets}
    (hl : p.Layout front [] payload back) (hfront : 42 ≤ front.length) (hback : 64 ≤ back.length)
    (hmtu : payload.length + 28 ≤ (Nic.personality h.device).mtu) (hsize : payload.length ≤ 512) (s : Handle)
    (task : Task) (dst : Ipv4.Address) (port : UInt16) : ∃ result g t,
      h.transmit ⟨p, { dstAddr := dst, dstPort := port, task := some task }⟩ (.socket s) .user = some (result, g, t) ∧
        result ≠ .error .badSize := by
  cases heads hs hl (by omega) hsize s task dst port with
  | barred hb =>
    obtain ⟨f, g, u, hf, hd⟩ := hb
    refine ⟨.error f, g, u, ?_, fun he => hf (Except.error.inj he)⟩
    unfold transmit
    rw [hd]
  | away hb hroute hc =>
    rcases transmit_carried hs hb hroute hc hl hfront hback hsize with ⟨-, hlarge⟩ | ⟨g, t, hx, -, -⟩
    · omega
    · exact ⟨_, g, t, hx, Roomy.transmit_ne_badSize h.device (hc.length_le hsize)⟩
  | home hb hroute hlayer =>
    obtain ⟨g, t, hx, -⟩ := transmit_turned hs hb hroute hlayer task port hl (by omega) hsize
    exact ⟨_, g, t, hx, nofun⟩

theorem answer_eq_badSize {len : Nat} {result : Except Fault Unit} :
    answer len result = .ready (.error .badSize) ↔ result = .error .badSize := by
  rcases result with f | ⟨⟩
  · cases f <;> simp [answer]
  · simp [answer]

/-- What keeps the limit is not refused for its size. -/
theorem send_of_le_mtu [Roomy δ] (hs : h.Steady manual) (hmtu : 28 ≤ (Nic.personality h.device).mtu)
    {socket : Udp.Socket} (hsocket : h.sockets.get? s = some socket) (hle : payload.length ≤ h.mtu) (task : Task)
    (dst : Ipv4.Address) (port : UInt16) : ∃ r h', h.send s task dst port payload = some (r, h') ∧
      r ≠ .ready (.error .badSize) := by
  obtain ⟨hfits, hsize⟩ := length_of_mtu hle hmtu
  obtain ⟨p, front, back, hl, hfront, hback, -, hsend⟩ := send_eq hs.txBuffer hsocket hle task dst port
  obtain ⟨result, g, t, hx, hne⟩ := transmit_ne_badSize hs hl hfront hback hfits hsize s task dst port
  obtain ⟨h', hf, -⟩ := flush_total { g with txBuffer := t.packet.bytes }
  refine ⟨answer payload.length result, h', ?_, fun ha => hne (answer_eq_badSize.1 ha)⟩
  rw [hsend hx, hf]
  rfl

end limit

/-- On a device with frames of full size, whose limit leaves room for the headers of a datagram: in every host that
calls can lead to, whatever its routes, its resolver and its check sequences, a send from a socket answers, and it
is refused for its size if and only if its payload is above the limit. -/
theorem send_badSize_iff [Roomy δ] {d : δ} {config : Config} {h₀ h : Host δ} {es : List (Call δ × Answer)}
    (e : create d config = .ok h₀) (hr : Run (fun _ _ => True) h₀ es h)
    (hmtu : 28 ≤ (Nic.personality h.device).mtu) {s : Handle} {socket : Udp.Socket}
    (hs : h.sockets.get? s = some socket) (task : Task) (dst : Ipv4.Address) (port : UInt16) (payload : Octets) :
    ∃ r h', h.send s task dst port payload = some (r, h') ∧
      (r = .ready (.error .badSize) ↔ h.mtu < payload.length) := by
  have hsteady : h.Steady _ := hr.keeps (fun hs _ hc => steady_perform hs hc) (steady_create e)
  by_cases hle : payload.length ≤ h.mtu
  · obtain ⟨r, h', hsend, hne⟩ := send_of_le_mtu hsteady hmtu hs hle task dst port
    exact ⟨r, h', hsend, fun hx => absurd hx hne, fun hlt => absurd hlt (by omega)⟩
  · refine ⟨.ready (.error .badSize), h, ?_, fun _ => by omega, fun _ => rfl⟩
    unfold send
    rw [if_pos (by omega)]

/-- A device with a limit of 40 leaves twelve bytes to a datagram, with a check sequence by software. -/
theorem send_badSize_iff_twelve : ∃ h : Host (External 1), h.mtu = 12 ∧
    (∃ r h', h.send ⟨0, 0⟩ ⟨1⟩ ⟨10, 0, 0, 2⟩ 7 (List.replicate 12 0) = some (r, h') ∧
      r ≠ .ready (.error .badSize)) ∧
    ∃ h', h.send ⟨0, 0⟩ ⟨1⟩ ⟨10, 0, 0, 2⟩ 7 (List.replicate 13 0) = some (.ready (.error .badSize), h') := by
  obtain ⟨_, _, h, e, hrun, hdevice, hlive, hmtu⟩ := exists_run (External.create 1 ⟨40, .manual⟩)
    (.create ⟨10, 0, 0, 1⟩ ⟨255, 255, 255, 0⟩) [.acquire, .bind ⟨0, 0⟩ .unspecified 9]
    (fun _ _ h => (Nic.personality h.device).mtu = 40 ∧ (h.sockets.get? ⟨0, 0⟩).isSome = true ∧ h.mtu = 12)
    (by decide +kernel)
  obtain ⟨socket, hs⟩ := Option.isSome_iff_exists.1 hlive
  have hiff := send_badSize_iff e hrun (by rw [hdevice]; decide) hs ⟨1⟩ ⟨10, 0, 0, 2⟩ 7
  refine ⟨h, hmtu, ?_, ?_⟩
  · obtain ⟨r, h', hsend, hsize⟩ := hiff (List.replicate 12 0)
    exact ⟨r, h', hsend, fun hbad => absurd (hsize.1 hbad) (by rw [hmtu, List.length_replicate]; decide)⟩
  · obtain ⟨r, h', hsend, hsize⟩ := hiff (List.replicate 13 0)
    rw [hsize.2 (by rw [hmtu, List.length_replicate]; decide)] at hsend
    exact ⟨h', hsend⟩

end Host

end UdpStack
