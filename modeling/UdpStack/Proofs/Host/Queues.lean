/-
The queues of the sockets. Every call keeps them proper, whatever is done to the resolver
(`sockets_perform`), and a queue changes only when its socket is handed a datagram or receives one.
-/
import UdpStack.Proofs.Host.Effects

namespace UdpStack.Host

open Bounded Device

variable {δ : Type}

/-! ## Queues of single sockets -/

@[simp] theorem queue?_count (h : Host δ) (layer : Layer) (f : Counters → Counters) (x : Handle) :
    (h.count layer f).queue? x = h.queue? x := by
  obtain ⟨_, _, _, _, _, _, sockets, he, hs⟩ := count_eq h layer f
  rw [he]
  rcases hs with rfl | ⟨s, socket, c, hg, rfl⟩
  · rfl
  · exact Pool.map_get?_set_same hg { socket with counters := c } (·.queue) rfl x

@[simp] theorem waiter?_count (h : Host δ) (layer : Layer) (f : Counters → Counters) (x : Handle) :
    (h.count layer f).waiter? x = h.waiter? x := by
  obtain ⟨_, _, _, _, _, _, sockets, he, hs⟩ := count_eq h layer f
  rw [he]
  rcases hs with rfl | ⟨s, socket, c, hg, rfl⟩
  · rfl
  · exact Pool.bind_get?_set_same hg { socket with counters := c } (·.waiter.waiter) rfl x

theorem stableFlush_queue? [Nic δ] (q : Handle → Option (Queue Udp.Datagram Limits.socketQueue)) :
    StableFlush fun h : Host δ => ∀ x, h.queue? x = q x where
  count layer f hp x := (queue?_count _ layer f x).trans (hp x)
  sent _ hp := hp
  outgoing hp := hp
  txBuffer _ hp := hp
  deliver hp := hp

/-! ## Proper sockets -/

theorem sockets_count {h : Host δ} (hw : h.sockets.All Udp.Socket.WF) (layer : Layer)
    (f : Counters → Counters) : (h.count layer f).sockets.All Udp.Socket.WF := by
  obtain ⟨_, _, _, _, _, _, sockets, he, hs⟩ := count_eq h layer f
  rw [he]
  rcases hs with rfl | ⟨s, socket, c, hg, rfl⟩
  · exact hw
  · have hsocket := hw s socket hg
    exact hw.set s ⟨hsocket.queue, hsocket.bound⟩

theorem stable_sockets [Nic δ] : StablePoll fun h : Host δ => h.sockets.All Udp.Socket.WF where
  count layer f hw := sockets_count hw layer f
  numbered _ hw := hw
  heard hw _ := hw
  handed {h s socket} t hw hs := hw.set s (Udp.Socket.receivePass_wf (hw s socket hs) t h.wakeups)
  sent _ hw := hw
  outgoing hw := hw
  txBuffer _ hw := hw
  deliver hw := hw
  rxBuffer _ hw := hw
  expire _ hw := hw
  take _ hw := hw

theorem sockets_create [Nic δ] {d : δ} {config : Config} {h : Host δ} (e : create d config = .ok h) :
    h.sockets.All Udp.Socket.WF := by
  obtain ⟨endpoint, router, -, -, rfl⟩ := create_eq_ok e
  exact Pool.all_empty _

theorem sockets_unbound {h : Host δ} (hw : h.sockets.All Udp.Socket.WF) {s : Handle} {socket : Udp.Socket}
    (hs : h.sockets.get? s = some socket) (b : Udp.Binding) :
    (h.unbound s socket b).sockets.All Udp.Socket.WF :=
  hw.set s ⟨(hw s socket hs).queue, nofun⟩

theorem sockets_perform [Nic δ] {h h' : Host δ} (hg : h.setup.Agree) (hw : h.sockets.All Udp.Socket.WF)
    {c : Call δ} {a : Answer} (e : h.perform c = some (a, h')) : h'.sockets.All Udp.Socket.WF := by
  cases effect_perform hg e with
  | same _ => exact hw
  | acquire hp => exact hw.acquire Udp.Socket.empty_wf hp
  | release _ => exact hw.release _
  | releaseBound hs _ => exact (sockets_unbound hw hs _).release _
  | bind hs _ _ => exact hw.set _ ⟨(hw _ _ hs).queue, fun _ => rfl⟩
  | unbind hs _ => exact sockets_unbound hw hs _
  | send hx => exact stable_sockets.send (fun _ _ hw => hw) hw hx
  | recv hs hx => exact hw.set _ (Udp.Socket.recv_wf (hw _ _ hs) hx)
  | cancel hs => exact hw.set _ (Udp.Socket.cancel_wf (hw _ _ hs) _)
  | poll hx => exact stable_sockets.poll hw hx
  | routes _ _ => exact hw
  | join _ => exact hw
  | leave _ => exact hw
  | device _ => exact hw
  | fill _ _ => exact hw
  | resolver _ => exact hw

end UdpStack.Host
