/-
Who a table of neighbors speaks for. Each operation posts at most questions and answers that name the
addresses of the device itself as their source (`LookedUp.posts`, `Received.posts`, `Expired.posts`), and
none changes these addresses. So whatever happens to the table, every message that waits to be sent comes
from the device (`speaks_kept`), and so does the next one that the resolver hands out (`Resolver.outgoing_from`).
-/
import UdpStack.Proofs.Arp.Fixed
import UdpStack.Proofs.Arp.Waiting
import UdpStack.Proofs.Octets

namespace UdpStack.Arp

open Bounded Octets

/-- A request or a reply of the device with these addresses. -/
structure Message.From (m : Message) (hardware : Ethernet.Address) (addr : Ipv4.Address) : Prop where
  operation : m.operation = .request ∨ m.operation = .reply
  hardware : m.srcHardware = hardware
  addr : m.srcAddr = addr

/-- A request or a reply is read back, whatever stands behind it. -/
theorem Message.parse_octets {m : Message} (hm : m.operation = .request ∨ m.operation = .reply) (trailing : Octets) :
    Message.parse (m.octets ++ trailing) = .ok m := by
  have hl : 28 ≤ (m.octets ++ trailing).length := by
    rw [List.length_append, Message.length_octets]
    exact Nat.le_add_right ..
  have hread : Header.read? (m.octets ++ trailing) = some ⟨.ethernet, .ipv4, 6, 4, m⟩ := by
    have hoperation : Operation.ofWord m.operation.toWord = m.operation := by
      rcases hm with h | h <;> rw [h] <;> rfl
    unfold Header.read?
    rw [show word16? (m.octets ++ trailing) 0 = some 1 from rfl,
      show word16? (m.octets ++ trailing) 2 = some 0x0800 from rfl,
      show word16? (m.octets ++ trailing) 6 = some m.operation.toWord from congrArg some (word16_ofWord16 _),
      Ethernet.Address.read?_of_le (by omega), Ipv4.Address.read?_of_le (by omega),
      Ethernet.Address.read?_of_le (by omega), Ipv4.Address.read?_of_le (by omega)]
    simp only [Option.bind_eq_bind, Option.bind_some, hoperation]
    rfl
  unfold Message.parse
  rw [hread]
  dsimp only
  rw [if_pos (by decide)]
  rcases hm with hm | hm <;> rw [hm]

namespace Table

variable {t t' : Table}

/-! ## What each operation posts -/

theorem question_congr (h : t'.device = t.device) (x : Ipv4.Address) : t'.question x = t.question x := by
  unfold device at h
  simp only [Prod.mk.injEq] at h
  unfold question
  rw [h.1, h.2.1]

theorem answer_congr (h : t'.device = t.device) (m : Message) : t'.answer m = t.answer m := by
  unfold device at h
  simp only [Prod.mk.injEq] at h
  unfold answer
  rw [h.1, h.2.1]

theorem LookedUp.posts (hs : t.Stored) {x : Ipv4.Address} {task : Option Task} {now : Instant}
    {r : Except Fault Ethernet.Address} (h : LookedUp t x task now r t') : Posts t t' [t.question x] := by
  have silent : t'.outbox = t.outbox → Posts t t' [t.question x] :=
    fun ho => (Posts.of_eq ho).mono (List.nil_sublist _)
  cases h with
  | settled => exact silent rfl
  | joined _ hu => exact silent (by rw [(wait_frame hs.waiters hu).1])
  | crowded _ hu _ =>
    obtain ⟨he, hw⟩ := wait_frame hs.waiters hu
    exact silent (by rw [(cancel_frame hw x task).1, he])
  | @asked u v _ hu hv =>
    have he := (wait_frame hs.waiters hu).1
    have hve := (put_eq_ok (by rw [he]; exact hs.neighbors) hv).1
    have hq : v.question x = t.question x := question_congr (by rw [hve, he]; rfl) x
    rw [request_eq_post, hq]
    exact Posts.trans (.of_eq (by rw [hve, he])) (post_posts v _)

theorem Received.posts (hs : t.Stored) {m : Message} {now : Instant} {w w' : Wakeups}
    (h : Received t m now w t' w') : Posts t t' [t.answer m] := by
  cases h with
  | ignored => exact (Posts.of_eq rfl).mono (List.nil_sublist _)
  | @learned u v _ _ he hv ht =>
    have hue := (put_eq_ok hs.neighbors he).1
    have hve := (wake_spec (by rw [hue]; exact hs.waiters) hv).1
    have hv' : Posts t v [] := .of_eq (by rw [hve, hue])
    rcases ht with rfl | rfl
    · exact hv'.mono (List.nil_sublist _)
    · rw [answer_congr (show v.device = t.device by rw [hve, hue]; rfl)]
      exact hv'.trans (post_posts v _)

/-- What all messages have, those that wait and those that are posted, all have that wait then. -/
theorem Posts.forall_mem {ms : List Message} (h : Posts t t' ms) (hw : t.outbox.WF) {M : Message → Prop}
    (ht : ∀ m ∈ t.outbox.toList, M m) (hm : ∀ m ∈ ms, M m) : ∀ m ∈ t'.outbox.toList, M m := by
  obtain ⟨-, ns, ho, hn⟩ := h hw
  intro m hmem
  rw [ho, List.mem_append] at hmem
  exact hmem.elim (ht m) fun hmem => hm m (hn.subset hmem)

/-! ## What waits to be sent -/

/-- A table of the device with these addresses, for which all its messages speak. -/
structure Speaks (t : Table) (hardware : Ethernet.Address) (addr : Ipv4.Address) : Prop extends t.Stored where
  ownHardware : t.hardware = hardware
  ownAddr : t.addr = addr
  messages : ∀ m ∈ t.outbox.toList, m.From hardware addr

variable {hardware : Ethernet.Address} {addr : Ipv4.Address}

theorem speaks_create (hardware : Ethernet.Address) (addr mask : Ipv4.Address) :
    (create hardware addr mask).Speaks hardware addr :=
  ⟨create_stored hardware addr mask, rfl, rfl, nofun⟩

/-- An operation that posts only such messages goes on speaking for its device. -/
theorem Speaks.of_posts (hs : t.Speaks hardware addr) (ht : t'.Stored ∧ t'.device = t.device) {ms : List Message}
    (hp : Posts t t' ms) (hm : ∀ m ∈ ms, m.From hardware addr) : t'.Speaks hardware addr := by
  obtain ⟨ht, hd⟩ := ht
  unfold device at hd
  simp only [Prod.mk.injEq] at hd
  exact ⟨ht, hd.1.trans hs.ownHardware, hd.2.1.trans hs.ownAddr, hp.forall_mem hs.outbox hs.messages hm⟩

theorem Speaks.question (hs : t.Speaks hardware addr) (x : Ipv4.Address) : (t.question x).From hardware addr :=
  ⟨.inl rfl, hs.ownHardware, hs.ownAddr⟩

theorem Speaks.answer (hs : t.Speaks hardware addr) (m : Message) : (t.answer m).From hardware addr :=
  ⟨.inr rfl, hs.ownHardware, hs.ownAddr⟩

/-- Whatever happens to it, a table goes on speaking for its device. -/
theorem speaks_kept (hardware : Ethernet.Address) (addr : Ipv4.Address) : Kept (·.Speaks hardware addr) where
  lookup x task now hs :=
    hs.of_posts ((device_kept _).lookup x task now ⟨hs.toStored, rfl⟩)
      ((lookup_lookedUp _ x task now).posts hs.toStored) (List.forall_mem_singleton.2 (hs.question x))
  receive m now w hs :=
    hs.of_posts ((device_kept _).receive m now w ⟨hs.toStored, rfl⟩)
      ((receive_received _ m now w).posts hs.toStored) (List.forall_mem_singleton.2 (hs.answer m))
  expire now w hs := by
    refine hs.of_posts ((device_kept _).expire now w ⟨hs.toStored, rfl⟩)
      (expire_expired hs.neighbors hs.waiters now w).posts fun m hm => ?_
    obtain ⟨x, -, rfl⟩ := List.mem_map.1 hm
    exact hs.question x
  outgoing hs := ⟨stored_kept.outgoing hs.toStored, hs.ownHardware, hs.ownAddr,
    fun m hm => hs.messages m (Queue.mem_of_mem_pop hs.outbox hm)⟩
  enter hs he :=
    hs.of_posts ((device_kept _).enter ⟨hs.toStored, rfl⟩ he) (.of_eq (enter_outbox he)) nofun

end Table

/-- The next message of a resolver comes from the device. -/
theorem Resolver.outgoing_from {r : Resolver} {hardware : Ethernet.Address} {addr : Ipv4.Address}
    (hs : r.All (·.Speaks hardware addr)) {m : Message} {dst : Ethernet.Address}
    (h : r.outgoing.1 = some (m, dst)) : m.From hardware addr :=
  (hs.mono fun _ ht => ⟨ht.outbox, ht.messages⟩).message h

end UdpStack.Arp
