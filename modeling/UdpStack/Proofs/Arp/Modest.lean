/-
Tables that never answer themselves. The own address needs no question, so none is ever under way for it, and an
answer calls for no further one. So of all that a table sends, there is nothing that it would reply to if it heard
it again (`modest_kept`): hearing such a message leaves it with no more to send than before (`receive_unanswered`), and
hearing any other one with at most one message more (`Received.size_le`).
-/
import UdpStack.Proofs.Arp.Messages

namespace UdpStack.Arp

open Bounded

/-- A message that a device with this address does not reply to. -/
def Message.Unanswered (m : Message) (addr : Ipv4.Address) : Prop :=
  m.operation = .reply ∨ m.operation = .request ∧ m.dstAddr ≠ addr

theorem Message.Unanswered.operation {m : Message} {addr : Ipv4.Address} (hm : m.Unanswered addr) :
    m.operation = .request ∨ m.operation = .reply := by
  rcases hm with hm | ⟨hm, -⟩
  · exact .inr hm
  · exact .inl hm

namespace Table

variable {t t' : Table} {addr : Ipv4.Address}

/-- A table that asks for no address which it knows without asking, and sends nothing that it would reply to. -/
structure Modest (t : Table) (addr : Ipv4.Address) : Prop extends t.Stored where
  ownAddr : t.addr = addr
  asking : ∀ x, t.Asking x → t.fixed? x = none
  messages : ∀ m ∈ t.outbox.toList, m.Unanswered addr

theorem modest_create (hardware : Ethernet.Address) (addr mask : Ipv4.Address) :
    (create hardware addr mask).Modest addr := by
  refine ⟨create_stored hardware addr mask, rfl, ?_, nofun⟩
  rintro x ⟨_, _, _, hq⟩
  cases hq

theorem ne_addr_of_fixed? {x : Ipv4.Address} (h : t.fixed? x = none) : x ≠ t.addr := by
  rintro rfl
  unfold fixed? at h
  split at h
  · cases h
  · split at h
    · cases h
    · rw [if_pos (beq_self_eq_true _)] at h
      cases h

theorem Modest.question (hs : t.Modest addr) {x : Ipv4.Address} (hx : t.fixed? x = none) :
    (t.question x).Unanswered addr :=
  .inr ⟨rfl, hs.ownAddr ▸ ne_addr_of_fixed? hx⟩

/-! ## What keeps a table modest -/

/-- An operation that asks for no fixed address and posts only such messages keeps a table modest. -/
theorem Modest.of_posts (hs : t.Modest addr) (ht : t'.Stored ∧ t'.device = t.device)
    (ha : ∀ x, t'.Asking x → t.fixed? x = none) {ms : List Message} (hp : Posts t t' ms)
    (hm : ∀ m ∈ ms, m.Unanswered addr) : t'.Modest addr := by
  have haddr : t'.addr = t.addr := congrArg (·.2.1) ht.2
  exact ⟨ht.1, haddr.trans hs.ownAddr, fun x hx => (fixed?_congr ht.2 x).trans (ha x hx),
    hp.forall_mem hs.outbox hs.messages hm⟩

theorem Modest.lookup (hs : t.Modest addr) (x : Ipv4.Address) (task : Option Task) (now : Instant) :
    (t.lookup x task now).2.Modest addr := by
  cases hx : t.fixed? x with
  | some hardware => rw [lookup_of_fixed hx]; exact hs
  | none =>
    have hl := lookup_lookedUp t x task now
    refine hs.of_posts ((device_kept _).lookup x task now ⟨hs.toStored, rfl⟩) ?_ (hl.posts hs.toStored)
      (List.forall_mem_singleton.2 (hs.question hx))
    intro y hy
    by_cases hyx : y = x
    · rw [hyx]; exact hx
    · exact hs.asking y (asking_of_lookedUp hs.toStored hl hyx hy)

theorem Modest.receive (hs : t.Modest addr) (m : Message) (now : Instant) (w : Wakeups) :
    (t.receive m now w).2.1.Modest addr := by
  have hr := receive_received t m now w
  exact hs.of_posts ((device_kept _).receive m now w ⟨hs.toStored, rfl⟩)
    (fun x hx => hs.asking x (asking_of_received hs.toStored hr hx)) (hr.posts hs.toStored)
    (List.forall_mem_singleton.2 (.inl rfl))

theorem Modest.expire (hs : t.Modest addr) (now : Instant) (w : Wakeups) : (t.expire now w).1.Modest addr := by
  have he := expire_expired hs.neighbors hs.waiters now w
  refine hs.of_posts ((device_kept _).expire now w ⟨hs.toStored, rfl⟩)
    (fun x hx => hs.asking x (asking_of_expired hs.toStored he hx)) he.posts ?_
  -- a question is asked again only where one was under way
  intro m hm
  obtain ⟨x, hx, rfl⟩ := List.mem_map.1 hm
  obtain ⟨retries, nextAt, e, hn, -⟩ := (mem_due hs.neighbors).1 (List.mem_filter.1 hx).1
  exact hs.question (hs.asking x ⟨retries, nextAt, e, hn⟩)

theorem Modest.enter (hs : t.Modest addr) {x : Ipv4.Address} {found : Ethernet.Address} {now : Option Instant}
    (h : t.enter x found now = .ok t') : t'.Modest addr :=
  hs.of_posts ((device_kept _).enter ⟨hs.toStored, rfl⟩ h)
    (fun y hy => hs.asking y (asking_of_put hs.neighbors h (fun _ => ⟨_, rfl⟩) hy)) (.of_eq (enter_outbox h)) nofun

/-- Whatever happens to it, a modest table stays modest. -/
theorem modest_kept (addr : Ipv4.Address) : Kept (·.Modest addr) where
  lookup x task now hs := hs.lookup x task now
  receive m now w hs := hs.receive m now w
  expire now w hs := hs.expire now w
  outgoing hs := ⟨stored_kept.outgoing hs.toStored, hs.ownAddr, hs.asking,
    fun m hm => hs.messages m (Queue.mem_of_mem_pop hs.outbox hm)⟩
  enter hs h := hs.enter h

/-! ## How much is posted -/

theorem Posts.size_le {ms : List Message} (hw : t.outbox.WF) (h : Posts t t' ms) :
    t'.outbox.size ≤ t.outbox.size + ms.length := by
  obtain ⟨hw', ns, ho, hn⟩ := h hw
  rw [← hw.length_toList, ← hw'.length_toList, ho, List.length_append]
  exact Nat.add_le_add_left hn.length_le _

theorem Received.size_le (hs : t.Stored) {m : Message} {now : Instant} {w w' : Wakeups}
    (h : Received t m now w t' w') : t'.outbox.size ≤ t.outbox.size + 1 :=
  (h.posts hs).size_le hs.outbox

/-- A message that gets no reply leaves what waits to be sent as it is. -/
theorem receive_unanswered {m : Message} (hm : m.Unanswered t.addr) (now : Instant) (w : Wakeups) :
    (t.receive m now w).2.1.outbox = t.outbox := by
  unfold receive
  split
  · rfl
  · dsimp only
    by_cases hk : (t.neighbors.contains m.srcAddr || m.dstAddr == t.addr) = true
    · rw [if_pos hk]
      cases he : t.enter m.srcAddr m.srcHardware (some now) with
      | error f => rfl
      | ok u =>
        have ho : u.outbox = t.outbox := enter_outbox he
        simp only [Except.map]
        split
        · exact ho
        · rename_i hus
          -- it is for this address, so it is no question
          have hreply : m.operation = .reply := by
            rcases hm with hm | ⟨-, hother⟩
            · exact hm
            · exact absurd (by simpa using hus) hother
          rw [if_neg (by rw [hreply]; decide)]
          exact ho
    · simp only [Bool.or_eq_true, not_or, Bool.not_eq_true] at hk
      rw [if_neg (by rw [hk.1, hk.2]; decide)]
      dsimp only
      rw [if_pos (by rw [hk.2]; rfl)]

end Table

/-! ## Either way of finding addresses -/

namespace Resolver

variable {r : Resolver}

/-- The next message of a resolver gets no reply from here. -/
theorem outgoing_unanswered {addr : Ipv4.Address} (hs : r.All (·.Modest addr)) {m : Message}
    {dst : Ethernet.Address} (h : r.outgoing.1 = some (m, dst)) : m.Unanswered addr :=
  (hs.mono fun _ ht => ⟨ht.outbox, ht.messages⟩).message h

/-! ### Backlogs -/

theorem backlog_le (hr : r.All (·.Stored)) : r.backlog ≤ Limits.outbox := by
  cases r with
  | derived => exact Nat.zero_le _
  | table t => exact (hr t rfl).outbox.size_le

/-- A resolver without a next message has none. -/
theorem backlog_eq_zero (hr : r.All (·.Stored)) (h : r.outgoing.1 = none) : r.backlog = 0 := by
  cases r with
  | derived => rfl
  | table t =>
    have hw := (hr t rfl).outbox
    have hp : t.outbox.pop.1 = none := Option.map_eq_none_iff.1 h
    rw [Queue.fst_pop hw] at hp
    show t.outbox.size = 0
    rw [← hw.length_toList, List.head?_eq_none_iff.1 hp]
    rfl

end Resolver

end UdpStack.Arp
