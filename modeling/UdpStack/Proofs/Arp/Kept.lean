/-
Properties of tables that every operation keeps. A resolver has such a property if its table has, and one that
derives hardware addresses has no table to ask. It keeps the property whatever it is called for, since a packet
makes it at most hear the message in it (`receivePass_heard`). So what is shown of the operations of tables holds
of resolvers (`Resolver.All`), and what is shown of all waiting messages holds of the next one
(`Resolver.All.message`).
-/
import UdpStack.Arp.Resolver
import UdpStack.Proofs.Bounded.Queue

namespace UdpStack.Arp

open Bounded

/-- A property of tables that every operation keeps. -/
structure Table.Kept (P : Table → Prop) : Prop where
  lookup : ∀ {t : Table} (x : Ipv4.Address) (task : Option Task) (now : Instant), P t → P (t.lookup x task now).2
  receive : ∀ {t : Table} (m : Message) (now : Instant) (w : Wakeups), P t → P (t.receive m now w).2.1
  expire : ∀ {t : Table} (now : Instant) (w : Wakeups), P t → P (t.expire now w).1
  outgoing : ∀ {t : Table}, P t → P t.outgoing.2
  enter : ∀ {t t' : Table} {x : Ipv4.Address} {hardware : Ethernet.Address} {now : Option Instant}, P t →
    t.enter x hardware now = .ok t' → P t'

theorem Table.kept_true : Table.Kept fun _ => True :=
  ⟨fun _ _ _ _ => trivial, fun _ _ _ _ => trivial, fun _ _ _ => trivial, fun _ => trivial, fun _ _ => trivial⟩

namespace Resolver

/-- The table has a property, if there is one. -/
def All (P : Table → Prop) (r : Resolver) : Prop := ∀ t, r = .table t → P t

variable {P Q : Table → Prop} {r r' : Resolver}

theorem all_derived : derived.All P := nofun

theorem all_table {t : Table} (ht : P t) : (table t).All P := by
  rintro _ ⟨⟩
  exact ht

theorem All.mono (hr : r.All P) (h : ∀ t, P t → Q t) : r.All Q := fun t ht => h t (hr t ht)

theorem All.lookup (hr : r.All P) (hk : Table.Kept P) (x : Ipv4.Address) (task : Option Task) (now : Instant) :
    (r.lookup x task now).2.All P := by
  cases r with
  | derived => exact hr
  | table t => exact all_table (hk.lookup x task now (hr t rfl))

theorem All.expire (hr : r.All P) (hk : Table.Kept P) (now : Instant) (w : Wakeups) : (r.expire now w).1.All P := by
  cases r with
  | derived => exact hr
  | table t => exact all_table (hk.expire now w (hr t rfl))

theorem All.outgoing (hr : r.All P) (hk : Table.Kept P) : r.outgoing.2.All P := by
  cases r with
  | derived => exact hr
  | table t => exact all_table (hk.outgoing (hr t rfl))

/-- What a resolver does with a packet: nothing, or it hears the message in it. -/
theorem receivePass_heard {p : Packet} {now : Instant} {w w' : Wakeups} {next : Except Fault Next}
    (h : r.receivePass p now w = some (next, r', w')) : r' = r ∧ w' = w ∨ ∃ t bytes m, r = .table t ∧
      p.unread? = some bytes ∧ Message.parse bytes = .ok m ∧ r' = .table (t.receive m now w).2.1 ∧
      w' = (t.receive m now w).2.2 := by
  cases r with
  | derived => cases h; exact .inl ⟨rfl, rfl⟩
  | table t =>
    obtain ⟨bytes, hb, h⟩ := Option.map_eq_some_iff.1 h
    dsimp only at h
    split at h
    · cases h; exact .inl ⟨rfl, rfl⟩
    · rename_i m hm
      cases h
      exact .inr ⟨t, bytes, m, rfl, hb, hm, rfl, rfl⟩

theorem All.receivePass (hr : r.All P) (hk : Table.Kept P) {p : Packet} {now : Instant} {w w' : Wakeups}
    {next : Except Fault Next} (h : r.receivePass p now w = some (next, r', w')) : r'.All P := by
  rcases receivePass_heard h with ⟨rfl, -⟩ | ⟨t, _, m, rfl, -, -, rfl, -⟩
  · exact hr
  · exact all_table (hk.receive m now w (hr t rfl))

/-- The next message is one of those that wait in the table. -/
theorem All.message {M : Message → Prop} (hr : r.All fun t => t.outbox.WF ∧ ∀ m ∈ t.outbox.toList, M m)
    {m : Message} {dst : Ethernet.Address} (h : r.outgoing.1 = some (m, dst)) : M m := by
  cases r with
  | derived => cases h
  | table t =>
    obtain ⟨hw, hm⟩ := hr t rfl
    obtain ⟨m', hpop, he⟩ := Option.map_eq_some_iff.1 (show t.outbox.pop.1.map _ = some (m, dst) from h)
    cases he
    exact hm m (Queue.mem_of_pop hw hpop)

end Resolver

end UdpStack.Arp
