/-
The answer of the datagram layer to every user datagram. Its own length ends a datagram, inside the bytes that
the layer below left to read, and its checksum covers the addresses that this layer found: both are told in
numbers alone (`Header.Grammar`). With the ports that are bound (`Bound`) the answer follows, one case for each
(`receivePass_judged`): the payload is handed on whatever stands behind it, or everything stays as it was
(`segment_judged`).
-/
import UdpStack.Proofs.Bounded.Map
import UdpStack.Proofs.Udp.Ports

namespace UdpStack.Udp

open Bounded Octets

/-! ## The grammar of a user datagram -/

/-- Bytes that begin with a whole user datagram between two addresses. Its length covers the header and ends
inside the bytes; and there is no checksum, or it is left out, or the pseudo header and the datagram add up to
all ones. -/
structure Header.Grammar (w : Octets) (src dst : Ipv4.Address) (unverified : Bool) : Prop where
  least : 8 ≤ word w 4
  complete : word w 4 ≤ w.length
  checksum : unverified = true ∨ word w 6 = 0 ∨
    Checksum.AllOnes (Checksum.pseudoOctets src dst 17 (UInt16.ofNat (word w 4)) ++ w.take (word w 4))

theorem Header.sumOf_eq_ones_iff (w : Octets) (src dst : Ipv4.Address) : sumOf w src dst = 0xffff ↔
    Checksum.AllOnes (Checksum.pseudoOctets src dst 17 (UInt16.ofNat (word w 4)) ++ w.take (word w 4)) := by
  have heven : (Checksum.pseudoOctets src dst 17 (UInt16.ofNat (word w 4))).length % 2 = 0 := by
    rw [Checksum.length_pseudoOctets]
  rw [← Checksum.carried_total_eq_max_iff, Checksum.total_append _ heven, ← UInt16.toNat_inj, toNat_sumOf]
  rfl

theorem Header.grammar_iff_sound {w : Octets} {src dst : Ipv4.Address} {unverified : Bool} :
    Grammar w src dst unverified ↔ Sound w src dst unverified := by
  constructor
  · rintro ⟨hleast, hcomplete, hsum⟩
    exact ⟨hleast, hcomplete, hsum.imp_right (.imp_right (sumOf_eq_ones_iff w src dst).2)⟩
  · rintro ⟨hleast, hcomplete, hsum⟩
    exact ⟨hleast, hcomplete, hsum.imp_right (.imp_right (sumOf_eq_ones_iff w src dst).1)⟩

namespace Ports

/-! ## Which ports are bound -/

/-- Tables of ports by what was bound and not unbound since, the first binding first. The counters may be
any. -/
inductive Bound : Ports → List (UInt16 × Layer) → Prop where
  | create (lower : Layer) : Bound (.create lower) []
  | bind {u u' bound port layer} : Bound u bound → u.bind port layer = .ok u' →
      Bound u' (bound ++ [(port, layer)])
  | unbind {u u' bound port layer} : Bound u bound → u.unbind port = .ok (layer, u') →
      Bound u' (bound.filter fun p => decide (p.1 ≠ port))
  | work {u bound} (counters : Counters) : Bound u bound → Bound { u with counters := counters } bound

variable {u : Ports} {bound : List (UInt16 × Layer)}

theorem Bound.holds (h : Bound u bound) : u.table.Holds bound := by
  induction h with
  | create => exact Map.empty_holds
  | bind _ he ih =>
    unfold Ports.bind at he
    split at he
    · cases he
    · obtain ⟨m, rfl, hm⟩ := ih.insert_map he
      exact hm
  | unbind _ he ih =>
    unfold Ports.unbind at he
    split at he
    · rename_i hr
      cases he
      exact ih.remove hr
    · cases he
  | work _ _ ih => exact ih

/-! ## The answer to a user datagram -/

/-- What each answer to a user datagram says of it, and what it leaves. -/
inductive Judged (bound : List (UInt16 × Layer)) (t : Transit) (w : Octets) :
    Except Fault Next → Transit → Prop where
  | taken {upper : Layer} : Header.Grammar w t.info.srcAddr t.info.dstAddr t.info.skipChecksum →
      (UInt16.ofNat (word w 2), upper) ∈ bound → Judged bound t w (.ok (.layer upper)) (opened t w)
  | unhandled : Header.Grammar w t.info.srcAddr t.info.dstAddr t.info.skipChecksum →
      (∀ upper, (UInt16.ofNat (word w 2), upper) ∉ bound) → Judged bound t w (.error .unreachable) t
  | malformed : ¬ Header.Grammar w t.info.srcAddr t.info.dstAddr t.info.skipChecksum →
      Judged bound t w (.error .malformed) t

theorem receivePass_judged (hb : Bound u bound) {t : Transit} {w : Octets}
    (hu : t.packet.unread? = some w) :
    ∃ result t', u.receivePass t = some (result, t') ∧ Judged bound t w result t' := by
  by_cases hs : Header.Sound w t.info.srcAddr t.info.dstAddr t.info.skipChecksum
  · have hg := Header.grammar_iff_sound.2 hs
    rw [receivePass_of_sound hu hs]
    cases hl : u.layerOf? (UInt16.ofNat (word w 2)) with
    | none => exact ⟨_, _, rfl, .unhandled hg (hb.holds.get?_eq_none_iff.1 hl)⟩
    | some upper => exact ⟨_, _, rfl, .taken hg (hb.holds.get?_eq_some_iff.1 hl)⟩
  · rw [receivePass_of_not_sound hu hs]
    exact ⟨_, _, rfl, .malformed fun hg => hs (Header.grammar_iff_sound.1 hg)⟩

/-- The datagram layer answers all bytes by the grammar and by the ports that are bound: it hands the payload
on exactly if the datagram is well-formed and its port has a layer, with the packet cut to the payload and both
ports noted, and else it says which of both fails and leaves the packet and its addresses as they were. The
ports are only read. -/
theorem segment_judged (hb : Bound u bound) (t : Transit) {w : Octets} (hu : t.packet.unread? = some w) :
    ∃ result t', u.receivePass t = some (result, t') ∧
      (∀ upper, result = .ok (.layer upper) ↔
        Header.Grammar w t.info.srcAddr t.info.dstAddr t.info.skipChecksum ∧
          (UInt16.ofNat (word w 2), upper) ∈ bound) ∧
      (∀ upper, result = .ok (.layer upper) → t' = opened t w ∧
        t'.packet.unread? = some ((w.take (word w 4)).drop 8)) ∧
      (result = .error .unreachable ↔
        Header.Grammar w t.info.srcAddr t.info.dstAddr t.info.skipChecksum ∧
          ∀ upper, (UInt16.ofNat (word w 2), upper) ∉ bound) ∧
      (result = .error .malformed ↔
        ¬ Header.Grammar w t.info.srcAddr t.info.dstAddr t.info.skipChecksum) ∧
      ((∀ upper, result ≠ .ok (.layer upper)) → t' = t) := by
  obtain ⟨result, t', he, hj⟩ := receivePass_judged hb hu
  refine ⟨result, t', he, ?_⟩
  cases hj with
  | @taken upper hg hp =>
    refine ⟨fun other => ⟨?_, ?_⟩, fun _ _ => ⟨rfl, ?_⟩, ?_, ?_, fun h => absurd rfl (h upper)⟩
    · rintro ⟨⟩
      exact ⟨hg, hp⟩
    · rintro ⟨-, ho⟩
      rw [hb.holds.eq_of_mem hp ho]
    · exact unread?_opened hu hg.least hg.complete
    · simpa using fun _ => ⟨upper, hp⟩
    · simp [hg]
  | unhandled hg hp => simpa [hg] using hp
  | malformed hg => simp [hg]

/-- A user datagram of odd length with its checksum, in front of trailing bytes. -/
def oddSegment : Transit where
  packet := {
    bytes := [0x0f, 0xa0, 0, 7, 0, 11, 0x41, 0x60, 0xab, 0xcd, 0xef] ++ [0xff, 0xff, 0xff]
    header := 0
    boundary := 0
    read := 0
    write := 14 }
  info := { srcAddr := ⟨10, 0, 0, 2⟩, dstAddr := ⟨10, 0, 0, 1⟩ }

/-- Its payload is handed on without the trailing bytes. -/
theorem segment_judged_odd : ∃ u w, Bound u [(7, .user)] ∧ oddSegment.packet.unread? = some w ∧
    ∃ t', u.receivePass oddSegment = some (.ok (.layer .user), t') ∧
      t'.packet.unread? = some [0xab, 0xcd, 0xef] := by
  have hb : Bound _ [(7, .user)] := .bind (.create .ipv4) rfl
  have hu : oddSegment.packet.unread? = some oddSegment.packet.bytes := by decide
  obtain ⟨result, t', he, hiff, hopen, -⟩ := segment_judged hb oddSegment hu
  have hg : Header.Grammar oddSegment.packet.bytes ⟨10, 0, 0, 2⟩ ⟨10, 0, 0, 1⟩ false :=
    ⟨by decide, by decide, .inr (.inr (by unfold Checksum.AllOnes; decide))⟩
  obtain rfl := (hiff .user).2 ⟨hg, by decide⟩
  exact ⟨_, _, hb, hu, t', he, (hopen .user rfl).2.trans (by decide)⟩

end Ports

end UdpStack.Udp
