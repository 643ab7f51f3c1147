/-
The answer of the internet layer to every datagram. A datagram is well-formed if its bytes follow a grammar
that is told in numbers alone (`Header.Grammar`); whether it is for this host depends on what was registered
before (`Registered`). From both the answer follows, one case for each (`receivePass_judged`): a datagram is
handed on with just its content left to read, or it is refused and everything stays as it was
(`datagram_judged`).
-/
import UdpStack.Proofs.Bounded.Map
import UdpStack.Proofs.Ipv4.Router

namespace UdpStack.Ipv4

open Bounded Octets

/-! ## The grammar of a datagram -/

/-- Bytes that begin with a whole datagram of version 4. The header has 20 bytes at least and its options are
complete; nothing is fragmented; the words of the header add up to all ones, unless that is left out; and the
declared end lies behind the header and inside the bytes. -/
structure Header.Grammar (w : Octets) (unverified : Bool) : Prop where
  complete : 20 ≤ w.length
  headerLen : 20 ≤ lengthOf w ∧ lengthOf w ≤ w.length
  version : byte w 0 / 16 = 4
  unfragmented : word w 6 / 8192 % 2 = 0 ∧ word w 6 % 8192 = 0
  checksum : unverified = true ∨ Checksum.AllOnes (w.take (lengthOf w))
  totalLen : lengthOf w ≤ word w 2 ∧ word w 2 ≤ w.length

theorem Header.lengthOf_le (w : Octets) : lengthOf w ≤ 60 := by
  unfold lengthOf
  omega

theorem Header.grammar_iff_sound {w : Octets} {unverified : Bool} : Grammar w unverified ↔ Sound w unverified := by
  have hlen : lengthOf w = 4 * (byte w 0 % 16) := rfl
  have hle := lengthOf_le w
  have hsum : Checksum.ofBytes (w.take (lengthOf w)) = 0xffff ↔ Checksum.AllOnes (w.take (lengthOf w)) :=
    Checksum.ofBytes_eq_ones_iff (by rw [List.length_take]; omega)
  constructor
  · intro h
    have := h.headerLen.1
    exact ⟨h.complete, h.version, by omega, h.headerLen.2, h.unfragmented.1, h.unfragmented.2,
      h.checksum.imp_right hsum.2, h.totalLen.1, h.totalLen.2⟩
  · intro h
    have := h.headerLen
    exact ⟨h.complete, ⟨by omega, h.options⟩, h.version, ⟨h.last, h.first⟩, h.checksum.imp_right hsum.1,
      h.least, h.available⟩

namespace Router

variable {r : Router}

/-! ## What was registered -/

/-- Routers by what was registered with them and not taken back since, the first one first: the addresses of
this host with the layers that lead to them, and the protocols with the layers above. Routes, numbers and
counters may be any. -/
inductive Registered : Router → List (Address × Layer) → List (Protocol × Layer) → Prop where
  | empty : Registered empty [] []
  | addIncoming {r r' addresses protocols x layer} : Registered r addresses protocols →
      r.addIncoming x layer = .ok r' → Registered r' (addresses ++ [(x, layer)]) protocols
  | removeIncoming {r r' addresses protocols x layer} : Registered r addresses protocols →
      r.removeIncoming x = .ok (layer, r') → Registered r' (addresses.filter fun p => decide (p.1 ≠ x)) protocols
  | register {r r' addresses protocols p layer} : Registered r addresses protocols →
      r.register p layer = .ok r' → Registered r' addresses (protocols ++ [(p, layer)])
  | unregister {r r' addresses protocols p layer} : Registered r addresses protocols →
      r.unregister p = .ok (layer, r') → Registered r' addresses (protocols.filter fun q => decide (q.1 ≠ p))
  | addRoute {r r' addresses protocols route} : Registered r addresses protocols →
      r.addRoute route = .ok r' → Registered r' addresses protocols
  | removeRoute {r r' addresses protocols net mask route} : Registered r addresses protocols →
      r.removeRoute net mask = .ok (route, r') → Registered r' addresses protocols
  | work {r addresses protocols} (ident : UInt16) (counters : Counters) : Registered r addresses protocols →
      Registered { r with ident := ident, counters := counters } addresses protocols

section Registered

variable {addresses : List (Address × Layer)} {protocols : List (Protocol × Layer)}

theorem Registered.holds (h : Registered r addresses protocols) :
    r.incoming.Holds addresses ∧ r.protocols.Holds protocols := by
  induction h with
  | empty => exact ⟨Map.empty_holds, Map.empty_holds⟩
  | addIncoming _ he ih =>
    obtain ⟨m, rfl, hm⟩ := ih.1.insert_map he
    exact ⟨hm, ih.2⟩
  | removeIncoming _ he ih =>
    unfold Router.removeIncoming at he
    split at he
    · rename_i hr
      cases he
      exact ⟨ih.1.remove hr, ih.2⟩
    · cases he
  | register _ he ih =>
    obtain ⟨m, rfl, hm⟩ := ih.2.insert_map he
    exact ⟨ih.1, hm⟩
  | unregister _ he ih =>
    unfold Router.unregister at he
    split at he
    · rename_i hr
      cases he
      exact ⟨ih.1, ih.2.remove hr⟩
    · cases he
  | @addRoute r _ _ _ route _ he ih =>
    unfold Router.addRoute at he
    cases hr : r.routes.add route with
    | error f => rw [hr] at he; cases he
    | ok routes => rw [hr] at he; cases he; exact ih
  | @removeRoute r _ _ _ net mask _ _ he ih =>
    unfold Router.removeRoute at he
    cases hr : r.routes.remove net mask with
    | error f => rw [hr] at he; cases he
    | ok removed => rw [hr] at he; cases he; exact ih
  | work _ _ _ ih => exact ih

theorem Registered.accepts_iff (h : Registered r addresses protocols) {x : Address} {layer : Layer} :
    r.accepts x layer = true ↔ (x, layer) ∈ addresses :=
  beq_iff_eq.trans h.holds.1.get?_eq_some_iff

end Registered

/-! ## The answer to a datagram -/

/-- What each answer to a datagram says of it, and what it leaves. -/
inductive Judged (addresses : List (Address × Layer)) (protocols : List (Protocol × Layer)) (t : Transit)
    (caller : Layer) (w : Octets) : Except Fault Next → Transit → Prop where
  | taken {upper : Layer} : Header.Grammar w t.info.skipChecksum → (.stored w 16, caller) ∈ addresses →
      (.ofByte (w.getD 9 0), upper) ∈ protocols →
      Judged addresses protocols t caller w (.ok (.layer upper)) (opened t w)
  | foreign : Header.Grammar w t.info.skipChecksum → (.stored w 16, caller) ∉ addresses →
      Judged addresses protocols t caller w (.error .dropped) t
  | unhandled : Header.Grammar w t.info.skipChecksum → (.stored w 16, caller) ∈ addresses →
      (∀ upper, (.ofByte (w.getD 9 0), upper) ∉ protocols) →
      Judged addresses protocols t caller w (.error .unreachable) t
  | malformed : ¬ Header.Grammar w t.info.skipChecksum →
      Judged addresses protocols t caller w (.error .malformed) t

variable {addresses : List (Address × Layer)} {protocols : List (Protocol × Layer)}

theorem receivePass_judged (hr : Registered r addresses protocols) {t : Transit} {w : Octets}
    (hu : t.packet.unread? = some w) (caller : Layer) :
    ∃ result t', r.receivePass t caller = some (result, t') ∧
      Judged addresses protocols t caller w result t' := by
  by_cases hs : Header.Sound w t.info.skipChecksum
  · have hg := Header.grammar_iff_sound.2 hs
    rw [receivePass_of_sound hu hs caller]
    by_cases ha : r.accepts (.stored w 16) caller = true
    · have hmem := hr.accepts_iff.1 ha
      rw [if_pos ha]
      cases hp : r.protocols.get? (.ofByte (w.getD 9 0)) with
      | none => exact ⟨_, _, rfl, .unhandled hg hmem (hr.holds.2.get?_eq_none_iff.1 hp)⟩
      | some upper => exact ⟨_, _, rfl, .taken hg hmem (hr.holds.2.get?_eq_some_iff.1 hp)⟩
    · rw [if_neg ha]
      exact ⟨_, _, rfl, .foreign hg fun h => ha (hr.accepts_iff.2 h)⟩
  · rw [receivePass_of_not_sound hu hs caller]
    exact ⟨_, _, rfl, .malformed fun hg => hs (Header.grammar_iff_sound.1 hg)⟩

/-- The internet layer answers every datagram by the grammar and by what was registered: it hands the content on
exactly if all is well, with the packet cut to the content and the addresses of the header, and else it says
which part fails first and leaves the packet and its addresses as they were. The router is only read. -/
theorem datagram_judged (hr : Registered r addresses protocols) (t : Transit) (caller : Layer) {w : Octets}
    (hu : t.packet.unread? = some w) : ∃ result t', r.receivePass t caller = some (result, t') ∧
      (∀ upper, result = .ok (.layer upper) ↔ Header.Grammar w t.info.skipChecksum ∧
        (.stored w 16, caller) ∈ addresses ∧ (.ofByte (w.getD 9 0), upper) ∈ protocols) ∧
      (∀ upper, result = .ok (.layer upper) → t' = opened t w ∧
        t'.packet.unread? = some ((w.take (word w 2)).drop (Header.lengthOf w))) ∧
      (result = .error .dropped ↔ Header.Grammar w t.info.skipChecksum ∧ (.stored w 16, caller) ∉ addresses) ∧
      (result = .error .unreachable ↔ Header.Grammar w t.info.skipChecksum ∧
        (.stored w 16, caller) ∈ addresses ∧ ∀ upper, (.ofByte (w.getD 9 0), upper) ∉ protocols) ∧
      (result = .error .malformed ↔ ¬ Header.Grammar w t.info.skipChecksum) ∧
      ((∀ upper, result ≠ .ok (.layer upper)) → t' = t) := by
  obtain ⟨result, t', he, hj⟩ := receivePass_judged hr hu caller
  refine ⟨result, t', he, ?_⟩
  cases hj with
  | @taken upper hg ha hp =>
    refine ⟨fun other => ⟨?_, ?_⟩, fun _ _ => ⟨rfl, ?_⟩, ?_, ?_, ?_, fun h => absurd rfl (h upper)⟩
    · rintro ⟨⟩
      exact ⟨hg, ha, hp⟩
    · rintro ⟨-, -, ho⟩
      rw [hr.holds.2.eq_of_mem hp ho]
    · exact unread?_opened hu (Header.grammar_iff_sound.1 hg)
    · simp [ha]
    · simpa using fun _ _ => ⟨upper, hp⟩
    · simp [hg]
  | foreign hg ha => simp [hg, ha]
  | unhandled hg ha hp => simpa [hg, ha] using hp
  | malformed hg => simp [hg]

/-- A datagram with options for 10.0.0.1, behind a frame header and in front of trailing bytes. -/
def withOptions : Packet where
  bytes := List.replicate 14 0 ++
    [0x46, 0, 0, 26, 0x12, 0x34, 0x40, 0, 64, 17, 0x11, 0x9c, 10, 0, 0, 2, 10, 0, 0, 1, 1, 1, 1, 0] ++
    [0xca, 0xfe] ++ [0, 0, 0]
  header := 0
  boundary := 0
  read := 14
  write := 43

/-- Its content is handed on without the options and without the trailing bytes. -/
theorem datagram_judged_options : ∃ r w, Registered r [(⟨10, 0, 0, 1⟩, .ethernet)] [(.udp, .udp)] ∧
    withOptions.unread? = some w ∧ ∃ t', r.receivePass ⟨withOptions, {}⟩ .ethernet =
      some (.ok (.layer .udp), t') ∧ t'.packet.unread? = some [0xca, 0xfe] := by
  have hr : Registered _ [(⟨10, 0, 0, 1⟩, .ethernet)] [(.udp, .udp)] :=
    .register (.addIncoming .empty rfl) rfl
  have hu : withOptions.unread? = some (withOptions.bytes.drop 14) := by decide
  obtain ⟨result, t', he, hiff, hopen, -⟩ := datagram_judged hr ⟨withOptions, {}⟩ .ethernet hu
  have hg : Header.Grammar (withOptions.bytes.drop 14) false :=
    ⟨by decide, by decide, by decide, by decide, .inr (by unfold Checksum.AllOnes; decide), by decide⟩
  obtain rfl := (hiff .udp).2 ⟨hg, by decide, by decide⟩
  exact ⟨_, _, hr, hu, t', he, (hopen .udp rfl).2.trans (by decide)⟩

end Router

end UdpStack.Ipv4
