/-
What reading and writing a packet takes for granted. Cursors in order meet the demands of everything that
writes (`InOrder.met_frame`, `InOrder.met_alloc`), those of reading are met where the bytes that are left to
read exist (`met_peek`), and the claims that are checked first hold for any cursors (`met_push`). A region of
a packet has content exactly if its demands are met (`unread?_isSome_iff`, `frame?_isSome_iff`).
-/
import UdpStack.Proofs.Demands.Bounded
import UdpStack.Proofs.Packet

namespace UdpStack.Packet

open Octets

variable {p : Packet}

/-! ## Between cursors -/

/-- Taking one cursor from another. -/
def availableDemands (p : Packet) : List Demand := [.minus p.write p.read]

def headerLenDemands (p : Packet) : List Demand := [.minus p.boundary p.header]

def payloadLenDemands (p : Packet) : List Demand := [.minus p.write p.boundary]

/-- The bytes that are left to read. -/
def unreadDemands (p : Packet) : List Demand := [.range p.read p.write p.capacity]

/-- The stacked headers and the payload. -/
def frameDemands (p : Packet) : List Demand := [.range p.header p.write p.capacity]

/-- The last `depth` bytes of the stacked headers with the payload. -/
def stackedDemands (p : Packet) (depth : Nat) : List Demand :=
  p.headerLenDemands ++ if p.headerLen < depth then [] else
    [.minus p.boundary depth, .range (p.boundary - depth) p.write p.capacity]

theorem range?_isSome_iff {b : Octets} {start stop : Nat} :
    (range? b start stop).isSome = true ↔ (Demand.range start stop b.length).Met := by
  simp only [Demand.Met]
  unfold range? slice?
  by_cases hle : start ≤ stop
  · rw [if_pos hle, Nat.add_sub_of_le hle]
    split <;> simp [*]
  · simp [hle]

theorem unread?_isSome_iff : p.unread?.isSome = true ↔ AllMet p.unreadDemands := by
  unfold unreadDemands
  simp only [allMet_cons, allMet_nil, and_true]
  exact range?_isSome_iff

theorem frame?_isSome_iff : p.frame?.isSome = true ↔ AllMet p.frameDemands := by
  unfold frameDemands
  simp only [allMet_cons, allMet_nil, and_true]
  exact range?_isSome_iff

theorem met_unread {w : Octets} (hu : p.unread? = some w) : AllMet p.unreadDemands :=
  unread?_isSome_iff.1 (by rw [hu]; rfl)

theorem met_available {w : Octets} (hu : p.unread? = some w) : AllMet p.availableDemands := by
  obtain ⟨hle, -⟩ := unread?_eq_some hu
  exact allMet_cons.2 ⟨hle, allMet_nil⟩

theorem InOrder.met_headerLen (h : p.InOrder) : AllMet p.headerLenDemands := allMet_cons.2 ⟨h.header_le, allMet_nil⟩

theorem InOrder.met_payloadLen (h : p.InOrder) : AllMet p.payloadLenDemands :=
  allMet_cons.2 ⟨h.boundary_le, allMet_nil⟩

theorem InOrder.met_frame (h : p.InOrder) : AllMet p.frameDemands :=
  allMet_cons.2 ⟨⟨h.header_le.trans h.boundary_le, h.write_le⟩, allMet_nil⟩

theorem InOrder.met_stacked (h : p.InOrder) (depth : Nat) : AllMet (p.stackedDemands depth) := by
  obtain ⟨h1, h2, h3⟩ := h
  refine allMet_append.2 ⟨allMet_cons.2 ⟨h1, allMet_nil⟩, allMet_ite (fun _ => allMet_nil) fun hd => ?_⟩
  simp only [headerLen, capacity, allMet_cons, allMet_nil, Demand.Met, and_true] at hd ⊢
  omega

/-! ## Writing -/

/-- Reaching a region of the buffer. -/
def regionDemands (p : Packet) (r : Region) : List Demand := [.range r.start (r.start + r.len) p.capacity]

/-- Claiming bytes behind the payload. -/
def claimDemands (p : Packet) (len : Nat) : List Demand :=
  match p.claim len with
  | .error _ => []
  | .ok (r, q) => q.regionDemands r

/-- Claiming bytes behind the payload and copying others there. -/
def pushDemands (p : Packet) (data : Octets) : List Demand :=
  match p.claim data.length with
  | .error _ => []
  | .ok (r, q) => q.regionDemands r ++ [.copy r.len data.length]

/-- Claiming bytes in front of the stacked headers. -/
def allocDemands (p : Packet) (len : Nat) : List Demand :=
  match p.allocHeader len with
  | .error _ => []
  | .ok (r, q) => .minus p.header len :: q.regionDemands r

theorem met_claim (p : Packet) (len : Nat) : AllMet (p.claimDemands len) := by
  unfold claimDemands claim
  split
  · exact allMet_nil
  · rename_i hc
    split at hc
    · cases hc
    · cases hc
      simp only [regionDemands, capacity, allMet_cons, allMet_nil, Demand.Met, and_true] at *
      omega

theorem met_push (p : Packet) (data : Octets) : AllMet (p.pushDemands data) := by
  have hclaim := p.met_claim data.length
  unfold pushDemands
  unfold claimDemands at hclaim
  split
  · exact allMet_nil
  · rename_i r q hc
    rw [hc] at hclaim
    refine allMet_append.2 ⟨hclaim, allMet_cons.2 ⟨?_, allMet_nil⟩⟩
    unfold claim at hc
    split at hc
    · cases hc
    · cases hc
      rfl

theorem InOrder.met_alloc (h : p.InOrder) (len : Nat) : AllMet (p.allocDemands len) := by
  obtain ⟨h1, h2, h3⟩ := h
  unfold allocDemands allocHeader
  split
  · exact allMet_nil
  · rename_i ha
    split at ha
    · cases ha
    · cases ha
      simp only [regionDemands, capacity, allMet_cons, allMet_nil, Demand.Met, and_true] at *
      omega

/-! ## Reading -/

/-- Looking at the next bytes. -/
def peekDemands (p : Packet) (len : Nat) : List Demand :=
  p.availableDemands ++ match p.peekRegion len with
    | .error _ => []
    | .ok r => p.regionDemands r

/-- Copying the next bytes to as much room. -/
def takeDemands (p : Packet) (len : Nat) : List Demand :=
  p.peekDemands len ++ match p.peek len with
    | .error _ => []
    | .ok data => [.copy len data.length]

/-- Moving the read cursor over a header, and cutting off what follows the content. -/
def cutDemands (p : Packet) (len : Nat) : List Demand :=
  p.availableDemands ++ match p.skip len with
    | .error _ => []
    | .ok q => q.availableDemands

theorem met_peek {w : Octets} (hu : p.unread? = some w) (len : Nat) : AllMet (p.peekDemands len) := by
  obtain ⟨h1, h2, -⟩ := unread?_eq_some hu
  refine allMet_append.2 ⟨met_available hu, ?_⟩
  unfold peekRegion available
  split
  · exact allMet_nil
  · rename_i hp
    split at hp
    · cases hp
    · cases hp
      simp only [regionDemands, capacity, allMet_cons, allMet_nil, Demand.Met, and_true]
      omega

theorem met_take {w : Octets} (hu : p.unread? = some w) (len : Nat) : AllMet (p.takeDemands len) := by
  obtain ⟨h1, h2, -⟩ := unread?_eq_some hu
  refine allMet_append.2 ⟨met_peek hu len, ?_⟩
  unfold peek available
  split
  · exact allMet_nil
  · rename_i hp
    split at hp
    · cases hp
    · cases hp
      simp only [allMet_cons, allMet_nil, Demand.Met, and_true, List.length_take, List.length_drop]
      omega

theorem unread?_of_skip {q : Packet} {w : Octets} (hu : p.unread? = some w) {len : Nat} (h : p.skip len = .ok q) :
    ∃ v, q.unread? = some v := by
  have hlen := (unread?_eq_some hu).2.2.2
  by_cases hl : len ≤ w.length
  · obtain ⟨q', hq, hv, -⟩ := unread?_skip hu hl
    cases hq.symm.trans h
    exact ⟨_, hv⟩
  · unfold skip at h
    rw [if_pos (by omega)] at h
    cases h

theorem met_cut {w : Octets} (hu : p.unread? = some w) (len : Nat) : AllMet (p.cutDemands len) := by
  refine allMet_append.2 ⟨met_available hu, ?_⟩
  split
  · exact allMet_nil
  · rename_i q hq
    obtain ⟨v, hv⟩ := unread?_of_skip hu hq
    exact met_available hv

end UdpStack.Packet
