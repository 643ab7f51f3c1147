/-
Routes of a host. They stay sorted with the longest mask first (`add_wf`), so a route that covers a
destination is found before all less specific ones (`lookup_of_longest`).
-/
import UdpStack.Bounded.Seq.Lemmas
import UdpStack.Ipv4.Routes
import UdpStack.Proofs.Ipv4.Masks

namespace UdpStack.Ipv4

open Bounded

namespace Route

/-- The route to the addresses of this host. -/
theorem contains_loopback (layer : Layer) (x : Address) :
    (⟨⟨127, 0, 0, 0⟩, .netmask 8, layer⟩ : Route).contains x = x.isLoopback := by
  have hmask : Address.netmask 8 = ⟨255, 0, 0, 0⟩ := by decide
  have ha : x.a &&& 255 = x.a := UInt8.and_neg_one
  unfold contains Address.isLoopback
  simp only [hmask, Address.mask_eq, ha, UInt8.and_zero]
  by_cases hx : x.a = 127
  · rw [hx]
    rfl
  · rw [beq_eq_false_iff_ne.2 hx, beq_eq_false_iff_ne]
    intro h
    exact hx (congrArg Address.a h).symm

/-- The route to the limited broadcast address. -/
theorem contains_broadcast (layer : Layer) (x : Address) :
    (⟨.broadcast, .netmask 32, layer⟩ : Route).contains x = x.isBroadcast := by
  have hmask : Address.netmask 32 = ⟨255, 255, 255, 255⟩ := by decide
  have hand : ∀ o : UInt8, o &&& 255 = o := fun o => UInt8.and_neg_one
  unfold contains Address.isBroadcast
  simp only [hmask, Address.mask_eq, hand]
  exact Bool.beq_comm

/-- The route to the subnet of an address. -/
theorem contains_subnet (x m : Address) (layer : Layer) (y : Address) :
    (⟨x.mask m, m, layer⟩ : Route).contains y = true ↔ x.mask m = y.mask m := by
  unfold contains
  rw [Address.mask_mask, beq_iff_eq]

end Route

namespace Routes

/-- Routes as they are kept. -/
structure WF (r : Routes) : Prop where
  storage : r.storage.WF
  sorted : r.toList.Pairwise fun route other => other.prefixLen ≤ route.prefixLen

theorem empty_wf : empty.WF := ⟨Seq.empty_wf, List.Pairwise.nil⟩

/-- In front of the first less specific route there is none, and behind it there are no others. -/
theorem split_at_shorter {l : List Route} (hs : l.Pairwise fun route other => other.prefixLen ≤ route.prefixLen)
    (n : Nat) : ∃ i, (l.findIdx? fun other => other.prefixLen < n).getD l.length = i ∧ i ≤ l.length ∧
      (∀ o ∈ l.take i, n ≤ o.prefixLen) ∧ ∀ o ∈ l.drop i, o.prefixLen < n := by
  induction l with
  | nil => exact ⟨0, rfl, Nat.le_refl 0, nofun, nofun⟩
  | cons route rest ih =>
    obtain ⟨hroute, hrest⟩ := List.pairwise_cons.1 hs
    rw [List.findIdx?_cons]
    by_cases hlt : route.prefixLen < n
    · refine ⟨0, by simp [hlt], Nat.zero_le _, nofun, ?_⟩
      rintro o (_ | ⟨_, ho⟩)
      · exact hlt
      · exact Nat.lt_of_le_of_lt (hroute o ho) hlt
    · obtain ⟨i, hi, hle, htake, hdrop⟩ := ih hrest
      refine ⟨i + 1, ?_, Nat.succ_le_succ hle, ?_, hdrop⟩
      · rw [if_neg (by simpa using hlt), ← hi]
        cases rest.findIdx? fun other => other.prefixLen < n <;> rfl
      · rintro o (_ | ⟨_, ho⟩)
        · exact Nat.not_lt.1 hlt
        · exact htake o ho

/-- A new route stands behind all that are at least as specific, and in front of all others. -/
theorem add_eq_ok {r r' : Routes} (hw : r.WF) {route : Route} (h : r.add route = .ok r') :
    route.mask.prefixLen?.isSome ∧ r'.storage.WF ∧ ∃ front back, r.toList = front ++ back ∧
      r'.toList = front ++ route :: back ∧ (∀ o ∈ front, route.prefixLen ≤ o.prefixLen) ∧
      ∀ o ∈ back, o.prefixLen < route.prefixLen := by
  unfold add at h
  cases hk : route.mask.prefixLen? with
  | none => rw [hk] at h; cases h
  | some n =>
    have hn : route.prefixLen = n := congrArg (Option.getD · 0) hk
    rw [hk] at h
    dsimp only at h
    cases hi : r.storage.insert ((r.storage.findIdx? fun other => other.prefixLen < n).getD r.storage.size) route with
    | error f => rw [hi] at h; cases h
    | ok s =>
      rw [hi] at h
      cases h
      obtain ⟨i, he, hle, htake, hdrop⟩ := split_at_shorter hw.sorted n
      have hlen : r.toList.length = r.storage.size := hw.storage.length_toList
      rw [hlen] at he
      have hi : r.storage.insert i route = .ok s := by rw [← he]; exact hi
      obtain ⟨front, back, hl, hlength, hins⟩ := List.exists_of_modifyTailIdx (List.cons route) hle
      rw [hl, List.take_left' hlength] at htake
      rw [hl, List.drop_left' hlength] at hdrop
      refine ⟨rfl, Seq.insert_wf hw.storage hi, front, back, hl, ?_, ?_, ?_⟩
      · exact (Seq.toList_insert hw.storage hi).trans hins
      · rw [hn]; exact htake
      · rw [hn]; exact hdrop

theorem add_wf {r r' : Routes} (hw : r.WF) {route : Route} (h : r.add route = .ok r') : r'.WF := by
  obtain ⟨-, hstorage, front, back, hl, hl', hfront, hback⟩ := add_eq_ok hw h
  have hsorted := hw.sorted
  rw [hl, List.pairwise_append] at hsorted
  obtain ⟨hs₁, hs₂, hs₁₂⟩ := hsorted
  refine ⟨hstorage, ?_⟩
  rw [hl', List.pairwise_append, List.pairwise_cons]
  refine ⟨hs₁, ⟨fun o ho => Nat.le_of_lt (hback o ho), hs₂⟩, ?_⟩
  rintro o ho _ (_ | ⟨_, ho'⟩)
  · exact hfront o ho
  · exact hs₁₂ o ho _ ho'

theorem perm_add {r r' : Routes} (hw : r.WF) {route : Route} (h : r.add route = .ok r') :
    r'.toList.Perm (route :: r.toList) := by
  obtain ⟨-, -, front, back, hl, hl', -, -⟩ := add_eq_ok hw h
  rw [hl, hl']
  exact List.perm_middle

/-- A route with a mask that has no gap is added as long as there is room. -/
theorem add_of_room {r : Routes} (hw : r.WF) {route : Route} (hmask : route.mask.prefixLen?.isSome = true)
    (hroom : r.toList.length < Limits.routes) : ∃ r', r.add route = .ok r' := by
  obtain ⟨n, hn⟩ := Option.isSome_iff_exists.1 hmask
  have hlen : r.toList.length = r.storage.size := hw.storage.length_toList
  obtain ⟨i, he, hle, -, -⟩ := split_at_shorter hw.sorted n
  rw [hlen] at he hle
  have hfull : r.storage.isFull = false := beq_eq_false_iff_ne.2 (by omega)
  unfold add
  rw [hn]
  dsimp only
  rw [show (r.storage.findIdx? fun other => other.prefixLen < n).getD r.storage.size = i from he]
  unfold Seq.insert
  rw [if_neg (by omega), hfull, if_neg Bool.false_ne_true]
  exact ⟨_, rfl⟩

/-! ## Looking routes up -/

theorem lookup_mem {r : Routes} {x : Address} {route : Route} (h : r.lookup x = some route) :
    route ∈ r.toList ∧ route.contains x = true := by
  unfold lookup at h
  have hc := List.find?_some h
  exact ⟨List.mem_of_find?_eq_some h, hc⟩

theorem lookup_isSome {r : Routes} {x : Address} {route : Route} (hr : route ∈ r.toList)
    (hx : route.contains x = true) : ∃ found, r.lookup x = some found := by
  apply Option.isSome_iff_exists.1
  unfold lookup
  rw [List.find?_isSome]
  exact ⟨route, hr, hx⟩

/-- A route is found if all others that cover the destination are less specific. -/
theorem lookup_of_longest {r : Routes} (hw : r.WF) {x : Address} {route : Route} (hr : route ∈ r.toList)
    (hx : route.contains x = true)
    (hlongest : ∀ o ∈ r.toList, o.contains x = true → o = route ∨ o.prefixLen < route.prefixLen) :
    r.lookup x = some route := by
  obtain ⟨found, hfound⟩ := lookup_isSome hr hx
  obtain ⟨hm, hc⟩ := lookup_mem hfound
  rcases hlongest found hm hc with rfl | hlt
  · exact hfound
  · -- it would stand behind the route that is longer
    obtain ⟨-, front, back, hl, hfront⟩ := List.find?_eq_some_iff_append.1 hfound
    have hsorted := hw.sorted
    rw [hl] at hr hsorted
    have hroute : route ∈ back := by
      rcases List.mem_append.1 hr with hr | hr
      · have := hfront route hr
        simp [hx] at this
      · rcases List.mem_cons.1 hr with rfl | hr
        · exact absurd hlt (Nat.lt_irrefl _)
        · exact hr
    have hle := (List.pairwise_cons.1 (List.pairwise_append.1 hsorted).2.1).1 route hroute
    exact absurd hlt (Nat.not_lt.2 hle)

end Routes

end UdpStack.Ipv4
