/-
The routes of a host after any changes. The table is compared with the plain list of the routes that are
present, in the order in which they were added: for each length of the mask both list the same routes in the
same order (`Orders`). An insertion keeps this because it goes behind all routes of its length, a removal
because all routes with one mask have one length. So looking up finds, among the routes that cover the
destination, the first one added of those with the longest mask (`routes_after`).
-/
import UdpStack.Proofs.Ipv4.Routes

namespace UdpStack.Ipv4.Routes

open Bounded

/-- A call that changes the table. -/
inductive Change where
  | add (route : Route)
  | remove (net mask : Address)
  deriving Repr

/-- The answer to a change, with the route that was taken out, and the table after it. -/
def change (r : Routes) : Change → Except Fault (Option Route) × Routes
  | .add route =>
    match r.add route with
    | .error f => (.error f, r)
    | .ok r => (.ok none, r)
  | .remove net mask =>
    match r.remove net mask with
    | .error f => (.error f, r)
    | .ok (route, r) => (.ok (some route), r)

/-- The table after changes. -/
def after (changes : List Change) : Routes := changes.foldl (fun r c => (r.change c).2) empty

/-- Whether a route is to this network with this mask. -/
def isTo (net mask : Address) (route : Route) : Bool := route.net == net && route.mask == mask

/-- The routes that are present after a change, the first one added first. -/
def present (added : List Route) : Change → List Route
  | .add route =>
    if route.mask.Contiguous ∧ added.length < Limits.routes then added ++ [route] else added
  | .remove net mask => added.eraseP (isTo net mask)

/-- The routes that are present after changes, the first one added first. -/
def presentAfter (changes : List Change) : List Route := changes.foldl present []

/-! ## Single calls -/

/-- Only masks with a gap and a full table are refused. -/
theorem add_eq {r : Routes} (hw : r.WF) (route : Route) :
    (¬route.mask.Contiguous ∧ r.add route = .error .illegal) ∨
    (route.mask.Contiguous ∧ r.toList.length = Limits.routes ∧ r.add route = .error .exhausted) ∨
    (route.mask.Contiguous ∧ r.toList.length < Limits.routes ∧ ∃ r', r.add route = .ok r') := by
  rw [← Address.prefixLen?_isSome_iff]
  unfold add
  cases hn : route.mask.prefixLen? with
  | none => exact .inl ⟨nofun, rfl⟩
  | some n =>
    obtain ⟨i, hi, hle, -, -⟩ := split_at_shorter hw.sorted n
    have hlen : r.toList.length = r.storage.size := hw.storage.length_toList
    have hcap : r.storage.size ≤ Limits.routes := hw.storage.size_le
    rw [hlen] at hi hle
    change (r.storage.findIdx? fun other => other.prefixLen < n).getD r.storage.size = i at hi
    rw [hlen]
    dsimp only
    rw [hi]
    unfold Seq.insert Seq.isFull
    rw [if_neg (Nat.not_lt.2 hle)]
    by_cases hf : r.storage.size = Limits.routes
    · rw [if_pos (beq_iff_eq.2 hf)]
      exact .inr (.inl ⟨rfl, hf, rfl⟩)
    · rw [if_neg (by simpa using hf)]
      exact .inr (.inr ⟨rfl, Nat.lt_of_le_of_ne hcap hf, _, rfl⟩)

/-- A removal takes out the first route with its network and mask. -/
theorem remove_eq {r : Routes} (hw : r.WF) (net mask : Address) :
    (r.toList.find? (isTo net mask) = none ∧ r.remove net mask = .error .unreachable) ∨
    ∃ route r', r.toList.find? (isTo net mask) = some route ∧ r.remove net mask = .ok (route, r') ∧
      r'.storage.WF ∧ r'.toList = r.toList.eraseP (isTo net mask) := by
  cases hi : r.toList.findIdx? (isTo net mask) with
  | none =>
    have heq : r.remove net mask = .error .unreachable := by
      unfold remove
      rw [show r.storage.findIdx? (fun route => route.net == net && route.mask == mask) = none from hi]
    refine .inl ⟨?_, heq⟩
    rw [List.find?_eq_none]
    intro o ho
    rw [List.findIdx?_eq_none_iff.1 hi o ho]
    exact Bool.false_ne_true
  | some i =>
    obtain ⟨hlt, htrue, hbefore⟩ := List.findIdx?_eq_some_iff_getElem.1 hi
    have hfst : (r.storage.remove i).1 = some r.toList[i] :=
      (Seq.fst_remove hw.storage i).trans (List.getElem?_eq_getElem hlt)
    have hrest : (r.storage.remove i).2.toList = r.toList.eraseIdx i := Seq.toList_remove hw.storage i
    have hrestw : (r.storage.remove i).2.WF := Seq.remove_wf hw.storage i
    cases hr : r.storage.remove i with
    | mk found rest =>
      rw [hr] at hfst hrest hrestw
      obtain rfl : found = some r.toList[i] := hfst
      have heq : r.remove net mask = .ok (r.toList[i], ⟨rest⟩) := by
        unfold remove
        rw [show r.storage.findIdx? (fun route => route.net == net && route.mask == mask) = some i from hi]
        dsimp only
        rw [hr]
      refine .inr ⟨r.toList[i], ⟨rest⟩, ?_, heq, hrestw, ?_⟩
      · rw [List.find?_eq_some_iff_getElem]
        refine ⟨htrue, i, hlt, rfl, ?_⟩
        intro j hj
        rw [Bool.not_eq_true', ← Bool.not_eq_true]
        exact hbefore j hj
      · rw [List.eraseP_eq_eraseIdx, hi]
        exact hrest

theorem wf_of_eraseP {r r' : Routes} (h : r.WF) {p : Route → Bool} (hw : r'.storage.WF)
    (hr : r'.toList = r.toList.eraseP p) : r'.WF :=
  ⟨hw, hr ▸ h.sorted.sublist List.eraseP_sublist⟩

theorem remove_wf {r r' : Routes} (hw : r.WF) {net mask : Address} {route : Route}
    (h : r.remove net mask = .ok (route, r')) : r'.WF := by
  rcases remove_eq hw net mask with ⟨-, he⟩ | ⟨_, _, -, he, hstorage, hlist⟩
  · cases h.symm.trans he
  · cases h.symm.trans he
    exact wf_of_eraseP hw hstorage hlist

/-! ## The order of addition -/

/-- The table and the list of present routes agree on each length of the mask. -/
structure Orders (r : Routes) (added : List Route) : Prop where
  wf : r.WF
  same : ∀ n, (r.toList.filter fun o => o.prefixLen = n) = added.filter fun o => o.prefixLen = n

theorem orders_empty : Orders empty [] := ⟨empty_wf, fun _ => rfl⟩

theorem Orders.perm {r : Routes} {added : List Route} (h : Orders r added) : r.toList.Perm added := by
  rw [List.perm_iff_count]
  intro route
  have hcount : ∀ l : List Route,
      (l.filter fun o => o.prefixLen = route.prefixLen).count route = l.count route :=
    fun l => List.count_filter (decide_eq_true rfl)
  rw [← hcount, h.same, hcount]

/-- Behind all routes of its length a new route is behind all of them that were there. -/
theorem Orders.add {r r' : Routes} {added : List Route} (h : Orders r added) {route : Route}
    (hr : r.add route = .ok r') : Orders r' (added ++ [route]) := by
  refine ⟨add_wf h.wf hr, ?_⟩
  intro n
  obtain ⟨-, -, front, back, hl, hl', -, hback⟩ := add_eq_ok h.wf hr
  have hsame := h.same n
  rw [hl, List.filter_append] at hsame
  rw [hl', List.filter_append, List.filter_append, ← hsame, List.append_assoc]
  congr 1
  by_cases hn : route.prefixLen = n
  · -- no route of this length is behind it
    have hnone : (back.filter fun o => o.prefixLen = n) = [] := by
      rw [List.filter_eq_nil_iff]
      intro o ho
      have := hback o ho
      simp only [decide_eq_true_eq]
      omega
    rw [List.filter_cons_of_pos (by simpa using hn), List.filter_cons_of_pos (by simpa using hn), hnone]
    rfl
  · rw [List.filter_cons_of_neg (by simpa using hn), List.filter_cons_of_neg (by simpa using hn)]
    exact (List.append_nil _).symm

theorem prefixLen_of_isTo {net mask : Address} {route : Route} (h : isTo net mask route = true) :
    route.prefixLen = mask.prefixLen?.getD 0 := by
  unfold isTo at h
  rw [Bool.and_eq_true, beq_iff_eq, beq_iff_eq] at h
  rw [Route.prefixLen, h.2]

/-- All routes with one mask have one length, so others are not missed. -/
theorem filter_eraseP_isTo (net mask : Address) (n : Nat) : ∀ l : List Route,
    ((l.eraseP (isTo net mask)).filter fun o => o.prefixLen = n) =
      if mask.prefixLen?.getD 0 = n then (l.filter fun o => o.prefixLen = n).eraseP (isTo net mask)
      else l.filter fun o => o.prefixLen = n
  | [] => by simp
  | o :: l => by
    have ih := filter_eraseP_isTo net mask n l
    by_cases ho : isTo net mask o = true
    · have hlen := prefixLen_of_isTo ho
      rw [List.eraseP_cons_of_pos ho]
      split
      · rename_i hn
        rw [List.filter_cons_of_pos (by simpa [hlen] using hn), List.eraseP_cons_of_pos ho]
      · rename_i hn
        rw [List.filter_cons_of_neg (by simpa [hlen] using hn)]
    · rw [List.eraseP_cons_of_neg ho]
      by_cases hn : o.prefixLen = n
      · rw [List.filter_cons_of_pos (by simpa using hn), List.filter_cons_of_pos (by simpa using hn), ih,
          List.eraseP_cons_of_neg ho]
        split <;> rfl
      · rw [List.filter_cons_of_neg (by simpa using hn), List.filter_cons_of_neg (by simpa using hn), ih]

theorem Orders.remove {r r' : Routes} {added : List Route} (h : Orders r added) {net mask : Address}
    (hw : r'.storage.WF) (hr : r'.toList = r.toList.eraseP (isTo net mask)) :
    Orders r' (added.eraseP (isTo net mask)) := by
  constructor
  · exact wf_of_eraseP h.wf hw hr
  · intro n
    rw [hr, filter_eraseP_isTo, filter_eraseP_isTo, h.same]

/-- The first of the present routes to a network is the first one of the table. -/
theorem Orders.find?_isTo {r : Routes} {added : List Route} (h : Orders r added) (net mask : Address) :
    r.toList.find? (isTo net mask) = added.find? (isTo net mask) := by
  have hpick : ∀ l : List Route, l.find? (isTo net mask) =
      (l.filter fun o => o.prefixLen = mask.prefixLen?.getD 0).find? (isTo net mask) := by
    intro l
    rw [List.find?_filter]
    congr 1
    funext o
    by_cases ho : isTo net mask o = true
    · rw [ho, prefixLen_of_isTo ho]
      simp
    · simp [ho]
  rw [hpick, hpick added, h.same]

/-! ## Changes -/

theorem Orders.change_add {r : Routes} {added : List Route} (h : Orders r added) (route : Route) :
    (¬route.mask.Contiguous ∧ r.change (.add route) = (.error .illegal, r)) ∨
    (route.mask.Contiguous ∧ added.length = Limits.routes ∧ r.change (.add route) = (.error .exhausted, r)) ∨
    (route.mask.Contiguous ∧ added.length < Limits.routes ∧
      ∃ r', r.change (.add route) = (.ok none, r') ∧ Orders r' (added ++ [route])) := by
  rw [← h.perm.length_eq]
  unfold change
  dsimp only
  rcases add_eq h.wf route with ⟨hgap, he⟩ | ⟨hmask, hfull, he⟩ | ⟨hmask, hroom, r', he⟩
  · rw [he]
    exact .inl ⟨hgap, rfl⟩
  · rw [he]
    exact .inr (.inl ⟨hmask, hfull, rfl⟩)
  · rw [he]
    exact .inr (.inr ⟨hmask, hroom, r', rfl, h.add he⟩)

theorem Orders.change_remove {r : Routes} {added : List Route} (h : Orders r added) (net mask : Address) :
    (added.find? (isTo net mask) = none ∧ r.change (.remove net mask) = (.error .unreachable, r)) ∨
    ∃ route r', added.find? (isTo net mask) = some route ∧
      r.change (.remove net mask) = (.ok (some route), r') ∧ Orders r' (added.eraseP (isTo net mask)) := by
  rw [← h.find?_isTo]
  unfold change
  dsimp only
  rcases remove_eq h.wf net mask with ⟨hnone, he⟩ | ⟨route, r', hfound, he, hstorage, hl⟩
  · rw [he]
    exact .inl ⟨hnone, rfl⟩
  · rw [he]
    exact .inr ⟨route, r', hfound, rfl, h.remove hstorage hl⟩

/-- A change that fails leaves the table and the present routes as they were, any other changes both alike. -/
theorem Orders.change {r : Routes} {added : List Route} (h : Orders r added) (c : Change) :
    Orders (r.change c).2 (present added c) ∧
      ∀ f, (r.change c).1 = .error f → (r.change c).2 = r ∧ present added c = added := by
  cases c with
  | add route =>
    unfold present
    dsimp only
    rcases h.change_add route with ⟨hgap, he⟩ | ⟨hmask, hfull, he⟩ | ⟨hmask, hroom, r', he, hr'⟩
    · rw [he, if_neg fun hc => hgap hc.1]
      exact ⟨h, fun _ _ => ⟨rfl, rfl⟩⟩
    · rw [he, if_neg fun hc => Nat.lt_irrefl _ (hfull ▸ hc.2)]
      exact ⟨h, fun _ _ => ⟨rfl, rfl⟩⟩
    · rw [he, if_pos ⟨hmask, hroom⟩]
      exact ⟨hr', nofun⟩
  | remove net mask =>
    unfold present
    dsimp only
    rcases h.change_remove net mask with ⟨hnone, he⟩ | ⟨route, r', -, he, hr'⟩
    · rw [he, List.eraseP_of_forall_not (List.find?_eq_none.1 hnone)]
      exact ⟨h, fun _ _ => ⟨rfl, rfl⟩⟩
    · rw [he]
      exact ⟨hr', nofun⟩

theorem orders_foldl : ∀ (changes : List Change) {r : Routes} {added : List Route}, Orders r added →
    Orders (changes.foldl (fun r c => (r.change c).2) r) (changes.foldl present added)
  | [], _, _, h => h
  | c :: changes, _, _, h => orders_foldl changes (h.change c).1

theorem orders_after (changes : List Change) : Orders (after changes) (presentAfter changes) :=
  orders_foldl changes orders_empty

/-! ## Looking routes up -/

/-- No route with a longer mask covers the destination. -/
theorem lookup_longest {r : Routes} (hw : r.WF) {x : Address} {route o : Route} (h : r.lookup x = some route)
    (ho : o ∈ r.toList) (hx : o.contains x = true) : o.prefixLen ≤ route.prefixLen := by
  obtain ⟨-, front, back, hl, hfront⟩ := List.find?_eq_some_iff_append.1 h
  have hsorted := hw.sorted
  rw [hl] at ho hsorted
  rcases List.mem_append.1 ho with ho | ho
  · have := hfront o ho
    rw [hx] at this
    cases this
  · rcases List.mem_cons.1 ho with rfl | ho
    · exact Nat.le_refl _
    · exact (List.pairwise_cons.1 (List.pairwise_append.1 hsorted).2.1).1 o ho

/-- Of all routes with a mask of its length it is the first one that covers the destination. -/
theorem lookup_first {r : Routes} {x : Address} {route : Route} (h : r.lookup x = some route) :
    (r.toList.filter fun o => o.prefixLen = route.prefixLen).find? (·.contains x) = some route := by
  obtain ⟨hx, front, back, hl, hfront⟩ := List.find?_eq_some_iff_append.1 h
  rw [hl, List.filter_append, List.filter_cons_of_pos (by simp), List.find?_eq_some_iff_append]
  refine ⟨hx, _, _, rfl, ?_⟩
  intro o ho
  exact hfront o (List.mem_filter.1 ho).1

/-- After any changes the table is sorted and lists just the present routes. Looking up finds a route exactly
if one covers the destination, and then, of those with the longest mask, the first one added. Only a mask with
a gap and a full table are refused, a removal takes out the first one added to its network, and a change that
fails changes nothing. -/
theorem routes_after (changes : List Change) :
    let r := after changes
    let added := presentAfter changes
    r.toList.Pairwise (fun route other => other.prefixLen ≤ route.prefixLen) ∧
    r.toList.Perm added ∧
    (∀ x, (r.lookup x).isSome = true ↔ ∃ route ∈ added, route.contains x = true) ∧
    (∀ x route, r.lookup x = some route → route ∈ added ∧ route.contains x = true ∧
      (∀ o ∈ added, o.contains x = true → o.prefixLen ≤ route.prefixLen) ∧
      (added.filter fun o => o.prefixLen = route.prefixLen).find? (·.contains x) = some route) ∧
    (∀ route, (r.change (.add route)).1 =
      if ¬route.mask.Contiguous then .error .illegal
      else if added.length = Limits.routes then .error .exhausted
      else .ok none) ∧
    (∀ net mask, (r.change (.remove net mask)).1 =
      match added.find? (isTo net mask) with
      | none => .error .unreachable
      | some route => .ok (some route)) ∧
    ∀ c, (r.change c).2.toList.Perm (present added c) ∧
      ∀ f, (r.change c).1 = .error f → (r.change c).2 = r ∧ present added c = added := by
  intro r added
  have h : Orders r added := orders_after changes
  refine ⟨h.wf.sorted, h.perm, ?_, ?_, ?_, ?_, ?_⟩
  · intro x
    constructor
    · intro hx
      obtain ⟨route, hroute⟩ := Option.isSome_iff_exists.1 hx
      obtain ⟨hm, hc⟩ := lookup_mem hroute
      exact ⟨route, h.perm.mem_iff.1 hm, hc⟩
    · rintro ⟨route, hm, hc⟩
      exact Option.isSome_iff_exists.2 (lookup_isSome (h.perm.mem_iff.2 hm) hc)
  · intro x route hroute
    obtain ⟨hm, hc⟩ := lookup_mem hroute
    refine ⟨h.perm.mem_iff.1 hm, hc, ?_, ?_⟩
    · intro o ho hx
      exact lookup_longest h.wf hroute (h.perm.mem_iff.2 ho) hx
    · rw [← h.same]
      exact lookup_first hroute
  · intro route
    rcases h.change_add route with ⟨hgap, he⟩ | ⟨hmask, hfull, he⟩ | ⟨hmask, hroom, r', he, -⟩
    · rw [he, if_pos hgap]
    · rw [he, if_neg (not_not_intro hmask), if_pos hfull]
    · rw [he, if_neg (not_not_intro hmask), if_neg (Nat.ne_of_lt hroom)]
  · intro net mask
    rcases h.change_remove net mask with ⟨hnone, he⟩ | ⟨route, r', hfound, he, -⟩
    · rw [he, hnone]
    · rw [he, hfound]
  · intro c
    obtain ⟨hc, hfail⟩ := h.change c
    exact ⟨hc.perm, hfail⟩

/-- Two routes cover the destination alike, and the second one is found when the first one is gone. -/
example :
    let first : Route := ⟨⟨10, 0, 0, 1⟩, .netmask 8, .ethernet⟩
    let second : Route := ⟨⟨10, 9, 9, 9⟩, .netmask 8, .loopback⟩
    let changes : List Change := [.add ⟨.unspecified, .netmask 0, .udp⟩, .add first, .add second]
    (after changes).lookup ⟨10, 1, 2, 3⟩ = some first ∧
      (after (changes ++ [.remove ⟨10, 0, 0, 1⟩ (.netmask 8)])).lookup ⟨10, 1, 2, 3⟩ = some second := by
  decide +kernel

end UdpStack.Ipv4.Routes
