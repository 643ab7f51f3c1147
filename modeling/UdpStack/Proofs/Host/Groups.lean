/-
The groups of a host. The internet layer lists each joined group once, the Ethernet layer counts the joined
groups of each hardware address, of which several groups share one. Both tables follow from the list of the
joined groups alone (`Filters`), whatever else a program calls, so a program finds itself in exactly the groups
that it joined and did not leave since (`filters_agree`). Joining changes two tables one after the other and
undoes the first change when there is no room for the second one; leaving never fails half way.
-/
import UdpStack.Proofs.Host.Assembly

namespace UdpStack.Host

open Bounded Device

variable {δ : Type}

/-! ## Joined groups -/

/-- The groups that are joined after a call. -/
def joinedBy (joined : List Ipv4.Address) : Call δ × Answer → List Ipv4.Address
  | (.join group, .result (.ok ())) => joined ++ [group]
  | (.leave group, .result (.ok ())) => joined.filter (· ≠ group)
  | _ => joined

/-- The groups that were joined by calls and not left since. -/
def joined (es : List (Call δ × Answer)) : List Ipv4.Address := es.foldl joinedBy []

theorem joined_snoc (es : List (Call δ × Answer)) (e : Call δ × Answer) :
    joined (es ++ [e]) = joinedBy (joined es) e := by
  unfold joined
  rw [List.foldl_append]
  rfl

theorem joinedBy_elsewhere (l : List Ipv4.Address) {c : Call δ} (a : Answer) (hj : ∀ g, c ≠ .join g)
    (hl : ∀ g, c ≠ .leave g) : joinedBy l (c, a) = l := by
  unfold joinedBy
  split
  · rename_i he
    cases he
    exact absurd rfl (hj _)
  · rename_i he
    cases he
    exact absurd rfl (hl _)
  · rfl

/-- How many groups have a hardware address. -/
def members (joined : List Ipv4.Address) (m : Ethernet.Address) : Nat := joined.countP fun g => .ofGroup g = m

/-- The count of a hardware address, none if no group has it. -/
def tally (joined : List Ipv4.Address) (m : Ethernet.Address) : Option UInt8 :=
  if members joined m = 0 then none else some (UInt8.ofNat (members joined m))

theorem members_pos_iff {joined : List Ipv4.Address} {m : Ethernet.Address} :
    members joined m ≠ 0 ↔ ∃ g ∈ joined, .ofGroup g = m := by
  unfold members
  rw [← Nat.pos_iff_ne_zero, List.countP_pos_iff]
  simp only [decide_eq_true_eq]

theorem members_eq_zero_iff {joined : List Ipv4.Address} {m : Ethernet.Address} :
    members joined m = 0 ↔ ∀ g ∈ joined, Ethernet.Address.ofGroup g ≠ m := by
  rw [← not_iff_not, ← ne_eq, members_pos_iff]
  push Not
  rfl

theorem members_le (joined : List Ipv4.Address) (m : Ethernet.Address) : members joined m ≤ joined.length :=
  List.countP_le_length

theorem members_snoc (joined : List Ipv4.Address) (group : Ipv4.Address) (m : Ethernet.Address) :
    members (joined ++ [group]) m = members joined m + if .ofGroup group = m then 1 else 0 := by
  unfold members
  rw [List.countP_append, List.countP_singleton]
  simp only [decide_eq_true_eq]

/-- Leaving a group takes one from its hardware address. -/
theorem members_others {joined : List Ipv4.Address} (hn : joined.Nodup) {group : Ipv4.Address}
    (hg : group ∈ joined) (m : Ethernet.Address) :
    members joined m = members (joined.filter (· ≠ group)) m + if .ofGroup group = m then 1 else 0 := by
  have herase : joined.filter (· ≠ group) = joined.erase group := by
    rw [hn.erase_eq_filter]
    exact List.filter_congr fun x _ => decide_not
  unfold members
  rw [herase, (List.perm_cons_erase hg).countP_eq, List.countP_cons]
  simp only [decide_eq_true_eq]

theorem tally_of_eq_zero {joined : List Ipv4.Address} {m : Ethernet.Address} (h : members joined m = 0) :
    tally joined m = none := if_pos h

theorem tally_of_ne_zero {joined : List Ipv4.Address} {m : Ethernet.Address} (h : members joined m ≠ 0) :
    tally joined m = some (UInt8.ofNat (members joined m)) := if_neg h

theorem tally_congr {joined joined' : List Ipv4.Address} {m : Ethernet.Address}
    (h : members joined m = members joined' m) : tally joined m = tally joined' m := by
  unfold tally
  rw [h]

/-! ## Counts of the Ethernet layer -/

section counts

variable {e : Ethernet.Endpoint} {l : List Ipv4.Address}

/-- The Ethernet layer counts these groups. -/
structure Counts (e : Ethernet.Endpoint) (l : List Ipv4.Address) : Prop where
  wf : e.groups.WF
  get? : ∀ m, e.groups.get? m = tally l m

/-- A hardware address is accepted while a group has it. -/
theorem Counts.accepts_iff (h : Counts e l) {m : Ethernet.Address} (hb : m ≠ .broadcast) (ho : m ≠ e.addr) :
    e.accepts m = true ↔ ∃ g ∈ l, .ofGroup g = m := by
  have hcontains : e.groups.contains m = true ↔ members l m ≠ 0 := by
    rw [Map.contains_eq_isSome, h.get?]
    unfold tally
    split <;> simp [*]
  have hother : (m == e.addr || m.isBroadcast) = false := by
    unfold Ethernet.Address.isBroadcast
    rw [beq_false_of_ne ho, beq_false_of_ne hb]
    rfl
  rw [← members_pos_iff, ← hcontains]
  unfold Ethernet.Endpoint.accepts
  rw [hother, Bool.false_or]

theorem ofGroup_joinable (group : Ipv4.Address) :
    (!(Ethernet.Address.ofGroup group).isMulticast || (Ethernet.Address.ofGroup group).isBroadcast) = false := by
  have hgroup : (Ethernet.Address.ofGroup group).isMulticast = true := by
    show ((1 : UInt8) &&& 1 != 0) = true
    decide
  have hsome : Ethernet.Address.ofGroup group ≠ .broadcast := by
    intro h
    cases congrArg Ethernet.Address.b h
  rw [hgroup]
  exact beq_false_of_ne hsome

/-- Only the count of one hardware address changes. -/
theorem Counts.change {groups : Map Ethernet.Address UInt8 Limits.groups} {l' : List Ipv4.Address}
    (h : Counts e l) (m : Ethernet.Address) (hw : groups.WF) (hnew : groups.get? m = tally l' m)
    (hget : ∀ x, x ≠ m → groups.get? x = e.groups.get? x) (hold : ∀ x, m ≠ x → members l x = members l' x) :
    Counts { e with groups := groups } l' := by
  refine ⟨hw, ?_⟩
  intro x
  by_cases hx : x = m
  · rw [hx]
    exact hnew
  · exact ((hget x hx).trans (h.get? x)).trans (tally_congr (hold x (Ne.symm hx)))

theorem ofNat_ne {k n : Nat} (hk : k < 256) (hn : n < 256) (h : k ≠ n) : UInt8.ofNat k ≠ UInt8.ofNat n := by
  intro he
  have := congrArg UInt8.toNat he
  rw [UInt8.toNat_ofNat_of_lt' hk, UInt8.toNat_ofNat_of_lt' hn] at this
  exact h this

theorem Counts.insert {groups : Map Ethernet.Address UInt8 Limits.groups} (h : Counts e l)
    {group : Ipv4.Address} (hk : members l (.ofGroup group) = 0)
    (hi : e.groups.insert (.ofGroup group) 1 = .ok groups) :
    Counts { e with groups := groups } (l ++ [group]) := by
  refine h.change (.ofGroup group) (Map.insert_wf h.wf hi) ?_ ?_ ?_
  · have hone : members (l ++ [group]) (.ofGroup group) = 1 := by rw [members_snoc, hk, if_pos rfl]
    rw [Map.get?_insert h.wf hi, if_pos rfl, tally_of_ne_zero (by omega), hone]
    rfl
  · intro x hx
    rw [Map.get?_insert h.wf hi, if_neg hx]
  · intro x hx
    rw [members_snoc, if_neg hx, Nat.add_zero]

theorem Counts.set (h : Counts e l) {l' : List Ipv4.Address} {group : Ipv4.Address} {count : UInt8}
    (hk : members l (.ofGroup group) ≠ 0) (hnew : tally l' (.ofGroup group) = some count)
    (hold : ∀ x, .ofGroup group ≠ x → members l x = members l' x) :
    Counts { e with groups := e.groups.set (.ofGroup group) count } l' := by
  have hc : e.groups.contains (.ofGroup group) = true := by
    rw [Map.contains_eq_isSome, h.get?, tally_of_ne_zero hk]
    rfl
  refine h.change (.ofGroup group) (Map.set_wf h.wf ..) ?_ ?_ hold
  · rw [Map.get?_set h.wf, if_pos ⟨rfl, hc⟩, hnew]
  · intro x hx
    rw [Map.get?_set h.wf, if_neg fun hx' => hx hx'.1]

/-- One more group is counted unless its hardware address is new and there is no room for it. -/
theorem Counts.join (h : Counts e l) (hlen : l.length < 255) (group : Ipv4.Address) :
    (e.groups.pairs.isFull = true ∧ members l (.ofGroup group) = 0 ∧
      e.join (.ofGroup group) = .error .exhausted) ∨
    (¬(e.groups.pairs.isFull = true ∧ members l (.ofGroup group) = 0) ∧
      ∃ groups, e.join (.ofGroup group) = .ok { e with groups := groups } ∧
        Counts { e with groups := groups } (l ++ [group])) := by
  have hget := h.get? (.ofGroup group)
  unfold Ethernet.Endpoint.join
  rw [ofGroup_joinable, if_neg Bool.false_ne_true]
  by_cases hk : members l (.ofGroup group) = 0
  · rw [tally_of_eq_zero hk] at hget
    have hc : e.groups.contains (.ofGroup group) = false := by
      rw [Map.contains_eq_isSome, hget]
      rfl
    rw [hget]
    dsimp only
    cases hi : e.groups.insert (.ofGroup group) 1 with
    | error f =>
      rcases Map.insert_eq_error hi with ⟨hc', -⟩ | ⟨-, hs, rfl⟩
      · rw [hc] at hc'
        cases hc'
      · exact .inl ⟨beq_iff_eq.2 hs, hk, rfl⟩
    | ok groups =>
      refine .inr ⟨?_, groups, rfl, h.insert hk hi⟩
      rintro ⟨hf, -⟩
      rw [Map.insert_of_full hc (beq_iff_eq.1 hf)] at hi
      cases hi
  · have hle := members_le l (.ofGroup group)
    have hsmall : UInt8.ofNat (members l (.ofGroup group)) ≠ 255 :=
      ofNat_ne (n := 255) (by omega) (by decide) (by omega)
    have hmore : members (l ++ [group]) (.ofGroup group) = members l (.ofGroup group) + 1 := by
      rw [members_snoc, if_pos rfl]
    rw [hget, tally_of_ne_zero hk]
    dsimp only
    rw [if_neg hsmall]
    refine .inr ⟨fun hz => hk hz.2, _, rfl, h.set hk ?_ ?_⟩
    · rw [tally_of_ne_zero (by omega), hmore, UInt8.ofNat_add]
      rfl
    · intro x hx
      rw [members_snoc, if_neg hx, Nat.add_zero]

/-- A joined group is taken off the count of its hardware address. -/
theorem Counts.leave (h : Counts e l) (hlen : l.length < 255) (hn : l.Nodup) {group : Ipv4.Address}
    (hg : group ∈ l) :
    ∃ groups, e.leave (.ofGroup group) = .ok { e with groups := groups } ∧
      Counts { e with groups := groups } (l.filter (· ≠ group)) := by
  have hle := members_le l (.ofGroup group)
  have hmore := members_others hn hg (.ofGroup group)
  rw [if_pos rfl] at hmore
  have hold : ∀ x, .ofGroup group ≠ x → members l x = members (l.filter (· ≠ group)) x := by
    intro x hx
    rw [members_others hn hg, if_neg hx, Nat.add_zero]
  unfold Ethernet.Endpoint.leave
  rw [h.get?, tally_of_ne_zero (by omega), hmore]
  dsimp only
  by_cases hk : members (l.filter (· ≠ group)) (.ofGroup group) = 0
  · have hone : UInt8.ofNat (members (l.filter (· ≠ group)) (.ofGroup group) + 1) = 1 := by rw [hk]; rfl
    rw [if_pos hone]
    refine ⟨_, rfl, h.change (.ofGroup group) (Map.remove_wf h.wf _) ?_ ?_ hold⟩
    · rw [Map.get?_remove h.wf, if_pos rfl, tally_of_eq_zero hk]
    · intro x hx
      rw [Map.get?_remove h.wf, if_neg hx]
  · have hone : UInt8.ofNat (members (l.filter (· ≠ group)) (.ofGroup group) + 1) ≠ 1 :=
      ofNat_ne (n := 1) (by omega) (by decide) (by omega)
    rw [if_neg hone]
    refine ⟨_, rfl, h.set (by omega) ?_ hold⟩
    rw [tally_of_ne_zero hk, UInt8.ofNat_add]
    exact congrArg some (UInt8.add_sub_cancel _ _).symm

end counts

/-! ## Both filters -/

/-- Both tables follow from the joined groups. -/
structure Filters (config : Config) (l : List Ipv4.Address) (h : Host δ) : Prop where
  addr : h.endpoint.addr = config.hardware
  incoming : h.router.incoming.WF
  addresses : h.router.incoming.toList = homeAddresses config ++ l.map fun g => (g, .ethernet)
  multicast : ∀ g ∈ l, g.isMulticast = true
  counts : Counts h.endpoint l

/-- No address that a host has from the start is a group. -/
theorem homeAddresses_isMulticast {config : Config} (hmask : config.mask.prefixLen?.isSome = true)
    (haddr : config.addr.isMulticast = false) {e : Ipv4.Address × Layer} (he : e ∈ homeAddresses config) :
    e.1.isMulticast = false := by
  have hlast := Ipv4.Address.isMulticast_subnetBroadcast hmask haddr
  unfold homeAddresses at he
  rcases List.mem_append.1 he with he | he
  · simp only [List.mem_cons, List.not_mem_nil, or_false] at he
    rcases he with rfl | rfl | rfl
    · decide
    · exact haddr
    · decide
  · split at he
    · rw [List.mem_singleton.1 he]
      exact hlast
    · cases he

section filters

variable {config : Config} {l : List Ipv4.Address} {h : Host δ}

theorem Filters.nodup (hf : Filters config l h) : l.Nodup := by
  have hn := hf.incoming.nodup
  rw [hf.addresses, List.map_append, List.map_map] at hn
  have hl : l.map ((fun e : Ipv4.Address × Layer => e.1) ∘ fun g => (g, .ethernet)) = l := List.map_id l
  rw [hl] at hn
  exact (List.nodup_append.1 hn).2.1

theorem Filters.length_lt (hf : Filters config l h) : l.length < 255 := by
  have hle := hf.incoming.pairs.size_le
  rw [← hf.incoming.pairs.length_toList] at hle
  have hlen : h.router.incoming.pairs.toList.length = _ := congrArg List.length hf.addresses
  rw [List.length_append, List.length_map] at hlen
  have hcap : Limits.incoming < 255 := by decide
  omega

/-- A group is taken through Ethernet exactly if it is joined, and through no other layer. -/
theorem Filters.get?_group (hf : Filters config l h)
    (hhome : ∀ e ∈ homeAddresses config, e.1.isMulticast = false) {x : Ipv4.Address}
    (hx : x.isMulticast = true) : h.router.incoming.get? x = if x ∈ l then some .ethernet else none := by
  apply Option.ext
  intro layer
  rw [hf.incoming.get?_eq_some_iff, hf.addresses, List.mem_append, List.mem_map]
  constructor
  · rintro (he | ⟨g, hg, he⟩)
    · have := hhome _ he
      rw [hx] at this
      cases this
    · cases he
      rw [if_pos hg]
  · intro he
    split at he
    · rename_i hl
      cases he
      exact .inr ⟨x, hl, rfl⟩
    · cases he

/-- A group that is taken out of the addresses is taken out of the joined groups. -/
theorem filter_addresses (hhome : ∀ e ∈ homeAddresses config, e.1.isMulticast = false) {x : Ipv4.Address}
    (hx : x.isMulticast = true) (l : List Ipv4.Address) :
    ((homeAddresses config ++ l.map fun g => (g, Layer.ethernet)).filter fun e => decide (e.1 ≠ x)) =
      homeAddresses config ++ (l.filter (· ≠ x)).map fun g => (g, .ethernet) := by
  have hkept : (homeAddresses config).filter (fun e => decide (e.1 ≠ x)) = homeAddresses config := by
    rw [List.filter_eq_self]
    intro e he
    refine decide_eq_true ?_
    intro hex
    have := hhome e he
    rw [hex, hx] at this
    cases this
  rw [List.filter_append, hkept, List.filter_map]
  rfl

/-- A map is known by its pairs. -/
theorem map_eq_of_toList {m m' : Map Ipv4.Address Layer Limits.incoming} (hw : m.WF) (hw' : m'.WF)
    (hl : m.toList = m'.toList) : m = m' := by
  have := Seq.WF.eq_of_toList hw.pairs hw'.pairs hl
  cases m
  cases m'
  cases this
  rfl

theorem Filters.contains_iff (hf : Filters config l h)
    (hhome : ∀ e ∈ homeAddresses config, e.1.isMulticast = false) {x : Ipv4.Address}
    (hx : x.isMulticast = true) : h.router.incoming.contains x = true ↔ x ∈ l := by
  rw [Map.contains_eq_isSome, hf.get?_group hhome hx]
  split <;> simp [*]

/-- The undone addition of a group leaves no trace. -/
theorem remove_insert {m m' : Map Ipv4.Address Layer Limits.incoming} (hw : m.WF) {x : Ipv4.Address}
    {layer : Layer} (hi : m.insert x layer = .ok m') : m'.remove x = (some layer, m) := by
  have hw' := Map.insert_wf hw hi
  have hfst : (m'.remove x).1 = some layer := by rw [Map.fst_remove hw', Map.get?_insert hw hi, if_pos rfl]
  have hsnd : (m'.remove x).2 = m := by
    apply map_eq_of_toList (Map.remove_wf hw' x) hw
    obtain ⟨hnone, hl⟩ := Map.insert_eq_ok hw hi
    have hkept : m.toList.filter (fun e => decide (e.1 ≠ x)) = m.toList := by
      rw [List.filter_eq_self]
      intro e he
      exact decide_eq_true (Map.get?_eq_none_iff.1 hnone e he)
    rw [Map.toList_remove hw', hl, List.filter_append, hkept, List.filter_cons_of_neg (by simp)]
    exact List.append_nil _
  rw [← hfst, ← hsnd]

/-- A group joins both tables, or neither of them. -/
theorem Filters.join (hf : Filters config l h)
    (hhome : ∀ e ∈ homeAddresses config, e.1.isMulticast = false) (group : Ipv4.Address) :
    ((group.isMulticast = false ∨ group ∈ l) ∧ h.join group = (.error .illegal, h)) ∨
    (group.isMulticast = true ∧ group ∉ l ∧ (h.router.incoming.pairs.isFull = true ∨
        h.endpoint.groups.pairs.isFull = true ∧ members l (.ofGroup group) = 0) ∧
      h.join group = (.error .exhausted, h)) ∨
    (group.isMulticast = true ∧ group ∉ l ∧ ¬(h.router.incoming.pairs.isFull = true ∨
        h.endpoint.groups.pairs.isFull = true ∧ members l (.ofGroup group) = 0) ∧
      ∃ h', h.join group = (.ok (), h') ∧ Filters config (l ++ [group]) h') := by
  have hadd : h.router.addIncoming group .ethernet =
      (h.router.incoming.insert group .ethernet).map fun m => { h.router with incoming := m } := rfl
  unfold Host.join
  cases hm : group.isMulticast with
  | false => exact .inl ⟨.inl rfl, rfl⟩
  | true =>
    rw [hadd, Bool.not_true, if_neg Bool.false_ne_true]
    cases hi : h.router.incoming.insert group .ethernet with
    | error f =>
      rcases Map.insert_eq_error hi with ⟨hc, rfl⟩ | ⟨hc, hs, rfl⟩
      · exact .inl ⟨.inr ((hf.contains_iff hhome hm).1 hc), rfl⟩
      · have hg : group ∉ l := fun hg => by rw [(hf.contains_iff hhome hm).2 hg] at hc; cases hc
        exact .inr (.inl ⟨rfl, hg, .inl (beq_iff_eq.2 hs), rfl⟩)
    | ok m =>
      obtain ⟨hnone, hl⟩ := Map.insert_eq_ok hf.incoming hi
      have hg : group ∉ l := by
        intro hg
        rw [hf.get?_group hhome hm, if_pos hg] at hnone
        cases hnone
      have hroom : h.router.incoming.pairs.isFull ≠ true := by
        intro hfull
        have hc : h.router.incoming.contains group = false := by rw [Map.contains_eq_isSome, hnone]; rfl
        rw [Map.insert_of_full hc (beq_iff_eq.1 hfull)] at hi
        cases hi
      dsimp only [Except.map]
      rcases hf.counts.join hf.length_lt group with ⟨hfull, hk, he⟩ | ⟨hfits, groups, he, hcounts⟩
      · -- the address is taken out again
        have hremove : Ipv4.Router.removeIncoming { h.router with incoming := m } group =
            .ok (.ethernet, h.router) := by
          unfold Ipv4.Router.removeIncoming
          rw [remove_insert hf.incoming hi]
        rw [he]
        dsimp only
        rw [hremove]
        exact .inr (.inl ⟨rfl, hg, .inr ⟨hfull, hk⟩, rfl⟩)
      · rw [he]
        refine .inr (.inr ⟨rfl, hg, ?_, _, rfl, hf.addr, Map.insert_wf hf.incoming hi, ?_, ?_, hcounts⟩)
        · rintro (hfull | hfull)
          · exact hroom hfull
          · exact hfits hfull
        · rw [List.map_append, ← List.append_assoc, ← hf.addresses]
          exact hl
        · intro g hgl
          rcases List.mem_append.1 hgl with hgl | hgl
          · exact hf.multicast g hgl
          · rw [List.mem_singleton.1 hgl]
            exact hm

/-- A joined group leaves both tables. -/
theorem Filters.leave (hf : Filters config l h)
    (hhome : ∀ e ∈ homeAddresses config, e.1.isMulticast = false) (group : Ipv4.Address) :
    ((group.isMulticast = false ∨ group ∉ l) ∧ ∃ f, h.leave group = (.error f, h)) ∨
    (group.isMulticast = true ∧ group ∈ l ∧
      ∃ h', h.leave group = (.ok (), h') ∧ Filters config (l.filter (· ≠ group)) h') := by
  unfold Host.leave
  cases hm : group.isMulticast with
  | false => exact .inl ⟨.inl rfl, _, rfl⟩
  | true =>
    have hget := hf.get?_group hhome hm
    rw [Bool.not_true, if_neg Bool.false_ne_true]
    unfold Ipv4.Router.removeIncoming
    by_cases hg : group ∈ l
    · rw [if_pos hg] at hget
      have hfst := (Map.fst_remove hf.incoming group).trans hget
      have hwf := Map.remove_wf hf.incoming group
      have hrest := Map.toList_remove hf.incoming group
      obtain ⟨groups, he, hcounts⟩ := hf.counts.leave hf.length_lt hf.nodup hg
      cases hr : h.router.incoming.remove group with
      | mk found rest =>
        rw [hr] at hfst hwf hrest
        obtain rfl : found = some .ethernet := hfst
        dsimp only
        rw [he]
        refine .inr ⟨rfl, hg, _, rfl, hf.addr, hwf, ?_, ?_, hcounts⟩
        · rw [hf.addresses, filter_addresses hhome hm] at hrest
          exact hrest
        · intro g hgl
          exact hf.multicast g (List.mem_filter.1 hgl).1
    · rw [if_neg hg] at hget
      rw [Map.remove_of_none hget]
      exact .inl ⟨.inr hg, _, rfl⟩

/-- Through Ethernet the internet layer takes just the joined groups. -/
theorem Filters.router_accepts_iff (hf : Filters config l h)
    (hhome : ∀ e ∈ homeAddresses config, e.1.isMulticast = false) {x : Ipv4.Address}
    (hx : x.isMulticast = true) : h.router.accepts x .ethernet = true ↔ x ∈ l := by
  unfold Ipv4.Router.accepts
  rw [hf.get?_group hhome hx, beq_iff_eq]
  split <;> simp [*]

theorem Filters.join_fails_iff (hf : Filters config l h)
    (hhome : ∀ e ∈ homeAddresses config, e.1.isMulticast = false) (x : Ipv4.Address) :
    (∃ f, (h.join x).1 = .error f) ↔ x.isMulticast = false ∨ x ∈ l ∨ h.router.incoming.pairs.isFull = true ∨
      h.endpoint.groups.pairs.isFull = true ∧ members l (.ofGroup x) = 0 := by
  rcases hf.join hhome x with ⟨hx, he⟩ | ⟨-, -, hfull, he⟩ | ⟨hm, hx, hroom, h', he, -⟩
  · rw [he]
    exact ⟨fun _ => hx.imp_right .inl, fun _ => ⟨_, rfl⟩⟩
  · rw [he]
    exact ⟨fun _ => .inr (.inr hfull), fun _ => ⟨_, rfl⟩⟩
  · rw [he, hm]
    constructor
    · rintro ⟨f, hf⟩
      cases hf
    · rintro (hx' | hx' | hfull)
      · cases hx'
      · exact absurd hx' hx
      · exact absurd hfull hroom

theorem Filters.leave_fails_iff (hf : Filters config l h)
    (hhome : ∀ e ∈ homeAddresses config, e.1.isMulticast = false) (x : Ipv4.Address) :
    (∃ f, (h.leave x).1 = .error f) ↔ x.isMulticast = false ∨ x ∉ l := by
  rcases hf.leave hhome x with ⟨hx, f, he⟩ | ⟨hm, hx, h', he, -⟩
  · rw [he]
    exact ⟨fun _ => hx, fun _ => ⟨f, rfl⟩⟩
  · rw [he, hm]
    constructor
    · rintro ⟨f, hf⟩
      cases hf
    · rintro (hx' | hx')
      · cases hx'
      · exact absurd hx hx'

theorem Filters.unchanged_of_join_error (hf : Filters config l h)
    (hhome : ∀ e ∈ homeAddresses config, e.1.isMulticast = false) {x : Ipv4.Address} {f : Fault}
    (e : (h.join x).1 = .error f) : (h.join x).2 = h := by
  rcases hf.join hhome x with ⟨-, he⟩ | ⟨-, -, -, he⟩ | ⟨-, -, -, h', he, -⟩
  · rw [he]
  · rw [he]
  · rw [he] at e
    cases e

theorem Filters.unchanged_of_leave_error (hf : Filters config l h)
    (hhome : ∀ e ∈ homeAddresses config, e.1.isMulticast = false) {x : Ipv4.Address} {f : Fault}
    (e : (h.leave x).1 = .error f) : (h.leave x).2 = h := by
  rcases hf.leave hhome x with ⟨-, f, he⟩ | ⟨-, -, h', he, -⟩
  · rw [he]
  · rw [he] at e
    cases e

/-- The hardware address of each group has the number of groups that share it. -/
theorem Filters.count_eq (hf : Filters config l h) (m : Ethernet.Address) :
    ((h.endpoint.groups.get? m).map (·.toNat)).getD 0 = members l m := by
  have hle := members_le l m
  have hlt := hf.length_lt
  rw [hf.counts.get?]
  unfold tally
  split
  · rename_i hz
    exact hz.symm
  · exact UInt8.toNat_ofNat_of_lt' (by show _ < 256; omega)

/-- Neither addresses nor counts differ. -/
theorem Filters.elsewhere {h' : Host δ} (hf : Filters config l h)
    (ha : h'.endpoint.addr = h.endpoint.addr) (hi : h'.router.incoming = h.router.incoming)
    (hg : h'.endpoint.groups = h.endpoint.groups) : Filters config l h' :=
  ⟨ha.trans hf.addr, by rw [hi]; exact hf.incoming, by rw [hi]; exact hf.addresses, hf.multicast,
    by rw [hg]; exact hf.counts.wf, by rw [hg]; exact hf.counts.get?⟩

end filters

/-! ## Calls -/

/-- Only joining and leaving are about the filters. -/
theorem filters_untouched [Nic δ] {h h' : Host δ} (ha : h.setup.Agree) {c : Call δ} {a : Answer}
    (hj : ∀ g, c ≠ .join g) (hl : ∀ g, c ≠ .leave g) (e : h.perform c = some (a, h')) :
    h'.endpoint.addr = h.endpoint.addr ∧ h'.router.incoming = h.router.incoming ∧
      h'.endpoint.groups = h.endpoint.groups := by
  cases effect_perform ha e with
  | send hx =>
    have hu := setup_send hx
    exact ⟨congrArg Setup.addr hu, congrArg Setup.incoming hu, congrArg Setup.groups hu⟩
  | poll hx =>
    have hu := setup_poll hx
    exact ⟨congrArg Setup.addr hu, congrArg Setup.incoming hu, congrArg Setup.groups hu⟩
  | @join group => exact absurd rfl (hj group)
  | @leave group => exact absurd rfl (hl group)
  | same _ => exact ⟨rfl, rfl, rfl⟩
  | acquire _ => exact ⟨rfl, rfl, rfl⟩
  | release _ => exact ⟨rfl, rfl, rfl⟩
  | releaseBound _ _ => exact ⟨rfl, rfl, rfl⟩
  | bind _ _ _ => exact ⟨rfl, rfl, rfl⟩
  | unbind _ _ => exact ⟨rfl, rfl, rfl⟩
  | recv _ _ => exact ⟨rfl, rfl, rfl⟩
  | cancel _ => exact ⟨rfl, rfl, rfl⟩
  | routes _ _ => exact ⟨rfl, rfl, rfl⟩
  | device _ => exact ⟨rfl, rfl, rfl⟩
  | fill _ _ => exact ⟨rfl, rfl, rfl⟩
  | resolver _ => exact ⟨rfl, rfl, rfl⟩

theorem filters_perform [Nic δ] {config : Config} (hhome : ∀ e ∈ homeAddresses config, e.1.isMulticast = false)
    {l : List Ipv4.Address} {h h' : Host δ} (ha : h.setup.Agree) (hf : Filters config l h) {c : Call δ}
    {a : Answer} (e : h.perform c = some (a, h')) : Filters config (joinedBy l (c, a)) h' := by
  by_cases hj : ∃ group, c = .join group
  · obtain ⟨group, rfl⟩ := hj
    cases e
    rcases hf.join hhome group with ⟨-, he⟩ | ⟨-, -, -, he⟩ | ⟨-, -, -, h', he, hf'⟩
    · rw [he]; exact hf
    · rw [he]; exact hf
    · rw [he]; exact hf'
  by_cases hl : ∃ group, c = .leave group
  · obtain ⟨group, rfl⟩ := hl
    cases e
    rcases hf.leave hhome group with ⟨-, f, he⟩ | ⟨-, -, h', he, hf'⟩
    · rw [he]; exact hf
    · rw [he]; exact hf'
  have hj : ∀ g, c ≠ .join g := fun g hc => hj ⟨g, hc⟩
  have hl : ∀ g, c ≠ .leave g := fun g hc => hl ⟨g, hc⟩
  obtain ⟨haddr, hi, hg⟩ := filters_untouched ha hj hl e
  rw [joinedBy_elsewhere l a hj hl]
  exact hf.elsewhere haddr hi hg

theorem filters_create [Nic δ] {d : δ} {config : Config} {h : Host δ} (e : create d config = .ok h) :
    Filters config [] h := by
  obtain ⟨endpoint, router, he, hr, rfl⟩ := create_eq_ok e
  obtain ⟨haddr, -, -, -, hgroups⟩ := newEndpoint_eq_ok he
  obtain ⟨-, hequipped⟩ := newRouter_eq_ok hr
  refine ⟨haddr, hequipped.incoming, hequipped.addresses.trans (List.append_nil _).symm, nofun, ?_, ?_⟩
  · show endpoint.groups.WF
    rw [hgroups]
    exact Map.empty_wf
  · intro m
    show endpoint.groups.get? m = none
    rw [hgroups]
    rfl

theorem home_of_create [Nic δ] {d : δ} {config : Config} {h : Host δ} (e : create d config = .ok h)
    (haddr : config.addr.isMulticast = false) : ∀ x ∈ homeAddresses config, x.1.isMulticast = false := by
  obtain ⟨_, router, -, hr, -⟩ := create_eq_ok e
  obtain ⟨hmask, -⟩ := newRouter_eq_ok hr
  exact fun x hx => homeAddresses_isMulticast hmask haddr hx

theorem filters_run [Nic δ] {d : δ} {config : Config} {h g : Host δ} (e : create d config = .ok h)
    (haddr : config.addr.isMulticast = false) {es : List (Call δ × Answer)}
    (hr : Run (fun _ _ => True) h es g) : Filters config (joined es) g := by
  induction hr with
  | nil => exact filters_create e
  | snoc hr _ hc ih =>
    have ha := hr.keeps (fun hp _ hc => agree_perform hp hc) (agree_create e)
    rw [joined_snoc]
    exact filters_perform (home_of_create e haddr) ha ih hc

/-- A host whose own address is no group is in just the groups that were joined and not left since: the internet
layer takes these groups through Ethernet, and the Ethernet layer takes, besides its own and the broadcast
address, the hardware addresses of these groups and counts the groups of each. Joining is refused for other
addresses, for joined groups and where a table that needs a further entry is full, leaving for other addresses
and for groups that are not joined. What is refused changes nothing. -/
theorem filters_agree [Nic δ] {d : δ} {config : Config} {h g : Host δ} {es : List (Call δ × Answer)}
    (hd : create d config = .ok h) (haddr : config.addr.isMulticast = false)
    (hr : Run (fun _ _ => True) h es g) :
    (joined es).Nodup ∧
    (∀ x, x.isMulticast = true → (g.router.accepts x .ethernet = true ↔ x ∈ joined es)) ∧
    (∀ m, m ≠ .broadcast → m ≠ config.hardware →
      (g.endpoint.accepts m = true ↔ ∃ x ∈ joined es, .ofGroup x = m)) ∧
    (∀ m, ((g.endpoint.groups.get? m).map (·.toNat)).getD 0 = (joined es).countP fun x => .ofGroup x = m) ∧
    (∀ x, (∃ f, (g.join x).1 = .error f) ↔ x.isMulticast = false ∨ x ∈ joined es ∨
      g.router.incoming.pairs.isFull = true ∨
      g.endpoint.groups.pairs.isFull = true ∧ ∀ y ∈ joined es, Ethernet.Address.ofGroup y ≠ .ofGroup x) ∧
    (∀ x, (∃ f, (g.leave x).1 = .error f) ↔ x.isMulticast = false ∨ x ∉ joined es) ∧
    ∀ x f, ((g.join x).1 = .error f → (g.join x).2 = g) ∧ ((g.leave x).1 = .error f → (g.leave x).2 = g) := by
  have hf := filters_run hd haddr hr
  have hhome := home_of_create hd haddr
  refine ⟨hf.nodup, fun x hx => hf.router_accepts_iff hhome hx,
    fun m hb ho => hf.counts.accepts_iff hb (by rw [hf.addr]; exact ho), hf.count_eq, ?_,
    hf.leave_fails_iff hhome, ?_⟩
  · intro x
    rw [← members_eq_zero_iff]
    exact hf.join_fails_iff hhome x
  · intro x f
    exact ⟨hf.unchanged_of_join_error hhome, hf.unchanged_of_leave_error hhome⟩

theorem filters_agree_shared : ∃ g : Host (Device.Loopback 1),
    g.router.accepts ⟨225, 1, 2, 3⟩ .ethernet = true ∧ g.router.accepts ⟨224, 1, 2, 3⟩ .ethernet = false ∧
      g.endpoint.accepts (.ofGroup ⟨224, 1, 2, 3⟩) = true ∧
      ∃ f, g.join ⟨225, 1, 2, 3⟩ = (.error f, g) := by
  have hx : (do
      let h ← (create (Device.Loopback.create 1 {}) (.create ⟨10, 0, 0, 1⟩ ⟨255, 255, 255, 0⟩)).toOption
      let (es, _) ← h.performAll [.join ⟨224, 1, 2, 3⟩, .join ⟨225, 1, 2, 3⟩, .join ⟨224, 1, 2, 3⟩,
        .leave ⟨224, 1, 2, 3⟩]
      pure (joined es)) = some [⟨225, 1, 2, 3⟩] := by decide +kernel
  obtain ⟨h, hd, hx⟩ := Option.bind_eq_some_iff.1 hx
  obtain ⟨⟨es, g⟩, hr, hx⟩ := Option.bind_eq_some_iff.1 hx
  have hl : joined es = [⟨225, 1, 2, 3⟩] := Option.some.inj hx
  have hrun : Run (fun _ _ => True) h es g := run_performAll _ .nil (by simp) hr
  obtain ⟨-, hrouter, hendpoint, -, hjoin, -, hsame⟩ := filters_agree (eq_ok_of_toOption hd) (by decide) hrun
  rw [hl] at hrouter hendpoint hjoin
  refine ⟨g, (hrouter _ (by decide)).2 (by decide), ?_, ?_, ?_⟩
  · rw [← Bool.not_eq_true, hrouter _ (by decide)]
    decide
  · exact (hendpoint _ (by decide) (by decide)).2 ⟨_, List.mem_singleton_self _, by decide⟩
  · obtain ⟨f, hf⟩ := (hjoin ⟨225, 1, 2, 3⟩).2 (.inr (.inl (List.mem_singleton_self _)))
    exact ⟨f, Prod.ext hf ((hsame _ f).1 hf)⟩

end UdpStack.Host
