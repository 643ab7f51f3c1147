/-
The addresses that nobody has to be asked for. The addresses of the device itself and its mask stay the same
in every run (`device_run`), so what the table knows without asking never changes, whatever messages it
receives and whatever is entered by hand; looking such an address up changes nothing (`lookup_of_fixed`), and
no question for one is ever under way (`fixed?_of_asking`).

The own address is among them. It is answered with the own hardware address, unless it is the last address of
its own subnet: then it is taken for the broadcast address of the subnet (`own_address_answered`).
-/
import UdpStack.Proofs.Arp.Calls
import UdpStack.Proofs.Ipv4.Masks

namespace UdpStack.Arp.Table

open Bounded

/-! ## What a run leaves alone -/

/-- The addresses of the device itself, and its mask. -/
def device (t : Table) : Ethernet.Address × Ipv4.Address × Ipv4.Address := (t.hardware, t.addr, t.mask)

section Device

variable {t t' : Table}

theorem post_device (t : Table) (m : Message) : (t.post m).device = t.device := by
  obtain ⟨outbox, he⟩ := post_eq t m
  rw [he]; rfl

theorem lookedUp_device (hs : t.Stored) {x : Ipv4.Address} {task : Option Task} {now : Instant}
    {r : Except Fault Ethernet.Address} (h : LookedUp t x task now r t') : t'.device = t.device := by
  cases h with
  | settled => rfl
  | joined _ hu => rw [(wait_frame hs.waiters hu).1]; rfl
  | crowded _ hu _ =>
    obtain ⟨he, hw⟩ := wait_frame hs.waiters hu
    rw [(cancel_frame hw x task).1, he]; rfl
  | asked _ hu hv =>
    have he := (wait_frame hs.waiters hu).1
    have hve := (put_eq_ok (by rw [he]; exact hs.neighbors) hv).1
    rw [request_eq_post, post_device, hve, he]; rfl

theorem received_device (hs : t.Stored) {m : Message} {now : Instant} {w w' : Wakeups}
    (h : Received t m now w t' w') : t'.device = t.device := by
  cases h with
  | ignored => rfl
  | @learned u v _ _ he hv ht =>
    have hue := (put_eq_ok hs.neighbors he).1
    have hve := (wake_spec (by rw [hue]; exact hs.waiters) hv).1
    have hv' : v.device = t.device := by rw [hve, hue]; rfl
    rcases ht with rfl | rfl
    · exact hv'
    · rw [post_device]; exact hv'

/-- No operation changes the addresses of the device itself. -/
theorem device_kept (d : Ethernet.Address × Ipv4.Address × Ipv4.Address) :
    Kept fun t => t.Stored ∧ t.device = d where
  lookup x task now h :=
    ⟨stored_kept.lookup x task now h.1, (lookedUp_device h.1 (lookup_lookedUp _ x task now)).trans h.2⟩
  receive m now w h :=
    ⟨stored_kept.receive m now w h.1, (received_device h.1 (receive_received _ m now w)).trans h.2⟩
  expire now w h := by
    refine ⟨stored_kept.expire now w h.1, ?_⟩
    rw [expire_frame h.1.neighbors]
    exact h.2
  outgoing h := ⟨stored_kept.outgoing h.1, h.2⟩
  enter h he := by
    refine ⟨stored_kept.enter h.1 he, ?_⟩
    rw [(put_eq_ok h.1.neighbors he).1]
    exact h.2

theorem device_after (hs : t.Stored) (c : Call) : (t.after c).device = t.device :=
  ((device_kept t.device).after ⟨hs, rfl⟩ c).2

theorem device_run : ∀ (cs : List Call) {t : Table}, t.Stored → (t.run cs).device = t.device
  | [], _, _ => rfl
  | c :: cs, _, hs => (device_run cs (stored_after hs c)).trans (device_after hs c)

/-! ## Addresses that need no question -/

theorem fixed?_congr (h : t'.device = t.device) (x : Ipv4.Address) : t'.fixed? x = t.fixed? x := by
  unfold device at h
  simp only [Prod.mk.injEq] at h
  obtain ⟨hh, ha, hm⟩ := h
  unfold fixed?
  rw [hh, ha, hm]

theorem lookup_of_fixed {x : Ipv4.Address} {hardware : Ethernet.Address} (h : t.fixed? x = some hardware)
    (task : Option Task) (now : Instant) : t.lookup x task now = (.ok hardware, t) := by
  unfold lookup; rw [h]

theorem known?_of_fixed {x : Ipv4.Address} {hardware : Ethernet.Address} (h : t.fixed? x = some hardware)
    (now : Instant) : t.known? x now = some hardware := by
  unfold known?; rw [h]

/-- Setting an entry that is no question begins none. -/
theorem asking_of_put (hn : t.neighbors.WF) {x y : Ipv4.Address} {n : Neighbor} {now : Instant}
    (h : t.put y n now = .ok t') (hx : x = y → ∃ hardware, n.mapping = .resolved hardware) (ha : t'.Asking x) :
    t.Asking x := by
  obtain ⟨-, -, hy, hother⟩ := put_eq_ok hn h
  obtain ⟨retries, nextAt, e, hq⟩ := ha
  by_cases hxy : x = y
  · subst hxy
    obtain ⟨hardware, hr⟩ := hx rfl
    rw [hq] at hy
    cases hy; cases hr
  · rcases hother x hxy with he | ⟨-, he⟩
    · exact ⟨retries, nextAt, e, he ▸ hq⟩
    · rw [hq] at he; cases he

theorem asking_of_lookedUp (hs : t.Stored) {x y : Ipv4.Address} {task : Option Task} {now : Instant}
    {r : Except Fault Ethernet.Address} (h : LookedUp t y task now r t') (hx : x ≠ y) (ha : t'.Asking x) :
    t.Asking x := by
  cases h with
  | settled => exact ha
  | joined _ hu => exact (asking_of_eq (by rw [(wait_frame hs.waiters hu).1])).1 ha
  | crowded _ hu _ =>
    obtain ⟨he, hw⟩ := wait_frame hs.waiters hu
    exact (asking_of_eq (by rw [(cancel_frame hw y task).1, he])).1 ha
  | @asked u v _ hu hv =>
    have hun : u.neighbors = t.neighbors := by rw [(wait_frame hs.waiters hu).1]
    rw [request_eq_post, asking_of_eq (post_neighbors _ _)] at ha
    exact (asking_of_eq hun).1 (asking_of_put (by rw [hun]; exact hs.neighbors) hv (fun h => absurd h hx) ha)

theorem asking_of_received (hs : t.Stored) {x : Ipv4.Address} {m : Message} {now : Instant} {w w' : Wakeups}
    (h : Received t m now w t' w') (ha : t'.Asking x) : t.Asking x := by
  cases h with
  | ignored => exact ha
  | @learned u v _ _ he hv ht =>
    have hue := (put_eq_ok hs.neighbors he).1
    have hve := (wake_spec (by rw [hue]; exact hs.waiters) hv).1
    have hn : t'.neighbors = u.neighbors := by
      have : t'.neighbors = v.neighbors := by rcases ht with rfl | rfl <;> simp
      rw [this, hve]
    exact asking_of_put hs.neighbors he (fun _ => ⟨_, rfl⟩) ((asking_of_eq hn).1 ha)

theorem asking_of_expired (hs : t.Stored) {x : Ipv4.Address} {now : Instant} {w w' : Wakeups}
    (h : Expired t now w t' w') (ha : t'.Asking x) : t.Asking x := by
  obtain ⟨retries, nextAt, e, hq⟩ := ha
  have hx := h.entry x
  rw [show t'.neighbor? x = _ from hq] at hx
  split at hx
  · rename_i hd
    obtain ⟨retries', nextAt', e', hn, -⟩ := (mem_due hs.neighbors).1 hd
    exact ⟨retries', nextAt', e', hn⟩
  · exact ⟨retries, nextAt, e, hx.symm⟩

/-- No call begins a question for a fixed address. -/
theorem asking_of_after (hs : t.Stored) {c : Call} {x : Ipv4.Address} (hf : t.fixed? x ≠ none)
    (ha : (t.after c).Asking x) : t.Asking x := by
  cases c with
  | lookup y task now =>
    by_cases hx : x = y
    · subst hx
      obtain ⟨hardware, hh⟩ := Option.ne_none_iff_exists'.1 hf
      change (t.lookup x task now).2.Asking x at ha
      rwa [lookup_of_fixed hh] at ha
    · exact asking_of_lookedUp hs (lookup_lookedUp t y task now) hx ha
  | receive m now => exact asking_of_received hs (receive_received t m now .empty) ha
  | expire now => exact asking_of_expired hs (expire_expired hs.neighbors hs.waiters now .empty) ha
  | outgoing => exact ha
  | enter y hardware now =>
    cases he : t.enter y hardware now with
    | error e => rwa [after_enter_error he] at ha
    | ok u =>
      rw [after_enter_ok he] at ha
      exact asking_of_put hs.neighbors he (fun _ => ⟨_, rfl⟩) ha

end Device

/-- An address that is being asked for is not a fixed one. -/
theorem Reachable.fixed?_of_asking {allowed : Call → Prop} {t : Table} (h : Reachable allowed t)
    {x : Ipv4.Address} (ha : t.Asking x) : t.fixed? x = none := by
  induction h with
  | create hardware addr mask =>
    obtain ⟨_, _, _, hq⟩ := ha
    cases hq
  | call c h _ ih =>
    rw [fixed?_congr (device_after h.stored c)]
    by_contra hf
    exact hf (ih (asking_of_after h.stored hf ha))

/-! ## The own address -/

/-- The own address of a host is fixed: to the own hardware address, unless it is the last address of its
subnet. -/
theorem fixed?_own (hardware : Ethernet.Address) {addr : Ipv4.Address} (mask : Ipv4.Address)
    (h : addr.isUnicast = true) : (create hardware addr mask).fixed? addr =
      some (if addr.subnetBroadcast mask = addr then .broadcast else hardware) := by
  unfold Ipv4.Address.isUnicast at h
  simp only [Bool.not_eq_true', Bool.or_eq_false_iff] at h
  obtain ⟨⟨hb, hm⟩, -⟩ := h
  show (if addr.isBroadcast || addr == addr.subnetBroadcast mask then some Ethernet.Address.broadcast
    else if addr.isMulticast then some (.ofGroup addr)
    else if addr == addr then some hardware else none) = _
  rw [hb, hm]
  by_cases hs : addr.subnetBroadcast mask = addr
  · rw [if_pos hs, hs]
    simp
  · rw [if_neg hs]
    simp [Ne.symm hs]

/-- In every run of a host's table under a mask of `p` leading bits, the own address is answered without a
question and without waiting: with the own hardware address, unless all bits of the own address behind the
mask are ones. In that case it is the last address of its subnet, and the answer is the broadcast address. -/
theorem own_address_answered (hardware : Ethernet.Address) {addr : Ipv4.Address} {p : Nat} (hp : p ≤ 32)
    (ha : addr.isUnicast = true) (cs : List Call) (task : Option Task) (now : Instant) :
    let t := (create hardware addr (Ipv4.Address.netmask p)).run cs
    let answer := if addr.toWord.toNat % 2 ^ (32 - p) = 2 ^ (32 - p) - 1 then Ethernet.Address.broadcast else hardware
    t.lookup addr task now = (.ok answer, t) ∧ t.known? addr now = some answer := by
  intro t answer
  have hd : t.device = (create hardware addr (Ipv4.Address.netmask p)).device :=
    device_run cs (create_stored hardware addr _)
  have hown : (create hardware addr (Ipv4.Address.netmask p)).fixed? addr = some answer := by
    rw [fixed?_own hardware _ ha, if_congr (Ipv4.Address.subnetBroadcast_eq_self_iff addr hp) rfl rfl]
  have hf : t.fixed? addr = some answer := (fixed?_congr hd addr).trans hown
  exact ⟨lookup_of_fixed hf task now, known?_of_fixed hf now⟩

/-- A message that claims the own address changes nothing about it under a mask of 24 bits; under one of 32
bits the answer is the broadcast address. -/
theorem own_address_answered_claimed :
    let claim : Message := ⟨.reply, ⟨2, 0, 0, 0, 0, 9⟩, ⟨10, 0, 0, 1⟩, ⟨2, 0, 0, 0, 0, 1⟩, ⟨10, 0, 0, 1⟩⟩
    let t := fun p => (create ⟨2, 0, 0, 0, 0, 1⟩ ⟨10, 0, 0, 1⟩ (Ipv4.Address.netmask p)).run [.receive claim ⟨0⟩]
    (t 24).neighbor? ⟨10, 0, 0, 1⟩ = some ⟨.resolved ⟨2, 0, 0, 0, 0, 9⟩, .due ⟨60000⟩⟩ ∧
      (t 24).known? ⟨10, 0, 0, 1⟩ ⟨1⟩ = some ⟨2, 0, 0, 0, 0, 1⟩ ∧
      (t 32).known? ⟨10, 0, 0, 1⟩ ⟨1⟩ = some .broadcast := by
  intro claim t
  have h := fun {p} (hp : p ≤ 32) => (own_address_answered ⟨2, 0, 0, 0, 0, 1⟩ hp
    (show Ipv4.Address.isUnicast ⟨10, 0, 0, 1⟩ = true by decide) [.receive claim ⟨0⟩] none ⟨1⟩).2
  refine ⟨by decide +kernel, ?_, ?_⟩
  · exact (h (p := 24) (by decide)).trans (by decide +kernel)
  · exact (h (p := 32) (by decide)).trans (by decide +kernel)

/-- Not every host finds its own hardware address under its own address: with a mask of 32 bits it finds the
broadcast address. -/
theorem own_address_redirected : ¬ ∀ (hardware : Ethernet.Address) (addr : Ipv4.Address) (p : Nat),
    p ≤ 32 → addr.isUnicast = true → ∀ (cs : List Call) (task : Option Task) (now : Instant),
    (((create hardware addr (Ipv4.Address.netmask p)).run cs).lookup addr task now).1 = .ok hardware := by
  intro h
  have h' := h ⟨2, 0, 0, 0, 0, 1⟩ ⟨10, 0, 0, 1⟩ 32 (by decide) (by decide) [] none ⟨0⟩
  have hb : ((create ⟨2, 0, 0, 0, 0, 1⟩ ⟨10, 0, 0, 1⟩ (Ipv4.Address.netmask 32)).lookup ⟨10, 0, 0, 1⟩ none ⟨0⟩).1 =
      .ok .broadcast := by rfl
  rw [run_nil, hb] at h'
  cases h'

end UdpStack.Arp.Table
