/-
How many layers a packet visits. A pass that nobody guards, on its way up (`Climbs`) or down (`Descends`), goes on
until a layer ends it; which layer is next is up to the tables and routes of the host. Whatever these name, with
every step of an assembled host the number of layers that are still ahead falls (`ascent`, `descent`): nothing but
the ports leads to the internet layer, and the ports take no packet that has headers from below them. So every pass
ends by itself (`climbs_total`, `descends_total`), and one that gets through goes nowhere but down
(`Descends.falls`).
-/
import UdpStack.Proofs.Host.Demands

namespace UdpStack.Host

open Bounded Device

variable {δ : Type}

/-! ## Passes without a guard -/

/-- A packet is received by layer after layer until one of them ends the pass. -/
inductive Climbs : Host δ → Transit → (layer caller : Layer) → List Layer → Except Fault Unit × Host δ × Transit →
    Prop where
  | refused {h g : Host δ} {t u : Transit} {layer caller : Layer} {f : Fault} :
      h.receiveAt layer caller t = some (.error f, g, u) →
      Climbs h t layer caller [layer] (.error f, g.count layer .countDropped, u)
  | ended {h g : Host δ} {t u : Transit} {layer caller : Layer} :
      h.receiveAt layer caller t = some (.ok .done, g, u) →
      Climbs h t layer caller [layer] (.ok (), g.count layer .countRx, u)
  | passed {h g : Host δ} {t u : Transit} {layer caller upper : Layer} {layers : List Layer}
      {x : Except Fault Unit × Host δ × Transit} :
      h.receiveAt layer caller t = some (.ok (.layer upper), g, u) →
      Climbs (g.count layer .countRx) u upper layer layers x → Climbs h t layer caller (layer :: layers) x

/-- Headers are stacked by layer after layer until one of them ends the pass. -/
inductive Descends [Nic δ] : Host δ → Transit → (layer caller : Layer) → List Layer →
    Except Fault (List (Layer × Layer)) × Host δ × Transit → Prop where
  | waiting {h g : Host δ} {t u : Transit} {layer caller : Layer} :
      h.transmitAt layer caller t = some (.error .wouldBlock, g, u) →
      Descends h t layer caller [layer] (.error .wouldBlock, g, u)
  | refused {h g : Host δ} {t u : Transit} {layer caller : Layer} {f : Fault} :
      h.transmitAt layer caller t = some (.error f, g, u) → f ≠ .wouldBlock →
      Descends h t layer caller [layer] (.error f, g.count layer .countDropped, u)
  | ended {h g : Host δ} {t u : Transit} {layer caller : Layer} :
      h.transmitAt layer caller t = some (.ok .done, g, u) →
      Descends h t layer caller [layer] (.ok [(layer, caller)], g, u)
  | passed {h g : Host δ} {t u : Transit} {layer caller lower : Layer} {layers : List Layer}
      {x : Except Fault (List (Layer × Layer)) × Host δ × Transit} :
      h.transmitAt layer caller t = some (.ok (.layer lower), g, u) → Descends g u lower layer layers x →
      Descends h t layer caller (layer :: layers) (along [(layer, caller)] x)

/-- A guard that leaves room for all layers of a pass does not change it. -/
theorem Climbs.receive {h : Host δ} {t : Transit} {layer caller : Layer} {layers : List Layer}
    {x : Except Fault Unit × Host δ × Transit} (hc : Climbs h t layer caller layers x) :
    ∀ {depth : Nat}, layers.length ≤ depth → h.receive t depth layer caller = some x := by
  induction hc with
  | refused e =>
    rintro (_ | depth) hl
    · exact absurd hl (Nat.not_succ_le_zero _)
    · unfold Host.receive; rw [e]
  | ended e =>
    rintro (_ | depth) hl
    · exact absurd hl (Nat.not_succ_le_zero _)
    · unfold Host.receive; rw [e]
  | passed e _ ih =>
    rintro (_ | depth) hl
    · exact absurd hl (Nat.not_succ_le_zero _)
    · rw [receive_of_layer e depth]
      exact ih (Nat.le_of_succ_le_succ hl)

section down

variable [Nic δ] {h : Host δ} {t : Transit} {layer caller : Layer} {layers : List Layer}

theorem Descends.descend {x : Except Fault (List (Layer × Layer)) × Host δ × Transit}
    (hd : Descends h t layer caller layers x) :
    ∀ {depth : Nat}, layers.length ≤ depth → h.descend t depth layer caller = some x := by
  induction hd with
  | waiting e =>
    rintro (_ | depth) hl
    · exact absurd hl (Nat.not_succ_le_zero _)
    · unfold Host.descend; rw [e]
  | @refused _ _ _ _ _ _ f e hf =>
    rintro (_ | depth) hl
    · exact absurd hl (Nat.not_succ_le_zero _)
    · unfold Host.descend; rw [e]
      cases f <;> first | rfl | exact absurd rfl hf
  | ended e =>
    rintro (_ | depth) hl
    · exact absurd hl (Nat.not_succ_le_zero _)
    · unfold Host.descend; rw [e]
  | passed e _ ih =>
    rintro (_ | depth) hl
    · exact absurd hl (Nat.not_succ_le_zero _)
    · rw [descend_of_layer e depth, ih (Nat.le_of_succ_le_succ hl), Option.map_some]

end down

/-! ## The way up -/

/-- The number of layers that a packet visits at most from a layer upwards. -/
def ascent : Layer → Nat
  | .ethernet => 4
  | .ipv4 => 3
  | .udp => 2
  | _ => 1

theorem ascent_pos (layer : Layer) : 0 < ascent layer := by
  unfold ascent; split <;> decide

theorem ascent_le (layer : Layer) : ascent layer ≤ 4 := by
  unfold ascent; split <;> decide

/-- Whom a layer hands a received packet to. -/
inductive Above : (layer upper : Layer) → Prop where
  | internet : Above .ethernet .ipv4
  | resolver : Above .ethernet .resolver
  | ports : Above .ipv4 .udp
  | socket {s : Handle} : Above .udp (.socket s)

theorem Above.ascent_lt {layer upper : Layer} (ha : Above layer upper) : ascent upper < ascent layer := by
  cases ha with
  | socket => exact Nat.one_lt_two
  | _ => decide

/-- Every layer that hands a packet on is above the one that it came from, whatever the tables name. -/
theorem above_receiveAt {manual : Bool} {h g : Host δ} (ha : h.setup.Assembled manual) (hg : h.setup.Agree)
    {t u : Transit} {w : Octets} (hu : t.packet.unread? = some w) {layer caller upper : Layer}
    (e : h.receiveAt layer caller t = some (.ok (.layer upper), g, u)) : Above layer upper := by
  cases layer with
  | ethernet =>
    rw [receiveAt_ethernet] at e
    rcases Ethernet.Endpoint.receivePass_cases (e := h.endpoint) hu with ⟨_, p, ht, hr, -, -⟩ | ⟨r, _, hr, hn, -⟩
    · rw [hr] at e
      cases e
      rcases (etherTypes_get?_iff ha _ upper).1 ht.content with ⟨-, rfl⟩ | ⟨-, -, rfl⟩
      · exact .internet
      · exact .resolver
    · rw [hr] at e
      cases e
      exact absurd rfl (hn upper)
  | resolver =>
    rw [receiveAt_resolver] at e
    obtain ⟨⟨next, r, w⟩, hx, he⟩ := Option.map_eq_some_iff.1 e
    cases he
    exact absurd rfl (resolver_receivePass_ends hx upper)
  | ipv4 =>
    rw [receiveAt_ipv4] at e
    rcases Ipv4.Router.receivePass_cases (r := h.router) hu caller with ⟨_, p, ht, hr, -, -⟩ | ⟨f, _, hr, -⟩
    · rw [hr] at e
      cases e
      obtain ⟨-, rfl⟩ := (protocols_get?_iff ha _ upper).1 ht.content
      exact .ports
    · rw [hr] at e
      cases e
  | udp =>
    rw [receiveAt_udp] at e
    rcases Udp.Ports.receivePass_cases (u := h.ports) hu with ⟨_, p, ht, hr, -, -⟩ | ⟨f, _, hr, -⟩
    · rw [hr] at e
      cases e
      obtain ⟨s, b, rfl, -, -⟩ := (hg.agree _ upper).1 ht.port
      exact .socket
    · rw [hr] at e
      cases e
  | socket s =>
    unfold receiveAt at e
    dsimp only at e
    split at e
    · cases e
    · rename_i socket _
      exact absurd (Prod.mk.inj (Option.some.inj e)).1 (socket.receivePass_ends t h.wakeups upper)
  | device => cases e
  | loopback => cases e
  | user => cases e

theorem setup_receiveAt {h g : Host δ} {layer caller : Layer} {t u : Transit} {r : Except Fault Next}
    (e : h.receiveAt layer caller t = some (r, g, u)) : g.setup = h.setup := by
  rcases receiveAt_cases e with rfl | ⟨_, _, _, -, -, rfl⟩ | ⟨s, socket, -, hs, rfl⟩
  · rfl
  · rfl
  · exact setup_handed t hs

/-- A packet that is received comes to an end by itself. -/
theorem climbs_total {manual : Bool} {s : Setup} (ha : s.Assembled manual) (hg : s.Agree) : ∀ (n : Nat) {h : Host δ}
    {t : Transit} {w : Octets} {layer : Layer} (caller : Layer), h.setup = s → t.packet.unread? = some w →
    ascent layer ≤ n → ∃ layers x, Climbs h t layer caller layers x ∧ layers.length ≤ ascent layer
  | 0, _, _, _, layer, _, _, _, hn => absurd hn (Nat.not_le.2 (ascent_pos layer))
  | n + 1, h, t, w, layer, caller, hs, hu, hn => by
    obtain ⟨r, g, u, he, hnext⟩ := receiveAt_total h layer caller hu
    rcases r with f | upper | _
    · exact ⟨_, _, .refused he, ascent_pos layer⟩
    · obtain ⟨w', hu'⟩ := hnext upper rfl
      have hlt := (above_receiveAt (by rw [hs]; exact ha) (by rw [hs]; exact hg) hu he).ascent_lt
      have hs' : (g.count layer .countRx).setup = s :=
        (setup_count ..).trans ((setup_receiveAt he).trans hs)
      have hn' : ascent upper ≤ n := by omega
      obtain ⟨layers, x, hc, hl⟩ := climbs_total ha hg n layer hs' hu' hn'
      exact ⟨_, _, .passed he hc, by rw [List.length_cons]; omega⟩
    · exact ⟨_, _, .ended he, ascent_pos layer⟩

/-! ## The way down -/

/-- How a packet goes on behind a layer that lets it through. It leaves the internet layer with headers. -/
inductive Leads (t u : Transit) : (layer caller : Layer) → Next → Prop where
  | sent {caller : Layer} : Leads t u .device caller .done
  | turned {caller : Layer} : Leads t u .loopback caller .done
  | framed {caller : Layer} : Leads t u .ethernet caller (.layer .device)
  | bound {s : Handle} {caller : Layer} : u.packet = t.packet → Leads t u (.socket s) caller (.layer .udp)
  | ported {caller : Layer} : t.packet.headerLen = 0 → Leads t u .udp caller (.layer .ipv4)
  | routed {lower : Layer} : u.packet.headerLen ≠ 0 → Leads t u .ipv4 .udp (.layer lower)

theorem headerLen_pushHeader {p q : Packet} {data : Octets} (hp : p.InOrder) (hd : 0 < data.length)
    (h : p.pushHeader data = .ok q) : q.headerLen ≠ 0 := by
  obtain ⟨hle, rfl⟩ := Packet.pushHeader_eq_ok h
  have := hp.header_le
  show p.boundary - (p.header - data.length) ≠ 0
  omega

/-- Only what the ports send goes through the internet layer, and it goes on with a header. -/
theorem leads_router {manual : Bool} {h : Host δ} (ha : h.setup.Assembled manual) {t : Transit}
    (hp : t.packet.InOrder) {caller : Layer} {next : Next} (e : (h.router.transmitPass t caller).1 = .ok next) :
    Leads t (h.router.transmitPass t caller).2.2 .ipv4 caller next := by
  unfold Ipv4.Router.transmitPass at e ⊢
  split at e
  · cases e
  · rename_i protocol hk
    have hc := Map.mem_of_keyOf? hk
    rw [show h.router.protocols.toList = [(.udp, .udp)] from ha.protocol] at hc
    cases List.mem_singleton.1 hc
    split at e
    · cases e
    · dsimp only at e ⊢
      split at e
      · cases e
      · rename_i hfit
        rw [if_neg hfit]
        split at e
        · cases e
        · rename_i p hq
          cases e
          exact .routed (headerLen_pushHeader hp (by rw [Ipv4.Router.length_sealedHeader]; decide) hq)

/-- The ports take only a payload without headers, and send it through the internet layer. -/
theorem leads_ports {manual : Bool} {h : Host δ} (ha : h.setup.Assembled manual) {t u : Transit}
    {caller : Layer} {next : Next} (e : (h.ports.transmitPass t caller).1 = .ok next) :
    Leads t u .udp caller next := by
  unfold Udp.Ports.transmitPass at e
  split at e
  · cases e
  · rename_i hlen
    split at e
    · cases e
    · dsimp only at e
      split at e
      · cases e
      · split at e
        · cases e
        · cases e
          rw [show h.ports.lower = .ipv4 from ha.lower]
          exact .ported (by simpa using hlen)

variable [Nic δ]

/-- A layer lets a packet through in one of these ways, or refuses it. -/
theorem leads_transmitAt {manual : Bool} {h g : Host δ} (ha : h.setup.Assembled manual) {t u : Transit}
    (hp : t.packet.InOrder) {layer caller : Layer} {next : Next}
    (e : h.transmitAt layer caller t = some (.ok next, g, u)) : Leads t u layer caller next := by
  cases layer with
  | device =>
    obtain ⟨_, hx, he⟩ := Option.map_eq_some_iff.1 e
    cases he
    obtain ⟨frame, -, hf⟩ := Option.map_eq_some_iff.1 hx
    split at hf
    · cases hf
    · cases hf
      exact .sent
  | ethernet =>
    rw [transmitAt_ethernet, Option.some.injEq, Prod.mk.injEq] at e
    cases ethernet_transmitPass_next e.1
    exact .framed
  | ipv4 =>
    rw [transmitAt_ipv4, Option.some.injEq, Prod.mk.injEq, Prod.mk.injEq] at e
    obtain ⟨hr, -, rfl⟩ := e
    exact leads_router ha hp hr
  | udp => exact leads_ports ha (Prod.mk.inj (Option.some.inj e)).1
  | loopback =>
    cases e
    exact .turned
  | socket s =>
    unfold transmitAt at e
    dsimp only at e
    split at e
    · cases e
    · rename_i socket _
      unfold Udp.Socket.transmitPass at e
      split at e
      · cases e
      · cases e
        exact .bound rfl
  | resolver => cases e
  | user => cases e

/-- The number of layers that a packet visits at most from a layer downwards. -/
def descent (t : Transit) : (layer caller : Layer) → Nat
  | .ethernet, _ => 2
  | .ipv4, caller => if caller = .udp then 3 else 1
  | .udp, _ => if t.packet.headerLen = 0 then 4 else 1
  | .socket _, _ => if t.packet.headerLen = 0 then 5 else 2
  | _, _ => 1

omit [Nic δ] in
theorem descent_pos (t : Transit) (layer caller : Layer) : 0 < descent t layer caller := by
  unfold descent; split <;> first | decide | (split <;> decide)

omit [Nic δ] in
theorem descent_le (t : Transit) (layer caller : Layer) : descent t layer caller ≤ 5 := by
  unfold descent; split <;> first | decide | (split <;> decide)

omit [Nic δ] in
/-- Below the internet layer there are at most two more layers, whatever a route names. -/
theorem descent_routed {u : Transit} (hu : u.packet.headerLen ≠ 0) (lower : Layer) : descent u lower .ipv4 ≤ 2 := by
  cases lower with
  | udp => exact (if_neg hu).trans_le (by decide)
  | socket s => exact (if_neg hu).le
  | _ => first | exact Nat.le_refl 2 | exact Nat.le_succ 1

omit [Nic δ] in
theorem Leads.descent_lt {t u : Transit} {layer caller lower : Layer} (hl : Leads t u layer caller (.layer lower)) :
    descent u lower layer < descent t layer caller := by
  cases hl with
  | framed => exact Nat.one_lt_two
  | bound hp =>
    show (if u.packet.headerLen = 0 then 4 else 1) < if t.packet.headerLen = 0 then 5 else 2
    rw [hp]
    split <;> decide
  | ported hlen =>
    rw [show descent t .udp caller = 4 from if_pos hlen]
    exact Nat.lt_succ_self 3
  | routed hlen => exact Nat.lt_succ_of_le (descent_routed hlen lower)

theorem transmitAt_total (h : Host δ) {t : Transit} (hp : t.packet.InOrder) (layer caller : Layer) :
    ∃ x, h.transmitAt layer caller t = some x := by
  cases layer with
  | device =>
    obtain ⟨frame, hframe⟩ := hp.frame?
    unfold transmitAt Device.transmitPass
    dsimp only
    rw [hframe]
    exact ⟨_, rfl⟩
  | socket s =>
    unfold transmitAt
    dsimp only
    split <;> exact ⟨_, rfl⟩
  | _ => exact ⟨_, rfl⟩

theorem setup_transmitAt {h g : Host δ} {layer caller : Layer} {t u : Transit} {r : Except Fault Next}
    (e : h.transmitAt layer caller t = some (r, g, u)) : g.setup = h.setup :=
  (stable_setup h.setup).transmitAt (.inr fun _ _ hs => hs) rfl e

/-- A packet that is sent comes to an end by itself on its way down. -/
theorem descends_total {manual : Bool} {s : Setup} (ha : s.Assembled manual) : ∀ (n : Nat) {h : Host δ} {t : Transit}
    (layer caller : Layer), h.setup = s → t.packet.InOrder → descent t layer caller ≤ n →
    ∃ layers x, Descends h t layer caller layers x ∧ layers.length ≤ descent t layer caller
  | 0, _, t, layer, caller, _, _, hn => absurd hn (Nat.not_le.2 (descent_pos t layer caller))
  | n + 1, h, t, layer, caller, hs, hp, hn => by
    obtain ⟨⟨r, g, u⟩, he⟩ := transmitAt_total h hp layer caller
    rcases r with f | lower | _
    · by_cases hf : f = .wouldBlock
      · subst hf
        exact ⟨_, _, .waiting he, descent_pos t layer caller⟩
      · exact ⟨_, _, .refused he hf, descent_pos t layer caller⟩
    · have hlt := (leads_transmitAt (by rw [hs]; exact ha) hp he).descent_lt
      have hp' := ((transmitAt_stacked he).inOrder hp).1
      have hn' : descent u lower layer ≤ n := by omega
      obtain ⟨layers, x, hd, hl⟩ := descends_total ha n lower layer ((setup_transmitAt he).trans hs) hp' hn'
      exact ⟨_, _, .passed he hd, by rw [List.length_cons]; omega⟩
    · exact ⟨_, _, .ended he, descent_pos t layer caller⟩

/-- The last layer of a way down may be the loopback, and it is the internet layer that names it. -/
theorem caller_loopback {manual : Bool} {s : Setup} (ha : s.Assembled manual) : ∀ (depth : Nat) {h g : Host δ}
    {t u : Transit} {layer caller : Layer} {path : List (Layer × Layer)}, h.setup = s → t.packet.InOrder →
    h.descend t depth layer caller = some (.ok path, g, u) →
    ∀ x ∈ path, x.1 = .loopback → x = (layer, caller) ∨ x.2 = .ipv4
  | 0, _, _, _, _, _, _, _, _, _, e => nomatch e
  | depth + 1, h, g, t, u, layer, caller, path, hs, hp, e => by
    intro x hx hloop
    unfold Host.descend at e
    split at e
    · cases e
    · cases e
    · cases e
    · cases e
      exact .inl (List.mem_singleton.1 hx)
    · rename_i lower v w hat
      split at e
      · cases e
      · cases e
      · rename_i rest g' u' hrest
        cases e
        rcases List.mem_cons.1 hx with rfl | hx
        · exact .inl rfl
        have hpv := ((transmitAt_stacked hat).inOrder hp).1
        rcases caller_loopback ha depth ((setup_transmitAt hat).trans hs) hpv hrest x hx hloop with rfl | hcaller
        · -- below this layer the loopback comes at once
          obtain rfl : lower = .loopback := hloop
          cases leads_transmitAt (by rw [hs]; exact ha) hp hat with
          | routed _ => exact .inr rfl
        · exact .inr hcaller

/-- A way down that starts elsewhere comes to the loopback only from the internet layer. -/
theorem path_loopback {manual : Bool} {h g : Host δ} (ha : h.setup.Assembled manual) {t u : Transit}
    (hp : t.packet.InOrder) {depth : Nat} {layer caller : Layer} (hlayer : layer ≠ .loopback)
    {path : List (Layer × Layer)} (e : h.descend t depth layer caller = some (.ok path, g, u)) :
    ∀ x ∈ path, x.1 = .loopback → x.2 = .ipv4 := by
  intro x hx hloop
  rcases caller_loopback ha depth rfl hp e x hx hloop with rfl | hcaller
  · exact absurd hloop hlayer
  · exact hcaller

/-! ## No layer twice -/

/-- The order of the layers from the device upwards. -/
def height : Layer → Nat
  | .socket _ => 4
  | .udp => 3
  | .ipv4 => 2
  | .ethernet => 1
  | _ => 0

section succeeds

variable {manual : Bool} {s : Setup} {x : Except Fault (List (Layer × Layer)) × Host δ × Transit}
  {path : List (Layer × Layer)}

omit [Nic δ] in
theorem ok_of_along {front : List (Layer × Layer)} (hx : (along front x).1 = .ok path) :
    ∃ rest, x.1 = .ok rest ∧ path = front ++ rest :=
  map_eq_ok hx

/-- The ports let no packet through that has headers. -/
theorem Descends.not_stacked {h : Host δ} {t : Transit} {caller : Layer} {layers : List Layer}
    (ha : h.setup.Assembled manual) (hp : t.packet.InOrder) (hd : Descends h t .udp caller layers x)
    (hx : x.1 = .ok path) : t.packet.headerLen = 0 := by
  cases hd with
  | waiting e => cases hx
  | refused e _ => cases hx
  | ended e => cases leads_transmitAt ha hp e
  | passed e _ =>
    cases leads_transmitAt ha hp e with
    | ported hlen => exact hlen

/-- What the internet layer hands down gets through only below it. -/
theorem Descends.height_lt {h : Host δ} {t : Transit} {layer : Layer} {layers : List Layer}
    (ha : h.setup.Assembled manual) (hp : t.packet.InOrder) (hlen : t.packet.headerLen ≠ 0)
    (hd : Descends h t layer .ipv4 layers x) (hx : x.1 = .ok path) : height layer < 2 := by
  cases hd with
  | waiting e => cases hx
  | refused e _ => cases hx
  | ended e => cases leads_transmitAt ha hp e <;> exact Nat.zero_lt_two
  | passed e hd =>
    obtain ⟨rest, hrest, -⟩ := ok_of_along hx
    cases leads_transmitAt ha hp e with
    | framed => exact Nat.one_lt_two
    | bound hu =>
      have hg := (setup_transmitAt e).symm ▸ ha
      exact absurd (hu ▸ hd.not_stacked hg (hu ▸ hp) hrest) hlen
    | ported hzero => exact absurd hzero hlen

/-- On a way down that is not refused every layer is below those before it. -/
theorem Descends.falls (ha : s.Assembled manual) {h : Host δ} {t : Transit} {layer caller : Layer}
    {layers : List Layer} (hd : Descends h t layer caller layers x) : ∀ {path : List (Layer × Layer)}, h.setup = s →
    t.packet.InOrder → x.1 = .ok path → path.map Prod.fst = layers ∧ (∀ l ∈ layers, height l ≤ height layer) ∧
      layers.Pairwise fun a b => height b < height a := by
  induction hd with
  | waiting e => intro _ _ _ hx; cases hx
  | refused e _ => intro _ _ _ hx; cases hx
  | ended e =>
    intro path hs hp hx
    cases hx
    exact ⟨rfl, by simp, List.pairwise_singleton ..⟩
  | @passed h g t u layer caller lower layers x e hd ih =>
    intro path hs hp hx
    have hg : g.setup = s := (setup_transmitAt e).trans hs
    have hu := ((transmitAt_stacked e).inOrder hp).1
    obtain ⟨rest, hrest, rfl⟩ := ok_of_along hx
    obtain ⟨hpath, hle, hfall⟩ := ih hg hu hrest
    have hlt : height lower < height layer := by
      cases leads_transmitAt (by rw [hs]; exact ha) hp e with
      | framed => exact Nat.zero_lt_one
      | bound _ => exact Nat.lt_succ_self 3
      | ported _ => exact Nat.lt_succ_self 2
      | routed hlen => exact hd.height_lt (by rw [hg]; exact ha) hu hlen hrest
    refine ⟨by rw [List.map_append, hpath]; rfl, ?_,
      List.pairwise_cons.2 ⟨fun l hl => (hle l hl).trans_lt hlt, hfall⟩⟩
    intro l hl
    rcases List.mem_cons.1 hl with rfl | hl
    · exact le_rfl
    · exact (hle l hl).trans hlt.le

end succeeds

end UdpStack.Host
