/-
The calls that a program may make, in any order and with any arguments, handles that refer to
nothing included, and the runs that they make up. Between two calls of the host the program may do
to the device what the device offers to everyone, and it may reach into the resolver; which of
these a statement allows it says itself.
-/
import UdpStack.Host.Sockets

namespace UdpStack.Host

open Device

variable {δ : Type}

/-- A call of a program. -/
inductive Call (δ : Type) where
  | acquire
  | release (s : Bounded.Handle)
  | bind (s : Bounded.Handle) (addr : Ipv4.Address) (port : UInt16)
  | unbind (s : Bounded.Handle)
  | send (s : Bounded.Handle) (task : Task) (dst : Ipv4.Address) (port : UInt16) (payload : Octets)
  | recv (s : Bounded.Handle) (task : Task) (room : Nat)
  | cancel (s : Bounded.Handle) (task : Task)
  | poll (now : Instant)
  | addRoute (route : Ipv4.Route)
  | removeRoute (net mask : Ipv4.Address)
  | join (group : Ipv4.Address)
  | leave (group : Ipv4.Address)
  /-- Leave the device in some state. -/
  | device (d : δ)
  /-- Enter a hardware address into the table of the resolver. -/
  | fill (x : Ipv4.Address) (hardware : Ethernet.Address) (now : Option Instant)
  /-- Leave the resolver in some state. -/
  | resolver (r : Arp.Resolver)

/-- What a call answers. -/
inductive Answer where
  | done
  | result (r : Except Fault Unit)
  | acquired (r : Except Fault Bounded.Handle)
  | removed (r : Except Fault Ipv4.Route)
  | polled (r : Except Fault Nat)
  | sent (r : Poll Nat)
  | received (r : Poll Udp.Received)

/-- Whether a task was told to wait. -/
def Answer.isPending : Answer → Bool
  | sent .pending => true
  | received .pending => true
  | _ => false

/-- The task that makes a call which may have to wait. -/
def Call.task? : Call δ → Option Task
  | send _ task _ _ _ => some task
  | recv _ task _ => some task
  | _ => none

/-- The queue of a socket. -/
def queue? (h : Host δ) (s : Bounded.Handle) : Option (Bounded.Queue Udp.Datagram Limits.socketQueue) :=
  (h.sockets.get? s).map (·.queue)

/-- The waiting task of a socket. -/
def waiter? (h : Host δ) (s : Bounded.Handle) : Option Task := (h.sockets.get? s).bind (·.waiter.waiter)

/-- Enter a hardware address into the table of neighbors, if there is one. -/
def fill (h : Host δ) (x : Ipv4.Address) (hardware : Ethernet.Address) (now : Option Instant) :
    Except Fault Unit × Host δ :=
  match h.resolver with
  | .derived => (.error .illegal, h)
  | .table t =>
    match t.enter x hardware now with
    | .error f => (.error f, h)
    | .ok t => (.ok (), { h with resolver := .table t })

/-- The answer to a call and the host after it, none if a layer touched bytes that do not exist. -/
def perform [Nic δ] (h : Host δ) : Call δ → Option (Answer × Host δ)
  | .acquire => some (.acquired h.acquire.1, h.acquire.2)
  | .release s => some (.result (h.release s).1, (h.release s).2)
  | .bind s addr port => some (.result (h.bind s addr port).1, (h.bind s addr port).2)
  | .unbind s => some (.result (h.unbind s).1, (h.unbind s).2)
  | .send s task dst port payload => (h.send s task dst port payload).map fun (r, h) => (.sent r, h)
  | .recv s task room => some (.received (h.recv s task room).1, (h.recv s task room).2)
  | .cancel s task => some (.done, h.cancel s task)
  | .poll now => (h.poll now).map fun (r, h) => (.polled r, h)
  | .addRoute route => some (.result (h.addRoute route).1, (h.addRoute route).2)
  | .removeRoute net mask => some (.removed (h.removeRoute net mask).1, (h.removeRoute net mask).2)
  | .join group => some (.result (h.join group).1, (h.join group).2)
  | .leave group => some (.result (h.leave group).1, (h.leave group).2)
  | .device d => some (.done, { h with device := d })
  | .fill x hardware now => some (.result (h.fill x hardware now).1, (h.fill x hardware now).2)
  | .resolver r => some (.done, { h with resolver := r })

/-- The calls between two hosts, each with its answer, the first one first. Only calls that are
allowed at the time are made. -/
inductive Run [Nic δ] (allowed : Host δ → Call δ → Prop) (h : Host δ) :
    List (Call δ × Answer) → Host δ → Prop where
  | nil : Run allowed h [] h
  | snoc {es : List (Call δ × Answer)} {g g' : Host δ} {c : Call δ} {a : Answer} :
      Run allowed h es g → allowed g c → g.perform c = some (a, g') → Run allowed h (es ++ [(c, a)]) g'

/-- How often a task was told to wait. -/
def pendings (task : Task) (es : List (Call δ × Answer)) : Nat :=
  es.countP fun (c, a) => c.task? == some task && a.isPending

/-- What single calls keep, runs keep. -/
theorem Run.keeps [Nic δ] {allowed : Host δ → Call δ → Prop} {P : Host δ → Prop}
    (hs : ∀ {g g' : Host δ} {c : Call δ} {a : Answer}, P g → allowed g c → g.perform c = some (a, g') → P g')
    {h h' : Host δ} {es : List (Call δ × Answer)} (hp : P h) (hr : Run allowed h es h') : P h' := by
  induction hr with
  | nil => exact hp
  | snoc _ ha hc ih => exact hs ih ha hc

/-- Fewer calls make up fewer runs. -/
theorem Run.mono [Nic δ] {allowed allowed' : Host δ → Call δ → Prop} (ha : ∀ h c, allowed h c → allowed' h c)
    {h h' : Host δ} {es : List (Call δ × Answer)} (hr : Run allowed h es h') : Run allowed' h es h' := by
  induction hr with
  | nil => exact .nil
  | snoc _ hc he ih => exact ih.snoc (ha _ _ hc) he

/-- Make calls one after the other. -/
def performAll [Nic δ] (h : Host δ) : List (Call δ) → Option (List (Call δ × Answer) × Host δ)
  | [] => some ([], h)
  | c :: cs =>
    (h.perform c).bind fun (a, g) => (performAll g cs).map fun (es, g) => ((c, a) :: es, g)

/-- Calls that are always allowed make up a run. -/
theorem run_performAll [Nic δ] {allowed : Host δ → Call δ → Prop} {h : Host δ} : ∀ (cs : List (Call δ))
    {g g' : Host δ} {es es' : List (Call δ × Answer)}, Run allowed h es g → (∀ c ∈ cs, ∀ g, allowed g c) →
    g.performAll cs = some (es', g') → Run allowed h (es ++ es') g'
  | [], g, g', es, es', hr, _, e => by cases e; rwa [List.append_nil]
  | c :: cs, g, g', es, es', hr, ha, e => by
    obtain ⟨⟨a, u⟩, hu, e⟩ := Option.bind_eq_some_iff.1 e
    obtain ⟨⟨es'', u'⟩, hx, he⟩ := Option.map_eq_some_iff.1 e
    cases he
    rw [← List.singleton_append, ← List.append_assoc]
    exact run_performAll cs (hr.snoc (ha c (List.mem_cons_self ..) g) hu)
      (fun c hc => ha c (List.mem_cons_of_mem _ hc)) hx

theorem eq_ok_of_toOption {ε α : Type} {x : Except ε α} {a : α} (h : x.toOption = some a) : x = .ok a := by
  cases x with
  | error _ => cases h
  | ok _ => cases h; rfl

/-- What can be computed of some calls holds of a run: of the new host, the answers and the last host. -/
theorem exists_run [Nic δ] (d : δ) (config : Config) (cs : List (Call δ))
    (P : Host δ → List (Call δ × Answer) → Host δ → Prop) [∀ h₀ es h, Decidable (P h₀ es h)]
    (hx : (do
      let h₀ ← (create d config).toOption
      let g ← h₀.performAll cs
      pure (decide (P h₀ g.1 g.2))) = some true) :
    ∃ h₀ es h, create d config = .ok h₀ ∧ Run (fun _ _ => True) h₀ es h ∧ P h₀ es h := by
  obtain ⟨h₀, e, hx⟩ := Option.bind_eq_some_iff.1 hx
  obtain ⟨⟨es, h⟩, hr, hx⟩ := Option.bind_eq_some_iff.1 hx
  exact ⟨h₀, es, h, eq_ok_of_toOption e, run_performAll cs .nil (fun _ _ _ => trivial) hr,
    of_decide_eq_true (Option.some.inj hx)⟩

/-! ## New hosts -/

theorem bind_eq_ok {α β : Type} {x : Except Fault α} {f : α → Except Fault β} {b : β}
    (h : x >>= f = .ok b) : ∃ a, x = .ok a ∧ f a = .ok b := by
  cases x with
  | error e => cases h
  | ok a => exact ⟨a, rfl, h⟩

theorem map_eq_ok {α β : Type} {x : Except Fault α} {f : α → β} {b : β} (h : x.map f = .ok b) :
    ∃ a, x = .ok a ∧ b = f a := by
  cases x with
  | error e => cases h
  | ok a => cases h; exact ⟨a, rfl, rfl⟩

/-- A new host with these filters and routes. -/
def fresh (d : δ) (config : Config) (endpoint : Ethernet.Endpoint) (router : Ipv4.Router) : Host δ where
  device := d
  deviceCounters := {}
  endpoint := endpoint
  resolver := newResolver config
  resolverCounters := {}
  router := router
  ports := .create .ipv4
  loopback := .empty
  sockets := .empty
  wakeups := .empty
  now := ⟨0⟩
  config := config
  txBuffer := List.replicate Limits.frameBuffer 0
  rxBuffer := List.replicate Limits.frameBuffer 0
  notified := []
  lost := false

theorem create_eq_ok [Nic δ] {d : δ} {config : Config} {h : Host δ} (e : create d config = .ok h) :
    ∃ endpoint router, newEndpoint config (Nic.personality d).check = .ok endpoint ∧
      newRouter config = .ok router ∧ h = fresh d config endpoint router := by
  obtain ⟨endpoint, he, e⟩ := bind_eq_ok e
  obtain ⟨router, hr, e⟩ := bind_eq_ok e
  cases e
  exact ⟨endpoint, router, he, hr, rfl⟩

/-! ## What programs are allowed to do -/

/-- Everything but reaching into the resolver. -/
def LeavesResolver (_ : Host δ) : Call δ → Prop
  | .fill .. => False
  | .resolver _ => False
  | _ => True

end UdpStack.Host
