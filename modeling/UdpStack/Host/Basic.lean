/-
A host: one device, the layers above it, and sockets. A new host reaches its own subnet, the
limited broadcast address and its loopback; further routes are added. Whatever a call does to the
host is in the host it returns, tasks to be notified included.
-/
import UdpStack.Device.Basic
import UdpStack.Ethernet.Endpoint
import UdpStack.Ipv4.Router
import UdpStack.Loopback
import UdpStack.Udp.Ports
import UdpStack.Udp.Socket

namespace UdpStack

open Bounded Device

/-- How a host finds hardware addresses. -/
inductive ResolverMode where
  /-- They follow from internet addresses. -/
  | derived
  /-- Neighbors are asked. -/
  | table
  deriving DecidableEq, Repr, Inhabited

/-- The name for reports. -/
def ResolverMode.name : ResolverMode → String
  | derived => "Static"
  | table => "Table"

/-- The addresses of one host. -/
structure Config where
  hardware : Ethernet.Address
  addr : Ipv4.Address
  mask : Ipv4.Address
  mode : ResolverMode
  deriving DecidableEq, Repr, Inhabited

/-- A host with a derived hardware address that derives those of others in the same way. -/
def Config.create (addr mask : Ipv4.Address) : Config := ⟨.ofIpv4 addr, addr, mask, .derived⟩

/-- The state of a host on a device. -/
structure Host (δ : Type) where
  device : δ
  deviceCounters : Counters
  endpoint : Ethernet.Endpoint
  resolver : Arp.Resolver
  resolverCounters : Counters
  router : Ipv4.Router
  ports : Udp.Ports
  loopback : Loopback
  sockets : Pool Udp.Socket Limits.sockets
  wakeups : Wakeups
  /-- The moment of the last poll. -/
  now : Instant
  config : Config
  /-- The buffer for packets to send. -/
  txBuffer : Octets
  /-- The buffer for received frames. -/
  rxBuffer : Octets
  /-- Tasks that the host notified, the first one first. -/
  notified : List Task
  /-- Whether a wake-up ever found no room and was lost. -/
  lost : Bool

namespace Host

variable {δ : Type}

/-- The Ethernet layer of a new host. -/
def newEndpoint (config : Config) (check : CheckMode) : Except Fault Ethernet.Endpoint := do
  let e := Ethernet.Endpoint.create config.hardware
  let e := { e with checked := decide (check = CheckMode.manual) }
  let e ← e.register .ipv4 .ipv4
  match config.mode with
  | .derived => return e
  | .table => e.register .arp .resolver

/-- The way in which a new host finds hardware addresses. -/
def newResolver (config : Config) : Arp.Resolver :=
  match config.mode with
  | .derived => .derived
  | .table => .table (.create config.hardware config.addr config.mask)

/-- The internet layer of a new host. -/
def newRouter (config : Config) : Except Fault Ipv4.Router := do
  let r ← Ipv4.Router.empty.addRoute (← Ipv4.Route.ofPrefixLen ⟨127, 0, 0, 0⟩ 8 .loopback)
  let r ← r.addRoute (← Ipv4.Route.create (config.addr.mask config.mask) config.mask .ethernet)
  let r ← r.addRoute (← Ipv4.Route.ofPrefixLen .broadcast 32 .ethernet)
  let r ← r.addIncoming .loopback .loopback
  let r ← r.addIncoming config.addr .ethernet
  let r ← r.addIncoming .broadcast .ethernet
  let last := config.addr.subnetBroadcast config.mask
  let r ← if last != config.addr && !last.isBroadcast then r.addIncoming last .ethernet else .ok r
  r.register .udp .udp

/-- A host without sockets. -/
def create [Nic δ] (device : δ) (config : Config) : Except Fault (Host δ) := do
  let endpoint ← newEndpoint config (Nic.personality device).check
  let router ← newRouter config
  return {
    device := device
    deviceCounters := {}
    endpoint := endpoint
    resolver := newResolver config
    resolverCounters := {}
    router := router
    ports := .create .ipv4
    loopback := .empty
    sockets := .empty
    wakeups := .empty
    now := ⟨0⟩
    config := config
    txBuffer := List.replicate Limits.frameBuffer 0
    rxBuffer := List.replicate Limits.frameBuffer 0
    notified := []
    lost := false }

/-- Change a socket, if it exists. -/
def modifySocket (h : Host δ) (s : Handle) (f : Udp.Socket → Udp.Socket) : Host δ :=
  match h.sockets.get? s with
  | none => h
  | some socket => { h with sockets := h.sockets.set s (f socket) }

/-- The counters of a layer. Those of a released socket are gone. -/
def counters? (h : Host δ) : Layer → Option Counters
  | .device => some h.deviceCounters
  | .ethernet => some h.endpoint.counters
  | .resolver => some h.resolverCounters
  | .ipv4 => some h.router.counters
  | .udp => some h.ports.counters
  | .loopback => some h.loopback.counters
  | .socket s => (h.sockets.get? s).map (·.counters)
  | .user => none

/-- Change the counters of a layer. -/
def count (h : Host δ) (layer : Layer) (f : Counters → Counters) : Host δ :=
  match layer with
  | .device => { h with deviceCounters := f h.deviceCounters }
  | .ethernet => { h with endpoint := { h.endpoint with counters := f h.endpoint.counters } }
  | .resolver => { h with resolverCounters := f h.resolverCounters }
  | .ipv4 => { h with router := { h.router with counters := f h.router.counters } }
  | .udp => { h with ports := { h.ports with counters := f h.ports.counters } }
  | .loopback => { h with loopback := ⟨f h.loopback.counters⟩ }
  | .socket s => h.modifySocket s fun socket => { socket with counters := f socket.counters }
  | .user => h

/-- Notify all tasks whose wake-up is recorded. -/
def deliver (h : Host δ) : Host δ :=
  let (tasks, wakeups) := h.wakeups.deliver
  { h with
    wakeups := wakeups
    notified := h.notified ++ tasks
    lost := h.lost || h.wakeups.overflowed }

/-- Hand over the tasks that were notified. -/
def takeNotified (h : Host δ) : List Task × Host δ := (h.notified, { h with notified := [] })

/-! ## Routes and groups -/

/-- Add a route. -/
def addRoute (h : Host δ) (route : Ipv4.Route) : Except Fault Unit × Host δ :=
  match h.router.addRoute route with
  | .error f => (.error f, h)
  | .ok r => (.ok (), { h with router := r })

/-- Take out the first route with exactly this network and mask. -/
def removeRoute (h : Host δ) (net mask : Ipv4.Address) : Except Fault Ipv4.Route × Host δ :=
  match h.router.removeRoute net mask with
  | .error f => (.error f, h)
  | .ok (route, r) => (.ok route, { h with router := r })

/-- Take datagrams to a group. Both filters change or neither does. -/
def join (h : Host δ) (group : Ipv4.Address) : Except Fault Unit × Host δ :=
  if !group.isMulticast then (.error .illegal, h)
  else match h.router.addIncoming group .ethernet with
    | .error f => (.error f, h)
    | .ok r =>
      match h.endpoint.join (.ofGroup group) with
      | .ok e => (.ok (), { h with router := r, endpoint := e })
      | .error f =>
        match r.removeIncoming group with
        | .ok (_, r) => (.error f, { h with router := r })
        | .error _ => (.error f, { h with router := r })

/-- Take no more datagrams to a group. -/
def leave (h : Host δ) (group : Ipv4.Address) : Except Fault Unit × Host δ :=
  if !group.isMulticast then (.error .illegal, h)
  else match h.router.removeIncoming group with
    | .error f => (.error f, h)
    | .ok (_, r) =>
      match h.endpoint.leave (.ofGroup group) with
      | .error f => (.error f, { h with router := r })
      | .ok e => (.ok (), { h with router := r, endpoint := e })

end Host

end UdpStack
