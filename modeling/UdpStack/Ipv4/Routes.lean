/-
The routes of a host, longest mask first and, among equal ones, in the order in which they were
added. So the first route that covers a destination is the most specific one.
-/
import UdpStack.Bounded.Seq
import UdpStack.Layer

namespace UdpStack.Ipv4

open Bounded

/-- The layer that leads to a network. -/
structure Route where
  net : Address
  mask : Address
  layer : Layer
  deriving DecidableEq, Repr, Inhabited

namespace Route

/-- A route with a mask that is one run of leading bits. -/
def create (net mask : Address) (layer : Layer) : Except Fault Route :=
  match mask.prefixLen? with
  | some _ => .ok ⟨net, mask, layer⟩
  | none => .error .illegal

/-- A route with a mask of `n` leading bits. -/
def ofPrefixLen (net : Address) (n : Nat) (layer : Layer) : Except Fault Route :=
  if 32 < n then .error .illegal else .ok ⟨net, Address.netmask n, layer⟩

/-- The number of leading bits of the mask, none for a mask with a gap. -/
def prefixLen (r : Route) : Nat := r.mask.prefixLen?.getD 0

/-- Whether an address belongs to the network. -/
def contains (r : Route) (x : Address) : Bool := r.net.mask r.mask == x.mask r.mask

end Route

/-- The routes of one host. -/
structure Routes where
  storage : Seq Route Limits.routes
  deriving Repr

namespace Routes

/-- No routes. -/
def empty : Routes := ⟨.empty⟩

instance : Inhabited Routes := ⟨empty⟩

/-- All routes, the most specific first. -/
def toList (r : Routes) : List Route := r.storage.toList

/-- Add a route behind all routes that are at least as specific. -/
def add (r : Routes) (route : Route) : Except Fault Routes :=
  match route.mask.prefixLen? with
  | none => .error .illegal
  | some n =>
    let i := (r.storage.findIdx? fun other => other.prefixLen < n).getD r.storage.size
    (r.storage.insert i route).map (⟨·⟩)

/-- Take out the first route with exactly this network and mask. -/
def remove (r : Routes) (net mask : Address) : Except Fault (Route × Routes) :=
  match r.storage.findIdx? fun route => route.net == net && route.mask == mask with
  | none => .error .unreachable
  | some i =>
    match r.storage.remove i with
    | (some route, rest) => .ok (route, ⟨rest⟩)
    | (none, _) => .error .unreachable

/-- The most specific route that covers a destination. -/
def lookup (r : Routes) (dst : Address) : Option Route :=
  r.toList.find? fun route => route.contains dst

end Routes

end UdpStack.Ipv4
