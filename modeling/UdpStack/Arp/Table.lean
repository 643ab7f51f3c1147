/-
The table of neighbors. An address without an entry is asked for, at most four times; the tasks
that look it up wait for the answer; and after four questions without an answer the address is
left alone for a while. Answers are kept for a minute, and the entry that ends first gives way when
the table is full.
-/
import UdpStack.Arp.Message
import UdpStack.Bounded.Map
import UdpStack.Bounded.Queue
import UdpStack.Clock
import UdpStack.Task

namespace UdpStack.Arp

open Bounded

/-- What is known of a neighbor. -/
inductive Mapping where
  | resolved (hardware : Ethernet.Address)
  /-- Questions are being asked: how many after the first, and when the next one is due. -/
  | querying (retries : Nat) (nextAt : Instant)
  /-- Nobody answered, and nobody is asked again before the given moment. -/
  | failed (silentUntil : Instant)
  deriving DecidableEq, Repr

/-- An entry of the table. -/
structure Neighbor where
  mapping : Mapping
  /-- The end of a resolved mapping. -/
  expiresAt : Expiry
  deriving DecidableEq, Repr

/-- The neighbors of one device. -/
structure Table where
  /-- The hardware address of the device itself. -/
  hardware : Ethernet.Address
  /-- The address of the device itself. -/
  addr : Ipv4.Address
  mask : Ipv4.Address
  neighbors : Map Ipv4.Address Neighbor Limits.neighbors
  waiters : Seq (Task × Ipv4.Address) Limits.waiters
  outbox : Queue Message Limits.outbox
  deriving Repr

namespace Table

/-- The time between two questions for one address. -/
def retryInterval : Duration := .ofMillis 1000

/-- The number of questions after the first. -/
def maxRetries : Nat := 3

/-- How long an address is left alone when nobody answered. -/
def silentTime : Duration := .ofMillis 5000

/-- How long an answer is kept. -/
def lifetime : Duration := .ofMillis 60000

/-- The table without entries. -/
def create (hardware : Ethernet.Address) (addr mask : Ipv4.Address) : Table :=
  ⟨hardware, addr, mask, .empty, .empty, .empty⟩

/-- The hardware addresses that nobody has to be asked for. -/
def fixed? (t : Table) (x : Ipv4.Address) : Option Ethernet.Address :=
  if x.isBroadcast || x == t.addr.subnetBroadcast t.mask then some .broadcast
  else if x.isMulticast then some (.ofGroup x)
  else if x == t.addr then some t.hardware
  else none

/-- The entry of an address. -/
def neighbor? (t : Table) (x : Ipv4.Address) : Option Neighbor := t.neighbors.get? x

/-- Whether a task waits for some address. -/
def isWaiting (t : Table) (task : Task) : Bool := t.waiters.toList.any fun w => w.1 == task

/-! ## Questions -/

/-- Queue a message, unless too many wait already. -/
def post (t : Table) (m : Message) : Table :=
  match t.outbox.push m with
  | .ok outbox => { t with outbox := outbox }
  | .error _ => t

/-- Queue a question for an address. -/
def request (t : Table) (x : Ipv4.Address) : Table :=
  t.post ⟨.request, t.hardware, t.addr, .zero, x⟩

/-- Take the next message to send. -/
def outgoing (t : Table) : Option Message × Table :=
  let (m, outbox) := t.outbox.pop
  (m, { t with outbox := outbox })

/-! ## Entries -/

/-- When an entry may give way: at its end, or once an address left alone may be asked again. -/
def evictable (now : Instant) (n : Neighbor) : Option Expiry :=
  match n.mapping with
  | .resolved _ => some n.expiresAt
  | .failed u => if u.total ≤ now.total then some (.due u) else none
  | .querying _ _ => none

/-- The earlier end, of equal ones the lower address. -/
def sooner (x y : Expiry × Ipv4.Address) : Expiry × Ipv4.Address :=
  match y.1.order x.1 with
  | .lt => y
  | .gt => x
  | .eq => if y.2.before x.2 then y else x

/-- The address whose entry gives way. -/
def victim? (t : Table) (now : Instant) : Option Ipv4.Address :=
  let candidates := t.neighbors.toList.filterMap fun (x, n) =>
    (evictable now n).map fun e => (e, x)
  match candidates with
  | [] => none
  | c :: cs => some (cs.foldl sooner c).2

/-- Set the entry of an address; a full table gives up another entry. -/
def put (t : Table) (x : Ipv4.Address) (n : Neighbor) (now : Instant) : Except Fault Table :=
  if t.neighbors.contains x then .ok { t with neighbors := t.neighbors.set x n }
  else match t.neighbors.insert x n with
    | .ok neighbors => .ok { t with neighbors := neighbors }
    | .error .exhausted =>
      match t.victim? now with
      | none => .error .exhausted
      | some v =>
        ((t.neighbors.remove v).2.insert x n).map fun neighbors => { t with neighbors := neighbors }
    | .error e => .error e

/-- Enter a mapping, for a while after `now` or for good. -/
def enter (t : Table) (x : Ipv4.Address) (hardware : Ethernet.Address) (now : Option Instant) :
    Except Fault Table :=
  t.put x ⟨.resolved hardware, .ofOption (now.map (·.add lifetime))⟩ (now.getD ⟨0⟩)

/-! ## Waiting tasks -/

/-- Let a task wait for an address, and for no other one any more. -/
def wait (t : Table) (x : Ipv4.Address) (task : Option Task) : Except Fault Table :=
  match task with
  | none => .ok t
  | some task =>
    let rest := match t.waiters.findIdx? fun w => w.1 == task with
      | some i => (t.waiters.remove i).2
      | none => t.waiters
    (rest.push (task, x)).map fun waiters => { t with waiters := waiters }

/-- Let a task no longer wait for an address. -/
def cancel (t : Table) (x : Ipv4.Address) (task : Option Task) : Table :=
  match t.waiters.findIdx? fun w => some w.1 == task && w.2 == x with
  | some i => { t with waiters := (t.waiters.remove i).2 }
  | none => t

/-- Take out up to `k` tasks that wait for an address, and record them as woken. -/
def release (x : Ipv4.Address) : Nat → Seq (Task × Ipv4.Address) Limits.waiters → Wakeups →
    Seq (Task × Ipv4.Address) Limits.waiters × Wakeups
  | 0, ws, wakeups => (ws, wakeups)
  | k + 1, ws, wakeups =>
    match ws.findIdx? fun w => w.2 == x with
    | none => (ws, wakeups)
    | some i =>
      match ws.remove i with
      | (some w, rest) => release x k rest (wakeups.wake w.1)
      | (none, rest) => release x k rest wakeups

/-- Wake all tasks that wait for an address. -/
def wake (t : Table) (x : Ipv4.Address) (wakeups : Wakeups) : Table × Wakeups :=
  let (waiters, wakeups) := release x t.waiters.size t.waiters wakeups
  ({ t with waiters := waiters }, wakeups)

/-! ## Operations -/

/-- Find the hardware address of an address. If it is not known, a task waits for it. -/
def lookup (t : Table) (x : Ipv4.Address) (task : Option Task) (now : Instant) :
    Except Fault Ethernet.Address × Table :=
  match t.fixed? x with
  | some hardware => (.ok hardware, t)
  | none =>
    match t.neighbors.get? x with
    | some ⟨.querying _ _, _⟩ =>
      match t.wait x task with
      | .error e => (.error e, t)
      | .ok t => (.error .wouldBlock, t)
    | some ⟨.failed u, _⟩ => if now.total < u.total then (.error .unreachable, t) else ask
    | some ⟨.resolved hardware, e⟩ => if e.isExpired now then ask else (.ok hardware, t)
    | none => ask
where
  /-- Start asking for an address. -/
  ask : Except Fault Ethernet.Address × Table :=
    match t.wait x task with
    | .error e => (.error e, t)
    | .ok t =>
      match t.put x ⟨.querying 0 (now.add retryInterval), .never⟩ now with
      | .error e => (.error e, t.cancel x task)
      | .ok t => (.error .wouldBlock, t.request x)

/-- The hardware address of an address if it is known. -/
def known? (t : Table) (x : Ipv4.Address) (now : Instant) : Option Ethernet.Address :=
  match t.fixed? x with
  | some hardware => some hardware
  | none =>
    match t.neighbors.get? x with
    | some ⟨.resolved hardware, e⟩ => if e.isExpired now then none else some hardware
    | _ => none

/-- Learn from a message, and answer a question for the own address. Messages to others only
bring known entries up to date. -/
def receive (t : Table) (m : Message) (now : Instant) (wakeups : Wakeups) :
    Except Fault Unit × Table × Wakeups :=
  if !m.srcAddr.isUnicast || !m.srcHardware.isUnicast then (.error .malformed, t, wakeups)
  else
    let forUs := m.dstAddr == t.addr
    let learned :=
      if t.neighbors.contains m.srcAddr || forUs then
        (t.enter m.srcAddr m.srcHardware (some now)).map fun t => t.wake m.srcAddr wakeups
      else .ok (t, wakeups)
    match learned with
    | .error e => (.error e, t, wakeups)
    | .ok (t, wakeups) =>
      if !forUs then (.error .dropped, t, wakeups)
      else if m.operation = .request then
        (.ok (), t.post ⟨.reply, t.hardware, t.addr, m.srcHardware, m.srcAddr⟩, wakeups)
      else (.ok (), t, wakeups)

/-- The addresses whose next question is due. -/
def due (t : Table) (now : Instant) : List Ipv4.Address :=
  t.neighbors.toList.filterMap fun (x, n) =>
    match n.mapping with
    | .querying _ nextAt => if nextAt.total ≤ now.total then some x else none
    | _ => none

/-- Ask once more for an address whose question is due, or give up on it. Addresses given up are
collected behind `given`. -/
def retry (now : Instant) (state : Table × List Ipv4.Address) (x : Ipv4.Address) :
    Table × List Ipv4.Address :=
  let (t, given) := state
  match t.neighbors.get? x with
  | none => (t, given)
  | some n =>
    match n.mapping with
    | .querying retries _ =>
      if retries < maxRetries then
        let n := { n with mapping := .querying (retries + 1) (now.add retryInterval) }
        (({ t with neighbors := t.neighbors.set x n } : Table).request x, given)
      else (giveUp t n, given ++ [x])
    | _ => (giveUp t n, given ++ [x])
where
  /-- Leave the address alone for a while. -/
  giveUp (t : Table) (n : Neighbor) : Table :=
    { t with neighbors := t.neighbors.set x { n with mapping := .failed (now.add silentTime) } }

/-- Ask again where that is due, give up where nobody answered, and wake who waited there. -/
def expire (t : Table) (now : Instant) (wakeups : Wakeups) : Table × Wakeups :=
  let (t, given) := (t.due now).foldl (retry now) (t, [])
  given.foldl (fun (t, wakeups) x => t.wake x wakeups) (t, wakeups)

end Table

end UdpStack.Arp
