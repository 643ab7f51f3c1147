/-
The exchange: a client sends datagrams to a server on the same host and waits for each to come
back. Both are tasks that run only when they are notified; the host is polled once every tick.
-/
import UdpStack.Echo.Options
import UdpStack.Host.Sockets

namespace UdpStack.Echo

open Bounded

/-- The host of an exchange. -/
abbrev Net := Host (Device.Loopback 8)

/-- Why an exchange failed. -/
inductive EchoFault where
  /-- A call was refused. -/
  | stack (fault : Fault)
  /-- An answer is not the request. -/
  | mismatch (seq : Nat)
  /-- Time ran out. -/
  | timeout (echoed : Nat)
  deriving DecidableEq, Repr

/-- The name of a fault. -/
def EchoFault.name : EchoFault → String
  | stack _ => "Stack"
  | mismatch _ => "Mismatch"
  | timeout _ => "Timeout"

/-- The report of a fault. -/
def EchoFault.message : EchoFault → String
  | stack f => "stack: " ++ f.message
  | mismatch seq => "answer " ++ toString seq ++ " does not match its request"
  | timeout echoed => "timed out after " ++ toString echoed ++ " answers"

/-- How an exchange went. -/
structure Score where
  sent : Nat
  echoed : Nat
  /-- Ticks until the last answer. -/
  elapsed : Nat
  /-- The counters of the layers, lowest first. -/
  counters : List (Layer × Counters)
  deriving Repr

/-- The score for reports. -/
def Score.text (s : Score) : String :=
  let line := fun (entry : Layer × Counters) =>
    let column := fun (n : UInt32) => Text.padLeft ' ' 4 (toString n.toNat)
    entry.1.name ++ ": rx " ++ column entry.2.rx ++ " tx " ++ column entry.2.tx ++ " dropped " ++
      column entry.2.dropped ++ "\n"
  toString s.echoed ++ "/" ++ toString s.sent ++ " datagrams echoed in " ++ toString s.elapsed ++
    " ms\n" ++ String.join (s.counters.map line)

/-- The task of the server. -/
def serverTask : Task := ⟨0⟩

/-- The task of the client. -/
def clientTask : Task := ⟨1⟩

/-- The server. -/
structure Server where
  socket : Handle
  /-- The datagram to send back, with the address and port of its sender. -/
  reply : Option (Ipv4.Address × UInt16 × Octets)

/-- The client. -/
structure Client where
  socket : Handle
  serverAddr : Ipv4.Address
  serverPort : UInt16
  message : Octets
  sent : Nat
  echoed : Nat
  /-- Whether the last datagram has not come back. -/
  awaiting : Bool
  count : Nat

/-- The payload of the request with a number: the message and the last digit of the number. -/
def Client.request (c : Client) (seq : Nat) : Octets := c.message ++ [UInt8.ofNat (48 + seq % 10)]

/-- What comes out of a step of a task: none if the host touched bytes that do not exist. -/
abbrev Step (α : Type) := Option (Except EchoFault α)

/-- Send the pending reply of the server, if there is one. -/
def Server.sendReply (s : Server) (h : Net) : Step (Bool × Server × Net) :=
  match s.reply with
  | none => some (.ok (true, s, h))
  | some (addr, port, data) =>
    (h.send s.socket serverTask addr port data).map fun
      | (.pending, h) => .ok (false, s, h)
      | (.ready (.error f), _) => .error (.stack f)
      | (.ready (.ok _), h) => .ok (true, { s with reply := none }, h)

/-- Run the server until it waits, for at most `k` datagrams. -/
def Server.run (s : Server) (h : Net) : Nat → Step (Server × Net)
  | 0 => some (.ok (s, h))
  | k + 1 =>
    match s.sendReply h with
    | none => none
    | some (.error f) => some (.error f)
    | some (.ok (false, s, h)) => some (.ok (s, h))
    | some (.ok (true, s, h)) =>
      match h.recv s.socket serverTask h.mtu with
      | (.pending, h) => some (.ok (s, h))
      | (.ready (.error f), _) => some (.error (.stack f))
      | (.ready (.ok r), h) => Server.run { s with reply := some (r.srcAddr, r.srcPort, r.data) } h k

/-- Send the next request of the client, if it does not wait for an answer. -/
def Client.sendRequest (c : Client) (h : Net) : Step (Bool × Client × Net) :=
  if c.awaiting then some (.ok (true, c, h))
  else
    (h.send c.socket clientTask c.serverAddr c.serverPort (c.request c.sent)).map fun
      | (.pending, h) => .ok (false, c, h)
      | (.ready (.error f), _) => .error (.stack f)
      | (.ready (.ok _), h) => .ok (true, { c with sent := c.sent + 1, awaiting := true }, h)

/-- Run the client until it waits or is finished, for at most `k` answers. -/
def Client.run (c : Client) (h : Net) : Nat → Step (Bool × Client × Net)
  | 0 => some (.ok (false, c, h))
  | k + 1 =>
    if c.echoed = c.count then some (.ok (true, c, h))
    else match c.sendRequest h with
      | none => none
      | some (.error f) => some (.error f)
      | some (.ok (false, c, h)) => some (.ok (false, c, h))
      | some (.ok (true, c, h)) =>
        match h.recv c.socket clientTask h.mtu with
        | (.pending, h) => some (.ok (false, c, h))
        | (.ready (.error f), _) => some (.error (.stack f))
        | (.ready (.ok r), h) =>
          if r.data = c.request (c.sent - 1) then
            Client.run { c with echoed := c.echoed + 1, awaiting := false } h k
          else some (.error (.mismatch (c.sent - 1)))

/-- The counters of all layers of a host, lowest first. -/
def layerCounters (h : Net) (sockets : List Handle) : List (Layer × Counters) :=
  let layers : List Layer := [.device, .ethernet, .resolver, .loopback, .ipv4, .udp]
  (layers ++ sockets.map Layer.socket).filterMap fun layer => (h.counters? layer).map (layer, ·)

/-- The datagrams that a task can find waiting, and one more try. -/
def rounds : Nat := Limits.socketQueue + 1

/-- Run up to `k` ticks. A task runs in the first tick and whenever it was notified. -/
def ticks (s : Server) (c : Client) (h : Net) (runServer runClient : Bool) (tick : Nat) :
    Nat → Step Score
  | 0 => some (.error (.timeout c.echoed))
  | k + 1 =>
    match h.poll ⟨tick⟩ with
    | none => none
    | some (.error f, _) => some (.error (.stack f))
    | some (.ok _, h) =>
      let (woken, h) := h.takeNotified
      let served := if runServer || woken.contains serverTask then s.run h rounds
        else some (.ok (s, h))
      match served with
      | none => none
      | some (.error f) => some (.error f)
      | some (.ok (s, h)) =>
        let asked := if runClient || woken.contains clientTask then c.run h rounds
          else some (.ok (false, c, h))
        match asked with
        | none => none
        | some (.error f) => some (.error f)
        | some (.ok (true, c, h)) =>
          some (.ok ⟨c.sent, c.echoed, tick, layerCounters h [s.socket, c.socket]⟩)
        | some (.ok (false, c, h)) => ticks s c h false false (tick + 1) k

/-- A host with the sockets of server and client. -/
def assemble (o : Options) : Except EchoFault (Server × Client × Net) := do
  let h ← (Host.create (Device.Loopback.create 8 {}) o.config).mapError .stack
  let (server, h) ← settle h.acquire
  let (_, h) ← settle (h.bind server .unspecified o.port)
  let (client, h) ← settle h.acquire
  let (_, h) ← settle (h.bind client .unspecified o.clientPort)
  return (⟨server, none⟩,
    { socket := client, serverAddr := o.server, serverPort := o.port
      message := o.message.toUTF8.toList, sent := 0, echoed := 0, awaiting := false
      count := o.count }, h)
where
  /-- A call that must not fail. -/
  settle {α : Type} (call : Except Fault α × Net) : Except EchoFault (α × Net) :=
    match call with
    | (.error f, _) => .error (.stack f)
    | (.ok a, h) => .ok (a, h)

/-- The number of ticks that a number of datagrams may take: a hundred for each and a hundred more,
counted as a signed word of 64 bits. -/
def tickLimit (count : Nat) : Nat := (100 * (Int.bmod count UInt64.size + 1) + 1).toNat

/-- Run an exchange. -/
def run (o : Options) : Step Score :=
  match assemble o with
  | .error f => some (.error f)
  | .ok (s, c, h) => ticks s c h true true 0 (tickLimit o.count)

end UdpStack.Echo
