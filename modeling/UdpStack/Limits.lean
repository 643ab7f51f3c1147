/-
The sizes of all tables, queues and buffers. Nothing grows beyond them.
-/

namespace UdpStack.Limits

/-- Routes of one host. -/
def routes : Nat := 8

/-- Addresses for which a host takes datagrams. -/
def incoming : Nat := 12

/-- Protocols above the internet protocol. -/
def protocols : Nat := 4

/-- Kinds of frame content. -/
def etherTypes : Nat := 4

/-- Hardware addresses of multicast groups. -/
def groups : Nat := 4

/-- Sockets of one host. -/
def sockets : Nat := 4

/-- Datagrams that wait in one socket. -/
def socketQueue : Nat := 4

/-- Payload bytes kept of a waiting datagram. -/
def datagramBytes : Nat := 512

/-- Neighbors whose hardware address is kept or asked for. -/
def neighbors : Nat := 8

/-- Tasks that wait for a hardware address. -/
def waiters : Nat := 4

/-- Messages that wait to be sent by the resolver. -/
def outbox : Nat := 4

/-- Tasks that wait to be notified: one for each socket and one for each waiter of the resolver. -/
def wakeups : Nat := sockets + waiters

/-- Bytes kept free in front of a payload: the three headers of a datagram on the wire. -/
def headerRoom : Nat := 14 + 20 + 8

/-- The size of a frame buffer: headers, the largest content and a check sequence. -/
def frameBuffer : Nat := headerRoom + 1500 + 4

/-- Layers that one packet passes in one direction. -/
def depth : Nat := 8

end UdpStack.Limits
