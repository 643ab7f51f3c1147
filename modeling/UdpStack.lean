import UdpStack.Main
import UdpStack.Proofs.Arp.Ending
import UdpStack.Proofs.Arp.Failures
import UdpStack.Proofs.Arp.Pacing
import UdpStack.Proofs.Arp.Waiters
import UdpStack.Proofs.Bounded.Map
import UdpStack.Proofs.Bounded.Pool
import UdpStack.Proofs.Bounded.Queue
import UdpStack.Proofs.Echo.Exchange
import UdpStack.Proofs.Host.Bindings
import UdpStack.Proofs.Host.Buffers
import UdpStack.Proofs.Host.Drains
import UdpStack.Proofs.Host.Flow
import UdpStack.Proofs.Host.Groups
import UdpStack.Proofs.Host.Handshake
import UdpStack.Proofs.Host.Notices
import UdpStack.Proofs.Host.Released
import UdpStack.Proofs.Host.Restriction
import UdpStack.Proofs.Host.Safety
import UdpStack.Proofs.Host.SendLimit
import UdpStack.Proofs.Ipv4.History
import UdpStack.Proofs.Packet.Cursors
import UdpStack.Proofs.Udp.Fifo
import UdpStack.Proofs.Udp.Waiting
import UdpStack.Proofs.Ipv4.Reception
import UdpStack.Proofs.Udp.Reception
import UdpStack.Proofs.Ethernet.Framing
import UdpStack.Proofs.Arp.Eviction
import UdpStack.Proofs.Arp.Lookups
import UdpStack.Proofs.Checksum.Sums
import UdpStack.Proofs.Ipv4.HeaderChecksum
import UdpStack.Proofs.Udp.Checksum
import UdpStack.Proofs.Ethernet.CheckSequence
import UdpStack.Proofs.Arp.Encoding
import UdpStack.Proofs.Fields.Internet
import UdpStack.Proofs.Packet.Stacking
import UdpStack.Proofs.Packet.Stream
import UdpStack.Proofs.Bounded.Isolation
import UdpStack.Proofs.Device.Fifo
import UdpStack.Proofs.Ethernet.AddressText
import UdpStack.Proofs.Ethernet.AddressRoundTrip
import UdpStack.Proofs.Ipv4.Prefixes
import UdpStack.Proofs.Bounded.Rings
import UdpStack.Proofs.Bounded.Tables
