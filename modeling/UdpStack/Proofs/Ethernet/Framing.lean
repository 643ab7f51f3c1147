/-
What one Ethernet layer frames, another one opens. Sending stacks the header in one pass and appends padding and
check sequence in a second one; the frame that comes of it has the header, the content and the trailer in this
order whatever lies around it in the buffer (`frames_content`). A layer with the same setting that takes the
address finds the content again, with the padding and without the check sequence (`framing_round_trip`). The type
of the content travels as its number, so it has to be the type that is read from that number: a known number
that was registered as one without a meaning is not found again (`framing_unread`).
-/
import UdpStack.Proofs.Bounded.Map
import UdpStack.Proofs.Ethernet.Endpoint

namespace UdpStack.Ethernet.Endpoint

open Bounded Octets

/-! ## What was registered -/

/-- Endpoints by the types of content that were registered and not taken back since, the first one first.
Everything else about an endpoint may be any: its address, its groups, its setting and its counters. -/
inductive Registered : Endpoint → List (EtherType × Layer) → Prop where
  | create (addr : Address) : Registered (.create addr) []
  | register {e e' types etherType layer} : Registered e types → e.register etherType layer = .ok e' →
      Registered e' (types ++ [(etherType, layer)])
  | unregister {e e' types etherType layer} : Registered e types → e.unregister etherType = .ok (layer, e') →
      Registered e' (types.filter fun p => decide (p.1 ≠ etherType))
  | other {e e' types} : Registered e types → e'.etherTypes = e.etherTypes → Registered e' types

theorem Registered.holds {e : Endpoint} {types : List (EtherType × Layer)} (h : Registered e types) :
    e.etherTypes.Holds types := by
  induction h with
  | create => exact Map.empty_holds
  | register _ he ih =>
    obtain ⟨m, rfl, hm⟩ := ih.insert_map he
    exact hm
  | unregister _ he ih =>
    unfold Endpoint.unregister at he
    split at he
    · rename_i hr
      cases he
      exact ih.remove hr
    · cases he
  | other _ he ih =>
    rw [he]
    exact ih

/-! ## Sending -/

/-- The frame of some content: the header, the content, and what is put behind them. -/
def framed (e : Endpoint) (hardware : Address) (etherType : EtherType) (content : Octets) : Octets :=
  Header.octets ⟨hardware, e.addr, etherType⟩ ++ content ++
    trailer e.checked (Header.octets ⟨hardware, e.addr, etherType⟩ ++ content)

theorem padding_header (h : Header) (content : Octets) :
    padding (h.octets ++ content) = List.replicate (46 - content.length) 0 := by
  have hlen : Header.minFrame - (h.octets ++ content).length = 46 - content.length := by
    have hmin : Header.minFrame = 60 := rfl
    have hsize : Header.size = 14 := rfl
    rw [List.length_append, Header.length_octets]
    omega
  unfold padding
  rw [hlen]

theorem length_trailer_header (checked : Bool) (h : Header) (content : Octets) :
    (trailer checked (h.octets ++ content)).length = 46 - content.length + (if checked then 4 else 0) := by
  unfold trailer
  rw [padding_header]
  cases checked with
  | false => simp
  | true =>
    rw [if_pos rfl, List.length_append, List.length_replicate]
    rfl

/-- Both passes of sending make the frame, if there is room for the header, the padding and the check
sequence. -/
theorem frames_content {e : Endpoint} {r r' : Arp.Resolver} {now : Instant} {t : Transit} {caller : Layer}
    {etherType : EtherType} {hardware : Address} {content : Octets}
    (ht : e.etherTypes.keyOf? caller = some etherType) (hr : resolve r t.info now = (.ok hardware, r'))
    (hcontent : t.packet.frame? = some content) (hfront : 14 ≤ t.packet.headerRoom)
    (hback : t.packet.write + (46 - content.length) + (if e.checked then 4 else 0) ≤ t.packet.capacity) :
    ∃ p q, e.transmitPass r now t caller = (.ok (.layer .device), r',
        ⟨p, { t.info with srcLink := some e.addr, dstLink := some hardware }⟩) ∧
      e.finishPass p = some (.ok .pass, q) ∧ q.frame? = some (e.framed hardware etherType content) := by
  have hf := Packet.framed_of_frame? hcontent
  have hroom : 14 ≤ (t.packet.bytes.take t.packet.header).length := by
    rw [← hf.header]
    exact hfront
  obtain ⟨p, hp, hpf, -⟩ := transmitPass_of_framed hf ht hr hroom
  obtain ⟨q, hq, hqf, -⟩ := finishPass_of_framed (e := e) hpf (by
    rw [length_trailer_header, List.length_drop]
    unfold Packet.capacity at hback
    omega)
  exact ⟨p, q, hp, hq, hqf.frame?⟩

/-! ## Receiving -/

/-- A frame to an address that is taken is opened: the addresses of its header are noted, and the content is
left with its padding. -/
theorem opens_framed {sender receiver : Endpoint} {hardware : Address} {etherType : EtherType} {upper : Layer}
    {content : Octets} (hchecked : receiver.checked = sender.checked) (haccepts : receiver.accepts hardware = true)
    (ht : receiver.etherTypes.get? (.ofWord etherType.toWord) = some upper) {t : Transit}
    (hu : t.packet.unread? = some (sender.framed hardware etherType content)) :
    ∃ p, receiver.receivePass t = some (.ok (.layer upper),
        ⟨p, { t.info with srcLink := some sender.addr, dstLink := some hardware }⟩) ∧
      p.unread? = some (content ++ List.replicate (46 - content.length) 0) := by
  have htakes : receiver.Takes (sender.framed hardware etherType content) upper := by
    unfold framed
    rw [← hchecked]
    exact takes_trailer rfl haccepts ht
  have hbody : (receiver.body (sender.framed hardware etherType content)).drop 14 =
      content ++ List.replicate (46 - content.length) 0 := by
    unfold framed
    rw [← hchecked, body_trailer, padding_header, List.append_assoc]
    rfl
  rcases receivePass_cases (e := receiver) hu with ⟨other, p, hother, he, hp, -⟩ | ⟨_, _, -, -, -, hnone⟩
  · obtain rfl : other = upper := by
      have := hother.content
      rw [htakes.content] at this
      cases this
      rfl
    exact ⟨p, he, hp.trans (congrArg some hbody)⟩
  · exact absurd htakes (hnone upper)

/-- What a layer sends under the first type that is registered for it comes out of its frame again. The content may
stand anywhere in the buffer, as long as there is room around it; the address is given or found; the type is the
one that is read from its number; and the receiver has the same setting for check sequences, takes the address and
maps the type. It then notes both addresses and leaves exactly the content and the zero bytes of the padding. -/
theorem framing_round_trip {sender receiver : Endpoint} {before after : List (EtherType × Layer)}
    {etherType : EtherType} {caller upper : Layer} {r r' : Arp.Resolver} (now : Instant) {t : Transit}
    {hardware : Address} {content : Octets}
    (hregistered : Registered sender (before ++ (etherType, caller) :: after))
    (hfirst : ∀ p ∈ before, p.2 ≠ caller)
    (hmapped : receiver.etherTypes.get? etherType = some upper) (hread : .ofWord etherType.toWord = etherType)
    (hchecked : receiver.checked = sender.checked)
    (hlink : (t.info.dstLink = some hardware ∧ r' = r) ∨
      (t.info.dstLink = none ∧ r.lookup t.info.dstAddr t.info.task now = (.ok hardware, r')))
    (haccepts : receiver.accepts hardware = true) (hcontent : t.packet.frame? = some content)
    (hfront : 14 ≤ t.packet.headerRoom)
    (hback : t.packet.write + (46 - content.length) + (if sender.checked then 4 else 0) ≤ t.packet.capacity) :
    ∃ p q frame, sender.transmitPass r now t caller = (.ok (.layer .device), r',
        ⟨p, { t.info with srcLink := some sender.addr, dstLink := some hardware }⟩) ∧
      sender.finishPass p = some (.ok .pass, q) ∧ q.frame? = some frame ∧
      (sender.checked = true → CheckSequence.verify frame = .ok ()) ∧
      ∀ t' : Transit, t'.packet.unread? = some frame →
        ∃ p', receiver.receivePass t' = some (.ok (.layer upper),
            ⟨p', { t'.info with srcLink := some sender.addr, dstLink := some hardware }⟩) ∧
          p'.unread? = some (content ++ List.replicate (46 - content.length) 0) := by
  have hr : resolve r t.info now = (.ok hardware, r') := by
    unfold resolve
    rcases hlink with ⟨hgiven, rfl⟩ | ⟨hnone, hfound⟩
    · rw [hgiven]
    · rw [hnone]
      exact hfound
  have ht := hregistered.holds.keyOf?_eq_some hfirst
  obtain ⟨p, q, hp, hq, hframe⟩ := frames_content ht hr hcontent hfront hback
  rw [← hread] at hmapped
  refine ⟨p, q, _, hp, hq, hframe, ?_, fun t' hu => opens_framed hchecked haccepts hmapped hu⟩
  intro hc
  unfold framed
  rw [hc]
  exact verify_trailer _

/-- An endpoint with check sequences that handles one type of content. -/
def checking (addr : Address) (etherType : EtherType) : Except Fault Endpoint :=
  ((create addr).register etherType .ipv4).map fun e => { e with checked := true }

theorem checking_ok (addr : Address) (etherType : EtherType) : ∃ e, checking addr etherType = .ok e ∧
    Registered e [(etherType, .ipv4)] ∧ e.addr = addr ∧ e.checked = true :=
  ⟨_, rfl, .other (.register (.create addr) rfl) rfl, rfl, rfl⟩

/-- Two bytes of content for another endpoint, in a buffer that has just room for their frame. -/
def twoBytes : Transit where
  packet := {
    bytes := List.replicate 14 7 ++ [0xca, 0xfe] ++ List.replicate 48 9
    header := 14
    boundary := 14
    read := 14
    write := 16 }
  info := { dstLink := some ⟨2, 0, 0, 0, 0, 2⟩ }

/-- The other endpoint finds them in front of 44 bytes of padding. -/
theorem framing_round_trip_padded : ∃ sender receiver, checking ⟨2, 0, 0, 0, 0, 1⟩ .ipv4 = .ok sender ∧
    checking ⟨2, 0, 0, 0, 0, 2⟩ .ipv4 = .ok receiver ∧
    ∃ p q frame, (sender.transmitPass .derived ⟨0⟩ twoBytes .ipv4).2.2.packet = p ∧
      sender.finishPass p = some (.ok .pass, q) ∧ q.frame? = some frame ∧
      CheckSequence.verify frame = .ok () ∧
      ∀ t' : Transit, t'.packet.unread? = some frame →
        ∃ p', receiver.receivePass t' = some (.ok (.layer .ipv4),
            ⟨p', { t'.info with srcLink := some ⟨2, 0, 0, 0, 0, 1⟩, dstLink := some ⟨2, 0, 0, 0, 0, 2⟩ }⟩) ∧
          p'.unread? = some ([0xca, 0xfe] ++ List.replicate 44 0) := by
  obtain ⟨sender, hs, hregistered, haddr, hsender⟩ := checking_ok ⟨2, 0, 0, 0, 0, 1⟩ .ipv4
  obtain ⟨receiver, hr, htypes, haddr', hreceiver⟩ := checking_ok ⟨2, 0, 0, 0, 0, 2⟩ .ipv4
  have hfirst : Registered sender ([] ++ (.ipv4, .ipv4) :: []) := hregistered
  have hmapped : receiver.etherTypes.get? .ipv4 = some .ipv4 :=
    htypes.holds.get?_eq_some_iff.2 (List.mem_singleton.2 rfl)
  have haccepts : receiver.accepts ⟨2, 0, 0, 0, 0, 2⟩ = true := by
    unfold accepts
    rw [haddr']
    rfl
  have hcontent : twoBytes.packet.frame? = some [0xca, 0xfe] := by decide
  have hback : twoBytes.packet.write + (46 - [0xca, 0xfe].length) + (if sender.checked then 4 else 0) ≤
      twoBytes.packet.capacity := by
    rw [hsender]
    decide
  obtain ⟨p, q, frame, hp, hq, hframe, hverify, hreceive⟩ := framing_round_trip (r := .derived) ⟨0⟩ hfirst nofun
    hmapped rfl (hreceiver.trans hsender.symm) (.inl ⟨rfl, rfl⟩) haccepts hcontent (by decide) hback
  rw [haddr] at hreceive
  exact ⟨sender, receiver, hs, hr, p, q, frame, by rw [hp], hq, hframe, hverify hsender, hreceive⟩

/-- Two endpoints that name the same number without its meaning: the frame is sent under the number, what is read from
it has the meaning, and nobody is registered for that. -/
theorem framing_unread : (do
    let sender ← (checking ⟨2, 0, 0, 0, 0, 1⟩ (.unknown 0x0800)).toOption
    let receiver ← (checking ⟨2, 0, 0, 0, 0, 2⟩ (.unknown 0x0800)).toOption
    let (.ok (.layer .device), _, t) := sender.transmitPass .derived ⟨0⟩ twoBytes .ipv4 | none
    let (.ok .pass, p) ← sender.finishPass t.packet | none
    let frame ← p.frame?
    let (.error fault, _) ← receiver.receivePass ⟨⟨frame, 0, 0, 0, frame.length⟩, {}⟩ | none
    some (sender.etherTypes.keyOf? .ipv4, receiver.etherTypes.get? (.unknown 0x0800),
      receiver.checked == sender.checked, receiver.accepts ⟨2, 0, 0, 0, 0, 2⟩, fault)) =
    some (some (.unknown 0x0800), some .ipv4, true, true, .unreachable) := by
  decide +kernel

end UdpStack.Ethernet.Endpoint
