/-
`DeviceNat`: the translator between a device's TCP connections and a listener on
the host, as a table of connections and a rewriting of packets in place.

Packets are byte strings.  A read or a write outside the packet has no result,
so a function of this file that has one stays inside it.
-/
import Yume.Lib.Bytes
import Mathlib.Data.List.AList

namespace Yume.Device

open Yume.Lib

def tcpProtocol : Nat := 6
def udpProtocol : Nat := 17
def ipv4Header : Nat := 20
def ipv6Header : Nat := 40
def tcpHeader : Nat := 20
def udpHeader : Nat := 8
def firstPort : Nat := 1024
def lastPort : Nat := 0xffff
def hopLimit : Nat := 64

/-! ### Tables -/

/-- An address of either family.  IPv4 uses the first four bytes. -/
abbrev DeviceAddress := { bytes : Bytes // bytes.length = 16 }

structure DeviceAddressPair where
  device : DeviceAddress
  peer : DeviceAddress
deriving DecidableEq

structure DeviceNatLimits where
  maxConnections : Nat
  pending : Int
  linger : Int
deriving DecidableEq, Repr

inductive Phase where
  | pending
  | accepted
  | lingering
deriving DecidableEq, Repr

structure Key where
  sourcePort : Nat
  destinationPort : Nat
  destination : DeviceAddress
deriving DecidableEq

/-- A connection.  How often it was accepted and released since it was created
is kept for statements about runs. -/
structure Entry where
  key : Key
  phase : Phase
  expires : Int
  accepts : Nat
  releases : Nat
deriving DecidableEq

/-- The ports that `allocate` hands out. -/
abbrev TranslatedPort := { port : Nat // firstPort ≤ port ∧ port ≤ lastPort }

/-- One address family's connections, by the application's endpoints and by
translated port.  Which family it is, a flag of the source's record, is part of
the type. -/
structure Family (ipv6 : Bool) where
  addresses : DeviceAddressPair
  listenerPort : Nat
  nextPort : TranslatedPort
  ports : AList fun _ : Key => Nat
  entries : AList fun _ : Nat => Entry

structure DeviceTcpOrigin where
  ipv6 : Bool
  destination : DeviceAddress
  destinationPort : Nat
  sourcePort : Nat
deriving DecidableEq

def addressBytes (ipv6 : Bool) : Nat := if ipv6 then 16 else 4

/-- The IP header without options. -/
def headerBytes (ipv6 : Bool) : Nat := if ipv6 then ipv6Header else ipv4Header

/-- The value of an IP header's length field.  IPv6 counts only what follows the
header. -/
def lengthField (ipv6 : Bool) (body : Nat) : Nat := if ipv6 then body else ipv4Header + body

def sourceOffset (ipv6 : Bool) : Nat := if ipv6 then 8 else 12

def destinationOffset (ipv6 : Bool) : Nat := if ipv6 then 24 else 16

/-- `same`: the bytes of an address that its family uses. -/
def same (ipv6 : Bool) (left : Bytes) (right : DeviceAddress) : Bool :=
  left.take (addressBytes ipv6) == right.val.take (addressBytes ipv6)

/-- What `translate_tcp` reads of a segment before it decides. -/
structure Segment where
  destination : DeviceAddress
  sourcePort : Nat
  destinationPort : Nat
  flags : UInt8
deriving DecidableEq

namespace Segment

def fin (segment : Segment) : Bool := segment.flags &&& 0x01 != 0
def syn (segment : Segment) : Bool := segment.flags &&& 0x02 != 0
def rst (segment : Segment) : Bool := segment.flags &&& 0x04 != 0
def ack (segment : Segment) : Bool := segment.flags &&& 0x10 != 0

/-- A SYN without ACK or RST. -/
def opening (segment : Segment) : Bool := segment.flags &&& 0x16 == 0x02

def key (segment : Segment) : Key :=
  { segment with }

end Segment

/-- What becomes of a segment.  `fault` is a lookup that the code expects to
succeed and that does not. -/
inductive Outcome where
  | drop
  | fault
  | reset
  | rewrite (source : DeviceAddress) (sourcePort destinationPort : Nat)
deriving DecidableEq

namespace Family

variable {ipv6 : Bool} (limits : DeviceNatLimits)

def create (ipv6 : Bool) (addresses : DeviceAddressPair) : Family ipv6 where
  addresses := addresses
  listenerPort := 0
  nextPort := ⟨firstPort, by decide⟩
  ports := ∅
  entries := ∅

def size (family : Family ipv6) : Nat := family.entries.keys.length

def portAfter (port : TranslatedPort) : TranslatedPort :=
  if h : port.val = lastPort then ⟨firstPort, by decide⟩
  else ⟨port.val + 1, by have := port.property; omega⟩

/-- The loop of `allocate`. -/
def allocateFrom (key : Key) (now : Int) : Nat → Family ipv6 → Family ipv6 × Option Nat
  | 0, family => (family, none)
  | tries + 1, family =>
    let moved := { family with nextPort := portAfter family.nextPort }
    if family.nextPort.val ∈ family.entries then allocateFrom key now tries moved
    else
      ({ moved with
          entries := family.entries.insert family.nextPort.val
            ⟨key, .pending, now + limits.pending, 0, 0⟩
          ports := family.ports.insert key family.nextPort.val },
        some family.nextPort.val)

def allocate (family : Family ipv6) (key : Key) (now : Int) : Family ipv6 × Option Nat :=
  if limits.maxConnections ≤ family.size then (family, none)
  else allocateFrom limits key now (lastPort - firstPort + 1) family

/-- A SYN on a connection that lingers opens it again. -/
def reopen (family : Family ipv6) (port : Nat) (entry : Entry) (opening : Bool) (now : Int) :
    Family ipv6 :=
  if opening && entry.phase == .lingering then
    { family with
      entries := family.entries.insert port
        { entry with phase := .pending, expires := now + limits.pending } }
  else family

/-- The tables' part of `translate_tcp`. -/
def route (family : Family ipv6) (segment : Segment) (now : Int) : Family ipv6 × Outcome :=
  if same ipv6 segment.destination.val family.addresses.peer then
    -- The listener's answer to a translated connection.
    if segment.sourcePort ≠ family.listenerPort then (family, .drop)
    else
      match family.entries.lookup segment.destinationPort with
      | none => (family, .drop)
      | some entry =>
        (family, .rewrite entry.key.destination entry.key.destinationPort entry.key.sourcePort)
  else if same ipv6 segment.destination.val family.addresses.device ||
      segment.sourcePort == 0 || segment.destinationPort == 0 then (family, .drop)
  else
    match family.ports.lookup segment.key with
    | some port =>
      match family.entries.lookup port with
      | none => (family, .fault)
      | some entry =>
        (family.reopen limits port entry segment.opening now,
          .rewrite family.addresses.peer port family.listenerPort)
    | none =>
      if segment.opening then
        match family.allocate limits segment.key now with
        | (after, some port) => (after, .rewrite family.addresses.peer port family.listenerPort)
        | (after, none) => (after, .drop)
      else if segment.rst then (family, .drop)
      else (family, .reset)

def accept (family : Family ipv6) (port : Nat) : Family ipv6 × Option DeviceTcpOrigin :=
  match family.entries.lookup port with
  | none => (family, none)
  | some entry =>
    ({ family with
        entries := family.entries.insert port
          { entry with phase := .accepted, accepts := entry.accepts + 1 } },
      some ⟨ipv6, entry.key.destination, entry.key.destinationPort, entry.key.sourcePort⟩)

def release (family : Family ipv6) (port : Nat) (now : Int) : Family ipv6 :=
  match family.entries.lookup port with
  | none => family
  | some entry =>
    { family with
      entries := family.entries.insert port { entry with
          phase := .lingering
          expires := now + limits.linger
          releases := entry.releases + 1 } }

/-- Whether `sweep` frees an entry. -/
def expired (entry : Entry) (now : Int) : Bool :=
  entry.phase != .accepted && decide (entry.expires ≤ now)

/-- One entry of `sweep`'s loop. -/
def sweepPort (now : Int) (family : Family ipv6) (port : Nat) : Family ipv6 :=
  match family.entries.lookup port with
  | none => family
  | some entry =>
    if expired entry now then
      { family with
        ports := family.ports.erase entry.key
        entries := family.entries.erase port }
    else family

def sweep (family : Family ipv6) (now : Int) : Family ipv6 :=
  family.entries.keys.foldl (sweepPort now) family

end Family

/-! ### Checksums -/

/-- The loop of `fold`: the carries of a sum added back until none is left. -/
def foldRounds : Nat → Nat → Nat
  | 0, sum => sum
  | rounds + 1, sum =>
    if sum / 65536 = 0 then sum else foldRounds rounds (sum % 65536 + sum / 65536)

/-- Each round makes the sum smaller, so the sum bounds how many there are. -/
def fold (sum : Nat) : Nat := foldRounds sum sum

/-- `sum_words`, unfolded.  The sums of a packet are far below the 64 bits they
are kept in. -/
def sumWords : Bytes → Nat
  | [] => 0
  | [byte] => byte.toNat * 256
  | high :: low :: rest => beNat [high, low] + sumWords rest

/-- `replacement`: what replacing words adds to a checksum's sum. -/
def replacement : Bytes → Bytes → Nat
  | oldHigh :: oldLow :: before, newHigh :: newLow :: after =>
    (0xffff - beNat [oldHigh, oldLow]) + beNat [newHigh, newLow] + replacement before after
  | _, _ => 0

def finish (sum : Nat) : Nat := 0xffff - fold sum

/-- `pseudo_sum`. -/
def pseudoSum (source destination : Bytes) (protocol length : Nat) : Nat :=
  sumWords source + sumWords destination + protocol + length

/-! ### Packets -/

/-- Bytes of a packet, if they are inside it. -/
def span (packet : Bytes) (start length : Nat) : Option Bytes :=
  if start + length ≤ packet.length then some ((packet.drop start).take length) else none

def get8 (packet : Bytes) (start : Nat) : Option UInt8 := packet[start]?

def get16 (packet : Bytes) (start : Nat) : Option Nat := (span packet start 2).map beNat

def get32 (packet : Bytes) (start : Nat) : Option Nat := (span packet start 4).map beNat

/-- A packet with bytes written over it, if they fit in it. -/
def store (packet : Bytes) (start : Nat) (bytes : Bytes) : Option Bytes :=
  if start + bytes.length ≤ packet.length then
    some (packet.take start ++ bytes ++ packet.drop (start + bytes.length))
  else none

def put16 (packet : Bytes) (start value : Nat) : Option Bytes :=
  store packet start (beBytes 2 value)

def put32 (packet : Bytes) (start value : Nat) : Option Bytes :=
  store packet start (beBytes 4 value)

/-- `adjust`: HC' = ~(~HC + ~m + m'). -/
def adjust (packet : Bytes) (start delta : Nat) : Option Bytes := do
  let checksum ← get16 packet start
  put16 packet start (finish ((0xffff - checksum) + delta))

def writeIpHeader (ipv6 : Bool) (packet : Bytes) (protocol body : Nat)
    (source destination : DeviceAddress) (identification : Nat) : Option Bytes :=
  if ipv6 then do
    let packet ← store packet 0 [0x60, 0, 0, 0]
    let packet ← put16 packet 4 body
    let packet ← store packet 6 [UInt8.ofNat protocol, UInt8.ofNat hopLimit]
    let packet ← store packet 8 source.val
    store packet 24 destination.val
  else do
    let packet ← store packet 0 [0x45, 0]
    let packet ← put16 packet 2 (ipv4Header + body)
    let packet ← put16 packet 4 identification
    let packet ← put16 packet 6 0x4000
    let packet ← store packet 8 [UInt8.ofNat hopLimit, UInt8.ofNat protocol]
    let packet ← put16 packet 10 0
    let packet ← store packet 12 (source.val.take 4)
    let packet ← store packet 16 (destination.val.take 4)
    let header ← span packet 0 ipv4Header
    put16 packet 10 (finish (sumWords header))

/-- The reset for a segment out of nowhere, written over the packet.  There is
none for a data offset outside the segment. -/
def writeReset {ipv6 : Bool} (family : Family ipv6) (packet : Bytes) (header : Nat)
    (segment : Segment) (identification : Nat) : Option (Option Bytes) := do
  let data ← get8 packet (header + 12)
  let offset := (data >>> 4).toNat * 4
  if offset < tcpHeader || packet.length - header < offset then some none
  else
    let length := packet.length - header - offset + segment.syn.toNat + segment.fin.toNat
    let acknowledged ← get32 packet (header + 8)
    let first ← get32 packet (header + 4)
    let sequence := if segment.ack then acknowledged else 0
    let acknowledgement := if segment.ack then 0 else first + length
    let start := headerBytes ipv6
    let packet ← writeIpHeader ipv6 packet tcpProtocol tcpHeader segment.destination
      family.addresses.device identification
    let packet ← put16 packet start segment.destinationPort
    let packet ← put16 packet (start + 2) segment.sourcePort
    let packet ← put32 packet (start + 4) sequence
    let packet ← put32 packet (start + 8) acknowledgement
    let packet ← store packet (start + 12) [0x50, if segment.ack then 0x04 else 0x14]
    let packet ← put16 packet (start + 14) 0
    let packet ← put16 packet (start + 16) 0
    let packet ← put16 packet (start + 18) 0
    let reset ← span packet start tcpHeader
    let bytes := addressBytes ipv6
    let packet ← put16 packet (start + 16) (finish (pseudoSum (segment.destination.val.take bytes)
        (family.addresses.device.val.take bytes) tcpProtocol tcpHeader + sumWords reset))
    let written ← span packet 0 (start + tcpHeader)
    some (some written)

/-- The packet of `build_reply`, written into a buffer. -/
def writeReply {ipv6 : Bool} (family : Family ipv6) (out : Bytes) (source : DeviceAddress)
    (sourcePort destinationPort : Nat) (payload : Bytes) (identification : Nat) :
    Option Bytes := do
  let start := headerBytes ipv6
  let body := udpHeader + payload.length
  let packet ← writeIpHeader ipv6 out udpProtocol body source family.addresses.device identification
  let packet ← put16 packet start sourcePort
  let packet ← put16 packet (start + 2) destinationPort
  let packet ← put16 packet (start + 4) body
  let packet ← put16 packet (start + 6) 0
  let packet ← store packet (start + udpHeader) payload
  let udp ← span packet start body
  let bytes := addressBytes ipv6
  let checksum := finish (pseudoSum (source.val.take bytes)
    (family.addresses.device.val.take bytes) udpProtocol body + sumWords udp)
  -- Zero means "no checksum" in UDP, so a computed zero is sent as all ones.
  let packet ← put16 packet (start + 6) (if checksum = 0 then 0xffff else checksum)
  span packet 0 (start + body)

/-- The end of `translate_tcp`: the new endpoints and the checksums they change. -/
def rewrite {ipv6 : Bool} (family : Family ipv6) (packet : Bytes) (header : Nat)
    (source : DeviceAddress) (sourcePort destinationPort : Nat) : Option Bytes := do
  let bytes := addressBytes ipv6
  let newSource := source.val.take bytes
  let newDestination := family.addresses.device.val.take bytes
  let ports := beBytes 2 sourcePort ++ beBytes 2 destinationPort
  let oldSource ← span packet (sourceOffset ipv6) bytes
  let oldDestination ← span packet (destinationOffset ipv6) bytes
  let oldPorts ← span packet header 4
  let addresses := replacement oldSource newSource + replacement oldDestination newDestination
  let packet ← if ipv6 then some packet else adjust packet 10 addresses
  let packet ← adjust packet (header + 16) (addresses + replacement oldPorts ports)
  let packet ← store packet (sourceOffset ipv6) newSource
  let packet ← store packet (destinationOffset ipv6) newDestination
  store packet header ports

/-- The bytes of a packet as an address. -/
def toAddress (bytes : Bytes) : DeviceAddress :=
  ⟨bytes.take 16 ++ List.replicate (16 - bytes.length) 0, by simp; omega⟩

structure DeviceDatagram where
  ipv6 : Bool
  sourcePort : Nat
  destination : DeviceAddress
  destinationPort : Nat
  payload : Bytes
deriving DecidableEq

/-- `DevicePacket`, with what goes with it. -/
inductive DevicePacket where
  | drop
  | fault
  | write (written : Bytes)
  | datagram (datagram : DeviceDatagram)
deriving DecidableEq

structure DeviceNat where
  ipv4 : Option (Family false)
  ipv6 : Option (Family true)
  limits : DeviceNatLimits
  nextIdentification : Nat

namespace DeviceNat

def create (ipv4 ipv6 : Option DeviceAddressPair) (limits : DeviceNatLimits) : DeviceNat where
  ipv4 := ipv4.map (Family.create false)
  ipv6 := ipv6.map (Family.create true)
  limits := limits
  nextIdentification := 1

def family (nat : DeviceNat) : (ipv6 : Bool) → Option (Family ipv6)
  | false => nat.ipv4
  | true => nat.ipv6

def setFamily (nat : DeviceNat) : (ipv6 : Bool) → Family ipv6 → DeviceNat
  | false, family => { nat with ipv4 := some family }
  | true, family => { nat with ipv6 := some family }

def setListenerPorts (nat : DeviceNat) (ipv4 ipv6 : Nat) : DeviceNat :=
  { nat with
    ipv4 := nat.ipv4.map fun family => { family with listenerPort := ipv4 }
    ipv6 := nat.ipv6.map fun family => { family with listenerPort := ipv6 } }

/-- What `translate_tcp` reads before it looks at the tables. -/
def readSegment (ipv6 : Bool) (packet : Bytes) (header : Nat) : Option Segment := do
  let destination ← span packet (destinationOffset ipv6) (addressBytes ipv6)
  let sourcePort ← get16 packet header
  let destinationPort ← get16 packet (header + 2)
  let flags ← get8 packet (header + 13)
  some ⟨toAddress destination, sourcePort, destinationPort, flags⟩

def translateTcp (nat : DeviceNat) {ipv6 : Bool} (family : Family ipv6) (packet : Bytes)
    (header : Nat) (now : Int) : Option (DeviceNat × DevicePacket) :=
  if packet.length - header < tcpHeader || family.listenerPort == 0 then some (nat, .drop)
  else do
    let segment ← readSegment ipv6 packet header
    let (after, outcome) := family.route nat.limits segment now
    let moved := nat.setFamily ipv6 after
    match outcome with
    | .drop => some (moved, .drop)
    | .fault => some (moved, .fault)
    | .reset =>
      match ← writeReset family packet header segment nat.nextIdentification with
      | none => some (moved, .drop)
      | some written =>
        some ({ moved with nextIdentification := (nat.nextIdentification + 1) % 65536 },
          .write written)
    | .rewrite source sourcePort destinationPort =>
      let written ← rewrite family packet header source sourcePort destinationPort
      some (moved, .write written)

/-- The UDP part of `translate`. -/
def readDatagram {ipv6 : Bool} (family : Family ipv6) (packet : Bytes) (header : Nat) :
    Option DevicePacket := do
  let length ← get16 packet (header + 4)
  let destination ← span packet (destinationOffset ipv6) (addressBytes ipv6)
  if length ≤ udpHeader || packet.length - header < length ||
      same ipv6 destination family.addresses.peer ||
      same ipv6 destination family.addresses.device then some .drop
  else
    let sourcePort ← get16 packet header
    let destinationPort ← get16 packet (header + 2)
    let payload ← span packet (header + udpHeader) (length - udpHeader)
    if sourcePort == 0 || destinationPort == 0 then some .drop
    else
      some (.datagram ⟨ipv6, sourcePort, toAddress destination, destinationPort, payload⟩)

/-- The IP header: where the body starts, the total length and the protocol. -/
structure IpHeader where
  header : Nat
  total : Nat
  protocol : Nat
deriving DecidableEq, Repr

/-- The header of a packet, or nothing for one that is dropped. -/
def readIpHeader (ipv6 : Bool) (packet : Bytes) : Option (Option IpHeader) :=
  if ipv6 then
    if packet.length < ipv6Header then some none
    else do
      let payload ← get16 packet 4
      let protocol ← get8 packet 6
      some (some ⟨ipv6Header, ipv6Header + payload, protocol.toNat⟩)
  else
    if packet.length < ipv4Header then some none
    else do
      let first ← get8 packet 0
      let total ← get16 packet 2
      let fragment ← get16 packet 6
      let protocol ← get8 packet 9
      -- More-fragments or a fragment offset.
      if fragment % 0x4000 != 0 then some none
      else some (some ⟨(first &&& 0x0f).toNat * 4, total, protocol.toNat⟩)

def translate (nat : DeviceNat) (packet : Bytes) (now : Int) : Option (DeviceNat × DevicePacket) :=
  if packet.isEmpty then some (nat, .drop)
  else do
    let first ← get8 packet 0
    let version := (first >>> 4).toNat
    let ipv6 := version == 6
    if version != 4 && version != 6 then some (nat, .drop)
    else
      match nat.family ipv6 with
      | none => some (nat, .drop)
      | some family =>
        match ← readIpHeader ipv6 packet with
        | none => some (nat, .drop)
        | some ip =>
          if ip.header < headerBytes ipv6 ||
              ip.total < ip.header || packet.length < ip.total then some (nat, .drop)
          else
            let body := packet.take ip.total
            let source ← span body (sourceOffset ipv6) (addressBytes ipv6)
            if !same ipv6 source family.addresses.device then some (nat, .drop)
            else if ip.protocol == tcpProtocol then nat.translateTcp family body ip.header now
            else if ip.protocol != udpProtocol || ip.total - ip.header < udpHeader then
              some (nat, .drop)
            else
              let datagram ← readDatagram family body ip.header
              some (nat, datagram)

def accept (nat : DeviceNat) (ipv6 : Bool) (port : Nat) : DeviceNat × Option DeviceTcpOrigin :=
  match nat.family ipv6 with
  | none => (nat, none)
  | some family => (nat.setFamily ipv6 (family.accept port).1, (family.accept port).2)

def release (nat : DeviceNat) (ipv6 : Bool) (port : Nat) (now : Int) : DeviceNat :=
  match nat.family ipv6 with
  | none => nat
  | some family => nat.setFamily ipv6 (family.release nat.limits port now)

def sweep (nat : DeviceNat) (now : Int) : DeviceNat :=
  { nat with
    ipv4 := nat.ipv4.map (Family.sweep · now)
    ipv6 := nat.ipv6.map (Family.sweep · now) }

/-- `build_reply` into a buffer: the packet, or nothing if it is refused. -/
def buildReply (nat : DeviceNat) (ipv6 : Bool) (source : DeviceAddress)
    (sourcePort destinationPort : Nat) (payload : Bytes) (mtu : Nat) (out : Bytes) :
    Option (DeviceNat × Option Bytes) :=
  let body := udpHeader + payload.length
  let total := headerBytes ipv6 + body
  match nat.family ipv6 with
  | none => some (nat, none)
  | some family =>
    if payload.isEmpty || mtu < total || out.length < total ||
        0xffff < lengthField ipv6 body then some (nat, none)
    else do
      let written ← writeReply family out source sourcePort destinationPort payload
        nat.nextIdentification
      some ({ nat with nextIdentification := (nat.nextIdentification + 1) % 65536 }, some written)

end DeviceNat

end Yume.Device
