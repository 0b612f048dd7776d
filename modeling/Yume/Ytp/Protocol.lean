/-
The values that YTP/1 payloads carry and the checks their codecs share:
service names, canonical DNS names and route destinations.
-/
import Yume.Lib.Bytes

namespace Yume.Ytp

open Yume.Lib List

def wireVersion : UInt8 := 1
def maxServiceNameBytes : Nat := 128
def maxDnsNameBytes : Nat := 253
def maxDnsLabelBytes : Nat := 63
def maxOpenPayload : Nat := 512

/-- The error codes of the codecs modelled here. -/
inductive ErrorCode where
  | truncated
  | trailingData
  | unsupportedVersion
  | invalidFlags
  | payloadTooLarge
  | invalidLength
  | invalidEnum
  | invalidUtf8
  | invalidServiceName
  | invalidDestination
  | invalidPort
  | duplicateField
  | outOfOrderField
  | unknownCriticalField
  | tooManyFields
  | missingField
  | invalidField
  | outputTooSmall
  | overlappingBuffer
deriving Repr, DecidableEq

/-- A failed `Status`: its code and the offset of the first error. -/
structure Failure where
  code : ErrorCode
  offset : Nat := 0
deriving Repr, DecidableEq

abbrev Result := Except Failure

/-- `ServiceKind`: an enumeration over one byte.  A cast can hold any byte, so
the codecs check it. -/
structure ServiceKind where
  wire : UInt8
deriving Repr, DecidableEq

/-- `TransportProtocol`. -/
structure TransportProtocol where
  wire : UInt8
deriving Repr, DecidableEq

/-- `AddressKind`. -/
structure AddressKind where
  wire : UInt8
deriving Repr, DecidableEq

namespace ServiceKind

def byteStream : ServiceKind := ⟨1⟩
def packet : ServiceKind := ⟨2⟩

def isKnown (kind : ServiceKind) : Bool := kind == byteStream || kind == packet

end ServiceKind

namespace TransportProtocol

def none : TransportProtocol := ⟨0⟩
def tcp : TransportProtocol := ⟨1⟩
def udp : TransportProtocol := ⟨2⟩

def isKnown (transport : TransportProtocol) : Bool :=
  transport == none || transport == tcp || transport == udp

end TransportProtocol

namespace AddressKind

def none : AddressKind := ⟨0⟩
def ipv4 : AddressKind := ⟨1⟩
def ipv6 : AddressKind := ⟨2⟩
def dns : AddressKind := ⟨3⟩

def isKnown (kind : AddressKind) : Bool :=
  kind == none || kind == ipv4 || kind == ipv6 || kind == dns

end AddressKind

/-- The fixed sixteen bytes of a binary address. -/
structure Address where
  bytes : Bytes
  size : bytes.length = 16
deriving DecidableEq

/-- An address that starts with these bytes and is zero behind them. -/
def Address.ofPrefix (bytes : Bytes) (h : bytes.length ≤ 16) : Address where
  bytes := bytes ++ List.replicate (16 - bytes.length) 0
  size := by simp; omega

def Address.zero : Address := .ofPrefix [] (by decide)

structure Destination where
  transport : TransportProtocol := .none
  addressKind : AddressKind := .none
  address : Address := .zero
  addressLength : UInt8 := 0
  dnsName : Bytes := []
  port : UInt16 := 0
deriving DecidableEq

structure OpenRequest where
  serviceKind : ServiceKind := .byteStream
  serviceName : Bytes
  destination : Destination := {}
deriving DecidableEq

def isAllZero (bytes : Bytes) : Bool := bytes.foldl (· ||| ·) 0 == 0

def isLowerAlphanumeric (byte : UInt8) : Bool :=
  (decide (97 ≤ byte) && decide (byte ≤ 122)) ||
    (decide (48 ≤ byte) && decide (byte ≤ 57))

def dot : UInt8 := 46
def hyphen : UInt8 := 45
def underscore : UInt8 := 95

/-- The loop of `valid_service_name`, with its two flags. -/
def serviceNameLoop : Bytes → Bool → Bool → Bool
  | [], atSegmentStart, previousAlphanumeric =>
    !atSegmentStart && previousAlphanumeric
  | byte :: rest, atSegmentStart, previousAlphanumeric =>
    if isLowerAlphanumeric byte then serviceNameLoop rest false true
    else if byte = dot then
      if atSegmentStart || !previousAlphanumeric then false
      else serviceNameLoop rest true false
    else if byte = hyphen ∨ byte = underscore then
      if atSegmentStart then false
      else serviceNameLoop rest atSegmentStart false
    else false

/-- `IsValidServiceName`. -/
def isValidServiceName (name : Bytes) : Bool :=
  !name.isEmpty && decide (name.length ≤ maxServiceNameBytes) && serviceNameLoop name true false

/-- A DNS label: one to 63 bytes that neither start nor end with a hyphen. -/
def isDnsLabel (label : Bytes) : Bool :=
  !label.isEmpty && decide (label.length ≤ maxDnsLabelBytes) &&
    label.head? != some hyphen && label.getLast? != some hyphen

/-- The loop of `IsCanonicalDnsName` over the rest of the name and the label
read so far. -/
def dnsLoop : Bytes → Bytes → Bool
  | [], label => isDnsLabel label
  | byte :: rest, label =>
    if byte ≠ dot then
      if isLowerAlphanumeric byte || byte == hyphen then
        dnsLoop rest (label ++ [byte])
      else false
    else if isDnsLabel label then dnsLoop rest []
    else false

/-- `IsCanonicalDnsName`. -/
def isCanonicalDnsName (name : Bytes) : Bool :=
  !name.isEmpty && decide (name.length ≤ maxDnsNameBytes) &&
    name.head? != some dot && name.getLast? != some dot && dnsLoop name []

/-- A destination without a route has no other field set. -/
def Destination.isAbsent (destination : Destination) : Bool :=
  destination.transport == .none && destination.addressKind == .none &&
    destination.port == 0 && destination.addressLength == 0 &&
    destination.dnsName.isEmpty && isAllZero destination.address.bytes

/-- `ValidateDestination`. -/
def validateDestination (serviceKind : ServiceKind) (destination : Destination) : Result Unit :=
  if ¬ serviceKind.isKnown ∨ ¬ destination.transport.isKnown ∨
      ¬ destination.addressKind.isKnown then
    .error ⟨.invalidEnum, 0⟩
  else if destination.transport = .none ∨ destination.addressKind = .none then
    if destination.isAbsent then .ok () else .error ⟨.invalidDestination, 0⟩
  else if (serviceKind = .byteStream ∧ destination.transport ≠ .tcp) ∨
      (serviceKind = .packet ∧ destination.transport ≠ .udp) then
    .error ⟨.invalidDestination, 0⟩
  else if destination.port = 0 then .error ⟨.invalidPort, 0⟩
  else if destination.addressKind = .ipv4 then
    if destination.addressLength ≠ 4 ∨ ¬ destination.dnsName.isEmpty ∨
        ¬ isAllZero (destination.address.bytes.drop 4) then
      .error ⟨.invalidDestination, 0⟩
    else .ok ()
  else if destination.addressKind = .ipv6 then
    if destination.addressLength ≠ 16 ∨ ¬ destination.dnsName.isEmpty then
      .error ⟨.invalidDestination, 0⟩
    else .ok ()
  else if destination.addressKind = .dns then
    if destination.addressLength ≠ 0 ∨ ¬ isAllZero destination.address.bytes ∨
        ¬ isCanonicalDnsName destination.dnsName then
      .error ⟨.invalidDestination, 0⟩
    else .ok ()
  else .error ⟨.invalidDestination, 0⟩

theorem isValidServiceName_length {name : Bytes} (h : isValidServiceName name = true) :
    name.length ≠ 0 ∧ name.length ≤ maxServiceNameBytes := by
  simp only [isValidServiceName, Bool.and_eq_true, Bool.not_eq_true',
    isEmpty_eq_false_iff, decide_eq_true_eq] at h
  exact ⟨fun hzero => h.1.1 (length_eq_zero_iff.mp hzero), h.1.2⟩

theorem isCanonicalDnsName_length {name : Bytes} (h : isCanonicalDnsName name = true) :
    name.length ≤ maxDnsNameBytes := by
  simp only [isCanonicalDnsName, Bool.and_eq_true, decide_eq_true_eq] at h
  exact h.1.1.1.2

/-- Zero bytes are the only ones whose disjunction is zero. -/
theorem isAllZero_iff (bytes : Bytes) :
    isAllZero bytes = true ↔ bytes = List.replicate bytes.length 0 := by
  have hfold : ∀ (rest : Bytes) (acc : UInt8), rest.foldl (· ||| ·) acc = 0 ↔
      acc = 0 ∧ rest = List.replicate rest.length 0 := by
    intro rest
    induction rest with
    | nil => simp
    | cons byte rest ih =>
      intro acc
      rw [foldl_cons, ih, length_cons, replicate_succ, List.cons.injEq,
        UInt8.or_eq_zero_iff, and_assoc]
  rw [isAllZero, beq_iff_eq, hfold]
  simp

/-- An address whose tail is zero is the padding of its first bytes. -/
theorem Address.eq_ofPrefix (address : Address) (bytes : Bytes) (h : bytes.length ≤ 16)
    (htake : address.bytes.take bytes.length = bytes)
    (hzero : isAllZero (address.bytes.drop bytes.length) = true) :
    Address.ofPrefix bytes h = address := by
  rw [isAllZero_iff, length_drop, address.size] at hzero
  rw [Address.mk.injEq]
  conv_rhs => rw [← take_append_drop bytes.length address.bytes, htake, hzero]
  rfl

/-- The two cases of a destination that passes its check. -/
inductive Destination.Valid (kind : ServiceKind) : Destination → Prop where
  | absent : Destination.Valid kind {}
  | ipv4 {transport port bytes} (h : bytes.length = 4) :
    transport ≠ .none → transport.isKnown = true → port ≠ 0 →
    Destination.Valid kind
      { transport := transport, addressKind := .ipv4, port := port
        address := .ofPrefix bytes (by omega), addressLength := 4 }
  | ipv6 {transport port address} :
    transport ≠ .none → transport.isKnown = true → port ≠ 0 →
    Destination.Valid kind
      { transport := transport, addressKind := .ipv6, port := port
        address := address, addressLength := 16 }
  | dns {transport port name} :
    transport ≠ .none → transport.isKnown = true → port ≠ 0 →
    isCanonicalDnsName name = true →
    Destination.Valid kind
      { transport := transport, addressKind := .dns, port := port
        dnsName := name }

theorem Destination.isAbsent_iff (destination : Destination) :
    destination.isAbsent = true ↔ destination = {} := by
  constructor
  · intro h
    obtain ⟨transport, kind, address, length, name, port⟩ := destination
    simp only [isAbsent, Bool.and_eq_true, beq_iff_eq, List.isEmpty_iff] at h
    obtain ⟨⟨⟨⟨⟨rfl, rfl⟩, rfl⟩, rfl⟩, rfl⟩, hzero⟩ := h
    rw [← Address.eq_ofPrefix address [] (by decide) rfl hzero]
    rfl
  · rintro rfl
    decide

theorem validateDestination_valid {kind : ServiceKind} {destination : Destination}
    (h : validateDestination kind destination = .ok ()) :
    kind.isKnown = true ∧ destination.Valid kind := by
  unfold validateDestination at h
  split_ifs at h with hknown habsent hzero htransport hport h4 h4' h6 h6' hdns hdns'
  · simp only [not_or, not_not] at hknown
    exact ⟨hknown.1, (destination.isAbsent_iff.mp hzero) ▸ .absent⟩
  all_goals
    simp only [not_or, not_not, List.isEmpty_iff] at *
    refine ⟨hknown.1, ?_⟩
    obtain ⟨transport, addressKind, address, length, name, port⟩ := destination
    dsimp only at *
  · obtain ⟨rfl, rfl, hzero⟩ := h4'
    subst h4
    have htake : (address.bytes.take 4).length = 4 := by simp [address.size]
    rw [← Address.eq_ofPrefix address (address.bytes.take 4) (by omega) (by rw [htake])
      (by rw [htake]; exact hzero)]
    exact .ipv4 htake habsent.1 hknown.2.1 hport
  · obtain ⟨rfl, rfl⟩ := h6'
    subst h6
    exact .ipv6 habsent.1 hknown.2.1 hport
  · obtain ⟨rfl, hzero, hname⟩ := hdns'
    subst hdns
    rw [← Address.eq_ofPrefix address [] (by decide) rfl hzero]
    exact .dns habsent.1 hknown.2.1 hport hname

end Yume.Ytp
