/-
The OPEN payload: `EncodeOpen`, `DecodeOpen` and the exactness of the codec.
-/
import Yume.Ytp.Protocol

namespace Yume.Ytp

open Yume.Lib AddressKind List

def openPrefixSize : Nat := 8

/-- The encoded length of a destination, by its address kind. -/
def destinationLength (destination : Destination) : Nat :=
  if destination.addressKind = .ipv4 then 2 + 4
  else if destination.addressKind = .ipv6 then 2 + 16
  else if destination.addressKind = .dns then 2 + 1 + destination.dnsName.length
  else 0

/-- The destination's bytes: its port, then its address or DNS name. -/
def encodeDestination (destination : Destination) : Bytes :=
  if destination.addressKind = .none then []
  else beBytes 2 destination.port.toNat ++
    if destination.addressKind = .ipv4 ∨ destination.addressKind = .ipv6 then
      destination.address.bytes.take destination.addressLength.toNat
    else if destination.addressKind = .dns then
      UInt8.ofNat destination.dnsName.length :: destination.dnsName
    else []

/-- The bytes the encoder writes: the fixed prefix, the service name and the
destination. -/
def openPayload (request : OpenRequest) : Bytes :=
  [wireVersion, request.serviceKind.wire, request.destination.transport.wire,
    request.destination.addressKind.wire] ++
    beBytes 2 request.serviceName.length ++
    beBytes 2 (destinationLength request.destination) ++
    request.serviceName ++ encodeDestination request.destination

/-- `EncodeOpen`. -/
def encodeOpen (request : OpenRequest) : Result Bytes :=
  if ¬ request.serviceKind.isKnown then .error ⟨.invalidEnum, 0⟩
  else if ¬ isValidServiceName request.serviceName then
    .error ⟨.invalidServiceName, 0⟩
  else
    match validateDestination request.serviceKind request.destination with
    | .error failure => .error ⟨failure.code, 0⟩
    | .ok () =>
      let length := destinationLength request.destination
      if openPrefixSize + request.serviceName.length + length > maxOpenPayload ∨
          request.serviceName.length > 2 ^ 16 - 1 ∨ length > 2 ^ 16 - 1 then
        .error ⟨.payloadTooLarge, 0⟩
      else .ok (openPayload request)

theorem ipv4_length_le {bytes : Bytes} (h : bytes.length = 4) : bytes.length ≤ 16 := by omega

/-- The part of `DecodeOpen` that reads the destination at `offset`, with the
offset it ends at. -/
def decodeDestination (transport : TransportProtocol) (addressKind : AddressKind)
    (bytes : Bytes) (offset : Nat) : Result (Destination × Nat) :=
  if addressKind = .none then
    if bytes.length ≠ 0 then .error ⟨.invalidLength, 6⟩
    else .ok ({ transport := transport, addressKind := addressKind }, offset)
  else
    match bytes with
    | high :: low :: rest =>
      let route : Destination :=
        { transport := transport
          addressKind := addressKind
          port := UInt16.ofNat (beNat [high, low]) }
      if addressKind = .ipv4 then
        if h : rest.length = 4 then
          .ok ({ route with
            addressLength := 4, address := .ofPrefix rest (ipv4_length_le h) }, offset + 2)
        else .error ⟨.invalidLength, 6⟩
      else if addressKind = .ipv6 then
        if h : rest.length = 16 then
          .ok ({ route with
            addressLength := 16, address := ⟨rest, h⟩ }, offset + 2)
        else .error ⟨.invalidLength, 6⟩
      else if addressKind = .dns then
        match rest with
        | [] => .error ⟨.invalidLength, 6⟩
        | count :: name =>
          if count.toNat ≠ name.length then .error ⟨.invalidLength, offset + 2⟩
          else .ok ({ route with dnsName := name }, offset + 3)
      else .ok (route, offset + 2)
    | _ => .error ⟨.truncated, offset⟩

/-- `DecodeOpen`. -/
def decodeOpen (payload : Bytes) : Result OpenRequest :=
  if payload.length > maxOpenPayload then .error ⟨.payloadTooLarge, 0⟩
  else
    match payload with
    | version :: kind :: transport :: address :: s1 :: s0 :: d1 :: d0 :: body =>
      if version ≠ wireVersion then .error ⟨.unsupportedVersion, 0⟩
      else if ¬ ServiceKind.isKnown ⟨kind⟩ ∨ ¬ TransportProtocol.isKnown ⟨transport⟩ ∨
          ¬ isKnown ⟨address⟩ then
        .error ⟨.invalidEnum, 1⟩
      else
        let serviceLength := beNat [s1, s0]
        let expected := serviceLength + beNat [d1, d0]
        if expected > body.length then
          .error ⟨.truncated, openPrefixSize + body.length⟩
        else if expected < body.length then
          .error ⟨.trailingData, openPrefixSize + expected⟩
        else if serviceLength = 0 ∨ serviceLength > maxServiceNameBytes then
          .error ⟨.invalidServiceName, 4⟩
        else if ¬ isValidServiceName (body.take serviceLength) then
          .error ⟨.invalidUtf8, openPrefixSize⟩
        else
          match decodeDestination ⟨transport⟩ ⟨address⟩ (body.drop serviceLength)
              (openPrefixSize + serviceLength) with
          | .error failure => .error failure
          | .ok (destination, offset) =>
            match validateDestination ⟨kind⟩ destination with
            | .error failure => .error ⟨failure.code, offset⟩
            | .ok () => .ok ⟨⟨kind⟩, body.take serviceLength, destination⟩
    | short => .error ⟨.truncated, short.length⟩

section Destinations

variable {kind : ServiceKind} {destination : Destination} {transport : TransportProtocol}
  {addressKind : AddressKind} {bytes : Bytes} {offset final : Nat}

theorem Destination.Valid.encoded_length (h : destination.Valid kind) :
    (encodeDestination destination).length = destinationLength destination ∧
      destinationLength destination ≤ 3 + maxDnsNameBytes := by
  cases h with
  | absent => exact ⟨rfl, by decide⟩
  | ipv4 hlength =>
    refine ⟨?_, by simp [destinationLength, maxDnsNameBytes]⟩
    simp [encodeDestination, destinationLength, Address.ofPrefix, AddressKind.ipv4,
      AddressKind.none, hlength]
  | @ipv6 _ _ address =>
    refine ⟨?_, by simp [destinationLength, AddressKind.ipv6, AddressKind.ipv4, maxDnsNameBytes]⟩
    simp [encodeDestination, destinationLength, AddressKind.ipv6, AddressKind.ipv4,
      AddressKind.none, address.size]
  | dns _ _ _ hname =>
    have := isCanonicalDnsName_length hname
    refine ⟨?_, by simp [destinationLength, AddressKind.dns, AddressKind.ipv4,
      AddressKind.ipv6]; omega⟩
    simp [encodeDestination, destinationLength, AddressKind.dns, AddressKind.ipv4,
      AddressKind.ipv6, AddressKind.none]
    omega

/-- A port survives its two bytes. -/
theorem port_roundtrip (port : UInt16) :
    ∃ high low, beBytes 2 port.toNat = [high, low] ∧ UInt16.ofNat (beNat [high, low]) = port := by
  refine ⟨_, _, rfl, ?_⟩
  have h := beNat_beBytes 2 port.toNat_lt
  rw [show [_, _] = beBytes 2 port.toNat from rfl, h, UInt16.ofNat_toNat]

/-- Reading an encoded destination gives it back. -/
theorem Destination.Valid.decode_encode (h : destination.Valid kind) (offset : Nat) :
    ∃ final, decodeDestination destination.transport destination.addressKind
      (encodeDestination destination) offset = .ok (destination, final) := by
  cases h with
  | absent => exact ⟨_, rfl⟩
  | @ipv4 transport port bytes hlength =>
    obtain ⟨high, low, hbytes, hport⟩ := port_roundtrip port
    refine ⟨offset + 2, ?_⟩
    have htake : (Address.ofPrefix bytes (by omega)).bytes.take 4 = bytes := by
      rw [← hlength]
      exact take_left
    simp [encodeDestination, decodeDestination, AddressKind.ipv4, AddressKind.none,
      hbytes, hport, htake, hlength]
  | @ipv6 transport port address =>
    obtain ⟨high, low, hbytes, hport⟩ := port_roundtrip port
    refine ⟨offset + 2, ?_⟩
    have htake : address.bytes.take 16 = address.bytes := by
      rw [← address.size]
      exact take_length
    simp [encodeDestination, decodeDestination, AddressKind.ipv4, AddressKind.ipv6,
      AddressKind.none, hbytes, hport, htake, address.size]
  | @dns transport port name _ _ _ hname =>
    obtain ⟨high, low, hbytes, hport⟩ := port_roundtrip port
    have hlength := isCanonicalDnsName_length hname
    have hcount : (UInt8.ofNat name.length).toNat = name.length :=
      UInt8.toNat_ofNat_of_lt' (Nat.lt_of_le_of_lt hlength (by decide))
    refine ⟨offset + 3, ?_⟩
    simp [encodeDestination, decodeDestination, AddressKind.ipv4, AddressKind.ipv6,
      AddressKind.dns, AddressKind.none, hbytes, hport, hcount]

theorem port_bytes (high low : UInt8) :
    beBytes 2 (UInt16.ofNat (beNat [high, low])).toNat = [high, low] := by
  have hlt : beNat [high, low] < UInt16.size := by simpa using beNat_lt [high, low]
  rw [UInt16.toNat_ofNat_of_lt' hlt]
  exact beBytes_beNat [high, low]

/-- A destination that was read encodes to the bytes it was read from. -/
theorem decodeDestination_encode (hknown : addressKind.isKnown = true)
    (h : decodeDestination transport addressKind bytes offset = .ok (destination, final)) :
    destination.transport = transport ∧ destination.addressKind = addressKind ∧
      encodeDestination destination = bytes := by
  unfold decodeDestination at h
  split at h
  · rename_i hkind
    split at h
    · cases h
    rename_i hempty
    cases h
    rw [not_not, length_eq_zero_iff] at hempty
    exact ⟨rfl, rfl, by simp [encodeDestination, hkind, hempty]⟩
  rename_i hnone
  split at h
  · rename_i high low rest
    dsimp only at h
    split at h
    · rename_i hkind
      split at h
      · rename_i hlength
        cases h
        refine ⟨rfl, rfl, ?_⟩
        have htake : (Address.ofPrefix rest (by omega)).bytes.take 4 = rest := by
          rw [← hlength]
          exact take_left
        subst hkind
        simp only [encodeDestination, hnone, if_false, true_or, if_true, port_bytes]
        exact congrArg ([high, low] ++ ·) htake
      · cases h
    split at h
    · rename_i h4 hkind
      split at h
      · rename_i hlength
        cases h
        refine ⟨rfl, rfl, ?_⟩
        have htake : rest.take 16 = rest := by
          rw [← hlength]
          exact take_length
        subst hkind
        simp only [encodeDestination, hnone, if_false, or_true, if_true, port_bytes]
        exact congrArg ([high, low] ++ ·) htake
      · cases h
    split at h
    · rename_i h4 h6 hkind
      split at h
      · cases h
      rename_i count name
      split at h
      · cases h
      rename_i hcount
      cases h
      rw [not_not] at hcount
      refine ⟨rfl, rfl, ?_⟩
      subst hkind
      simp only [encodeDestination, hnone, h4, h6, or_self, if_false, if_true,
        port_bytes, ← hcount, UInt8.ofNat_toNat, cons_append, nil_append]
    · rename_i h4 h6 hdns
      simp [isKnown, hnone, h4, h6, hdns] at hknown
  · cases h

end Destinations

section Codec

variable {request : OpenRequest} {payload : Bytes}

/-- The conditions under which a request can be encoded. -/
structure OpenRequest.Valid (request : OpenRequest) : Prop where
  kind : request.serviceKind.isKnown = true
  name : isValidServiceName request.serviceName = true
  destination : validateDestination request.serviceKind request.destination = .ok ()

theorem OpenRequest.Valid.length (h : request.Valid) :
    openPrefixSize + request.serviceName.length +
      destinationLength request.destination ≤ maxOpenPayload := by
  have hname := (isValidServiceName_length h.name).2
  have hlength := (validateDestination_valid h.destination).2.encoded_length.2
  simp only [openPrefixSize, maxOpenPayload, maxServiceNameBytes, maxDnsNameBytes]
    at hname hlength ⊢
  omega

theorem openPayload_length (h : request.Valid) :
    (openPayload request).length = openPrefixSize + request.serviceName.length +
      destinationLength request.destination := by
  have hlength := (validateDestination_valid h.destination).2.encoded_length.1
  simp only [openPayload, openPrefixSize, length_append, length_cons,
    length_nil, beBytes_length, hlength]

/-- The encoder's size check never fails. -/
theorem encodeOpen_eq_ok (h : request.Valid) : encodeOpen request = .ok (openPayload request) := by
  have hlength := h.length
  simp only [openPrefixSize, maxOpenPayload] at hlength
  unfold encodeOpen
  rw [if_neg (by simp [h.kind]), if_neg (by simp [h.name]), h.destination]
  dsimp only
  rw [if_neg (by simp only [openPrefixSize, maxOpenPayload]; omega)]

theorem encodeOpen_valid (h : encodeOpen request = .ok payload) : request.Valid := by
  unfold encodeOpen at h
  split_ifs at h with hkind hname
  split at h
  · cases h
  rename_i hdestination
  exact ⟨by simpa using hkind, by simpa using hname, hdestination⟩

theorem isKnown_of_valid {kind : ServiceKind} {destination : Destination}
    (h : validateDestination kind destination = .ok ()) :
    kind.isKnown = true ∧ destination.transport.isKnown = true ∧
      destination.addressKind.isKnown = true := by
  unfold validateDestination at h
  split at h
  · cases h
  rename_i hknown
  simpa only [not_or, not_not] using hknown

/-- Decoding an encoded request gives it back. -/
theorem decodeOpen_openPayload (h : request.Valid) :
    decodeOpen (openPayload request) = .ok request := by
  have hmax := h.length
  have hsize := openPayload_length h
  obtain ⟨hkind, htransport, haddress⟩ := isKnown_of_valid h.destination
  obtain ⟨hnonempty, hshort⟩ := isValidServiceName_length h.name
  have hvalid := (validateDestination_valid h.destination).2
  obtain ⟨final, hdecode⟩ := hvalid.decode_encode (openPrefixSize + request.serviceName.length)
  have hfits : maxOpenPayload < 256 ^ 2 := by decide
  obtain ⟨s1, s0, hs, hservice⟩ :=
    two_bytes_roundtrip (n := request.serviceName.length) (by omega)
  obtain ⟨d1, d0, hd, hdestination⟩ :=
    two_bytes_roundtrip (n := destinationLength request.destination) (by omega)
  have hbody : (request.serviceName ++ encodeDestination request.destination).length =
      request.serviceName.length + destinationLength request.destination := by
    rw [length_append, hvalid.encoded_length.1]
  have hpayload : openPayload request =
      wireVersion :: request.serviceKind.wire :: request.destination.transport.wire ::
        request.destination.addressKind.wire :: s1 :: s0 :: d1 :: d0 ::
        (request.serviceName ++ encodeDestination request.destination) := by
    simp [openPayload, hs, hd]
  unfold decodeOpen
  rw [if_neg (by omega), hpayload]
  dsimp only
  rw [if_neg (by simp), if_neg (by simp [hkind, htransport, haddress]), hservice,
    hdestination, if_neg (by omega), if_neg (by omega), if_neg (by omega),
    take_left, if_neg (by simp [h.name]), drop_left]
  simp only [hdecode, h.destination]

/-- Whatever decodes is the encoding of the result. -/
theorem decodeOpen_ok (h : decodeOpen payload = .ok request) :
    request.Valid ∧ openPayload request = payload := by
  unfold decodeOpen at h
  split at h
  · cases h
  split at h
  · rename_i version kind transport address s1 s0 d1 d0 body hmax
    dsimp only at h
    split_ifs at h with hversion hknown hlong hshort hempty hname
    simp only [not_or, not_not, Nat.not_lt] at hversion hknown hlong hshort hname
    split at h
    · cases h
    rename_i destination final hdecode
    split at h
    · cases h
    rename_i hvalidate
    cases h
    obtain ⟨htransport, haddress, hencode⟩ :=
      decodeDestination_encode hknown.2.2 hdecode
    have hvalid : OpenRequest.Valid ⟨⟨kind⟩, body.take (beNat [s1, s0]), destination⟩ :=
      ⟨hknown.1, hname, hvalidate⟩
    have hlength := (validateDestination_valid hvalidate).2.encoded_length.1
    refine ⟨hvalid, ?_⟩
    have hservice : (body.take (beNat [s1, s0])).length = beNat [s1, s0] := by
      rw [length_take]
      omega
    have hrest : destinationLength destination = beNat [d1, d0] := by
      rw [← hlength, hencode, length_drop]
      omega
    have hs : beBytes 2 (beNat [s1, s0]) = [s1, s0] := beBytes_beNat [s1, s0]
    have hd : beBytes 2 (beNat [d1, d0]) = [d1, d0] := beBytes_beNat [d1, d0]
    simp only [openPayload, hservice, hrest, hs, hd, hencode, htransport, haddress,
      hversion, cons_append, nil_append,
      take_append_drop]
  · cases h

end Codec

/-- The decoder accepts exactly the encoder's image, and no request has two
encodings. -/
theorem open_codec_exact :
    (∀ request : OpenRequest, (∃ payload, encodeOpen request = .ok payload) ↔
      (request.serviceKind.isKnown = true ∧
        isValidServiceName request.serviceName = true ∧
        validateDestination request.serviceKind request.destination = .ok ())) ∧
    (∀ request payload, encodeOpen request = .ok payload →
      payload.length ≤ maxOpenPayload ∧ decodeOpen payload = .ok request) ∧
    (∀ payload request, decodeOpen payload = .ok request →
      encodeOpen request = .ok payload) := by
  refine ⟨fun request => ⟨?_, ?_⟩, ?_, ?_⟩
  · rintro ⟨payload, hencode⟩
    have hvalid := encodeOpen_valid hencode
    exact ⟨hvalid.kind, hvalid.name, hvalid.destination⟩
  · rintro ⟨hkind, hname, hdestination⟩
    exact ⟨_, encodeOpen_eq_ok ⟨hkind, hname, hdestination⟩⟩
  · intro request payload hencode
    have hvalid := encodeOpen_valid hencode
    rw [encodeOpen_eq_ok hvalid] at hencode
    cases hencode
    exact ⟨openPayload_length hvalid ▸ hvalid.length, decodeOpen_openPayload hvalid⟩
  · intro payload request hdecode
    obtain ⟨hvalid, rfl⟩ := decodeOpen_ok hdecode
    exact encodeOpen_eq_ok hvalid

/-- A TCP route by DNS name. -/
def sampleOpenRequest : OpenRequest where
  serviceName := [97, 46, 98]
  destination :=
    { transport := .tcp, addressKind := .dns, dnsName := [120, 46, 121], port := 443 }

theorem open_codec_exact_sample :
    decodeOpen [1, 1, 1, 3, 0, 3, 0, 6, 97, 46, 98, 1, 187, 3, 120, 46, 121] =
      .ok sampleOpenRequest ∧
    encodeOpen sampleOpenRequest =
      .ok [1, 1, 1, 3, 0, 3, 0, 6, 97, 46, 98, 1, 187, 3, 120, 46, 121] := by
  have hdecode : decodeOpen [1, 1, 1, 3, 0, 3, 0, 6, 97, 46, 98, 1, 187, 3, 120, 46, 121] =
      .ok sampleOpenRequest := by decide +kernel
  exact ⟨hdecode, open_codec_exact.2.2 _ _ hdecode⟩

end Yume.Ytp
