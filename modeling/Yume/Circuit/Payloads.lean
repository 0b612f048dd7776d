/-
The fixed-size bodies of circuit cells and relay messages: the handshakes of
both sides, CREATE and EXTEND, and the BEGIN payload with its destination.
-/
import Yume.Circuit.Cells
import Yume.Ytp.Open

namespace Yume.Circuit

open Yume.Lib List
open Yume.Ytp (Destination AddressKind ServiceKind TransportProtocol Address)

def handshakeSchema : UInt8 := 1
def fingerprintBytes : Nat := 32
def extendPayloadBytes : Nat := fingerprintBytes + clientHandshakeBytes

/-- An array of a fixed size. -/
abbrev Block (size : Nat) := { bytes : Bytes // bytes.length = size }

structure ClientHandshake where
  nonce : Block 32
  x25519Public : Block 32
  mlKemPublic : Block 1568
deriving DecidableEq

structure HopHandshake where
  x25519Public : Block 32
  mlKemCiphertext : Block 1568
  confirmation : Block 32
  signature : Block 4691
deriving DecidableEq

/-- `exact_size`. -/
def exactSize (input : Bytes) (expected : Nat) : Result Unit :=
  if input.length < expected then .error ⟨.truncated, input.length⟩
  else if input.length > expected then .error ⟨.trailingData, expected⟩
  else .ok ()

/-- `handshake_prefix`. -/
def handshakePrefix (input : Bytes) (base : Nat) : Result Unit :=
  match input.drop base with
  | schema :: r1 :: r2 :: r3 :: _ =>
    if schema ≠ handshakeSchema then .error ⟨.unsupportedVersion, base⟩
    else if r1 ≠ 0 then .error ⟨.nonzeroReserved, base + 1⟩
    else if r2 ≠ 0 then .error ⟨.nonzeroReserved, base + 2⟩
    else if r3 ≠ 0 then .error ⟨.nonzeroReserved, base + 3⟩
    else .ok ()
  -- The callers check the size first.
  | _ => .error ⟨.truncated, input.length⟩

/-- `EncodeClientHandshake`. -/
def encodeClientHandshake (handshake : ClientHandshake) : Bytes :=
  [handshakeSchema, 0, 0, 0] ++ handshake.nonce.1 ++ handshake.x25519Public.1 ++
    handshake.mlKemPublic.1

/-- `EncodeHopHandshake`. -/
def encodeHopHandshake (handshake : HopHandshake) : Bytes :=
  [handshakeSchema, 0, 0, 0] ++ handshake.x25519Public.1 ++ handshake.mlKemCiphertext.1 ++
    handshake.confirmation.1 ++ handshake.signature.1

/-- The `size` bytes at an offset, where there are as many. -/
def block (size : Nat) (input : Bytes) (offset : Nat) : Option (Block size) :=
  if h : ((input.drop offset).take size).length = size then some ⟨_, h⟩ else none

/-- `DecodeClientHandshake`. -/
def decodeClientHandshake (bytes : Bytes) : Result ClientHandshake :=
  match exactSize bytes clientHandshakeBytes, handshakePrefix bytes 0 with
  | .error failure, _ => .error failure
  | .ok (), .error failure => .error failure
  | .ok (), .ok () =>
    match block 32 bytes 4, block 32 bytes 36, block 1568 bytes 68 with
    | some nonce, some x25519Public, some mlKemPublic =>
      .ok ⟨nonce, x25519Public, mlKemPublic⟩
    -- The size was checked.
    | _, _, _ => .error ⟨.truncated, bytes.length⟩

/-- `DecodeHopHandshake`. -/
def decodeHopHandshake (bytes : Bytes) : Result HopHandshake :=
  match exactSize bytes hopHandshakeBytes, handshakePrefix bytes 0 with
  | .error failure, _ => .error failure
  | .ok (), .error failure => .error failure
  | .ok (), .ok () =>
    match block 32 bytes 4, block 1568 bytes 36, block 32 bytes 1604,
      block 4691 bytes 1636 with
    | some x25519Public, some mlKemCiphertext, some confirmation, some signature =>
      .ok ⟨x25519Public, mlKemCiphertext, confirmation, signature⟩
    -- The size was checked.
    | _, _, _, _ => .error ⟨.truncated, bytes.length⟩

structure CreateView where
  depth : UInt8
  clientHandshake : Bytes
deriving Repr, DecidableEq

/-- `EncodeCreate`. -/
def encodeCreate (depth : UInt8) (clientHandshake : Block clientHandshakeBytes) : Result Bytes :=
  if depth < 1 ∨ depth.toNat > maxHops then .error ⟨.invalidDepth, 0⟩
  else
    match handshakePrefix clientHandshake.1 0 with
    | .error failure => .error ⟨failure.code, failure.offset + 2⟩
    | .ok () => .ok ([depth, 0] ++ clientHandshake.1)

/-- `DecodeCreate`. -/
def decodeCreate (body : Bytes) : Result CreateView :=
  match exactSize body createBodyBytes, body with
  | .error failure, _ => .error failure
  | .ok (), depth :: reserved :: clientHandshake =>
    if depth < 1 ∨ depth.toNat > maxHops then .error ⟨.invalidDepth, 0⟩
    else if reserved ≠ 0 then .error ⟨.nonzeroReserved, 1⟩
    else
      match handshakePrefix body 2 with
      | .error failure => .error failure
      | .ok () => .ok ⟨depth, clientHandshake⟩
  -- The size was checked.
  | .ok (), short => .error ⟨.truncated, short.length⟩

structure ExtendView where
  nextIdentity : Bytes
  clientHandshake : Bytes
deriving Repr, DecidableEq

/-- `EncodeExtendPayload`.  It does not look at the handshake. -/
def encodeExtendPayload (nextIdentity : Block fingerprintBytes)
    (clientHandshake : Block clientHandshakeBytes) : Bytes :=
  nextIdentity.1 ++ clientHandshake.1

/-- `DecodeExtendPayload`. -/
def decodeExtendPayload (payload : Bytes) : Result ExtendView :=
  match exactSize payload extendPayloadBytes with
  | .error failure => .error failure
  | .ok () =>
    match handshakePrefix payload fingerprintBytes with
    | .error failure => .error failure
    | .ok () => .ok ⟨payload.take fingerprintBytes, payload.drop fingerprintBytes⟩

/-- `EncodeBeginPayload`. -/
def encodeBeginPayload (destination : Destination) : Result Bytes :=
  if destination.addressKind = .none ∨ Ytp.validateDestination .byteStream destination ≠ .ok () then
    .error ⟨.invalidDestination, 0⟩
  else .ok ([destination.addressKind.wire] ++ Ytp.encodeDestination destination)

/-- The copy of an address into its sixteen bytes. -/
def copyAddress (bytes : Bytes) : Address :=
  .ofPrefix (bytes.take 16) (List.length_take_le 16 bytes)

/-- The switch of `DecodeBeginPayload` over the address kind. -/
def readDestination (kind : AddressKind) (port : UInt16) (rest : Bytes) : Result Destination :=
  let route : Destination := { transport := .tcp, addressKind := kind, port := port }
  if kind = .ipv4 then
    match exactSize rest 4 with
    | .error failure => .error ⟨failure.code, failure.offset + 3⟩
    | .ok () => .ok { route with addressLength := 4, address := copyAddress rest }
  else if kind = .ipv6 then
    match exactSize rest 16 with
    | .error failure => .error ⟨failure.code, failure.offset + 3⟩
    | .ok () => .ok { route with addressLength := 16, address := copyAddress rest }
  else if kind = .dns then
    match rest with
    | [] => .error ⟨.truncated, 3⟩
    | count :: name =>
      match exactSize name count.toNat with
      | .error failure => .error ⟨failure.code, failure.offset + 4⟩
      | .ok () => .ok { route with dnsName := name }
  else .error ⟨.invalidDestination, 0⟩

/-- `DecodeBeginPayload`. -/
def decodeBeginPayload (payload : Bytes) : Result Destination :=
  match payload with
  | kind :: high :: low :: rest =>
    match readDestination ⟨kind⟩ (UInt16.ofNat (beNat [high, low])) rest with
    | .error failure => .error failure
    | .ok destination =>
      if Ytp.validateDestination .byteStream destination ≠ .ok () then
        .error ⟨.invalidDestination, 0⟩
      else .ok destination
  | short => .error ⟨.truncated, short.length⟩

section Sizes

variable {input rest : Bytes} {size base : Nat}

theorem exactSize_eq_ok_iff : exactSize input size = .ok () ↔ input.length = size := by
  unfold exactSize
  split_ifs with hshort hlong
  · exact ⟨nofun, fun h => absurd h (Nat.ne_of_lt hshort)⟩
  · exact ⟨nofun, fun h => absurd h (Nat.ne_of_gt hlong)⟩
  · exact ⟨fun _ => by omega, fun _ => rfl⟩

theorem exactSize_eq_error (h : input.length ≠ size) :
    ∃ failure, exactSize input size = .error failure := by
  cases hsize : exactSize input size with
  | error failure => exact ⟨failure, rfl⟩
  | ok => exact absurd (exactSize_eq_ok_iff.mp hsize) h

/-- The prefix is the schema and three zero bytes. -/
theorem handshakePrefix_eq_ok_iff : handshakePrefix input base = .ok () ↔
    ∃ rest, input.drop base = [handshakeSchema, 0, 0, 0] ++ rest := by
  unfold handshakePrefix
  split
  · rename_i rest hinput
    rw [hinput]
    split_ifs with hschema h1 h2 h3
    · exact ⟨nofun, by rintro ⟨_, heq⟩; cases heq; exact absurd rfl hschema⟩
    · exact ⟨nofun, by rintro ⟨_, heq⟩; cases heq; exact absurd rfl h1⟩
    · exact ⟨nofun, by rintro ⟨_, heq⟩; cases heq; exact absurd rfl h2⟩
    · exact ⟨nofun, by rintro ⟨_, heq⟩; cases heq; exact absurd rfl h3⟩
    rw [not_not] at hschema h1 h2 h3
    subst hschema h1 h2 h3
    exact ⟨fun _ => ⟨rest, rfl⟩, fun _ => rfl⟩
  · rename_i hshort
    refine ⟨nofun, ?_⟩
    rintro ⟨rest, heq⟩
    exact absurd heq (hshort _ _ _ _ _)

/-- A block stands where it was put. -/
theorem block_append (front : Bytes) (value : Block size) (rest : Bytes) :
    block size (front ++ (value.1 ++ rest)) front.length = some value := by
  have htake : (((front ++ (value.1 ++ rest)).drop front.length).take size) = value.1 := by
    rw [drop_left, take_left' value.2]
  rw [block, dif_pos (by rw [htake]; exact value.2)]
  exact congrArg some (Subtype.ext htake)

theorem block_eq_some {offset : Nat} {value : Block size}
    (h : block size input offset = some value) :
    input.drop offset = value.1 ++ input.drop (offset + size) := by
  unfold block at h
  split_ifs at h
  cases h
  rw [← drop_drop, take_append_drop]

theorem encodeClientHandshake_length (handshake : ClientHandshake) :
    (encodeClientHandshake handshake).length = clientHandshakeBytes := by
  simp [encodeClientHandshake, clientHandshakeBytes, handshake.nonce.2,
    handshake.x25519Public.2, handshake.mlKemPublic.2]

theorem encodeHopHandshake_length (handshake : HopHandshake) :
    (encodeHopHandshake handshake).length = hopHandshakeBytes := by
  simp [encodeHopHandshake, hopHandshakeBytes, handshake.x25519Public.2,
    handshake.mlKemCiphertext.2, handshake.confirmation.2, handshake.signature.2]

theorem handshakePrefix_append (rest : Bytes) :
    handshakePrefix ([handshakeSchema, 0, 0, 0] ++ rest) 0 = .ok () :=
  handshakePrefix_eq_ok_iff.mpr ⟨rest, rfl⟩

/-- The prefix of a handshake and what stands behind it. -/
theorem eq_of_handshakePrefix (h : handshakePrefix input 0 = .ok ()) :
    input = [handshakeSchema, 0, 0, 0] ++ input.drop 4 := by
  obtain ⟨rest, hrest⟩ := handshakePrefix_eq_ok_iff.mp h
  rw [drop_zero] at hrest
  rw [hrest]
  rfl

/-- The two directions of the client handshake's codec. -/
theorem decodeClientHandshake_eq_ok_iff {handshake : ClientHandshake} :
    decodeClientHandshake input = .ok handshake ↔ input = encodeClientHandshake handshake := by
  constructor
  · intro h
    unfold decodeClientHandshake at h
    split at h
    · cases h
    · cases h
    rename_i hsize hleading
    split at h
    · rename_i hnonce hx25519 hmlKem
      cases h
      rw [exactSize_eq_ok_iff] at hsize
      have hend : input.drop (68 + 1568) = [] :=
        drop_eq_nil_of_le (Nat.le_of_eq hsize)
      rw [eq_of_handshakePrefix hleading, block_eq_some hnonce, block_eq_some hx25519,
        block_eq_some hmlKem, hend, append_nil]
      simp only [encodeClientHandshake, append_assoc]
    · cases h
  rintro rfl
  have hsize := exactSize_eq_ok_iff.mpr (encodeClientHandshake_length handshake)
  obtain ⟨nonce, x25519Public, mlKemPublic⟩ := handshake
  have hnonce := block_append [handshakeSchema, 0, 0, 0] nonce (x25519Public.1 ++ mlKemPublic.1)
  have hx25519 := block_append ([handshakeSchema, 0, 0, 0] ++ nonce.1) x25519Public mlKemPublic.1
  have hmlKem := block_append ([handshakeSchema, 0, 0, 0] ++ nonce.1 ++ x25519Public.1)
    mlKemPublic []
  have hleading := handshakePrefix_append (nonce.1 ++ (x25519Public.1 ++ mlKemPublic.1))
  simp only [append_nil, append_assoc, length_append, nonce.2,
    x25519Public.2, length_cons, length_nil] at hnonce hx25519 hmlKem
  simp only [encodeClientHandshake, append_assoc] at hsize
  simp only [decodeClientHandshake, encodeClientHandshake, append_assoc, hsize,
    hleading, hnonce, hx25519, hmlKem]

theorem decodeHopHandshake_eq_ok_iff {handshake : HopHandshake} :
    decodeHopHandshake input = .ok handshake ↔ input = encodeHopHandshake handshake := by
  constructor
  · intro h
    unfold decodeHopHandshake at h
    split at h
    · cases h
    · cases h
    rename_i hsize hleading
    split at h
    · rename_i hx25519 hmlKem hconfirmation
        hsignature
      cases h
      rw [exactSize_eq_ok_iff] at hsize
      have hend : input.drop (1636 + 4691) = [] :=
        drop_eq_nil_of_le (Nat.le_of_eq hsize)
      rw [eq_of_handshakePrefix hleading, block_eq_some hx25519, block_eq_some hmlKem,
        block_eq_some hconfirmation, block_eq_some hsignature, hend, append_nil]
      simp only [encodeHopHandshake, append_assoc]
    · cases h
  rintro rfl
  have hsize := exactSize_eq_ok_iff.mpr (encodeHopHandshake_length handshake)
  obtain ⟨x25519Public, mlKemCiphertext, confirmation, signature⟩ := handshake
  have hx25519 := block_append [handshakeSchema, 0, 0, 0] x25519Public
    (mlKemCiphertext.1 ++ (confirmation.1 ++ signature.1))
  have hmlKem := block_append ([handshakeSchema, 0, 0, 0] ++ x25519Public.1) mlKemCiphertext
    (confirmation.1 ++ signature.1)
  have hconfirmation := block_append
    ([handshakeSchema, 0, 0, 0] ++ x25519Public.1 ++ mlKemCiphertext.1) confirmation
    signature.1
  have hsignature := block_append
    ([handshakeSchema, 0, 0, 0] ++ x25519Public.1 ++ mlKemCiphertext.1 ++ confirmation.1)
    signature []
  have hleading := handshakePrefix_append
    (x25519Public.1 ++ (mlKemCiphertext.1 ++ (confirmation.1 ++ signature.1)))
  simp only [append_nil, append_assoc, length_append, x25519Public.2,
    mlKemCiphertext.2, confirmation.2, length_cons, length_nil]
    at hx25519 hmlKem hconfirmation hsignature
  simp only [encodeHopHandshake, append_assoc] at hsize
  simp only [decodeHopHandshake, encodeHopHandshake, append_assoc, hsize, hleading,
    hx25519, hmlKem, hconfirmation, hsignature]

/-- The two directions of CREATE's codec. -/
theorem encodeCreate_eq_ok_iff {depth : UInt8}
    {clientHandshake : Block clientHandshakeBytes} {body : Bytes} :
    encodeCreate depth clientHandshake = .ok body ↔
      decodeCreate body = .ok ⟨depth, clientHandshake.1⟩ := by
  constructor
  · intro h
    unfold encodeCreate at h
    split_ifs at h with hdepth
    split at h
    · cases h
    rename_i hleading
    cases h
    have hsize : exactSize (depth :: 0 :: clientHandshake.1) createBodyBytes = .ok () := by
      rw [exactSize_eq_ok_iff, length_cons, length_cons, clientHandshake.2]
      rfl
    have hinner : handshakePrefix (depth :: 0 :: clientHandshake.1) 2 = .ok () := by
      rw [handshakePrefix_eq_ok_iff] at hleading ⊢
      exact hleading
    change decodeCreate (depth :: 0 :: clientHandshake.1) = _
    simp only [decodeCreate, hsize]
    rw [if_neg hdepth, if_neg (not_not.mpr rfl), hinner]
  intro h
  unfold decodeCreate at h
  split at h
  · cases h
  · rename_i first reserved handshake hsize
    split_ifs at h with hdepth hreserved
    split at h
    · cases h
    rename_i hleading
    cases h
    rw [not_not] at hreserved
    subst hreserved
    rw [encodeCreate, if_neg hdepth]
    have hinner : handshakePrefix clientHandshake.1 0 = .ok () := by
      rw [handshakePrefix_eq_ok_iff] at hleading ⊢
      exact hleading
    rw [hinner]
    rfl
  · cases h

/-- EXTEND reads back where the handshake has its prefix, which the encoder
does not check. -/
theorem decodeExtendPayload_eq_ok_iff {nextIdentity : Block fingerprintBytes}
    {clientHandshake : Block clientHandshakeBytes} {payload : Bytes} :
    decodeExtendPayload payload = .ok ⟨nextIdentity.1, clientHandshake.1⟩ ↔
      payload = encodeExtendPayload nextIdentity clientHandshake ∧
        handshakePrefix clientHandshake.1 0 = .ok () := by
  constructor
  · intro h
    unfold decodeExtendPayload at h
    split at h
    · cases h
    split at h
    · cases h
    rename_i hleading
    rw [Except.ok.injEq, ExtendView.mk.injEq] at h
    refine ⟨?_, ?_⟩
    · rw [encodeExtendPayload, ← h.1, ← h.2, take_append_drop]
    rw [handshakePrefix_eq_ok_iff] at hleading ⊢
    rw [← h.2]
    exact hleading
  rintro ⟨rfl, hleading⟩
  have hsize : exactSize (encodeExtendPayload nextIdentity clientHandshake)
      extendPayloadBytes = .ok () := by
    rw [exactSize_eq_ok_iff, encodeExtendPayload, length_append, nextIdentity.2, clientHandshake.2]
    rfl
  have hdrop : (encodeExtendPayload nextIdentity clientHandshake).drop fingerprintBytes =
      clientHandshake.1 := drop_left' nextIdentity.2
  have htake : (encodeExtendPayload nextIdentity clientHandshake).take fingerprintBytes =
      nextIdentity.1 := take_left' nextIdentity.2
  have hinner : handshakePrefix (encodeExtendPayload nextIdentity clientHandshake)
      fingerprintBytes = .ok () := by
    rw [handshakePrefix_eq_ok_iff] at hleading ⊢
    rw [hdrop]
    exact hleading
  rw [decodeExtendPayload, hsize]
  rw [hinner]
  rw [htake, hdrop]

/-- A CREATE body that was read holds a whole handshake. -/
theorem decodeCreate_handshake {body : Bytes} {view : CreateView}
    (h : decodeCreate body = .ok view) :
    view.clientHandshake.length = clientHandshakeBytes := by
  unfold decodeCreate at h
  split at h
  · cases h
  · rename_i depth reserved handshake hsize
    rw [exactSize_eq_ok_iff] at hsize
    split_ifs at h
    split at h
    · cases h
    cases h
    simp only [length_cons, createBodyBytes] at hsize
    dsimp only
    omega
  · cases h

/-- An EXTEND payload that was read holds a fingerprint and a whole handshake. -/
theorem decodeExtendPayload_view {payload : Bytes} {view : ExtendView}
    (h : decodeExtendPayload payload = .ok view) :
    view.nextIdentity.length = fingerprintBytes ∧
      view.clientHandshake.length = clientHandshakeBytes := by
  unfold decodeExtendPayload at h
  split at h
  · cases h
  rename_i hsize
  split at h
  · cases h
  cases h
  rw [exactSize_eq_ok_iff, extendPayloadBytes] at hsize
  rw [length_take, length_drop]
  omega

end Sizes

section Begin

variable {destination : Destination} {kind : UInt8} {bytes payload : Bytes}

theorem copyAddress_eq (bytes : Bytes) (h : bytes.length ≤ 16) :
    copyAddress bytes = .ofPrefix bytes h := by
  simp only [copyAddress, take_of_length_le h]

theorem ofPrefix_full (h : bytes.length = 16) (hle : bytes.length ≤ 16) :
    Address.ofPrefix bytes hle = ⟨bytes, h⟩ := by
  rw [Address.ofPrefix, Address.mk.injEq, h, Nat.sub_self, replicate_zero, append_nil]

/-- The switch reads what OPEN reads behind the same address kind. -/
theorem readDestination_eq_ok_iff {kind : AddressKind} {high low : UInt8} {rest : Bytes} :
    readDestination kind (UInt16.ofNat (beNat [high, low])) rest = .ok destination ↔
      (kind ≠ .none ∧ kind.isKnown = true) ∧
        ∃ final, Ytp.decodeDestination .tcp kind (high :: low :: rest) 0 =
          .ok (destination, final) := by
  unfold readDestination Ytp.decodeDestination
  by_cases h4 : kind = .ipv4
  · subst h4
    by_cases hlength : rest.length = 4
    · have hsize := exactSize_eq_ok_iff.mpr hlength
      have hcopy := copyAddress_eq rest (by omega)
      simp [hlength, hsize, hcopy, AddressKind.ipv4, AddressKind.none, AddressKind.isKnown]
    obtain ⟨failure, hsize⟩ := exactSize_eq_error hlength
    simp [hlength, hsize, AddressKind.ipv4, AddressKind.none]
  by_cases h6 : kind = .ipv6
  · subst h6
    by_cases hlength : rest.length = 16
    · have hsize := exactSize_eq_ok_iff.mpr hlength
      have hcopy := copyAddress_eq rest (by omega)
      rw [ofPrefix_full hlength] at hcopy
      simp [hlength, hsize, hcopy, AddressKind.ipv4, AddressKind.ipv6, AddressKind.none,
        AddressKind.isKnown]
    · obtain ⟨failure, hsize⟩ := exactSize_eq_error hlength
      simp [hlength, hsize, AddressKind.ipv4, AddressKind.ipv6, AddressKind.none]
  by_cases hdns : kind = .dns
  · subst hdns
    cases rest with
    | nil => simp [AddressKind.ipv4, AddressKind.ipv6, AddressKind.dns, AddressKind.none]
    | cons count name =>
      by_cases hlength : name.length = count.toNat
      · have hsize := exactSize_eq_ok_iff.mpr hlength
        simp [hsize, hlength, AddressKind.ipv4, AddressKind.ipv6, AddressKind.dns,
          AddressKind.none, AddressKind.isKnown]
      obtain ⟨failure, hsize⟩ := exactSize_eq_error hlength
      simp [hsize, Ne.symm hlength, AddressKind.ipv4, AddressKind.ipv6, AddressKind.dns,
        AddressKind.none]
  · simp [h4, h6, hdns, AddressKind.isKnown]

/-- BEGIN reads its destination as OPEN does, and checks it as a TCP one. -/
theorem decodeBeginPayload_eq_ok_iff :
    decodeBeginPayload payload = .ok destination ↔
      ∃ kind bytes, payload = kind :: bytes ∧
        (AddressKind.mk kind ≠ .none ∧ AddressKind.isKnown ⟨kind⟩ = true) ∧
        (∃ final, Ytp.decodeDestination .tcp ⟨kind⟩ bytes 0 = .ok (destination, final)) ∧
        Ytp.validateDestination .byteStream destination = .ok () := by
  constructor
  · intro h
    unfold decodeBeginPayload at h
    split at h
    · rename_i kind high low rest
      split at h
      · cases h
      rename_i hread
      split_ifs at h with hvalid
      cases h
      obtain ⟨hkind, hdecode⟩ := readDestination_eq_ok_iff.mp hread
      exact ⟨kind, _, rfl, hkind, hdecode, not_not.mp hvalid⟩
    · cases h
  rintro ⟨kind, bytes, rfl, hkind, ⟨final, hdecode⟩, hvalid⟩
  rcases bytes with _ | ⟨high, _ | ⟨low, rest⟩⟩
  · simp [Ytp.decodeDestination, hkind.1] at hdecode
  · simp [Ytp.decodeDestination, hkind.1] at hdecode
  have hread := readDestination_eq_ok_iff.mpr ⟨hkind, final, hdecode⟩
  rw [decodeBeginPayload, hread]
  exact if_neg (not_not.mpr hvalid)

/-- A destination that a byte stream may have is absent or a TCP one. -/
theorem transport_eq_tcp (hkind : destination.addressKind ≠ .none)
    (h : Ytp.validateDestination .byteStream destination = .ok ()) :
    destination.transport = .tcp ∧ destination.addressKind.isKnown = true := by
  unfold Ytp.validateDestination at h
  split_ifs at h with hknown habsent hzero htransport
  · rw [Destination.isAbsent_iff] at hzero
    exact absurd (hzero ▸ rfl) hkind
  all_goals
    simp only [not_or, not_not, not_and] at hknown htransport
    exact ⟨htransport.1 trivial, hknown.2.2⟩

/-- The two directions of BEGIN's codec. -/
theorem encodeBeginPayload_eq_ok_iff :
    encodeBeginPayload destination = .ok payload ↔
      decodeBeginPayload payload = .ok destination := by
  rw [decodeBeginPayload_eq_ok_iff]
  constructor
  · intro h
    unfold encodeBeginPayload at h
    split_ifs at h with hbad
    cases h
    simp only [not_or, not_not] at hbad
    obtain ⟨htcp, hknown⟩ := transport_eq_tcp hbad.1 hbad.2
    obtain ⟨final, hdecode⟩ := (Ytp.validateDestination_valid hbad.2).2.decode_encode 0
    rw [htcp] at hdecode
    exact ⟨_, _, rfl, ⟨hbad.1, hknown⟩, ⟨final, hdecode⟩, hbad.2⟩
  · rintro ⟨kind, bytes, rfl, ⟨hnone, hknown⟩, ⟨final, hdecode⟩, hvalid⟩
    obtain ⟨-, haddress, hencode⟩ := Ytp.decodeDestination_encode hknown hdecode
    rw [encodeBeginPayload, if_neg (by rw [haddress]; simp [hnone, hvalid]), haddress, hencode]
    rfl

end Begin

end Yume.Circuit
