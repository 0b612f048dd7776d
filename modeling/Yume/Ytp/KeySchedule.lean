/-
The canonical key-schedule input: its validation, its size, its encoding into
a caller's buffer, and the roots that are derived from it.
-/
import Mathlib.Algebra.Order.BigOperators.Group.List
import Yume.Ytp.Auth

namespace Yume.Ytp

open Yume.Lib List
open Yume.Crypto (suiteId requiredSecurityParameters textU8 x25519PublicKeySize
  mlKem1024CiphertextSize)

def exporterSize : Nat := 32
def pskSize : Nat := 32
def x25519SharedSecretSize : Nat := 32
def mlKem1024SharedSecretSize : Nat := 32
def keyScheduleFieldCount : Nat := 18
def keySchedulePrefixSize : Nat := 4
def keyScheduleFieldPrefixSize : Nat := 6
def maxKeyScheduleInputSize : Nat := 131072

def rootDomain : Bytes := textU8 "yume/ytp/1/root/v1"
def clientToServerDomain : Bytes := textU8 "yume/ytp/1/c2s-root/v1"
def serverToClientDomain : Bytes := textU8 "yume/ytp/1/s2c-root/v1"

/-- A borrowed span: where it lies and what it holds. -/
structure Span where
  data : Nat
  bytes : Bytes
deriving Repr, DecidableEq

/-- `KeyScheduleInput`, over the type of its fields: spans in the source, their
contents where only those matter. -/
structure KeyScheduleInput (α : Type) where
  initiatorRole : EndpointRole := .client
  responderRole : EndpointRole := .server
  transcriptHash : α
  exporter : α
  clientIdentity : α
  serverIdentity : α
  clientCapabilityManifest : α
  serverCapabilityManifest : α
  accessPsk : α
  clientX25519PublicKey : α
  serverX25519PublicKey : α
  x25519SharedSecret : α
  mlKemPublicKey : α
  mlKemCiphertext : α
  mlKemSharedSecret : α
deriving Repr, DecidableEq

/-- What the spans of an input hold. -/
def KeyScheduleInput.contents (input : KeyScheduleInput Span) : KeyScheduleInput Bytes where
  initiatorRole := input.initiatorRole
  responderRole := input.responderRole
  transcriptHash := input.transcriptHash.bytes
  exporter := input.exporter.bytes
  clientIdentity := input.clientIdentity.bytes
  serverIdentity := input.serverIdentity.bytes
  clientCapabilityManifest := input.clientCapabilityManifest.bytes
  serverCapabilityManifest := input.serverCapabilityManifest.bytes
  accessPsk := input.accessPsk.bytes
  clientX25519PublicKey := input.clientX25519PublicKey.bytes
  serverX25519PublicKey := input.serverX25519PublicKey.bytes
  x25519SharedSecret := input.x25519SharedSecret.bytes
  mlKemPublicKey := input.mlKemPublicKey.bytes
  mlKemCiphertext := input.mlKemCiphertext.bytes
  mlKemSharedSecret := input.mlKemSharedSecret.bytes

/-- The fields of `KeyScheduleFields`, in the order of their tags 1 to 18. -/
def keyScheduleFields {α : Type} (constant : Bytes → α) (input : KeyScheduleInput α) : List α :=
  [constant rootDomain, constant suiteId, constant [input.initiatorRole.wire],
    constant [input.responderRole.wire], input.transcriptHash, input.exporter,
    input.clientIdentity, input.serverIdentity, input.clientCapabilityManifest,
    input.serverCapabilityManifest, constant requiredSecurityParameters, input.accessPsk,
    input.clientX25519PublicKey, input.serverX25519PublicKey, input.x25519SharedSecret,
    input.mlKemPublicKey, input.mlKemCiphertext, input.mlKemSharedSecret]

/-- `ValidateKeyScheduleInput`. -/
def validateKeyScheduleInput (input : KeyScheduleInput Bytes) : Result Unit :=
  if ¬ input.initiatorRole.isKnown ∨ ¬ input.responderRole.isKnown then
    .error ⟨.invalidEnum, 0⟩
  else if input.initiatorRole = input.responderRole then .error ⟨.invalidField, 0⟩
  else if input.transcriptHash.length ≠ transcriptHashSize ∨
      input.exporter.length ≠ exporterSize ∨ input.accessPsk.length ≠ pskSize ∨
      input.clientX25519PublicKey.length ≠ x25519PublicKeySize ∨
      input.serverX25519PublicKey.length ≠ x25519PublicKeySize ∨
      input.x25519SharedSecret.length ≠ x25519SharedSecretSize ∨
      input.mlKemPublicKey.length ≠ mlKem1024PublicKeySize ∨
      input.mlKemCiphertext.length ≠ mlKem1024CiphertextSize ∨
      input.mlKemSharedSecret.length ≠ mlKem1024SharedSecretSize then
    .error ⟨.invalidLength, 0⟩
  else if input.clientIdentity.length = 0 ∨ input.serverIdentity.length = 0 ∨
      input.clientIdentity.length > maxCompositeIdentitySize ∨
      input.serverIdentity.length > maxCompositeIdentitySize then
    .error ⟨.invalidLength, 0⟩
  else
    match validateCapabilityManifestEncoding input.clientCapabilityManifest with
    | .error failure => .error failure
    | .ok () => validateCapabilityManifestEncoding input.serverCapabilityManifest

/-- `KeyScheduleInputEncodedSize`. -/
def keyScheduleInputEncodedSize (input : KeyScheduleInput Bytes) : Result Nat :=
  match validateKeyScheduleInput input with
  | .error failure => .error failure
  | .ok () =>
    match boundedTotal maxKeyScheduleInputSize keyScheduleFieldPrefixSize
        (keyScheduleFields id input) keySchedulePrefixSize with
    | none => .error ⟨.payloadTooLarge, 0⟩
    | some total => .ok total

/-- `BuffersOverlap`. -/
def buffersOverlap (lhs rhs : Span) : Bool :=
  if lhs.bytes.length = 0 ∨ rhs.bytes.length = 0 then false
  else if lhs.data ≤ rhs.data then decide (rhs.data - lhs.data < lhs.bytes.length)
  else decide (lhs.data - rhs.data < rhs.bytes.length)

/-- The writing loop, from the field with this tag on. -/
def taggedFields : Nat → List Bytes → Bytes
  | _, [] => []
  | tag, field :: rest => beBytes 2 tag ++ lengthPrefixed field ++ taggedFields (tag + 1) rest

def keySchedulePayload (fields : List Bytes) : Bytes :=
  [wireVersion, 0] ++ beBytes 2 keyScheduleFieldCount ++ taggedFields 1 fields

/-- The caller's buffer and `written` after a successful call. -/
structure Encoded where
  output : Bytes
  written : Nat
deriving Repr, DecidableEq

/-- The bytes that a call wrote. -/
def Encoded.payload (encoded : Encoded) : Bytes := encoded.output.take encoded.written

/-- `EncodeKeyScheduleInput`.  The constants among the fields lie at `place`. -/
def encodeKeyScheduleInput (place : Bytes → Nat) (input : KeyScheduleInput Span)
    (output : Span) : Result Encoded :=
  match keyScheduleInputEncodedSize input.contents with
  | .error failure => .error failure
  | .ok required =>
    let fields := keyScheduleFields (fun bytes => ⟨place bytes, bytes⟩) input
    if output.bytes.length < required then .error ⟨.outputTooSmall, output.bytes.length⟩
    else if fields.any (buffersOverlap ⟨output.data, output.bytes.take required⟩) then
      .error ⟨.overlappingBuffer, 0⟩
    else
      let payload := keySchedulePayload (fields.map Span.bytes)
      .ok ⟨payload ++ output.bytes.drop payload.length, payload.length⟩

def anyNonzero (bytes : Bytes) : Bool := bytes.any (· != 0)

structure HandshakeRoots where
  clientToServer : Bytes
  serverToClient : Bytes
  master : Bytes
deriving Repr, DecidableEq

/-- A buffer of its own: it overlaps none of the borrowed spans. -/
structure SecretBytes (borrowed : List Span) (size : Nat) where
  span : Span
  length_eq : span.bytes.length = size
  disjoint : ∀ field ∈ borrowed, buffersOverlap span field = false

/-- The input of the handshake: the client initiates. -/
def KeyScheduleInput.initial (input : KeyScheduleInput Span) : KeyScheduleInput Span :=
  { input with initiatorRole := .client, responderRole := .server }

/-- `derive_initial_roots`: none where the source throws.  The key derivation
takes the input key, the salt and the info. -/
def deriveInitialRoots (hkdf : Bytes → Bytes → Bytes → Bytes) (place : Bytes → Nat)
    (arguments : KeyScheduleInput Span)
    (allocate : ∀ size, SecretBytes
      (keyScheduleFields (fun bytes => ⟨place bytes, bytes⟩) arguments.initial) size) :
    Option HandshakeRoots :=
  let input := arguments.initial
  if ¬ anyNonzero input.x25519SharedSecret.bytes ∨
      ¬ anyNonzero input.mlKemSharedSecret.bytes then none
  else
    match keyScheduleInputEncodedSize input.contents with
    | .error _ => none
    | .ok required =>
      if required > maxKeyScheduleInputSize then none
      else
        match encodeKeyScheduleInput place input (allocate required).span with
        | .error _ => none
        | .ok encoded =>
          if encoded.written ≠ required then none
          else
            let transcript := input.transcriptHash.bytes
            let root := hkdf encoded.output transcript rootDomain
            some
              { clientToServer := hkdf root transcript clientToServerDomain
                serverToClient := hkdf root transcript serverToClientDomain
                master := root }

section Encoding

variable {input other : KeyScheduleInput Bytes} {fields others : List Bytes}

/-- Tagged fields of the same number are spelled in one way only. -/
theorem taggedFields_inj {tag : Nat} (hfields : ∀ field ∈ fields, Fits field)
    (hothers : ∀ field ∈ others, Fits field) (hcount : fields.length = others.length)
    (h : taggedFields tag fields = taggedFields tag others) : fields = others := by
  induction fields generalizing tag others with
  | nil => exact (length_eq_zero_iff.mp hcount.symm).symm
  | cons field rest ih =>
    cases others with
    | nil => cases hcount
    | cons =>
      simp only [taggedFields, append_assoc, append_cancel_left_eq] at h
      obtain ⟨hhead, htail⟩ := lengthPrefixed_inj (hfields _ mem_cons_self)
        (hothers _ mem_cons_self) h
      rw [hhead, ih (fun f hf => hfields f (mem_cons_of_mem _ hf))
        (fun f hf => hothers f (mem_cons_of_mem _ hf)) (Nat.succ.inj hcount) htail]

theorem taggedFields_length (tag : Nat) (fields : List Bytes) :
    (taggedFields tag fields).length =
      (fields.map fun field => keyScheduleFieldPrefixSize + field.length).sum := by
  induction fields generalizing tag with
  | nil => rfl
  | cons field rest ih =>
    simp only [taggedFields, lengthPrefixed, length_append, beBytes_length, ih,
      map_cons, sum_cons, keyScheduleFieldPrefixSize]
    omega

theorem keySchedulePayload_length (fields : List Bytes) :
    (keySchedulePayload fields).length = keySchedulePrefixSize +
      (fields.map fun field => keyScheduleFieldPrefixSize + field.length).sum := by
  rw [keySchedulePayload, length_append, taggedFields_length]
  rfl

/-- The spans hold the fields of the contents. -/
theorem keyScheduleFields_contents (place : Bytes → Nat) (input : KeyScheduleInput Span) :
    (keyScheduleFields (fun bytes => ⟨place bytes, bytes⟩) input).map Span.bytes =
      keyScheduleFields id input.contents := rfl

/-- The fields determine the input. -/
theorem keyScheduleFields_inj (h : keyScheduleFields id input = keyScheduleFields id other) :
    input = other := by
  obtain ⟨⟨_⟩, ⟨_⟩, _, _, _, _, _, _, _, _, _, _, _, _, _⟩ := input
  obtain ⟨⟨_⟩, ⟨_⟩, _, _, _, _, _, _, _, _, _, _, _, _, _⟩ := other
  simpa [keyScheduleFields] using h

/-- A manifest that passes the validation is well below its own size limit. -/
theorem capabilityManifest_length_le {payload : Bytes}
    (h : validateCapabilityManifestEncoding payload = .ok ()) : payload.length ≤ 34824 := by
  obtain ⟨manifest, hvalid, -, rfl⟩ := validateCapabilityManifestEncoding_ok h
  have hcount := hvalid.count
  have hentries := flatMap_encode_length_le hvalid.entries
  rw [manifestPayload_length]
  simp only [capabilityPrefixSize, capabilityEntryPrefixSize, maxServiceNameBytes,
    maxCapabilities] at *
  omega

/-- The lengths that the validation leaves. -/
structure KeyScheduleInput.Sized (input : KeyScheduleInput Bytes) : Prop where
  transcriptHash : input.transcriptHash.length = 32
  exporter : input.exporter.length = 32
  accessPsk : input.accessPsk.length = 32
  clientX25519PublicKey : input.clientX25519PublicKey.length = 32
  serverX25519PublicKey : input.serverX25519PublicKey.length = 32
  x25519SharedSecret : input.x25519SharedSecret.length = 32
  mlKemPublicKey : input.mlKemPublicKey.length = 1568
  mlKemCiphertext : input.mlKemCiphertext.length = 1568
  mlKemSharedSecret : input.mlKemSharedSecret.length = 32
  clientIdentity : input.clientIdentity.length ≤ 16384
  serverIdentity : input.serverIdentity.length ≤ 16384
  clientCapabilityManifest : input.clientCapabilityManifest.length ≤ 34824
  serverCapabilityManifest : input.serverCapabilityManifest.length ≤ 34824

theorem validateKeyScheduleInput_sized (h : validateKeyScheduleInput input = .ok ()) :
    input.Sized := by
  unfold validateKeyScheduleInput at h
  split_ifs at h with hroles hsame hlengths hidentities
  split at h
  · cases h
  rename_i hclient
  simp only [not_or, not_not, Nat.not_lt] at hlengths hidentities
  obtain ⟨htranscript, hexporter, hpsk, hclientKey, hserverKey, hshared, hpublic,
    hciphertext, hsecret⟩ := hlengths
  exact ⟨htranscript, hexporter, hpsk, hclientKey, hserverKey, hshared, hpublic, hciphertext,
    hsecret, hidentities.2.2.1, hidentities.2.2.2, capabilityManifest_length_le hclient,
    capabilityManifest_length_le h⟩

theorem KeyScheduleInput.Sized.total_le (h : input.Sized) :
    (keySchedulePayload (keyScheduleFields id input)).length ≤ maxKeyScheduleInputSize := by
  have hdomain : rootDomain.length = 18 := by decide +kernel
  have hsuite : suiteId.length = 75 := by decide +kernel
  have hparameters : requiredSecurityParameters.length = 24 := rfl
  have hclient := h.clientIdentity
  have hserver := h.serverIdentity
  have hclientManifest := h.clientCapabilityManifest
  have hserverManifest := h.serverCapabilityManifest
  rw [keySchedulePayload_length]
  simp only [keyScheduleFields, map_cons, map_nil, sum_cons, sum_nil,
    id_eq, hdomain, hsuite, hparameters, length_cons, length_nil,
    h.transcriptHash, h.exporter, h.accessPsk, h.clientX25519PublicKey,
    h.serverX25519PublicKey, h.x25519SharedSecret, h.mlKemPublicKey, h.mlKemCiphertext,
    h.mlKemSharedSecret, keySchedulePrefixSize, keyScheduleFieldPrefixSize,
    maxKeyScheduleInputSize]
  grind

theorem KeyScheduleInput.Sized.fits (h : input.Sized) :
    ∀ field ∈ keyScheduleFields id input, Fits field := by
  intro field hfield
  have htotal := h.total_le
  have hle := le_sum_of_mem
    (mem_map_of_mem (f := fun field => keyScheduleFieldPrefixSize + field.length) hfield)
  rw [keySchedulePayload_length] at htotal
  simp only [Fits, maxKeyScheduleInputSize] at *
  omega

/-- The size that is announced is the size of the encoding. -/
theorem keyScheduleInputEncodedSize_eq (h : validateKeyScheduleInput input = .ok ()) :
    keyScheduleInputEncodedSize input =
      .ok (keySchedulePayload (keyScheduleFields id input)).length := by
  have htotal := (validateKeyScheduleInput_sized h).total_le
  rw [keySchedulePayload_length] at htotal ⊢
  rw [keyScheduleInputEncodedSize, h]
  rw [boundedTotal_eq _ (by decide) (by decide), if_pos htotal]

variable {place : Bytes → Nat} {source : KeyScheduleInput Span} {output : Span} {encoded : Encoded}

/-- A call that succeeds wrote the encoding of a valid input. -/
theorem encodeKeyScheduleInput_ok (h : encodeKeyScheduleInput place source output = .ok encoded) :
    validateKeyScheduleInput source.contents = .ok () ∧
      encoded.payload = keySchedulePayload (keyScheduleFields id source.contents) ∧
      encoded.written = (keySchedulePayload (keyScheduleFields id source.contents)).length := by
  unfold encodeKeyScheduleInput at h
  split at h
  · cases h
  rename_i hrequired
  dsimp only at h
  split_ifs at h with hsmall hoverlap
  cases h
  refine ⟨?_, take_left, rfl⟩
  rw [keyScheduleInputEncodedSize] at hrequired
  cases hvalid : validateKeyScheduleInput source.contents with
  | error => rw [hvalid] at hrequired; cases hrequired
  | ok => rfl

/-- A valid input is encoded into any buffer that is large enough and apart. -/
theorem encodeKeyScheduleInput_eq (h : validateKeyScheduleInput source.contents = .ok ())
    (hroom : (keySchedulePayload (keyScheduleFields id source.contents)).length ≤
      output.bytes.length)
    (hapart : ∀ field ∈ keyScheduleFields (fun bytes => ⟨place bytes, bytes⟩) source,
      buffersOverlap ⟨output.data, output.bytes.take
        (keySchedulePayload (keyScheduleFields id source.contents)).length⟩ field = false) :
    ∃ rest, encodeKeyScheduleInput place source output =
      .ok ⟨keySchedulePayload (keyScheduleFields id source.contents) ++ rest,
        (keySchedulePayload (keyScheduleFields id source.contents)).length⟩ := by
  refine ⟨output.bytes.drop (keySchedulePayload (keyScheduleFields id source.contents)).length, ?_⟩
  rw [encodeKeyScheduleInput, keyScheduleInputEncodedSize_eq h]
  dsimp only
  rw [if_neg (Nat.not_lt.mpr hroom), if_neg (by simpa using hapart), keyScheduleFields_contents]

end Encoding

/-- The encoding determines the input, its announced size is the number of bytes
written and within the bound, and valid handshake inputs always give roots. -/
theorem key_schedule_encoding_exact :
    (∀ (place elsewhere : Bytes → Nat) (input other : KeyScheduleInput Span)
      (output target : Span) (encoded reencoded : Encoded),
      encodeKeyScheduleInput place input output = .ok encoded →
      encodeKeyScheduleInput elsewhere other target = .ok reencoded →
      encoded.payload = reencoded.payload → input.contents = other.contents) ∧
    (∀ input : KeyScheduleInput Span, validateKeyScheduleInput input.contents = .ok () →
      ∃ size, keyScheduleInputEncodedSize input.contents = .ok size ∧
        size ≤ maxKeyScheduleInputSize ∧
        (∀ place output encoded, encodeKeyScheduleInput place input output = .ok encoded →
          encoded.written = size) ∧
        ∀ (place : Bytes → Nat) (output : Span), size ≤ output.bytes.length →
          (∀ field ∈ keyScheduleFields (fun bytes => ⟨place bytes, bytes⟩) input,
            buffersOverlap ⟨output.data, output.bytes.take size⟩ field = false) →
          ∃ encoded, encodeKeyScheduleInput place input output = .ok encoded) ∧
    (∀ (hkdf : Bytes → Bytes → Bytes → Bytes) (place : Bytes → Nat)
      (input : KeyScheduleInput Span)
      (allocate : ∀ size, SecretBytes
        (keyScheduleFields (fun bytes => ⟨place bytes, bytes⟩) input.initial) size),
      validateKeyScheduleInput input.initial.contents = .ok () →
      anyNonzero input.x25519SharedSecret.bytes = true →
      anyNonzero input.mlKemSharedSecret.bytes = true →
      ∃ roots, deriveInitialRoots hkdf place input allocate = some roots) := by
  refine ⟨?_, fun input hvalid => ?_, ?_⟩
  · intro place elsewhere input other output target encoded reencoded hencode hreencode hsame
    obtain ⟨hvalid, hpayload, -⟩ := encodeKeyScheduleInput_ok hencode
    obtain ⟨hother, hrepayload, -⟩ := encodeKeyScheduleInput_ok hreencode
    rw [hpayload, hrepayload] at hsame
    have htagged := append_cancel_left hsame
    exact keyScheduleFields_inj (taggedFields_inj (validateKeyScheduleInput_sized hvalid).fits
      (validateKeyScheduleInput_sized hother).fits rfl htagged)
  · have hsized := validateKeyScheduleInput_sized hvalid
    refine ⟨_, keyScheduleInputEncodedSize_eq hvalid, hsized.total_le,
      fun place output encoded hencode => (encodeKeyScheduleInput_ok hencode).2.2,
      fun place output hroom hapart => ?_⟩
    obtain ⟨rest, hencode⟩ := encodeKeyScheduleInput_eq hvalid hroom hapart
    exact ⟨_, hencode⟩
  intro hkdf place input allocate hvalid hx25519 hmlKem
  have hsize := keyScheduleInputEncodedSize_eq hvalid
  have htotal := (validateKeyScheduleInput_sized hvalid).total_le
  obtain ⟨rest, hencode⟩ : ∃ rest, encodeKeyScheduleInput place input.initial
      (allocate _).span = _ := by
    refine encodeKeyScheduleInput_eq hvalid (allocate _).length_eq.ge fun field hfield => ?_
    rw [take_of_length_le (allocate _).length_eq.le]
    exact (allocate _).disjoint field hfield
  unfold deriveInitialRoots
  rw [if_neg (by simp [KeyScheduleInput.initial, hx25519, hmlKem]), hsize]
  dsimp only
  rw [if_neg (Nat.not_lt.mpr htotal), hencode]
  exact ⟨_, if_neg (not_not.mpr rfl)⟩

/-- A handshake input whose manifests announce no service. -/
def sampleInput : KeyScheduleInput Span where
  transcriptHash := ⟨0, List.replicate 32 1⟩
  exporter := ⟨0, List.replicate 32 2⟩
  clientIdentity := ⟨0, [3]⟩
  serverIdentity := ⟨0, [4]⟩
  clientCapabilityManifest := ⟨0, [2, 0, 0, 0, 0, 16, 0, 0]⟩
  serverCapabilityManifest := ⟨0, [2, 0, 0, 0, 0, 16, 0, 0]⟩
  accessPsk := ⟨0, List.replicate 32 5⟩
  clientX25519PublicKey := ⟨0, List.replicate 32 6⟩
  serverX25519PublicKey := ⟨0, List.replicate 32 7⟩
  x25519SharedSecret := ⟨0, List.replicate 32 8⟩
  mlKemPublicKey := ⟨0, List.replicate 1568 9⟩
  mlKemCiphertext := ⟨0, List.replicate 1568 10⟩
  mlKemSharedSecret := ⟨0, List.replicate 32 11⟩

/-- The sample's fields end below address 2000. -/
theorem sampleInput_disjoint (bytes : Bytes) :
    ∀ field ∈ keyScheduleFields (fun bytes => ⟨0, bytes⟩) sampleInput,
      buffersOverlap ⟨2000, bytes⟩ field = false := by
  have hfields : ∀ field ∈ keyScheduleFields (fun bytes => ⟨0, bytes⟩) sampleInput,
      field.data = 0 ∧ field.bytes.length ≤ 2000 := by decide +kernel
  intro field hfield
  obtain ⟨hdata, hlength⟩ := hfields field hfield
  rw [buffersOverlap, hdata]
  split_ifs with hempty hbelow
  · rfl
  · exact absurd hbelow (Nat.not_le.mpr (Nat.zero_lt_succ 1999))
  · exact decide_eq_false (Nat.not_lt.mpr hlength)

def sampleBuffer (size : Nat) :
    SecretBytes (keyScheduleFields (fun bytes => ⟨0, bytes⟩) sampleInput) size where
  span := ⟨2000, List.replicate size 0⟩
  length_eq := List.length_replicate
  disjoint := sampleInput_disjoint _

theorem key_schedule_encoding_exact_sample :
    ∃ encoded, encodeKeyScheduleInput (fun _ => 0) sampleInput
        (sampleBuffer maxKeyScheduleInputSize).span = .ok encoded ∧
      encoded.written ≤ maxKeyScheduleInputSize ∧
      ∃ roots, deriveInitialRoots (fun key _ _ => key) (fun _ => 0) sampleInput sampleBuffer =
        some roots := by
  have hvalid : validateKeyScheduleInput sampleInput.contents = .ok () := by decide +kernel
  obtain ⟨size, -, hsize, hwritten, hroom⟩ :=
    key_schedule_encoding_exact.2.1 sampleInput hvalid
  obtain ⟨encoded, hencode⟩ := hroom (fun _ => 0) (sampleBuffer maxKeyScheduleInputSize).span
    (hsize.trans_eq (sampleBuffer _).length_eq.symm) (sampleInput_disjoint _)
  have hroots := key_schedule_encoding_exact.2.2 (fun key _ _ => key) (fun _ => 0) sampleInput
    sampleBuffer hvalid (by decide +kernel) (by decide +kernel)
  exact ⟨encoded, hencode, (hwritten _ _ _ hencode).trans_le hsize, hroots⟩

end Yume.Ytp
