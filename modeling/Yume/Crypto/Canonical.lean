/-
The canonical inputs of the YTP/1 constructions: what is hashed, signed,
authenticated and bound, as length-prefixed fields behind a domain, and why no
two of them are the same bytes.
-/
import Yume.Lib.Bytes
import Yume.Session.Records

namespace Yume.Crypto

open Yume.Lib List Option Function
open Yume.Session (EndpointRole)

/-- `text_u8`, for the ASCII texts of the protocol. -/
def textU8 (text : String) : Bytes := text.toList.map fun letter => UInt8.ofNat letter.toNat

def suiteId : Bytes :=
  textU8 "YTP/1:TLS13:H2:ED25519+ML-DSA-87:X25519+ML-KEM-1024:HKDF-SHA256:AES-256-GCM"

def roleBindingDomain : Bytes := textU8 "yume/ytp/1/auth-role/v1"

/-- `RequiredSecurityParameters`. -/
def requiredSecurityParameters : Bytes :=
  [1, 1, 1, 1, 1, 1, 1, 1, 1, 32, 12, 16, 32, 32, 32, 32, 0x06, 0x20, 0x06, 0x20, 0x00, 0x40, 1, 0]

def maxTranscriptInputBytes : Nat := 256 * 1024
def maxRatchetInputBytes : Nat := 16 * 1024
def x25519PublicKeySize : Nat := 32
def mlKem1024CiphertextSize : Nat := 1568

/-- The domains that lead a canonical input. -/
inductive Domain where
  | authSignature
  | transcript
  | psk
  | handshakeConfirmation
  | message
  | aad
  | ratchet
deriving Repr, DecidableEq

def Domain.text : Domain → Bytes
  | .authSignature => textU8 "yume/ytp/1/auth-signature/v1"
  | .transcript => textU8 "yume/ytp/1/transcript/v1"
  | .psk => textU8 "yume/ytp/1/psk/v1"
  | .handshakeConfirmation => textU8 "yume/ytp/1/handshake-confirmation/v1"
  | .message => textU8 "yume/ytp/1/message/v1"
  | .aad => textU8 "yume/ytp/1/aad/v1"
  | .ratchet => textU8 "yume/ytp/1/ratchet/v1"

/-- `AuthMessageType`. -/
inductive AuthMessageType where
  | challenge
  | response
  | accepted
  | rekeyInit
  | rekeyAck
deriving Repr, DecidableEq

def AuthMessageType.wire : AuthMessageType → UInt8
  | .challenge => 1
  | .response => 2
  | .accepted => 3
  | .rekeyInit => 4
  | .rekeyAck => 5

/-- `to_ytp_role`, as the wire byte. -/
def toYtpRole : EndpointRole → UInt8
  | .client => 1
  | .server => 2

inductive ConfirmationPurpose where
  | response
  | accepted
deriving Repr, DecidableEq

def ConfirmationPurpose.wire : ConfirmationPurpose → UInt8
  | .response => 1
  | .accepted => 2

/-- A record key token in its wire widths. -/
structure WireToken where
  epoch : UInt32
  sequence : UInt64
deriving Repr, DecidableEq

/-- `append_length_prefixed`: none where the source throws. -/
def appendLengthPrefixed (output value : Bytes) (bound : Nat) : Option Bytes :=
  if value.length > 2 ^ 32 - 1 ∨ output.length > bound ∨
      value.length > bound - output.length ∨
      output.length + value.length > bound - 4 then none
  else some (output ++ beBytes 4 value.length ++ value)

/-- The loop of `canonical_tagged_input`. -/
def appendFields (bound : Nat) : List Bytes → Bytes → Option Bytes
  | [], output => some output
  | field :: fields, output =>
    (appendLengthPrefixed output field bound).bind (appendFields bound fields)

/-- `canonical_tagged_input`. -/
def canonicalTaggedInput (domain : Domain) (fields : List Bytes)
    (bound : Nat := maxTranscriptInputBytes) : Option Bytes :=
  (appendLengthPrefixed [] domain.text bound).bind (appendFields bound fields)

/-- The canonical input that `transcript_hash` hashes. -/
def transcriptInput (exporter : Bytes) (messages : List Bytes) : Option Bytes :=
  canonicalTaggedInput .transcript ([suiteId, exporter] ++ messages)

/-- `signature_input`. -/
def signatureInput (sender : EndpointRole) (messageType : AuthMessageType)
    (exporter transcript confirmation : Bytes) : Option Bytes :=
  (canonicalTaggedInput .authSignature
    [roleBindingDomain, suiteId, requiredSecurityParameters, exporter,
      [messageType.wire], [toYtpRole sender], transcript]).bind fun output =>
    appendLengthPrefixed output confirmation maxTranscriptInputBytes

/-- `psk_authenticator_input`. -/
def pskAuthenticatorInput (purpose : ConfirmationPurpose) (transcript : Bytes) : Option Bytes :=
  canonicalTaggedInput .psk [suiteId, [purpose.wire], transcript]

/-- `key_confirmation_input`. -/
def keyConfirmationInput (purpose : ConfirmationPurpose) (transcript : Bytes) : Option Bytes :=
  canonicalTaggedInput .handshakeConfirmation [suiteId, [purpose.wire], transcript]

/-- `record_aad`. -/
def recordAad (sender : EndpointRole) (token : WireToken) : Option Bytes :=
  canonicalTaggedInput .aad [suiteId, [if sender = .client then 1 else 2],
      beBytes 4 token.epoch.toNat ++ beBytes 8 token.sequence.toNat]

/-- The info string of `derive_record_material`. -/
def recordMaterialInfo (sender : EndpointRole) (token : WireToken)
    (sessionBinding : Bytes) : Option Bytes :=
  (recordAad sender token).bind fun aad =>
    canonicalTaggedInput .message [Domain.message.text, sessionBinding, aad]

/-- `challenge_context`. -/
def challengeContext (exporter serverIdentity mlKemPublic serverX25519Public
    serverCapabilities nonce : Bytes) : Option Bytes :=
  (canonicalTaggedInput .transcript [[AuthMessageType.challenge.wire], [toYtpRole .server], suiteId,
      requiredSecurityParameters, exporter, serverIdentity, mlKemPublic,
      serverX25519Public, serverCapabilities]).bind fun context =>
    appendLengthPrefixed context nonce maxTranscriptInputBytes

/-- `response_context`. -/
def responseContext (canonicalChallenge clientIdentity mlKemCiphertext
    clientX25519Public clientCapabilities : Bytes) : Option Bytes :=
  canonicalTaggedInput .transcript [[AuthMessageType.response.wire], [toYtpRole .client], suiteId,
      requiredSecurityParameters, canonicalChallenge, clientIdentity,
      mlKemCiphertext, clientX25519Public, clientCapabilities]

/-- `rekey_init_auth_input`. -/
def rekeyInitAuthInput (direction : EndpointRole) (epoch : UInt32)
    (sessionBinding mlKemPublic x25519Public nonce : Bytes) : Option Bytes :=
  canonicalTaggedInput .ratchet
    [suiteId, sessionBinding, [toYtpRole direction], beBytes 4 epoch.toNat,
      mlKemPublic, x25519Public, nonce] maxRatchetInputBytes

/-- `rekey_ack_auth_input`. -/
def rekeyAckAuthInput (direction : EndpointRole) (epoch : UInt32)
    (sessionBinding canonicalInitWithoutAuthenticator mlKemCiphertext
      x25519Public : Bytes) : Option Bytes :=
  canonicalTaggedInput .ratchet
    [suiteId, sessionBinding, [toYtpRole direction], beBytes 4 epoch.toNat,
      canonicalInitWithoutAuthenticator, mlKemCiphertext, x25519Public]
    maxRatchetInputBytes

/-- One call of one of the constructions, with its arguments. -/
inductive CanonicalInput where
  | transcript (exporter : Bytes) (messages : List Bytes)
  | signature (sender : EndpointRole) (messageType : AuthMessageType)
    (exporter transcript confirmation : Bytes)
  | pskAuthenticator (purpose : ConfirmationPurpose) (transcript : Bytes)
  | keyConfirmation (purpose : ConfirmationPurpose) (transcript : Bytes)
  | recordAad (sender : EndpointRole) (token : WireToken)
  | recordMaterial (sender : EndpointRole) (token : WireToken) (sessionBinding : Bytes)
  | challenge (exporter serverIdentity mlKemPublic serverX25519Public
    serverCapabilities nonce : Bytes)
  | response (canonicalChallenge clientIdentity mlKemCiphertext clientX25519Public
    clientCapabilities : Bytes)
  | rekeyInit (direction : EndpointRole) (epoch : UInt32)
    (sessionBinding mlKemPublic x25519Public nonce : Bytes)
  | rekeyAck (direction : EndpointRole) (epoch : UInt32)
    (sessionBinding canonicalInitWithoutAuthenticator mlKemCiphertext
      x25519Public : Bytes)
deriving Repr, DecidableEq

namespace CanonicalInput

/-- The bytes the call produces, if it does not throw. -/
def encode : CanonicalInput → Option Bytes
  | .transcript exporter messages => transcriptInput exporter messages
  | .signature sender messageType exporter digest confirmation =>
    signatureInput sender messageType exporter digest confirmation
  | .pskAuthenticator purpose digest => pskAuthenticatorInput purpose digest
  | .keyConfirmation purpose digest => keyConfirmationInput purpose digest
  | .recordAad sender token => Crypto.recordAad sender token
  | .recordMaterial sender token sessionBinding =>
    recordMaterialInfo sender token sessionBinding
  | .challenge exporter serverIdentity mlKemPublic serverX25519Public serverCapabilities nonce =>
    challengeContext exporter serverIdentity mlKemPublic serverX25519Public serverCapabilities nonce
  | .response canonicalChallenge clientIdentity mlKemCiphertext clientX25519Public
    clientCapabilities =>
    responseContext canonicalChallenge clientIdentity mlKemCiphertext
      clientX25519Public clientCapabilities
  | .rekeyInit direction epoch sessionBinding mlKemPublic x25519Public nonce =>
    rekeyInitAuthInput direction epoch sessionBinding mlKemPublic x25519Public nonce
  | .rekeyAck direction epoch sessionBinding canonicalInit mlKemCiphertext x25519Public =>
    rekeyAckAuthInput direction epoch sessionBinding canonicalInit mlKemCiphertext x25519Public

/-- The fixed sizes that the callers' arrays give to the ratchet inputs: all
the others make no difference to the result. -/
def Sized : CanonicalInput → Prop
  | .rekeyInit _ _ _ _ x25519Public _ => x25519Public.length = x25519PublicKeySize
  | .rekeyAck _ _ _ _ mlKemCiphertext _ =>
    mlKemCiphertext.length = mlKem1024CiphertextSize
  | _ => True

end CanonicalInput

section Spelling

/-- The bytes are the fields in order, each behind its length. -/
structure Spells (fields : List Bytes) (output : Bytes) : Prop where
  output_eq : output = fields.flatMap lengthPrefixed
  fits : ∀ field ∈ fields, Fits field

variable {fields others : List Bytes} {output result value : Bytes} {bound : Nat}

theorem Spells.inj (h : Spells fields output) (hother : Spells others output) : fields = others :=
  flatMap_lengthPrefixed_inj h.fits hother.fits (h.output_eq ▸ hother.output_eq)

theorem Spells.append (h : Spells fields output)
    (happend : appendLengthPrefixed output value bound = some result) :
    Spells (fields ++ [value]) result := by
  unfold appendLengthPrefixed at happend
  split_ifs at happend with hthrows
  simp only [not_or, Nat.not_lt] at hthrows
  cases happend
  constructor
  · rw [flatMap_append, ← h.output_eq, append_assoc]
    simp [lengthPrefixed]
  have hlength := hthrows.1
  refine forall_mem_append.mpr ⟨h.fits, forall_mem_singleton.mpr ?_⟩
  simp only [Fits]
  omega

theorem Spells.appendFields (h : Spells fields output)
    (happend : appendFields bound others output = some result) :
    Spells (fields ++ others) result := by
  induction others generalizing fields output with
  | nil =>
    cases happend
    rw [append_nil]
    exact h
  | cons other others ih =>
    obtain ⟨middle, hfirst, hrest⟩ := bind_eq_some_iff.mp happend
    rw [append_cons]
    exact ih (h.append hfirst) hrest

theorem canonicalTaggedInput_spells {domain : Domain}
    (h : canonicalTaggedInput domain fields bound = some output) :
    Spells (domain.text :: fields) output := by
  obtain ⟨start, hdomain, hfields⟩ := bind_eq_some_iff.mp h
  have hempty : Spells [] [] := ⟨rfl, nofun⟩
  exact (hempty.append hdomain).appendFields hfields

end Spelling

section Separation

theorem Domain.text_injective : Injective Domain.text := by
  intro left right h
  cases left <;> cases right <;> first | rfl | (exfalso; revert h; decide +kernel)

theorem toYtpRole_injective : Injective toYtpRole := by
  intro left right h
  cases left <;> cases right <;> first | rfl | cases h

theorem AuthMessageType.wire_injective : Injective AuthMessageType.wire := by
  intro left right h
  cases left <;> cases right <;> first | rfl | cases h

theorem ConfirmationPurpose.wire_injective : Injective ConfirmationPurpose.wire := by
  intro left right h
  cases left <;> cases right <;> first | rfl | cases h

namespace CanonicalInput

/-- The domain that leads the bytes of a call. -/
def domain : CanonicalInput → Domain
  | .transcript .. | .challenge .. | .response .. => .transcript
  | .signature .. => .authSignature
  | .pskAuthenticator .. => .psk
  | .keyConfirmation .. => .handshakeConfirmation
  | .recordAad .. => .aad
  | .recordMaterial .. => .message
  | .rekeyInit .. | .rekeyAck .. => .ratchet

/-- The fields behind the domain. -/
def fields : CanonicalInput → List Bytes
  | .transcript exporter messages => [suiteId, exporter] ++ messages
  | .signature sender messageType exporter digest confirmation =>
    [roleBindingDomain, suiteId, requiredSecurityParameters, exporter,
      [messageType.wire], [toYtpRole sender], digest, confirmation]
  | .pskAuthenticator purpose digest => [suiteId, [purpose.wire], digest]
  | .keyConfirmation purpose digest => [suiteId, [purpose.wire], digest]
  | .recordAad sender token =>
    [suiteId, [if sender = .client then 1 else 2],
      beBytes 4 token.epoch.toNat ++ beBytes 8 token.sequence.toNat]
  | .recordMaterial sender token sessionBinding =>
    [Domain.message.text, sessionBinding, (Crypto.recordAad sender token).getD []]
  | .challenge exporter serverIdentity mlKemPublic serverX25519Public serverCapabilities nonce =>
    [[AuthMessageType.challenge.wire], [toYtpRole .server], suiteId,
      requiredSecurityParameters, exporter, serverIdentity, mlKemPublic,
      serverX25519Public, serverCapabilities, nonce]
  | .response canonicalChallenge clientIdentity mlKemCiphertext clientX25519Public
    clientCapabilities =>
    [[AuthMessageType.response.wire], [toYtpRole .client], suiteId,
      requiredSecurityParameters, canonicalChallenge, clientIdentity,
      mlKemCiphertext, clientX25519Public, clientCapabilities]
  | .rekeyInit direction epoch sessionBinding mlKemPublic x25519Public nonce =>
    [suiteId, sessionBinding, [toYtpRole direction], beBytes 4 epoch.toNat,
      mlKemPublic, x25519Public, nonce]
  | .rekeyAck direction epoch sessionBinding canonicalInit mlKemCiphertext x25519Public =>
    [suiteId, sessionBinding, [toYtpRole direction], beBytes 4 epoch.toNat,
      canonicalInit, mlKemCiphertext, x25519Public]

variable {input other : CanonicalInput} {output : Bytes}

/-- Every construction spells its domain and then its fields. -/
theorem encode_spells (h : input.encode = some output) :
    Spells (input.domain.text :: input.fields) output := by
  cases input with
  | signature | challenge =>
    obtain ⟨start, htagged, hlast⟩ := bind_eq_some_iff.mp h
    exact (canonicalTaggedInput_spells htagged).append hlast
  | recordMaterial =>
    rw [encode, recordMaterialInfo, bind_eq_some_iff] at h
    obtain ⟨aad, haad, htagged⟩ := h
    rw [fields, haad]
    exact canonicalTaggedInput_spells htagged
  | _ =>
    simp only [encode, transcriptInput, pskAuthenticatorInput, keyConfirmationInput,
      Crypto.recordAad, responseContext, rekeyInitAuthInput, rekeyAckAuthInput] at h
    exact canonicalTaggedInput_spells h

/-- The same bytes have the same domain and the same fields. -/
theorem encode_fields_eq (h : input.encode = some output) (hother : other.encode = some output) :
    input.domain = other.domain ∧ input.fields = other.fields := by
  have heq := (encode_spells h).inj (encode_spells hother)
  rw [List.cons.injEq] at heq
  exact ⟨Domain.text_injective heq.1, heq.2⟩

end CanonicalInput

theorem epoch_inj {epoch other : UInt32}
    (h : beBytes 4 epoch.toNat = beBytes 4 other.toNat) : epoch = other :=
  UInt32.toNat_inj.mp (beBytes_inj epoch.toNat_lt other.toNat_lt h)

/-- The token's twelve bytes determine it. -/
theorem token_inj {token other : WireToken}
    (h : beBytes 4 token.epoch.toNat ++ beBytes 8 token.sequence.toNat =
      beBytes 4 other.epoch.toNat ++ beBytes 8 other.sequence.toNat) : token = other := by
  obtain ⟨hepoch, hsequence⟩ := append_inj h (by simp)
  have hs := beBytes_inj token.sequence.toNat_lt other.sequence.toNat_lt hsequence
  cases token
  cases other
  rw [WireToken.mk.injEq]
  exact ⟨epoch_inj hepoch, UInt64.toNat_inj.mp hs⟩

theorem direction_inj {sender other : EndpointRole}
    (h : (if sender = .client then (1 : UInt8) else 2) = if other = .client then 1 else 2) :
    sender = other := by
  revert h
  cases sender <;> cases other <;> decide

theorem recordAad_inj {sender other : EndpointRole} {token token' : WireToken}
    {output : Bytes} (h : recordAad sender token = some output)
    (hother : recordAad other token' = some output) : sender = other ∧ token = token' := by
  have hencode : (CanonicalInput.recordAad sender token).encode = some output := h
  have hother : (CanonicalInput.recordAad other token').encode = some output := hother
  have hfields := (CanonicalInput.encode_fields_eq hencode hother).2
  simp only [CanonicalInput.fields, List.cons.injEq, true_and, and_true] at hfields
  exact ⟨direction_inj hfields.1, token_inj hfields.2⟩

end Separation

open CanonicalInput in
/-- Two calls that produce the same bytes are the same call with the same
arguments. -/
theorem canonical_inputs_separated (input other : CanonicalInput) (output : Bytes)
    (hsized : input.Sized) (hother : other.Sized) (h : input.encode = some output)
    (hsame : other.encode = some output) : input = other := by
  obtain ⟨hdomain, hfields⟩ := encode_fields_eq h hsame
  have hsuite : suiteId.length ≠ 1 := by decide +kernel
  cases input with
  | transcript =>
    cases other with
    | transcript =>
      simp only [fields, cons_append, nil_append, List.cons.injEq,
        true_and] at hfields
      rw [hfields.1, hfields.2]
    | challenge | response =>
      -- a suite stands where the others have a one-byte message type
      simp only [fields, cons_append, List.cons.injEq] at hfields
      exact absurd (congrArg List.length hfields.1) hsuite
    | _ => cases hdomain
  | challenge =>
    cases other with
    | transcript =>
      simp only [fields, cons_append, List.cons.injEq] at hfields
      exact absurd (congrArg List.length hfields.1).symm hsuite
    | challenge =>
      simp only [fields, List.cons.injEq, true_and, and_true] at hfields
      obtain ⟨rfl, rfl, rfl, rfl, rfl, rfl⟩ := hfields
      rfl
    | response =>
      simp [fields, AuthMessageType.wire] at hfields
    | _ => cases hdomain
  | response challenge =>
    cases other with
    | transcript =>
      simp only [fields, cons_append, List.cons.injEq] at hfields
      exact absurd (congrArg List.length hfields.1).symm hsuite
    | challenge =>
      simp [fields, AuthMessageType.wire] at hfields
    | response =>
      simp only [fields, List.cons.injEq, true_and, and_true] at hfields
      obtain ⟨rfl, rfl, rfl, rfl, rfl⟩ := hfields
      rfl
    | _ => cases hdomain
  | rekeyInit =>
    cases other with
    | rekeyInit =>
      simp only [fields, List.cons.injEq, true_and, and_true] at hfields
      obtain ⟨rfl, hdirection, hepoch, rfl, rfl, rfl⟩ := hfields
      rw [toYtpRole_injective hdirection, epoch_inj hepoch]
    | rekeyAck =>
      -- an X25519 key stands where the other has an ML-KEM ciphertext
      simp only [fields, List.cons.injEq] at hfields
      obtain ⟨-, -, -, -, -, hkey, -⟩ := hfields
      simp only [Sized, hkey] at hsized hother
      rw [hsized] at hother
      cases hother
    | _ => cases hdomain
  | rekeyAck =>
    cases other with
    | rekeyInit =>
      simp only [fields, List.cons.injEq] at hfields
      obtain ⟨-, -, -, -, -, hkey, -⟩ := hfields
      simp only [Sized, hkey] at hsized hother
      rw [hsized] at hother
      cases hother
    | rekeyAck =>
      simp only [fields, List.cons.injEq, true_and, and_true] at hfields
      obtain ⟨rfl, hdirection, hepoch, rfl, rfl, rfl⟩ := hfields
      rw [toYtpRole_injective hdirection, epoch_inj hepoch]
    | _ => cases hdomain
  | signature =>
    cases other with
    | signature =>
      simp only [fields, List.cons.injEq, true_and, and_true] at hfields
      obtain ⟨rfl, htype, hsender, rfl, rfl⟩ := hfields
      rw [toYtpRole_injective hsender, AuthMessageType.wire_injective htype]
    | _ => cases hdomain
  | pskAuthenticator =>
    cases other with
    | pskAuthenticator =>
      simp only [fields, List.cons.injEq, true_and, and_true] at hfields
      rw [ConfirmationPurpose.wire_injective hfields.1, hfields.2]
    | _ => cases hdomain
  | keyConfirmation =>
    cases other with
    | keyConfirmation =>
      simp only [fields, List.cons.injEq, true_and, and_true] at hfields
      rw [ConfirmationPurpose.wire_injective hfields.1, hfields.2]
    | _ => cases hdomain
  | recordAad =>
    cases other with
    | recordAad =>
      obtain ⟨hsender, htoken⟩ := recordAad_inj h hsame
      rw [hsender, htoken]
    | _ => cases hdomain
  | recordMaterial =>
    cases other with
    | recordMaterial =>
      rw [encode, recordMaterialInfo, bind_eq_some_iff] at h hsame
      obtain ⟨aad, haad, -⟩ := h
      obtain ⟨aad', haad', -⟩ := hsame
      simp only [fields, haad, haad', getD_some, List.cons.injEq, true_and,
        and_true] at hfields
      obtain ⟨rfl, rfl⟩ := hfields
      obtain ⟨hsender, htoken⟩ := recordAad_inj haad haad'
      rw [hsender, htoken]
    | _ => cases hdomain

theorem canonical_inputs_separated_rekey :
    ∃ output, (CanonicalInput.rekeyInit .client 1 [7] [8] (List.replicate 32 9) [10]).encode =
        some output ∧
      ∀ other : CanonicalInput, other.Sized → other.encode = some output →
        CanonicalInput.rekeyInit .client 1 [7] [8] (List.replicate 32 9) [10] = other := by
  have hsome : (CanonicalInput.rekeyInit .client 1 [7] [8] (List.replicate 32 9)
      [10]).encode.isSome = true := by decide +kernel
  obtain ⟨output, houtput⟩ := isSome_iff_exists.mp hsome
  exact ⟨output, houtput, fun other hsized hother =>
    canonical_inputs_separated _ other output rfl hsized houtput hother⟩

end Yume.Crypto
