/-
The fixed YTP/1 constants, the configurable limits of one session and their
validation.  Sizes are byte counts and times are nanoseconds.
-/
import Mathlib.Algebra.GroupWithZero.Nat
import Mathlib.Tactic.Common

namespace Yume.Session

abbrev Time := Nat

def frameHeaderSize : Nat := 12
def protectedEnvelopeBytes : Nat := 16
def closePayloadBytes : Nat := 1
def creditPayloadBytes : Nat := 4
def rekeyEpochBytes : Nat := 4
def pingPayloadBytes : Nat := 8
def rekeyInitMessageBytes : Nat := 1672
def rekeyAckMessageBytes : Nat := 1640
def maxCreditIncrement : Nat := 2 ^ 30
def defaultMaxFramePayload : Nat := 2 ^ 20
def minEpochPayloadBytes : Nat := 2 ^ 20
def maxEpochPayloadBytes : Nat := 2 ^ 26
def epochPayloadBytesPerRecord : Nat := 2048
def maxCapabilityConcurrentStreams : Nat := 2 ^ 20
def maxCapabilityManifestSize : Nat := 64 * 1024
def maxSessionSecurityOverheadBytes : Nat := 4096
def maxSessionRekeyPayloadBytes : Nat := 64 * 1024
def maxSessionConcurrentRekeys : Nat := 64
def maxSessionQueuedBytes : Nat := 64 * 1024 * 1024
def maxSessionCreditReturns : Nat := 8
def maxApplicationStreamId : Nat := 2 ^ 31 - 1
def maxEpoch : Nat := 2 ^ 32 - 1
def maxSequence : Nat := 2 ^ 64 - 1

def milliseconds (n : Nat) : Time := n * 1000000

def epochSendLifetime : Time := milliseconds 500
def rotationStartAge : Time := epochSendLifetime / 2
def roundTripWindow : Time := milliseconds 10000
def maxRekeyAckTimeout : Time := milliseconds 30000

/-- The status codes of the engine that a session operation can produce. -/
inductive StatusCode where
  | ok
  | invalidArgument
  | resourceExhausted
  | cancelled
  | closed
  | failedPrecondition
  | notFound
  | alreadyExists
  | providerMismatch
  | internal
  | endOfStream
  | permissionDenied
deriving Repr, DecidableEq

structure Status where
  code : StatusCode := .ok
  message : String := ""
deriving Repr, DecidableEq

def Status.success : Status := {}

def Status.isOk (status : Status) : Bool := status.code == .ok

def protocolFailure (message : String) : Status :=
  ⟨.failedPrecondition, message⟩

/-- `SessionLimits`, with the source's default values. -/
structure SessionLimits where
  maxFramePayload : Nat := 64 * 1024
  maxStreams : Nat := 256
  maxPendingOpens : Nat := 32
  maxControlMessages : Nat := 128
  maxQueuedBytes : Nat := 8 * 1024 * 1024
  maxStreamQueuedBytes : Nat := 512 * 1024
  maxPacketSize : Nat := 64 * 1024
  initialConnectionCredit : Nat := 4 * 1024 * 1024
  maxConnectionCredit : Nat := 8 * 1024 * 1024
  initialStreamCredit : Nat := 256 * 1024
  maxStreamCredit : Nat := 4 * 1024 * 1024
  creditReturnsPerWindow : Nat := 2
  maxEpochBytes : Nat := 2 ^ 20
  maxConcurrentRekeys : Nat := 2
  maxRekeyPayload : Nat := maxSessionRekeyPayloadBytes
  maxSecurityOverhead : Nat := 256
  rekeyAckTimeout : Time := maxRekeyAckTimeout
deriving Repr, DecidableEq

/-- Bytes that only `REKEY_INIT` and `REKEY_ACK` may occupy. -/
def rekeyQueueReserve (limits : SessionLimits) : Nat :=
  2 * (frameHeaderSize + rekeyEpochBytes) + protectedEnvelopeBytes +
    limits.maxSecurityOverhead + rekeyInitMessageBytes + rekeyAckMessageBytes

/-- Bytes kept free for one engine control.  CREDIT is the largest of them. -/
def engineControlReserve (limits : SessionLimits) : Nat :=
  frameHeaderSize + protectedEnvelopeBytes + limits.maxSecurityOverhead + creditPayloadBytes

def outboundQueueLimit (limits : SessionLimits) : Nat :=
  limits.maxQueuedBytes - rekeyQueueReserve limits

def applicationQueueLimit (limits : SessionLimits) : Nat :=
  outboundQueueLimit limits - engineControlReserve limits

/-- `x & (x - 1) == 0` for `x` from the listed powers of two. -/
def isPowerOfTwo (value : Nat) : Bool := value &&& (value - 1) == 0

def isValidEpochPayloadBytes (bytes : Nat) : Bool :=
  decide (minEpochPayloadBytes ≤ bytes ∧ bytes ≤ maxEpochPayloadBytes) && isPowerOfTwo bytes

def epochRecordLimit (epochPayloadBytes : Nat) : Nat :=
  epochPayloadBytes / epochPayloadBytesPerRecord

private def invalidLimits (message : String) : Status :=
  ⟨.invalidArgument, message⟩

/-- `validate_session_limits`: the first refused group of limits, in source
order. -/
def validateSessionLimits (limits : SessionLimits) : Status :=
  if limits.maxFramePayload < rekeyEpochBytes + rekeyInitMessageBytes ∨
      limits.maxFramePayload > defaultMaxFramePayload ∨
      limits.maxFramePayload > minEpochPayloadBytes then
    invalidLimits "session frame limit is outside the YTP/1 bound"
  else if limits.maxStreams = 0 ∨
      limits.maxStreams > maxCapabilityConcurrentStreams ∨
      limits.maxPendingOpens = 0 ∨
      limits.maxPendingOpens > limits.maxStreams then
    invalidLimits "session stream or pending-open limit is invalid"
  else if limits.maxControlMessages < 3 ∨ limits.maxQueuedBytes = 0 ∨
      limits.maxQueuedBytes > maxSessionQueuedBytes ∨
      limits.maxStreamQueuedBytes = 0 ∨
      limits.maxStreamQueuedBytes > limits.maxQueuedBytes then
    invalidLimits "session queue limits are invalid"
  else if limits.maxPacketSize = 0 ∨ limits.maxPacketSize > limits.maxFramePayload then
    invalidLimits "session packet limit exceeds the frame limit"
  else if limits.initialConnectionCredit = 0 ∨
      limits.initialConnectionCredit > limits.maxConnectionCredit ∨
      limits.maxConnectionCredit > maxCreditIncrement ∨
      limits.maxConnectionCredit > limits.maxQueuedBytes ∨
      limits.initialStreamCredit = 0 ∨
      limits.initialStreamCredit > limits.maxStreamCredit ∨
      limits.maxStreamCredit > limits.maxConnectionCredit ∨
      limits.creditReturnsPerWindow < 2 ∨
      limits.creditReturnsPerWindow > maxSessionCreditReturns ∨
      ¬ isPowerOfTwo limits.creditReturnsPerWindow then
    invalidLimits "session flow-credit limits are invalid"
  else if ¬ isValidEpochPayloadBytes limits.maxEpochBytes then
    invalidLimits "session epoch size is not a power of two from 1 MiB through 64 MiB"
  else if limits.maxConcurrentRekeys < 2 ∨
      limits.maxConcurrentRekeys > maxSessionConcurrentRekeys ∨
      limits.maxRekeyPayload < rekeyInitMessageBytes ∨
      limits.maxRekeyPayload > maxSessionRekeyPayloadBytes ∨
      limits.maxSecurityOverhead > maxSessionSecurityOverheadBytes then
    invalidLimits "session rekey or security-overhead limit is invalid"
  else if limits.maxQueuedBytes ≤ rekeyQueueReserve limits + engineControlReserve limits then
    invalidLimits "session queue cannot reserve rekey and engine controls"
  else if limits.rekeyAckTimeout = 0 ∨ limits.rekeyAckTimeout > maxRekeyAckTimeout then
    invalidLimits "session rekey acknowledgement timeout is invalid"
  else Status.success

/-- Limits a session can be created with. -/
def Admissible (limits : SessionLimits) : Prop :=
  validateSessionLimits limits = Status.success

instance (limits : SessionLimits) : Decidable (Admissible limits) :=
  inferInstanceAs (Decidable (validateSessionLimits limits = Status.success))

/-- What validation promises about every admissible configuration. -/
structure LimitFacts (limits : SessionLimits) : Prop where
  frame_ge : rekeyEpochBytes + rekeyInitMessageBytes ≤ limits.maxFramePayload
  frame_le_epoch : limits.maxFramePayload ≤ minEpochPayloadBytes
  control_ge : 3 ≤ limits.maxControlMessages
  packet_le : limits.maxPacketSize ≤ limits.maxFramePayload
  connection_pos : 0 < limits.initialConnectionCredit
  connection_initial_le : limits.initialConnectionCredit ≤ limits.maxConnectionCredit
  connection_le : limits.maxConnectionCredit ≤ maxCreditIncrement
  connection_le_queued : limits.maxConnectionCredit ≤ limits.maxQueuedBytes
  stream_pos : 0 < limits.initialStreamCredit
  stream_initial_le : limits.initialStreamCredit ≤ limits.maxStreamCredit
  stream_le : limits.maxStreamCredit ≤ limits.maxConnectionCredit
  returns_ge : 2 ≤ limits.creditReturnsPerWindow
  epoch_ge : minEpochPayloadBytes ≤ limits.maxEpochBytes
  rekeys_ge : 2 ≤ limits.maxConcurrentRekeys
  rekeyPayload_ge : rekeyInitMessageBytes ≤ limits.maxRekeyPayload
  reserves_lt : rekeyQueueReserve limits + engineControlReserve limits < limits.maxQueuedBytes

theorem Admissible.facts {limits : SessionLimits} (h : Admissible limits) : LimitFacts limits := by
  have hne : ∀ message : String, invalidLimits message ≠ Status.success := by
    intro message heq
    simp [invalidLimits, Status.success] at heq
  unfold Admissible validateSessionLimits at h
  -- Every refused group contradicts `h`, so the chain falls through to success.
  split_ifs at h with h1 h2 h3 h4 h5 h6 h7 h8 h9
  all_goals first | exact absurd h (hne _) | skip
  have hepoch : minEpochPayloadBytes ≤ limits.maxEpochBytes := by
    simp [isValidEpochPayloadBytes] at h6
    exact h6.1.1
  constructor <;> first | exact hepoch | omega

example : Admissible {} := by decide

end Yume.Session
