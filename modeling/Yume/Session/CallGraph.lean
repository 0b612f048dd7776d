/-
The call graph of the critical sections: which sections each one can leave
behind.  It shows where every kind of pending section comes from.
-/
import Yume.Session.Moves

namespace Yume.Session

open Engine List

/-- The critical sections by name. -/
inductive Section where
  | enqueue | rotateCheck | admitCheck | deferReserve | deferPush | takeToken
  | sealFrame | publish | tokenLost | initiateRekey | beginRekey
  | rotateAgedEpoch | expireRekey | drainControls | selectControl
  | controlRefused | localAcceptance | controlsFail | drainWrites
  | selectWrite | settleWrite | flushDeferred | flushNext | flushCheck
  | flushClosed | flushAbandon | finishShutdown | finishCheck | removeStream
  | dropWrites | dropInbound | settleHandshake | retire | abortStream
  | eraseUnpublished | returnCredit | asyncOpen | openRegistered | cancelOpen
  | streamRead | cancelRead | streamWrite | cancelWrite | streamShutdown
  | streamClose | completePeerOpen | stopSession | advertise | advertiseCredit
  | processReceived | processCapabilities | processOpen | insertPeerStream
  | processData | publishData | processClose | processConnectionCredit
  | processStreamCredit | processPing | processPong | processRekeyInit
  | acceptRekeyInit | processRekeyAck | receiveDone
deriving DecidableEq

/-- The section a call runs next. -/
def Call.name : Call → Section
  | .enqueue _ _ => .enqueue
  | .rotateCheck _ _ => .rotateCheck
  | .admitCheck _ _ => .admitCheck
  | .deferReserve _ _ => .deferReserve
  | .deferPush _ _ => .deferPush
  | .takeToken _ _ => .takeToken
  | .sealFrame _ _ _ => .sealFrame
  | .publish _ _ _ _ _ => .publish
  | .tokenLost _ _ _ => .tokenLost
  | .initiateRekey _ => .initiateRekey
  | .beginRekey _ _ => .beginRekey
  | .rotateAgedEpoch => .rotateAgedEpoch
  | .expireRekey => .expireRekey
  | .drainControls => .drainControls
  | .selectControl => .selectControl
  | .controlRefused => .controlRefused
  | .localAcceptance _ => .localAcceptance
  | .controlsFail _ => .controlsFail
  | .drainWrites => .drainWrites
  | .selectWrite => .selectWrite
  | .settleWrite _ _ _ _ => .settleWrite
  | .flushDeferred => .flushDeferred
  | .flushNext _ => .flushNext
  | .flushCheck _ _ => .flushCheck
  | .flushClosed _ _ => .flushClosed
  | .flushAbandon _ _ _ => .flushAbandon
  | .finishShutdown _ => .finishShutdown
  | .finishCheck _ => .finishCheck
  | .removeStream _ _ => .removeStream
  | .dropWrites _ => .dropWrites
  | .dropInbound _ => .dropInbound
  | .settleHandshake _ => .settleHandshake
  | .retire _ => .retire
  | .abortStream _ _ _ => .abortStream
  | .eraseUnpublished _ => .eraseUnpublished
  | .returnCredit _ _ _ => .returnCredit
  | .asyncOpen _ => .asyncOpen
  | .openRegistered _ => .openRegistered
  | .cancelOpen _ => .cancelOpen
  | .streamRead _ => .streamRead
  | .cancelRead _ _ => .cancelRead
  | .streamWrite _ _ => .streamWrite
  | .cancelWrite _ _ => .cancelWrite
  | .streamShutdown _ => .streamShutdown
  | .streamClose _ => .streamClose
  | .completePeerOpen _ _ => .completePeerOpen
  | .stopSession _ _ => .stopSession
  | .advertise => .advertise
  | .advertiseCredit => .advertiseCredit
  | .processReceived _ => .processReceived
  | .processCapabilities _ => .processCapabilities
  | .processOpen _ _ => .processOpen
  | .insertPeerStream _ _ _ => .insertPeerStream
  | .processData _ _ _ => .processData
  | .publishData _ _ _ => .publishData
  | .processClose _ _ => .processClose
  | .processConnectionCredit _ => .processConnectionCredit
  | .processStreamCredit _ _ => .processStreamCredit
  | .processPing => .processPing
  | .processPong => .processPong
  | .processRekeyInit _ _ _ => .processRekeyInit
  | .acceptRekeyInit _ _ _ _ => .acceptRekeyInit
  | .processRekeyAck _ _ _ => .processRekeyAck
  | .receiveDone => .receiveDone

namespace Section

/-- The sections in which the callers of `enqueue_record` continue. -/
def resumed : List Section :=
  [.controlRefused, .localAcceptance, .selectControl, .controlsFail,
   .settleWrite, .flushNext, .flushClosed, .flushAbandon, .openRegistered,
   .abortStream, .stopSession, .rotateAgedEpoch, .receiveDone,
   .advertiseCredit]

/-- The sections a section can leave behind. -/
def calls : Section → List Section
  | .enqueue => .rotateCheck :: resumed
  | .rotateCheck => [.initiateRekey, .enqueue, .admitCheck]
  | .admitCheck => [.deferReserve, .takeToken] ++ resumed
  | .deferReserve => .deferPush :: resumed
  | .deferPush => resumed
  | .takeToken => .sealFrame :: resumed
  | .sealFrame => [.publish, .tokenLost]
  | .publish => resumed
  | .tokenLost => resumed
  | .initiateRekey => [.beginRekey, .stopSession]
  | .beginRekey => [.enqueue, .stopSession]
  | .rotateAgedEpoch => [.initiateRekey]
  | .expireRekey => [.stopSession]
  | .drainControls => [.selectControl]
  | .selectControl => [.enqueue, .controlsFail]
  | .controlRefused => [.selectControl]
  | .localAcceptance => [.selectControl]
  | .drainWrites => [.selectWrite]
  | .selectWrite => [.enqueue]
  | .settleWrite => [.finishShutdown, .selectWrite]
  | .flushDeferred => [.flushNext, .receiveDone, .stopSession]
  | .flushNext => [.flushCheck, .drainControls, .drainWrites, .receiveDone]
  | .flushCheck => [.flushNext, .enqueue]
  | .flushClosed => [.flushNext]
  | .flushAbandon => [.receiveDone, .stopSession]
  | .finishShutdown => [.drainControls, .finishCheck]
  | .finishCheck => [.removeStream, .settleHandshake]
  | .removeStream => [.dropWrites, .dropInbound]
  | .dropWrites => [.dropWrites]
  | .dropInbound => [.returnCredit, .dropInbound, .drainWrites]
  | .settleHandshake => [.drainControls, .retire]
  | .abortStream => [.removeStream, .eraseUnpublished, .drainControls]
  | .returnCredit => [.drainControls, .stopSession, .receiveDone]
  | .asyncOpen => [.enqueue]
  | .cancelOpen => [.abortStream]
  | .streamRead => [.removeStream, .settleHandshake]
  | .streamWrite => [.drainWrites]
  | .cancelWrite => [.finishShutdown, .drainWrites]
  | .streamShutdown => [.finishShutdown]
  | .streamClose => [.abortStream]
  | .completePeerOpen => [.drainControls, .finishShutdown, .abortStream]
  | .advertise => [.enqueue]
  | .advertiseCredit => [.drainControls, .receiveDone]
  | .processReceived => [.processCapabilities, .processOpen, .processData,
    .processClose, .processConnectionCredit, .processStreamCredit,
    .processPing, .processPong, .processRekeyInit, .processRekeyAck,
    .receiveDone, .stopSession]
  | .processCapabilities => [.receiveDone, .stopSession]
  | .processOpen => [.insertPeerStream, .receiveDone, .stopSession]
  | .insertPeerStream => [.abortStream, .receiveDone, .stopSession]
  | .processData => [.publishData, .returnCredit, .receiveDone, .stopSession]
  | .publishData => [.returnCredit, .drainControls, .receiveDone, .stopSession]
  | .processClose => [.removeStream, .settleHandshake, .receiveDone, .stopSession]
  | .processConnectionCredit => [.drainWrites, .receiveDone, .stopSession]
  | .processStreamCredit => [.drainControls, .drainWrites, .receiveDone, .stopSession]
  | .processPing => [.enqueue]
  | .processPong => [.receiveDone]
  | .processRekeyInit => [.acceptRekeyInit, .receiveDone, .stopSession]
  | .acceptRekeyInit => [.enqueue]
  | .processRekeyAck => [.flushDeferred, .receiveDone, .stopSession]
  | _ => []

end Section

/-- May `call` leave `left` behind? -/
def Call.leaves (call left : Call) : Bool := call.name.calls.elem left.name

theorem Owner.resume_calls (owner : Owner) (request : Request)
    (status : Status) (admission : QueueAdmission) :
    (owner.resume request status admission).all
      (fun left => Section.resumed.elem left.name) = true := by
  cases owner <;> simp only [Owner.resume] <;> (repeat' split) <;> rfl

section Step

variable {e e' : Engine} {choice : Choice} {call : Call} {made : List Call}

theorem Owner.resume_leaves {owner : Owner} {request : Request}
    {status : Status} {admission : QueueAdmission}
    (h : Section.resumed ⊆ call.name.calls) :
    (owner.resume request status admission).all call.leaves = true := by
  have hcalls := owner.resume_calls request status admission
  simp only [all_eq_true, Call.leaves, elem_eq_mem, decide_eq_true_eq] at hcalls ⊢
  exact fun left hleft => h (hcalls left hleft)

variable (h : Effect e choice call e' made)
include h

/-- Every section leaves only the sections that the call graph lists. -/
theorem Effect.leaves : made.all call.leaves = true := by
  cases h with
  | receiveFailing hc => cases call <;> first | rfl | cases hc
  | enqueueRefused | deferLeaves | tokenLeaves | tokenUnadmitted | tokenExhausted =>
    exact Owner.resume_leaves (subset_cons_self _ _)
  | admitLeaves => exact Owner.resume_leaves (subset_append_right _ _)
  | deferPushLeaves | deferPushes | publishStopped | publishes | tokenFails | bareLost =>
    exact Owner.resume_leaves (List.Subset.refl _)
  | @openSucceeds token body =>
    cases body.plaintext <;> simp only [dispatch] <;> split <;> rfl
  | _ => rfl

theorem Effect.leaves_of_mem {left : Call} (hleft : left ∈ made) : call.leaves left = true :=
  all_eq_true.mp h.leaves left hleft

/-- What no section that `call` leaves behind holds, nothing it leaves holds. -/
theorem Effect.flatMap_nil {α : Type} {f : Call → List α}
    (hf : ∀ left, call.leaves left = true → f left = []) :
    made.flatMap f = [] :=
  flatMap_eq_nil_iff.mpr fun _ hleft => hf _ (h.leaves_of_mem hleft)

end Step

end Yume.Session
