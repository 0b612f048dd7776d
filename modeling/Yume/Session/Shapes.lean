/-
What a pending record can look like: its control and completion follow from the
record, and its caller from both.
-/
import Yume.Session.Names

namespace Yume.Session

open Yume.Lib Engine Owner List

/-- The engine control that a CLOSE discharges. -/
def CloseCode.controlKind : CloseCode → ControlKind
  | .normal => .fin
  | .settled => .settlement
  | .unauthorized | .unsupported | .handlerFailure | .aborted => .terminal

namespace Record

/-- The engine control of a record, as far as its content fixes it. -/
def control (record : Record) (reserved : Bool) : EngineControl :=
  match record with
  | .connectionCredit increment => ⟨.credit, 0, increment, reserved⟩
  | .streamCredit id increment => ⟨.credit, id, increment, reserved⟩
  | .close id code => ⟨code.controlKind, id, 0, reserved⟩
  | _ => {}

/-- Records the engine owes and the drain publishes. -/
def isOwed : Record → Bool
  | .connectionCredit _ | .streamCredit _ _ | .close _ _ => true
  | _ => false

/-- Records that count as control messages. -/
def isMessage : Record → Bool
  | .capabilities _ | .ping | .pong | .rekeyInit _ _ _ | .rekeyAck _ _ _ => true
  | _ => false

def isData : Record → Bool
  | .data _ _ _ => true
  | _ => false

/-- Stream records name a stream, credits carry credit and data is not
empty. -/
def Proper : Record → Prop
  | .open id _ => id ≠ 0
  | .data id _ payload => id ≠ 0 ∧ payload.size ≠ 0
  | .close id _ => id ≠ 0
  | .connectionCredit increment =>
    increment ≠ 0 ∧ increment ≤ maxCreditIncrement
  | .streamCredit id increment =>
    id ≠ 0 ∧ increment ≠ 0 ∧ increment ≤ maxCreditIncrement
  | _ => True

end Record

namespace DeferredRecord

/-- The control and the completion fit the record.  `reserved` says whether its
engine control is reserved. -/
structure Shaped (deferred : DeferredRecord) (reserved : Bool) : Prop where
  proper : deferred.record.Proper
  control : deferred.control = deferred.record.control reserved
  message : deferred.isControl = deferred.record.isMessage
  completion : deferred.completion.isSome = deferred.record.isData

/-- A record that waits behind the barrier. -/
structure Ready (deferred : DeferredRecord) : Prop where
  shaped : deferred.Shaped true
  ordinary : deferred.record.isRekeyControl = false

end DeferredRecord

/-- The records that each caller of `enqueue_record` publishes. -/
def Owner.Fits : Owner → Request → Prop
  | .controls, r => r.protect = true ∧ r.bypassRekeyBarrier = false ∧ r.record.isOwed = true
  | .writes id size operation, r => r.protect = true ∧
    r.bypassRekeyBarrier = false ∧ r.completion = some operation ∧
    ∃ kind payload, r.record = .data id kind payload ∧ payload.size = size
  | .flush rest, r => r.protect = true ∧ r.bypassRekeyBarrier = false ∧
    r.record.isRekeyControl = false ∧ ∀ deferred ∈ rest, deferred.Ready
  | .open id, r => r.protect = true ∧ r.bypassRekeyBarrier = false ∧
    ∃ request, r.record = .open id request
  | .rekeyInit _, r => r.protect = true ∧ r.bypassRekeyBarrier = true ∧
    ∃ epoch secret size, r.record = .rekeyInit epoch secret size ∧ size ≤ rekeyInitMessageBytes
  | .rekeyAck, r => r.protect = false ∧
    ∃ epoch confirmation size, r.record = .rekeyAck epoch confirmation size ∧
      size ≤ rekeyAckMessageBytes
  | .pong, r => r.protect = true ∧ r.bypassRekeyBarrier = false ∧ r.record = .pong
  | .capabilities, r => r.protect = true ∧ r.bypassRekeyBarrier = false ∧
    ∃ manifest, r.record = .capabilities manifest

/-- Only the flush publishes records whose controls are already reserved. -/
def Owner.reserved : Owner → Bool
  | .flush _ => true
  | _ => false

/-- The carrier record of a request and its token. -/
def Request.Sends (request : Request) (token : RecordKeyToken) (wire : Wire) :
    Prop :=
  if request.protect then
    ∃ root, wire = .sealed token ⟨root, token, request.record⟩
  else wire = .bare request.record

variable {owner : Owner} {request : Request} {e : Engine}

theorem Request.Sends.record_eq {token : RecordKeyToken}
    {wire : Wire} (h : request.Sends token wire) :
    wire.record = request.record := by
  unfold Sends at h
  split at h
  · obtain ⟨_, rfl⟩ := h
    rfl
  rw [h]
  rfl

/-- What holds of a pending section by itself. -/
def Call.Typed : Call → Prop
  | .enqueue request owner | .rotateCheck request owner
  | .admitCheck request owner | .takeToken request owner =>
    owner.Fits request ∧ request.deferred.Shaped owner.reserved
  | .deferReserve request owner | .deferPush request owner =>
    owner.Fits request ∧ request.deferred.Shaped owner.reserved ∧
      request.protect = true ∧ request.bypassRekeyBarrier = false
  | .sealFrame request owner _ =>
    owner.Fits request ∧ request.deferred.Shaped true
  | .publish request owner token wire _ =>
    owner.Fits request ∧ request.deferred.Shaped true ∧ request.Sends token wire
  | .tokenLost request owner status =>
    owner.Fits request ∧ request.deferred.Shaped true ∧ status.isOk = false ∧ status.code ≠ .closed
  | .flushNext rest => ∀ deferred ∈ rest, deferred.Ready
  | .flushCheck first rest | .flushClosed first rest
  | .flushAbandon first rest _ => ∀ deferred ∈ first :: rest, deferred.Ready
  | .acceptRekeyInit _ _ _ ackSize => ackSize ≤ rekeyAckMessageBytes
  | _ => True

/-- Sections of which nothing has to hold. -/
def Call.plain : Call → Bool
  | .enqueue _ _ | .rotateCheck _ _ | .admitCheck _ _ | .deferReserve _ _
  | .deferPush _ _ | .takeToken _ _ | .sealFrame _ _ _ | .publish _ _ _ _ _
  | .tokenLost _ _ _ | .flushNext _ | .flushCheck _ _ | .flushClosed _ _
  | .flushAbandon _ _ _ | .acceptRekeyInit _ _ _ _ => false
  | _ => true

theorem Call.typed_of_plain {calls : List Call}
    (h : calls.all Call.plain = true) : ∀ call ∈ calls, call.Typed := by
  intro call hcall
  have hplain := all_eq_true.mp h call hcall
  cases call <;> trivial

/-- A queued record keeps the control of its plaintext. -/
structure OutboundItem.Shaped (item : OutboundItem) : Prop where
  proper : item.wire.record.Proper
  control : item.control = item.wire.record.control true

/-- The record that the carrier is sending discharges this control. -/
def ActiveSend.Shaped (active : ActiveSend) : Prop :=
  ∃ record : Record, record.Proper ∧ active.control = record.control true

/-- Streams have names, owe only terminal codes and hold no empty writes. -/
structure Stream.Proper (stream : Stream) : Prop where
  named : stream.id ≠ 0
  code : ∀ code, stream.terminalOwed = some code → code.isTerminal = true
  writes : ∀ write ∈ stream.pendingWrites, write.payload.size ≠ 0

/-- The shape of everything that waits in the outbound queues. -/
structure OutboundQueue.Shaped (queue : OutboundQueue) : Prop where
  deferred : ∀ deferred ∈ queue.deferred, deferred.Ready
  items : ∀ item ∈ queue.items, item.Shaped
  active : ∀ active, queue.active = some active → active.Shaped

/-- The shape of everything that waits. -/
structure ShapeInv (e : Engine) (frames : List Call) : Prop where
  frames : ∀ call ∈ frames, call.Typed
  queue : e.queue.Shaped
  streams : ∀ stream ∈ e.streams, stream.Proper

theorem Owner.Fits.ordinary (h : owner.Fits request) (hprotect : request.protect = true)
    (hbarrier : request.bypassRekeyBarrier = false) :
    request.record.isRekeyControl = false := by
  cases owner <;> simp only [Fits] at h
  case controls => cases hr : request.record <;> simp_all [Record.isOwed, Record.isRekeyControl]
  case writes =>
      obtain ⟨_, _, _, _, _, hr, _⟩ := h
      simp [hr, Record.isRekeyControl]
  case flush => exact h.2.2.1
  case «open» =>
      obtain ⟨_, _, _, hr⟩ := h
      simp [hr, Record.isRekeyControl]
  case rekeyInit => simp [h.2.1] at hbarrier
  case rekeyAck => simp [h.1] at hprotect
  case pong => simp [h.2.2, Record.isRekeyControl]
  case capabilities =>
      obtain ⟨_, _, _, hr⟩ := h
      simp [hr, Record.isRekeyControl]

/-- What a caller publishes does not depend on the control's reservation. -/
theorem Owner.Fits.control (h : owner.Fits request) (control : EngineControl) :
    owner.Fits { request with control := control } := by
  cases owner <;> exact h

theorem rekeyMessageOk_le {size bound : Nat}
    (h : e.rekeyMessageOk size bound = true) : size ≤ bound := by
  simp only [rekeyMessageOk, rekeySizeOk, Bool.and_eq_true, decide_eq_true_eq] at h
  exact h.1.1.2

theorem dispatch_plain (state : SessionState) (record : Record) :
    (dispatch state record).all Call.plain = true := by
  cases record <;> simp only [dispatch] <;> split <;> rfl

/-- The result of a reservation is the control, now reserved. -/
theorem reserveControl_control {reserved : Engine}
    {control next : EngineControl} {record : Record} {flag : Bool}
    (h : e.reserveControl control = .ok (reserved, next))
    (hcontrol : control = record.control flag) : next = record.control true := by
  subst hcontrol
  cases reserveControl_reserves h with
  | again hdone =>
    cases record <;> simp_all [Record.control]
    case close code => cases code <;> simp_all [CloseCode.controlKind]
  | _ hreal => cases record <;> first | rfl | simp [Record.control] at hreal

theorem Owner.resume_typed {status : Status}
    {admission : QueueAdmission} (hfits : owner.Fits request)
    (hshape : owner.reserved = true → request.deferred.Shaped true) :
    ∀ call ∈ owner.resume request status admission, call.Typed := by
  cases owner
  case flush rest =>
      obtain ⟨_, _, hordinary, hrest⟩ := hfits
      have hall : ∀ deferred ∈ request.deferred :: rest, deferred.Ready :=
        forall_mem_cons.mpr ⟨⟨hshape rfl, hordinary⟩, hrest⟩
      simp only [resume]
      split
      · simpa [Call.Typed] using hrest
      · split <;> simpa [Call.Typed] using hall
  all_goals
    refine Call.typed_of_plain ?_
    simp only [resume]
    (repeat' split) <;> rfl

/-- What the drain selects is well shaped. -/
theorem owes_shaped {control : EngineControl} {close : CloseCode} (h : e.Owes control close)
    (hencode : control.kind = .credit → control.increment ≠ 0 ∧
      control.increment ≤ maxCreditIncrement)
    (hstreams : ∀ stream ∈ e.streams, stream.Proper) :
    Owner.Fits .controls (controlRequest control close) ∧
      (controlRequest control close).deferred.Shaped false := by
  rcases h with ⟨_, _, rfl, rfl⟩ | ⟨stream, hmem, _, howes⟩
  · exact ⟨⟨rfl, rfl, rfl⟩, hencode rfl, rfl, rfl, rfl⟩
  obtain ⟨hnamed, hcode, -⟩ := hstreams stream hmem
  unfold streamOwes at howes
  split at howes
  · rename_i hterminal
    cases howes
    obtain ⟨code, hcode'⟩ := Option.isSome_iff_exists.mp hterminal.1
    have hkind : code.controlKind = .terminal := by
      have := hcode code hcode'
      cases code <;> first | rfl | cases this
    refine ⟨⟨rfl, rfl, rfl⟩, hnamed, ?_, rfl, rfl⟩
    simp [controlRequest, Request.deferred, controlRecord, Record.control, hcode', hkind]
  split at howes
  · cases howes
    refine ⟨⟨rfl, rfl, ?_⟩, ?_, ?_, ?_, ?_⟩ <;>
      simp only [controlRequest, Request.deferred, controlRecord, if_true, hnamed, if_false]
    · rfl
    · exact ⟨hnamed, hencode rfl⟩
    · rfl
    · rfl
    · rfl
  split at howes
  · cases howes
    exact ⟨⟨rfl, rfl, rfl⟩, hnamed, rfl, rfl, rfl⟩
  split at howes
  · cases howes
    exact ⟨⟨rfl, rfl, rfl⟩, hnamed, rfl, rfl, rfl⟩
  · cases howes

section Streams

variable {limits : SessionLimits} {s s' : Stream}

theorem Stream.Proper.of_eq (h : s.Proper) (hid : s'.id = s.id)
    (hcode : s'.terminalOwed = s.terminalOwed)
    (hwrites : s'.pendingWrites ⊆ s.pendingWrites) : s'.Proper where
  named := hid ▸ h.named
  code := hcode ▸ h.code
  writes write hmem := h.writes write (hwrites hmem)

theorem StreamOp.proper (hop : StreamOp limits s s') (h : s.Proper) : s'.Proper := by
  cases hop with
  | admitted =>
    refine ⟨h.named, fun code hcode => ?_, h.writes⟩
    simp only [Stream.admitControl] at hcode
    split at hcode
    · cases hcode
    · exact h.code code hcode
  | takeWrite | dropWrite => exact h.of_eq rfl rfl fun _ => mem_of_mem_tail
  | cancelWrite => exact h.of_eq rfl rfl (filter_subset_self _)
  | acceptWrite _ _ hsize =>
    exact ⟨h.named, h.code, forall_mem_append.mpr ⟨h.writes, forall_mem_singleton.mpr hsize⟩⟩
  | raiseTerminal _ _ _ _ hcode =>
    exact ⟨h.named, fun code heq => Option.some.inj heq ▸ hcode, h.writes⟩
  | @receiveClose _ code => cases code <;> exact h.of_eq rfl rfl (List.Subset.refl _)
  | deliverData =>
    refine h.of_eq ?_ ?_ ?_ <;>
      dsimp only [Stream.noteReceived, Stream.receiveData, Stream.debit]
    exact List.Subset.refl _
  | _ => exact h.of_eq rfl rfl (List.Subset.refl _)

theorem StreamOps.proper (hops : StreamOps limits s s') (h : s.Proper) : s'.Proper := by
  induction hops with
  | refl => exact h
  | tail _ hop ih => exact hop.proper ih

end Streams

section Step

variable {e e' : Engine} {choice : Choice} {call : Call} {made : List Call}

theorem Effect.typed (h : Effect e choice call e' made) (htyped : call.Typed)
    (hqueue : e.queue.Shaped) (hstreams : ∀ stream ∈ e.streams, stream.Proper)
    (hnext : e.nextLocalStreamId ≠ 0) :
    ∀ call' ∈ made, call'.Typed := by
  cases h with
  | enqueueRefused | admitLeaves | tokenLeaves | tokenUnadmitted =>
    exact resume_typed htyped.1 fun h => h ▸ htyped.2
  | enqueueLocked | rotates | rotatePasses | admitTakes | deferReserves | flushReleases =>
    simpa [Call.Typed] using htyped
  | admitDefers _ _ hprotect _ hbarrier =>
    rw [forall_mem_singleton]
    exact ⟨htyped.1, htyped.2, hprotect, hbarrier⟩
  | deferLeaves | deferPushLeaves | deferPushes =>
    exact resume_typed htyped.1 fun h => h ▸ htyped.2.1
  | tokenExhausted _ hreserve =>
    obtain ⟨hproper, hcontrol, hmessage, hcompletion⟩ := htyped.2
    exact resume_typed (Owner.Fits.control htyped.1 _) fun _ =>
      ⟨hproper, reserveControl_control hreserve hcontrol, hmessage, hcompletion⟩
  | tokenBare _ hreserve | tokenTaken _ hreserve =>
    obtain ⟨hproper, hcontrol, hmessage, hcompletion⟩ := htyped.2
    rw [forall_mem_singleton]
    exact ⟨Owner.Fits.control htyped.1 _, hproper,
      reserveControl_control hreserve hcontrol, hmessage, hcompletion⟩
  | sealLost _ hstatus hcode =>
    rw [forall_mem_singleton]
    exact ⟨htyped.1, htyped.2, hstatus, hcode⟩
  | sealDone =>
    rw [forall_mem_singleton]
    refine ⟨htyped.1, htyped.2, ?_⟩
    unfold Request.Sends sealedWire
    split
    · exact ⟨_, rfl⟩
    · rfl
  | publishStopped | publishes | tokenFails | bareLost =>
    exact resume_typed htyped.1 fun _ => htyped.2.1
  | rekeyBegins hsize =>
    rw [forall_mem_singleton]
    exact ⟨⟨rfl, rfl, _, _, _, rfl, rekeyMessageOk_le hsize⟩, trivial, rfl, rfl, rfl⟩
  | drainSelects _ howes hencode =>
    rw [forall_mem_singleton]
    exact owes_shaped howes hencode hstreams
  | writeTaken _ _ hmem _ _ hwrites =>
    rw [forall_mem_singleton]
    refine ⟨⟨rfl, rfl, rfl, _, _, rfl, rfl⟩, ⟨(hstreams _ hmem).named, ?_⟩,
      rfl, rfl, rfl⟩
    exact (hstreams _ hmem).writes _ (hwrites ▸ mem_cons_self)
  | flushTakes =>
    rw [forall_mem_singleton]
    exact hqueue.deferred
  | flushDrops | flushFindsClosed =>
    rw [forall_mem_singleton]
    exact fun deferred hmem => htyped deferred (mem_cons_of_mem _ hmem)
  | flushEnqueues =>
    rw [forall_mem_singleton]
    exact ⟨⟨rfl, rfl, (htyped _ mem_cons_self).ordinary,
      fun deferred hmem => htyped deferred (mem_cons_of_mem _ hmem)⟩,
      (htyped _ mem_cons_self).shaped⟩
  | opens =>
    rw [forall_mem_singleton]
    exact ⟨⟨rfl, rfl, _, rfl⟩, hnext, rfl, rfl, rfl⟩
  | advertises =>
    rw [forall_mem_singleton]
    exact ⟨⟨rfl, rfl, _, rfl⟩, trivial, rfl, rfl, rfl⟩
  | openSucceeds => exact Call.typed_of_plain (dispatch_plain _ _)
  | pings =>
    rw [forall_mem_singleton]
    exact ⟨⟨rfl, rfl, rfl⟩, trivial, rfl, rfl, rfl⟩
  | acceptsInit _ _ hsize =>
    rw [forall_mem_singleton]
    exact rekeyMessageOk_le hsize
  | switchesInbound =>
    rw [forall_mem_singleton]
    exact ⟨⟨rfl, _, _, _, rfl, htyped⟩, trivial, rfl, rfl, rfl⟩
  | _ => exact Call.typed_of_plain rfl

theorem stop_shaped {reason : Status} {failed : Bool} (h : e.queue.Shaped) :
    (e.stop reason failed).queue.Shaped := by
  unfold Engine.stop
  split
  · exact h
  · exact ⟨by simp, by simp, by simp⟩

theorem Effect.queue_shaped (h : Effect e choice call e' made)
    (htyped : call.Typed) (hqueue : e.queue.Shaped) : e'.queue.Shaped := by
  have hsame : ∀ {queue : OutboundQueue}, queue.deferred = e.queue.deferred →
      queue.items = e.queue.items → queue.active = e.queue.active →
      queue.Shaped := fun h1 h2 h3 =>
    ⟨h1 ▸ hqueue.deferred, h2 ▸ hqueue.items, h3 ▸ hqueue.active⟩
  cases h with
  | deferPushes _ hreserve =>
    obtain ⟨hfits, ⟨hproper, hcontrol, hmessage, hcompletion⟩, hprotect, hbarrier⟩ := htyped
    have hnext := reserveControl_control hreserve hcontrol
    exact ⟨forall_mem_append.mpr ⟨hqueue.deferred, forall_mem_singleton.mpr
      ⟨⟨hproper, hnext, hmessage, hcompletion⟩, hfits.ordinary hprotect hbarrier⟩⟩,
      hqueue.items, hqueue.active⟩
  | @publishes =>
    obtain ⟨-, hshape, hsends⟩ := htyped
    have hrecord := hsends.record_eq
    exact ⟨hqueue.deferred, forall_mem_append.mpr ⟨hqueue.items, forall_mem_singleton.mpr
      ⟨hrecord ▸ hshape.proper, hrecord ▸ hshape.control⟩⟩, hqueue.active⟩
  | tokenFails | controlsFailed | stops => exact stop_shaped hqueue
  | flushTakes => exact ⟨by simp, hqueue.items, hqueue.active⟩
  | @flushReleases =>
    unfold flushRelease
    dsimp only
    split
    · exact hqueue
    · exact hsame rfl rfl rfl
  | flushAbandons =>
    dsimp only
    unfold releaseAll
    split
    · exact hqueue
    · exact hsame rfl rfl rfl
  | _ => exact hsame rfl rfl rfl

theorem TableStep.proper {new : List Stream} (h : TableStep e call new)
    (hstreams : ∀ stream ∈ e.streams, stream.Proper)
    (hnext : e.nextLocalStreamId ≠ 0)
    (hinsert : ∀ id ∈ call.inserting, id ≠ 0) :
    ∀ stream ∈ new, stream.Proper := by
  obtain ⟨kept, added, hkept, rfl, hadded⟩ := h
  intro stream hmem
  rcases mem_append.mp hmem with hmem | hmem
  · obtain ⟨old, hold, hops⟩ := hkept.exists_old hmem
    exact hops.proper (hstreams old hold)
  cases hadded with
  | none => cases hmem
  | opened =>
    rw [mem_singleton.mp hmem]
    exact ⟨hnext, by simp [localStream], by simp [localStream]⟩
  | inserted =>
    rw [mem_singleton.mp hmem]
    exact ⟨hinsert _ mem_cons_self,
      by simp [peerStream, Stream.noteReceived],
      by simp [peerStream, Stream.noteReceived]⟩

end Step

theorem Move.shapes_kept {e' : Engine} {choice : Choice}
    {pre used made post : List Call} {emitted taken : Option Wire}
    (hmove : Move e choice used e' made emitted taken)
    (hcoded : ∀ call ∈ used, call.Coded)
    (hnames : NameInv e (pre ++ (used ++ post)))
    (h : ShapeInv e (pre ++ (used ++ post))) :
    ShapeInv e' (pre ++ (made ++ post)) := by
  obtain ⟨hframes, hqueue, hstreams⟩ := h
  have hmade : (∀ call ∈ made, call.Typed) → ∀ call ∈ pre ++ (made ++ post), call.Typed := by
    simp only [forall_mem_append] at hframes ⊢
    exact fun hmade => ⟨hframes.1, hmade, hframes.2.2⟩
  cases hmove with
  | @run call _ _ heffect =>
    have htyped := hframes call (by simp)
    refine ⟨hmade (heffect.typed htyped hqueue hstreams hnames.next.2),
      heffect.queue_shaped htyped hqueue,
      (heffect.table hnames.unique (hcoded _ mem_cons_self)).proper
        hstreams hnames.next.2 fun id hid => ?_⟩
    exact (hnames.claim id (by simp [hid])).2.2.2
  | call hcallable =>
    refine ⟨hmade ?_, hqueue, hstreams⟩
    rw [forall_mem_singleton]
    cases ‹Call› <;> trivial
  | @pump item rest _ _ hitems =>
    refine ⟨hmade (by simp), ⟨hqueue.deferred, fun other hmem => ?_, ?_⟩, hstreams⟩
    · exact hqueue.items other (hitems ▸ mem_cons_of_mem _ hmem)
    rintro active ⟨⟩
    have hitem := hqueue.items item (hitems ▸ mem_cons_self)
    exact ⟨_, hitem.proper, hitem.control⟩
  | sent | sendFails =>
    refine ⟨hmade (Call.typed_of_plain rfl),
      ⟨hqueue.deferred, hqueue.items, by rintro _ ⟨⟩⟩, fun stream hmem => ?_⟩
    obtain ⟨old, hold, hops⟩ := (settleSend_evolves hnames.unique).exists_old hmem
    exact hops.proper (hstreams old hold)
  | release | deliver => exact ⟨hmade (Call.typed_of_plain rfl), hqueue, hstreams⟩

/-- In every run everything that waits is well shaped. -/
theorem Endpoint.Run.shapes {config : Config} {guard : Guard}
    {endpoint : Endpoint} (h : Endpoint.Run config guard endpoint) :
    ShapeInv endpoint.engine endpoint.frames := by
  refine Run.invariant (K := fun e frames => NameInv e frames ∧ ∀ call ∈ frames, call.Coded)
    (fun _ hrun => ⟨hrun.names, hrun.coded⟩) ?_
    (fun hknown _ hinv hmove _ => hmove.shapes_kept (fun call hcall =>
      hknown.2 call (by simp [hcall])) hknown.1 hinv) h
  refine ⟨?_, ⟨?_, ?_, ?_⟩, ?_⟩ <;>
    simp [Endpoint.initial, Endpoint.frames, Call.Typed]

end Yume.Session
