/-
What one critical section can do to one stream object: every update of the
table, object by object, with the guards it ran under.
-/
import Yume.Session.Table

namespace Yume.Session

open Engine List

namespace Stream

/-- A CLOSE with this code is one `process_close` takes. -/
def AcceptsClose (code : CloseCode) (stream : Stream) : Prop :=
  match code with
  | .settled => stream.settlementReceived = false ∧ stream.expectsPeerSettlement = true
  | .normal => stream.peerWriteClosed = false ∧
    stream.terminalReceived = false ∧ stream.settlementReceived = false ∧
    stream.opening = false
  | _ => stream.terminalReceived = false ∧ stream.settlementReceived = false

/-- A DATA or PACKET record of this size is one the stream takes. -/
structure AcceptsData (size : Nat) (stream : Stream) : Prop where
  settlement : stream.settlementReceived = false
  terminal : stream.terminalReceived = false
  fin : stream.peerWriteClosed = false
  credit : size ≤ stream.inboundCredit

/-- A STREAM_CREDIT record is one `process_stream_credit` takes. -/
structure AcceptsCredit (increment : Nat) (stream : Stream) : Prop where
  settlement : stream.settlementReceived = false
  terminal : stream.terminalReceived = false
  accepted : stream.opening = true → stream.openedByPeer = false
  room : increment ≤ creditRoom stream.outboundCredit

/-- The stream is in the table and not closed. -/
structure IsOpen (stream : Stream) : Prop where
  present : stream.present = true
  unclosed : stream.closed = false

/-- A control of this stream may be reserved. -/
structure CanReserve (control : EngineControl) (stream : Stream) : Prop where
  named : control.streamId = stream.id
  real : control.kind ≠ .none
  fresh : control.reserved = false
  present : stream.present = true
  credit : control.kind = .credit →
    stream.closed = false ∧ control.increment ≤ stream.receiveWindow.owed

/-- A control of this stream may be admitted. -/
structure CanAdmit (control : EngineControl) (stream : Stream) : Prop where
  named : control.streamId = stream.id
  real : control.kind ≠ .none
  present : stream.present = true
  credit : control.kind = .credit →
    control.increment ≤ stream.receiveWindow.granting ∧
      stream.inboundCredit ≤ stream.receiveWindow.size ∧
      control.increment ≤ stream.receiveWindow.size - stream.inboundCredit

end Stream

/-- The updates of a stream object. -/
inductive StreamOp (limits : SessionLimits) : Stream → Stream → Prop where
  | reserve {s control} : s.CanReserve control → StreamOp limits s (s.reserveControl control)
  | admitted {s control} : s.CanAdmit control → StreamOp limits s (s.admitControl control)
  | complete {s control admitted} : control.streamId = s.id →
    control.kind ≠ .none → s.present = true →
    StreamOp limits s (s.completeControl control admitted)
  | collect {s} {engine : Engine} {now} : engine.limits = limits →
    s.present = true → engine.streamCollectible s = true →
    StreamOp limits s (engine.collected now s)
  | retire {s} : s.present = true → s.retirable = true →
    StreamOp limits s { s with present := false }
  | commit {s r} : r.record.streamId = s.id → StreamOp limits s (s.commit r)
  | enqueued {s r} : r.record.streamId = s.id → StreamOp limits s (s.enqueued r)
  | forget {s op} : StreamOp limits s (s.forget op)
  | deliverAcceptance {s} : s.IsOpen → s.acceptanceReady = true →
    StreamOp limits s s.deliverAcceptance
  | takeWrite {s write rest} : s.IsOpen → s.pendingWrites = write :: rest →
    write.payload.size ≤ s.outboundCredit →
    StreamOp limits s (s.takeWrite write)
  | endPublication {s} : StreamOp limits s s.endPublication
  | refundWrite {s size op} : StreamOp limits s (s.refundWrite size op)
  | finishWrites {s} : s.IsOpen → s.readyToFinish = true → StreamOp limits s s.finishWrites
  | close {s reason} : s.IsOpen → StreamOp limits s (s.close reason)
  | dropWrite {s} : StreamOp limits s s.dropWrite
  | dropInbound {s} : StreamOp limits s s.dropInbound
  | raiseSettlement {s} : s.present = true → s.owesSettlement = true →
    StreamOp limits s s.raiseSettlement
  | raiseTerminal {s code} : s.present = true → s.terminalSent = false →
    s.settlementSent = false → s.unpublished = false →
    code.isTerminal = true → StreamOp limits s (s.raiseTerminal code)
  | erase {s} : StreamOp limits s s.erase
  | returnBytes {s bytes} : s.IsOpen → StreamOp limits s (s.returnBytes bytes)
  | registerOpen {s} : StreamOp limits s s.registerOpen
  | readFront {s payload rest} : s.IsOpen → s.pendingRead = none →
    s.inbound = payload :: rest → StreamOp limits s (s.readFront payload)
  | readEnd {s} : s.IsOpen → s.pendingRead = none → s.inbound = [] →
    s.peerWriteClosed = true → StreamOp limits s s.readEnd
  | reportEnd {s} : s.endOfStream = true → StreamOp limits s s.reportEnd
  | parkRead {s op} : s.IsOpen → s.inbound = [] → s.peerWriteClosed = false →
    StreamOp limits s (s.parkRead op)
  | cancelRead {s} : s.present = true → StreamOp limits s s.cancelRead
  | acceptWrite {s write} : s.IsOpen →
    s.localWriteShutdownRequested = false → write.payload.size ≠ 0 →
    write.payload.size ≤ limits.maxFramePayload →
    StreamOp limits s (s.acceptWrite write)
  | cancelWrite {s write} : s.present = true → write ∈ s.pendingWrites →
    StreamOp limits s (s.cancelWrite write)
  | requestShutdown {s} : s.IsOpen → StreamOp limits s s.requestShutdown
  | terminate {s} : StreamOp limits s s.terminate
  | openWindow {s} : s.IsOpen → s.openedByPeer = true → s.opening = true →
    StreamOp limits s (s.openWindow (min limits.initialStreamCredit s.maxReceiveCredit))
  | note {s record} : record.streamId = s.id →
    record.streamId = 0 ∨ record.isOpen = true →
    StreamOp limits s (s.noteReceived record)
  | receiveClose {s id code} : s.id = id → s.present = true →
    s.AcceptsClose code →
    StreamOp limits s ((receiveClose code s).noteReceived (.close id code))
  | receiveCredit {s id increment} : s.id = id → s.present = true →
    s.AcceptsCredit increment →
    StreamOp limits s ((s.receiveCredit increment).noteReceived (.streamCredit id increment))
  | acceptOpen {s id increment} : s.id = id → s.IsOpen →
    s.AcceptsCredit increment → s.opening = true → s.openedByPeer = false →
    StreamOp limits s (((s.receiveCredit increment).acceptLocally
      (min limits.initialStreamCredit s.maxReceiveCredit)).noteReceived
        (.streamCredit id increment))
  | discardData {s id kind payload} : s.id = id → s.present = true →
    s.closed = true → s.AcceptsData payload.size →
    StreamOp limits s ((s.debit payload.size).noteReceived (.data id kind payload))
  | deliverData {s id kind payload} : s.id = id → s.IsOpen →
    s.AcceptsData payload.size →
    StreamOp limits s (((s.debit payload.size).receiveData payload).noteReceived
      (.data id kind payload))
  | stop {s} : StreamOp limits s { s with closed := true, present := false }

/-- Several updates of one object. -/
abbrev StreamOps (limits : SessionLimits) : Stream → Stream → Prop :=
  Relation.ReflTransGen (StreamOp limits)

/-- Every object of a table is updated in place. -/
abbrev Evolves (limits : SessionLimits) (old new : List Stream) : Prop :=
  List.Forall₂ (StreamOps limits) old new

theorem StreamOp.id_eq {limits : SessionLimits} {s s' : Stream}
    (h : StreamOp limits s s') : s'.id = s.id := by
  cases h with
  | @receiveClose _ code => cases code <;> rfl
  | deliverData =>
    dsimp only [Stream.noteReceived, Stream.receiveData, Stream.debit]
  | _ => rfl

theorem StreamOps.id_eq {limits : SessionLimits} {s s' : Stream}
    (h : StreamOps limits s s') : s'.id = s.id := by
  induction h with
  | refl => rfl
  | tail _ hop ih => exact hop.id_eq.trans ih

namespace Evolves

variable {limits : SessionLimits} {old new later : List Stream}

theorem refl (streams : List Stream) : Evolves limits streams streams :=
  forall₂_same.mpr fun _ _ => .refl

theorem trans (h : Evolves limits old new) (h' : Evolves limits new later) :
    Evolves limits old later := by
  induction h generalizing later with
  | nil => exact h'
  | cons hop _ ih =>
    cases h' with
    | cons hop' htail => exact .cons (hop.trans hop') (ih htail)

theorem ids (h : Evolves limits old new) : new.map Stream.id = old.map Stream.id := by
  induction h with
  | nil => rfl
  | cons hop _ ih => rw [map_cons, map_cons, ih, hop.id_eq]

theorem unique {e e' : Engine} (h : Evolves limits e.streams e'.streams)
    (hunique : e.ids.Nodup) : e'.ids.Nodup := by
  rw [Engine.ids, h.ids]
  exact hunique

/-- Every object after the updates comes from one before them. -/
theorem exists_old (h : Evolves limits old new) {s' : Stream} (hmem : s' ∈ new) :
    ∃ s ∈ old, StreamOps limits s s' := by
  induction h with
  | nil => cases hmem
  | cons hop _ ih =>
    rcases mem_cons.mp hmem with rfl | hmem
    · exact ⟨_, mem_cons_self, hop⟩
    obtain ⟨s, hs, hops⟩ := ih hmem
    exact ⟨s, mem_cons_of_mem _ hs, hops⟩

section Modify

variable {e : Engine} {id : Nat} {stream : Stream} {update : Stream → Stream}

theorem modify (h : ∀ s ∈ e.streams, s.id = id → StreamOps limits s (update s)) :
    Evolves limits e.streams (e.modify id update).streams := by
  simp only [Engine.modify, forall₂_map_right_iff, forall₂_same]
  intro s hs
  split
  · exact h s hs ‹_›
  · exact .refl

theorem object (hunique : e.ids.Nodup) (hobject : e.object id = some stream)
    (h : StreamOp limits stream (update stream)) :
    Evolves limits e.streams (e.modify id update).streams :=
  modify fun s hs hid => by
    obtain ⟨hmem, hname⟩ := object_some hobject
    rw [eq_of_id hunique hmem hs (hid.trans hname.symm)]
    exact .single h

theorem found (hunique : e.ids.Nodup) (hfind : e.find id = some stream)
    (h : StreamOp limits stream (update stream)) :
    Evolves limits e.streams (e.modify id update).streams :=
  modify fun s hs hid => by
    obtain ⟨hmem, hname, _⟩ := find_some hfind
    rw [eq_of_id hunique hmem hs (hid.trans hname.symm)]
    exact .single h

end Modify

end Evolves

theorem Engine.findOpen_isOpen {e : Engine} {id : Nat} {stream : Stream}
    (h : e.findOpen id = some stream) :
    e.find id = some stream ∧ stream.IsOpen := by
  obtain ⟨hfind, hopen⟩ := findOpen_some h
  exact ⟨hfind, (find_some hfind).2.2, hopen⟩

section Controls

variable {e e' : Engine} {limits : SessionLimits} {control next : EngineControl}
  {id : Nat} {now : Time}

theorem reserveControl_evolves (hunique : e.ids.Nodup)
    (h : e.reserveControl control = .ok (e', next)) :
    Evolves limits e.streams e'.streams := by
  cases reserveControl_reserves h with
  | stream hreal hfresh hfind hcredit =>
    obtain ⟨-, hname, hpresent⟩ := find_some hfind
    exact .found hunique hfind (.reserve ⟨hname.symm, hreal, hfresh, hpresent, hcredit⟩)
  | _ => exact .refl _

theorem admitControl_evolves (hunique : e.ids.Nodup) (h : e.admitControl control = .ok e') :
    Evolves limits e.streams e'.streams := by
  cases admitControl_admits h with
  | stream hreal hfind hcredit =>
    obtain ⟨-, hname, hpresent⟩ := find_some hfind
    exact .found hunique hfind (.admitted ⟨hname.symm, hreal, hpresent, hcredit⟩)
  | _ => exact .refl _

theorem collectStreamCredit_evolves (hunique : e.ids.Nodup) (hlimits : e.limits = limits) :
    Evolves limits e.streams (e.collectStreamCredit id now).streams := by
  unfold collectStreamCredit
  split
  · exact .refl _
  rename_i hfind
  rw [Option.filter_eq_some_iff] at hfind
  exact .found hunique hfind.1 (.collect hlimits (find_some hfind.1).2.2 hfind.2)

theorem retireStream_evolves : Evolves limits e.streams (e.retireStream id).streams := by
  refine .modify fun s _ _ => ?_
  split
  · rename_i hretire
    rw [Bool.and_eq_true] at hretire
    exact .single (.retire hretire.1 hretire.2)
  · exact .refl

theorem completeControl_evolves {admitted : Bool} (hunique : e.ids.Nodup)
    (hlimits : e.limits = limits) :
    Evolves limits e.streams (e.completeControl control admitted now).streams := by
  unfold completeControl
  split
  · exact .refl _
  rename_i hlive
  rw [not_or] at hlive
  split
  · exact .refl _
  split
  · exact .refl _
  rename_i hfind
  obtain ⟨-, hname, hpresent⟩ := find_some hfind
  have hcomplete : Evolves limits e.streams (e.completed control admitted).streams :=
    .found hunique hfind (.complete hname.symm hlive.2 hpresent)
  dsimp only
  refine Evolves.trans ?_ retireStream_evolves
  split
  · exact hcomplete.trans (collectStreamCredit_evolves (hcomplete.unique hunique) hlimits)
  · exact hcomplete

theorem forgetWrite_evolves {deferred : DeferredRecord} :
    Evolves limits e.streams (e.forgetWrite deferred).streams :=
  .modify fun _ _ _ => .single .forget

theorem forgetWrites_evolves (rest : List DeferredRecord) :
    Evolves limits e.streams (rest.foldl forgetWrite e).streams := by
  induction rest generalizing e with
  | nil => exact .refl _
  | cons deferred rest ih => exact forgetWrite_evolves.trans ih

theorem failDeferred_evolves {deferred : DeferredRecord}
    (hunique : e.ids.Nodup) (hlimits : e.limits = limits) :
    Evolves limits e.streams (e.failDeferred deferred now).streams :=
  (completeControl_evolves hunique hlimits).trans forgetWrite_evolves

theorem returnToStream_evolves {bytes : Nat} (hunique : e.ids.Nodup) (hlimits : e.limits = limits) :
    Evolves limits e.streams (e.returnToStream id bytes now).streams := by
  unfold returnToStream
  split
  · exact .refl _
  rename_i hfind
  obtain ⟨hfind, hopen⟩ := findOpen_isOpen hfind
  have hreturn : Evolves limits e.streams (e.modify id (Stream.returnBytes bytes)).streams :=
    .found hunique hfind (.returnBytes hopen)
  exact hreturn.trans (collectStreamCredit_evolves (hreturn.unique hunique) hlimits)

theorem settleSend_evolves {active : ActiveSend} (hunique : e.ids.Nodup) :
    Evolves e.limits e.streams (e.settleSend active now).streams :=
  completeControl_evolves (e := { e with queue :=
    { e.queue with active := none } }.release active.wireBytes active.isControl)
    hunique rfl

theorem afterSend_ids {active : ActiveSend} {now : Time} (hunique : e.ids.Nodup) :
    (e.afterSend active now).ids = e.ids :=
  (settleSend_evolves hunique).ids

theorem stop_evolves {reason : Status} {failed : Bool} :
    Evolves limits e.streams (e.stop reason failed).streams := by
  unfold stop
  split
  · exact .refl _
  simp only [forall₂_map_right_iff, forall₂_same]
  exact fun s _ => .single .stop

end Controls

section Accepted

variable {e : Engine} {id size increment : Nat} {kind : ServiceKind}
  {code : CloseCode} {stream : Stream}

theorem closeFailure_accepts (h : e.closeFailure id code = none)
    (hfind : e.find id = some stream) : stream.AcceptsClose code := by
  unfold closeFailure at h
  rw [hfind] at h
  dsimp only at h
  split at h
  · cases h
  cases code <;> simp only at h <;> split at h <;>
    simp_all [Stream.AcceptsClose]

theorem dataFailure_accepts (h : e.dataFailure id kind size = none)
    (hfind : e.find id = some stream) : stream.AcceptsData size := by
  unfold dataFailure at h
  rw [hfind] at h
  dsimp only at h
  split_ifs at h with _ _ hbarrier hfin _ _ hcredit
  simp only [not_or, Bool.not_eq_true, Nat.not_lt] at hbarrier hfin hcredit
  exact ⟨hbarrier.1, hbarrier.2, hfin, hcredit.1⟩

theorem crossedFailure_accepts (h : e.crossedFailure id size = none)
    (hfind : e.find id = some stream) : stream.AcceptsData size := by
  unfold crossedFailure at h
  rw [hfind] at h
  dsimp only at h
  split_ifs at h with hbarrier hcredit
  simp only [not_or, Bool.not_eq_true, Nat.not_lt] at hbarrier hcredit
  exact ⟨hbarrier.2.1, hbarrier.1, hbarrier.2.2, hcredit.1⟩

theorem Engine.writeRefusal_none {payload : Buffer}
    (hfind : e.findOpen id = some stream) (h : e.writeRefusal id payload = none) :
    stream.localWriteShutdownRequested = false ∧ payload.size ≠ 0 ∧
      payload.size ≤ e.limits.maxFramePayload := by
  unfold writeRefusal at h
  rw [hfind] at h
  dsimp only at h
  split_ifs at h with hshutdown hsize
  simp only [Bool.not_eq_true, writableSize, Bool.and_eq_true, decide_eq_true_eq] at hshutdown hsize
  exact ⟨hshutdown, hsize.1.1.1.1, hsize.1.1.1.2⟩

theorem creditFailure_accepts (h : e.creditFailure id increment = none)
    (hfind : e.find id = some stream) : stream.AcceptsCredit increment := by
  unfold creditFailure at h
  rw [hfind] at h
  dsimp only at h
  split_ifs at h with _ hbarrier hopening hroom
  simp only [not_or, not_and, Bool.not_eq_true, Nat.not_lt] at hbarrier hopening hroom
  exact ⟨hbarrier.1, hbarrier.2, hopening, hroom⟩

end Accepted

/-- The streams that a section adds to the table. -/
inductive FreshStreams (e : Engine) : Call → List Stream → Prop where
  | none {call} : FreshStreams e call []
  | opened {request} : e.openRefusal request = none →
    FreshStreams e (.asyncOpen request) [e.localStream request]
  | inserted {id request service held} : e.terminal = false →
    e.find id = none →
    FreshStreams e (.insertPeerStream id request service)
      [(e.peerStream id request service held).noteReceived (.open id request)]

/-- What a section does to the table. -/
def TableStep (e : Engine) (call : Call) (new : List Stream) : Prop :=
  ∃ kept added, Evolves e.limits e.streams kept ∧ new = kept ++ added ∧ FreshStreams e call added

namespace TableStep

variable {e : Engine} {call : Call} {new : List Stream} {id : Nat}
  {stream : Stream} {update : Stream → Stream}

theorem of_evolves (h : Evolves e.limits e.streams new) : TableStep e call new :=
  ⟨new, [], h, (append_nil _).symm, .none⟩

theorem same : TableStep e call e.streams := of_evolves (.refl _)

end TableStep

section Step

variable {e e' : Engine} {choice : Choice} {call : Call} {made : List Call}
  {id : Nat} {stream : Stream} {update : Stream → Stream} {record : Record}

theorem TableStep.modify (h : ∀ s ∈ e.streams, s.id = id → StreamOp e.limits s (update s)) :
    TableStep e call (e.modify id update).streams :=
  .of_evolves (.modify fun s hs hid => .single (h s hs hid))

section

variable (hunique : e.ids.Nodup)
include hunique

theorem TableStep.object (hobject : e.object id = some stream)
    (h : StreamOp e.limits stream (update stream)) :
    TableStep e call (e.modify id update).streams :=
  .of_evolves (.object hunique hobject h)

theorem TableStep.found (hfind : e.find id = some stream)
    (h : StreamOp e.limits stream (update stream)) :
    TableStep e call (e.modify id update).streams :=
  .of_evolves (.found hunique hfind h)

theorem TableStep.foundOpen (hfind : e.findOpen id = some stream)
    (h : stream.IsOpen → StreamOp e.limits stream (update stream)) :
    TableStep e call (e.modify id update).streams :=
  .found hunique (findOpen_isOpen hfind).1 (h (findOpen_isOpen hfind).2)

omit hunique in
/-- A record of the session itself touches no stream. -/
theorem TableStep.noted (h : record.streamId = 0) : TableStep e call (e.accepted record).streams :=
  .modify fun _ _ hid => .note hid.symm (.inl h)

/-- A record of a stream updates the stream it names. -/
theorem TableStep.received (hfind : e.find record.streamId = some stream)
    (h : stream.id = record.streamId → stream.present = true →
      StreamOp e.limits stream ((update stream).noteReceived record)) :
    TableStep e call (e.accepted record update).streams :=
  .found hunique hfind (h (find_some hfind).2.1 (find_some hfind).2.2)

omit hunique in
theorem TableStep.inserted {request : OpenRequest} {service : Option ServiceRequirement}
    {held : Bool} (hlive : e.terminal = false) (hfind : e.find id = none) :
    TableStep e (.insertPeerStream id request service)
      (e.insertPeer id request service held).streams := by
  refine ⟨(e.modify id (Stream.noteReceived (.open id request))).streams,
    [(e.peerStream id request service held).noteReceived (.open id request)],
    .modify fun _ _ hid => .single (.note hid.symm (.inr rfl)), ?_, .inserted hlive hfind⟩
  simp only [insertPeer, accepted, insertStream, Engine.modify, peerStream, Record.streamId,
    map_append, map_cons, map_nil, if_true]
  rfl

/-- Reserving and admitting a control evolves the table. -/
theorem admitted_evolves {reserved admitted : Engine}
    {control next : EngineControl} {limits : SessionLimits}
    (hreserve : e.reserveControl control = .ok (reserved, next))
    (hadmitted : reserved.admitControl next = .ok admitted) :
    Evolves limits e.streams admitted.streams := by
  have h : Evolves limits e.streams reserved.streams :=
    reserveControl_evolves hunique hreserve
  exact h.trans (admitControl_evolves (h.unique hunique) hadmitted)

end

/-- Every section updates the table object by object. -/
theorem Effect.table (h : Effect e choice call e' made) (hunique : e.ids.Nodup)
    (hcoded : call.Coded) : TableStep e call e'.streams := by
  cases h with
  | deferPushes _ hreserve | tokenUnadmitted _ hreserve =>
    exact .of_evolves (reserveControl_evolves hunique hreserve :)
  | tokenExhausted _ hreserve hadmitted | tokenBare _ hreserve hadmitted =>
    exact .of_evolves (admitted_evolves hunique hreserve hadmitted :)
  | tokenTaken _ hreserve hadmitted =>
    exact .of_evolves ((admitted_evolves hunique hreserve hadmitted).trans
      (.modify fun _ _ hid => .single (.commit hid.symm)))
  | publishes => exact .modify fun _ _ hid => .enqueued hid.symm
  | tokenFails | controlsFailed | stops => exact .of_evolves stop_evolves
  | acceptanceDelivered hfind hready =>
    exact .foundOpen hunique hfind (.deliverAcceptance · hready)
  | writeTaken _ _ hmem hpresent hopen hwrites hcredit =>
    exact .found hunique (Engine.find_eq_some hunique hmem hpresent)
      (.takeWrite ⟨hpresent, hopen⟩ hwrites hcredit)
  | writeSettled => exact .modify fun _ _ _ => .endPublication
  | writeRefunded => exact .modify fun _ _ _ => .refundWrite
  | flushDrops | flushFindsClosed => exact .of_evolves (failDeferred_evolves hunique rfl)
  | flushAbandons => exact .of_evolves (forgetWrites_evolves _)
  | finishes hfind hready => exact .foundOpen hunique hfind (.finishWrites · hready)
  | removes hfind =>
    rw [Engine.closeStream, (Engine.find_some (Engine.findOpen_some hfind).1).2.1]
    exact .foundOpen hunique hfind .close
  | dropsWrite => exact .modify fun _ _ _ => .dropWrite
  | dropsInbound => exact .modify fun _ _ _ => .dropInbound
  | settles hfind howes =>
    exact .found hunique hfind (.raiseSettlement (Engine.find_some hfind).2.2 howes)
  | retires => exact .of_evolves retireStream_evolves
  | aborts hfind hterminal hsettled hpublished =>
    exact .found hunique hfind (.raiseTerminal (Engine.find_some hfind).2.2
      hterminal hsettled hpublished hcoded)
  | erases => exact .modify fun _ _ _ => .erase
  | creditReturns | discardReturns => exact .of_evolves (returnToStream_evolves hunique rfl)
  | opens hrefusal => exact ⟨e.streams, _, .refl _, rfl, .opened hrefusal⟩
  | registers => exact .modify fun _ _ _ => .registerOpen
  | reportsEnd hobject hend => exact .object hunique hobject (.reportEnd hend)
  | reads hfind hread hinbound | readsLast hfind hread hinbound =>
    exact .foundOpen hunique hfind (.readFront · hread hinbound)
  | readsEnd hfind hread hinbound hpeer | readsLastEnd hfind hread hinbound hpeer =>
    exact .foundOpen hunique hfind (.readEnd · hread hinbound hpeer)
  | parksRead hfind _ hinbound hpeer =>
    exact .foundOpen hunique hfind (.parkRead · hinbound hpeer)
  | cancelsRead hfind =>
    exact .found hunique hfind (.cancelRead (Engine.find_some hfind).2.2)
  | writes hfind hrefusal =>
    obtain ⟨hshutdown, hsize, hframe⟩ := Engine.writeRefusal_none hfind hrefusal
    exact .foundOpen hunique hfind (.acceptWrite · hshutdown hsize hframe)
  | cancelsWrite hfind hwrite =>
    obtain ⟨-, hname, hpresent⟩ := Engine.find_some hfind
    rw [Engine.dropPendingWrite, hname]
    exact .found hunique hfind (.cancelWrite hpresent hwrite)
  | shutsDown hfind => exact .foundOpen hunique hfind .requestShutdown
  | closes => exact .modify fun _ _ _ => .terminate
  | acceptsPeer hfind _ hpeer hopening =>
    rw [Engine.acceptStream, (Engine.find_some (Engine.findOpen_some hfind).1).2.1]
    exact .foundOpen hunique hfind (.openWindow · hpeer hopening)
  | activates | creditsConnection | pings | pongs | switchesInbound => exact .noted rfl
  | inserts hlive hfind | insertsRefused hlive hfind => exact .inserted hlive hfind
  | discardsData hfailure hfind hclosed =>
    exact .received hunique hfind fun hid hpresent =>
      .discardData hid hpresent hclosed (dataFailure_accepts hfailure hfind)
  | discardsCrossed hfailure hfind hclosed =>
    exact .received hunique hfind fun hid hpresent =>
      .discardData hid hpresent hclosed (crossedFailure_accepts hfailure hfind)
  | deliversData hfailure hfind hopen =>
    exact .received hunique hfind fun hid hpresent =>
      .deliverData hid ⟨hpresent, hopen⟩ (crossedFailure_accepts hfailure hfind)
  | closesByPeer hfailure hfind | shutsDownByPeer hfailure hfind =>
    exact .received hunique hfind fun hid hpresent =>
      .receiveClose hid hpresent (closeFailure_accepts hfailure hfind)
  | creditsStream hfailure hfind | creditsClosed hfailure hfind =>
    exact .received hunique hfind fun hid hpresent =>
      .receiveCredit hid hpresent (creditFailure_accepts hfailure hfind)
  | acceptsOpen hfailure hfind hopen hopening =>
    have haccepts := creditFailure_accepts hfailure hfind
    exact .received hunique hfind fun hid hpresent =>
      .acceptOpen hid ⟨hpresent, hopen⟩ haccepts hopening (haccepts.accepted hopening)
  | _ => exact .same

/-- A stream that a section adds to the table. -/
inductive NewStream (e : Engine) : Stream → Prop where
  | opened {request} : NewStream e (e.localStream request)
  | inserted {id request service held} : NewStream e
    ((e.peerStream id request service held).noteReceived (.open id request))

theorem FreshStreams.new {added : List Stream} (h : FreshStreams e call added)
    (hmem : stream ∈ added) : NewStream e stream := by
  cases h with
  | none => cases hmem
  | opened => exact mem_singleton.mp hmem ▸ .opened
  | inserted => exact mem_singleton.mp hmem ▸ .inserted

theorem TableStep.stream_back {new : List Stream} (h : TableStep e call new) (hmem : stream ∈ new) :
    (∃ old ∈ e.streams, StreamOps e.limits old stream) ∨ NewStream e stream := by
  obtain ⟨kept, added, hkept, rfl, hadded⟩ := h
  rcases mem_append.mp hmem with hmem | hmem
  · exact .inl (hkept.exists_old hmem)
  · exact .inr (hadded.new hmem)

/-- Every stream after a move is an updated stream of the table or a new one. -/
theorem Move.stream_back {used : List Call} {emitted taken : Option Wire}
    (h : Move e choice used e' made emitted taken) (hunique : e.ids.Nodup)
    (hcoded : ∀ call ∈ used, call.Coded) (hmem : stream ∈ e'.streams) :
    (∃ old ∈ e.streams, StreamOps e.limits old stream) ∨ NewStream e stream := by
  have hsame : stream ∈ e.streams →
      (∃ old ∈ e.streams, StreamOps e.limits old stream) ∨ NewStream e stream :=
    fun hmem => .inl ⟨stream, hmem, .refl⟩
  cases h with
  | run heffect =>
    exact (heffect.table hunique (hcoded _ mem_cons_self)).stream_back hmem
  | sent | sendFails => exact .inl ((settleSend_evolves hunique).exists_old hmem)
  | call | pump | release | deliver => exact hsame hmem

end Step

end Yume.Session
