/-
The stream that a waiting record names: it is in the table from the moment the
record exists, a closed stream stays closed, and the flush gives up a record
only when its stream has closed.
-/
import Yume.Session.Waiting

namespace Yume.Session

open Yume.Lib Engine Owner List

/-- A stream that is open after an update was open before it. -/
theorem StreamOp.isOpen_back {limits : SessionLimits} {s s' : Stream}
    (h : StreamOp limits s s') (hopen : s'.IsOpen) : s.IsOpen := by
  cases h with
  | retire | erase | stop => cases hopen.present
  | close => cases hopen.unclosed
  | @receiveClose _ code => cases code <;> exact ⟨hopen.present, hopen.unclosed⟩
  | deliverData => assumption
  | _ => exact ⟨hopen.present, hopen.unclosed⟩

theorem StreamOps.isOpen_back {limits : SessionLimits} {s s' : Stream}
    (h : StreamOps limits s s') (hopen : s'.IsOpen) : s.IsOpen := by
  induction h with
  | refl => exact hopen
  | tail _ hop ih => exact ih (hop.isOpen_back hopen)

section Step

variable {e e' : Engine} {choice : Choice} {call : Call}
  {pre used made post : List Call} {emitted taken : Option Wire} {id : Nat}
  {control : EngineControl} {deferred : DeferredRecord} {rest : List DeferredRecord}

theorem Evolves.closed_kept {limits : SessionLimits}
    (h : Evolves limits e.streams e'.streams) (hunique : e.ids.Nodup)
    (hclosed : e.findOpen id = none) : e'.findOpen id = none := by
  cases hfind : e'.findOpen id with
  | none => rfl
  | some =>
    obtain ⟨hfind, hopen⟩ := findOpen_isOpen hfind
    obtain ⟨hmem, hname, -⟩ := find_some hfind
    obtain ⟨old, hold, hops⟩ := h.exists_old hmem
    have hback := hops.isOpen_back hopen
    have hsome := findOpen_eq_some hunique hold hback.present hback.unclosed
    rw [← hops.id_eq, hname, hclosed] at hsome
    cases hsome

/-- The table forgets no name. -/
theorem TableStep.ids_subset {new : List Stream} (h : TableStep e call new) :
    e.ids ⊆ new.map Stream.id := by
  obtain ⟨kept, added, hkept, rfl, -⟩ := h
  rw [map_append, hkept.ids]
  exact subset_append_left _ _

/-- A closed stream stays closed. -/
theorem TableStep.closed_kept (h : TableStep e call e'.streams)
    (hunique : e.ids.Nodup) (hunique' : e'.ids.Nodup) (hid : id ∈ e.ids)
    (hclosed : e.findOpen id = none) : e'.findOpen id = none := by
  obtain ⟨kept, added, hkept, hnew, -⟩ := h
  let before : Engine := { e' with streams := kept }
  have hkept' : Evolves e.limits e.streams before.streams := hkept
  have hold := hkept'.closed_kept hunique hclosed
  cases hfind : e'.findOpen id with
  | none => rfl
  | some stream =>
    obtain ⟨hfind, hopen⟩ := findOpen_isOpen hfind
    obtain ⟨hmem, hname, -⟩ := find_some hfind
    -- the name already belongs to a kept object, so no added stream has it
    obtain ⟨other, hother, hsame⟩ := mem_map.mp
      (show id ∈ kept.map Stream.id from hkept.ids.symm ▸ hid)
    have : stream = other := eq_of_id hunique'
      (hnew ▸ mem_append_left _ hother) hmem (hname.trans hsame.symm)
    subst this
    have hsome := findOpen_eq_some (e := before) (hkept'.unique hunique) hother
      hopen.present hopen.unclosed
    rw [hname, hold] at hsome
    cases hsome

/-- The stream was in the table and is open no more. -/
def Engine.Gone (e : Engine) (id : Nat) : Prop :=
  id ∈ e.ids ∧ e.findOpen id = none

/-- The table forgets no name, and a closed stream stays closed. -/
theorem Move.table_kept (h : Move e choice used e' made emitted taken)
    (hcoded : ∀ call ∈ used, call.Coded) (hunique : e.ids.Nodup)
    (hunique' : e'.ids.Nodup) :
    e.ids ⊆ e'.ids ∧ ∀ id, e.Gone id → e'.Gone id := by
  cases h with
  | run heffect =>
    have htable := heffect.table hunique (hcoded _ mem_cons_self)
    exact ⟨htable.ids_subset, fun id hgone => ⟨htable.ids_subset hgone.1,
      htable.closed_kept hunique hunique' hgone.1 hgone.2⟩⟩
  | sent | sendFails =>
    refine ⟨afterSend_ids hunique ▸ List.Subset.refl _, fun id hgone => ⟨?_, ?_⟩⟩
    · exact afterSend_ids hunique ▸ hgone.1
    · exact (settleSend_evolves hunique).closed_kept hunique hgone.2
  | _ => exact ⟨List.Subset.refl _, fun _ hgone => hgone⟩

theorem targetClosed_iff {record : Record} : e.targetClosed record = true ↔
    record.streamId ≠ 0 ∧ record.isClose = false ∧ e.findOpen record.streamId = none := by
  simp [targetClosed, and_assoc]

/-- The record of a caller names a stream of the table, or the session. -/
def Engine.Names (e : Engine) (deferred : DeferredRecord) : Prop :=
  deferred.record.streamId = 0 ∨ deferred.record.streamId ∈ e.ids

theorem owes_named {close : CloseCode}
    (h : e.Owes control close) : control.streamId = 0 ∨ control.streamId ∈ e.ids := by
  rcases h with ⟨_, _, rfl, _⟩ | ⟨stream, hmem, _, howes⟩
  · exact .inl rfl
  have hname : control.streamId = stream.id := by
    unfold streamOwes at howes
    split_ifs at howes <;> cases howes <;> rfl
  exact .inr (hname ▸ mem_map_of_mem hmem)

theorem controlRecord_streamId {close : CloseCode} :
    (controlRecord control close).streamId = control.streamId := by
  unfold controlRecord
  split_ifs with _ hid
  · exact hid.symm
  · rfl
  · rfl

theorem Created.named (h : Created e choice call deferred) (heffect : Effect e choice call e' made)
    (hids : e.ids ⊆ e'.ids) : e'.Names deferred := by
  cases h with
  | control _ howes =>
    unfold Engine.Names
    rw [Request.deferred, controlRequest, controlRecord_streamId]
    exact (owes_named howes).imp id (hids ·)
  | write hstream => exact .inr (hids (mem_map_of_mem hstream))
  | «open» hrefusal =>
    cases heffect with
    | idle hc => cases hc
    | receiveFailing hc => cases hc
    | openRefused hrefused => exact absurd hrefusal hrefused
    | opens =>
      exact .inr (by simp [ids, insertStream, takeStreamId, localStream, Record.streamId])
  | _ => exact .inl rfl

/-- What holds of the streams that pending records name: each is in the table,
and the flush gives up only records of closed streams. -/
structure TargetInv (e : Engine) (frames : List Call) : Prop where
  named : e.terminal = false → ∀ deferred ∈ waiting e frames, e.Names deferred
  closed : e.terminal = false → ∀ deferred rest, .flushClosed deferred rest ∈ frames →
    e.targetClosed deferred.record = true

/-- A resumed flush gives its record up only for a closed stream. -/
theorem Owner.resume_flushClosed {owner : Owner} {request : Request} {status : Status}
    {admission : QueueAdmission}
    (h : .flushClosed deferred rest ∈ owner.resume request status admission) :
    owner = .flush rest ∧ deferred = request.deferred ∧ status.code = .closed := by
  cases owner <;> simp only [resume] at h <;> (repeat' split at h) <;>
    simp_all [receiveFailed, failCall]

/-- A control that is already reserved is reserved again without a check. -/
theorem reserveControl_reserved (h : control.kind = .none ∨ control.reserved = true) :
    e.reserveControl control = .ok (e, control) := by
  simp [reserveControl, h]

theorem Record.control_reserved (record : Record) :
    (record.control true).kind = .none ∨ (record.control true).reserved = true := by
  cases record <;> first | exact .inl rfl | exact .inr rfl

/-- A flushed record's control never fails to be reserved. -/
theorem Call.Typed.flush_reserves {r : Request}
    (hshape : r.deferred.Shaped (reserved (.flush rest))) :
    e.reserveControl r.control = .ok (e, r.control) := by
  refine reserveControl_reserved ?_
  have hcontrol : r.control = r.record.control true := hshape.control
  rw [hcontrol]
  exact r.record.control_reserved

theorem admitControl_error {status : Status}
    (h : e.admitControl control = .error status) : status.code = .internal := by
  unfold admitControl at h
  dsimp only at h
  split at h
  · cases h
  split at h
  · split at h
    · split at h <;> cases h
      rfl
    · cases h
  split at h
  · cases h
    rfl
  split at h <;> cases h
  rfl

theorem Effect.flushClosed_made (h : Effect e choice call e' made)
    (htyped : call.Typed) (hlive : e'.terminal = false)
    (hmem : .flushClosed deferred rest ∈ made) :
    e'.targetClosed deferred.record = true := by
  have hbefore := (Move.run h).live_before hlive
  have hleaves := h.leaves_of_mem hmem
  cases h with
  | enqueueRefused =>
    obtain ⟨_, _, hcode⟩ := resume_flushClosed hmem
    cases hcode
  | admitLeaves hleave =>
    obtain ⟨-, rfl, -⟩ := resume_flushClosed hmem
    rcases hleave with ⟨hstop, _⟩ | ⟨hclosed, _⟩
    · simp [hbefore] at hstop
    · exact hclosed
  | deferLeaves hleave =>
    obtain ⟨-, -, hcode⟩ := resume_flushClosed hmem
    rcases hleave with ⟨hstop, _⟩ | ⟨hfull, _⟩
    · simp [hbefore] at hstop
    · simp [hfull] at hcode
  | deferPushLeaves hleave =>
    obtain ⟨rfl, -, -⟩ := resume_flushClosed hmem
    rcases hleave with ⟨hstop, _⟩ | ⟨_, herror⟩
    · simp [hbefore] at hstop
    rw [Call.Typed.flush_reserves htyped.2.1] at herror
    cases herror
  | deferPushes | tokenExhausted | publishes =>
    obtain ⟨-, -, hcode⟩ := resume_flushClosed hmem
    cases hcode
  | tokenLeaves hrefused =>
    obtain ⟨rfl, rfl, hcode⟩ := resume_flushClosed hmem
    rcases hrefused with ⟨hfull, _⟩ | ⟨hstop, _⟩ | ⟨hclosed, _⟩ | ⟨_, hstate, _⟩ |
      ⟨_, herror, _⟩
    · simp [hfull] at hcode
    · simp [hbefore] at hstop
    · exact hclosed
    · simp [hstate] at hcode
    rw [Call.Typed.flush_reserves htyped.2] at herror
    cases herror
  | tokenUnadmitted _ _ herror =>
    obtain ⟨-, -, hcode⟩ := resume_flushClosed hmem
    simp [admitControl_error herror] at hcode
  | publishStopped hstop => simp [hbefore] at hstop
  | tokenFails => cases (fail_terminal ..).symm.trans hlive
  | bareLost hbare =>
    obtain ⟨rfl, -, -⟩ := resume_flushClosed hmem
    simp [htyped.1.1] at hbare
  | idle => cases hmem
  | receiveFailing => simp [receiveFailed, failCall] at hmem
  | enqueueLocked | admitDefers | admitTakes | deferReserves | tokenBare | tokenTaken =>
    simp at hmem
  | _ => cases hleaves

/-- Outside the sections nothing starts to give a record up. -/
theorem Move.flushClosed_made (h : Move e choice used e' made emitted taken)
    (htyped : ∀ call ∈ used, call.Typed) (hlive : e'.terminal = false)
    {deferred : DeferredRecord} {rest : List DeferredRecord}
    (hmem : .flushClosed deferred rest ∈ made) :
    e'.targetClosed deferred.record = true := by
  cases h with
  | run heffect =>
    exact heffect.flushClosed_made (htyped _ mem_cons_self) hlive hmem
  | call hcallable => rw [← mem_singleton.mp hmem] at hcallable; cases hcallable
  | sendFails => simp [failCall] at hmem
  | _ => simp at hmem

theorem Move.targets_kept (hmove : Move e choice used e' made emitted taken)
    (hcoded : ∀ call ∈ used, call.Coded) (htyped : ∀ call ∈ used, call.Typed)
    (hunique : e.ids.Nodup) (hunique' : e'.ids.Nodup)
    (h : TargetInv e (pre ++ (used ++ post))) :
    TargetInv e' (pre ++ (made ++ post)) := by
  obtain ⟨hids, hgone⟩ := hmove.table_kept hcoded hunique hunique'
  refine ⟨fun ht deferred hmem => ?_, fun ht deferred rest hmem => ?_⟩
  · rcases hmove.waiting_back htyped ht hmem with
      ⟨old, hold, hsame⟩ | ⟨call, rfl, heffect, hcreated⟩
    · unfold Engine.Names
      rw [hsame.record]
      exact (h.named (hmove.live_before ht) old hold).imp id (hids ·)
    · exact hcreated.named heffect hids
  simp only [mem_append] at hmem
  have hbeside : .flushClosed deferred rest ∈ pre ∨ .flushClosed deferred rest ∈ post →
      e'.targetClosed deferred.record = true := fun hmem' => by
    have hlive := hmove.live_before ht
    have hframe : .flushClosed deferred rest ∈ pre ++ (used ++ post) := by
      simp only [mem_append]
      tauto
    have hclosed := targetClosed_iff.mp (h.closed hlive deferred rest hframe)
    have hnamed : e.Names deferred := h.named hlive deferred
      (mem_append_left _ (mem_flatMap.mpr ⟨_, hframe, mem_cons_self⟩))
    exact targetClosed_iff.mpr ⟨hclosed.1, hclosed.2.1,
      (hgone _ ⟨hnamed.resolve_left hclosed.1, hclosed.2.2⟩).2⟩
  rcases hmem with hmem | hmem | hmem
  · exact hbeside (.inl hmem)
  · exact hmove.flushClosed_made htyped ht hmem
  · exact hbeside (.inr hmem)

end Step

theorem Endpoint.Run.targets {config : Config} {guard : Guard}
    {endpoint : Endpoint} (h : Endpoint.Run config guard endpoint) :
    TargetInv endpoint.engine endpoint.frames := by
  refine Run.invariant (K := fun e frames => NameInv e frames ∧ ShapeInv e frames ∧
      ∀ call ∈ frames, call.Coded)
    (fun _ hrun => ⟨hrun.names, hrun.shapes, hrun.coded⟩) ?_
    (fun hknown hknown' hinv hmove _ => hmove.targets_kept
      (fun call hcall => hknown.2.2 call (by simp [hcall]))
      (fun call hcall => hknown.2.1.frames call (by simp [hcall]))
      hknown.1.unique hknown'.1.unique hinv) h
  refine ⟨?_, ?_⟩ <;> simp [Endpoint.initial, Endpoint.frames, waiting, Call.held]

end Yume.Session
