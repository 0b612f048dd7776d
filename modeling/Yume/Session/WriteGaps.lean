/-
A byte stream without gaps: once a write of a live stream has failed, no later
write of it is published.  The one exception is a write that `stream_write`
admitted without the record overhead and `enqueue_record` refuses with it.
-/
import Yume.Session.Targets
import Yume.Session.Tokens

namespace Yume.Session

open List

variable {config : Config} {endpoint : Endpoint}

open Yume.Lib Engine Call

/-- A write that reaches the byte budget fits it, with the header, the envelope
and the AEAD overhead of its record. -/
def writesFit : Guard := fun e _ call _ =>
  match call with
  | .takeToken request (.writes _ _ _) | .deferReserve request (.writes _ _ _) =>
    e.queue.retained + (e.fixedOverhead true + request.record.payloadSize) ≤
      applicationQueueLimit e.limits
  | _ => True

instance (engine : Engine) (choice : Choice) (call : Call)
    (others : List Call) : Decidable (writesFit engine choice call others) := by
  unfold writesFit
  split <;> infer_instance

/-- The stream whose write a caller of `enqueue_record` publishes. -/
def Owner.carries : Owner → List Nat
  | .writes id _ _ => [id]
  | _ => []

/-- The stream whose write a section of `enqueue_record` publishes. -/
def Call.publishing (call : Call) : List Nat :=
  (call.owner?.map Owner.carries).getD []

/-- The writes of one stream fit the byte budget. -/
def writesFitOn (id : Nat) : Guard := fun e choice call others =>
  id ∈ call.publishing → writesFit e choice call others

/-- No record key is left, and no section holds one. -/
def Spent (e : Engine) (frames : List Call) : Prop :=
  e.outbound.sequenceExhausted = true ∧ frames.flatMap unqueued = []

/-- The stream can publish nothing any more. -/
def Broken (e : Engine) (frames : List Call) (id : Nat) : Prop :=
  Doomed e frames ∨ e.Gone id ∨ Spent e frames

section Kept

variable {e e' : Engine} {choice : Choice} {call : Call}
  {pre used made post : List Call} {emitted taken : Option Wire} {id : Nat}

theorem TokenChange.spent_kept (h : TokenChange e call e' made)
    (hspent : Spent e (pre ++ ([call] ++ post))) :
    Spent e' (pre ++ (made ++ post)) := by
  obtain ⟨hexhausted, hnone⟩ := hspent
  simp only [flatMap_append, append_eq_nil_iff, flatMap_singleton] at hnone
  obtain ⟨hpre, hcall, hpost⟩ := hnone
  have hkept : e'.tokenView.sequenceExhausted = e.tokenView.sequenceExhausted →
      made.flatMap unqueued = [] → Spent e' (pre ++ (made ++ post)) :=
    fun hview hmade => ⟨hview.trans hexhausted, by simp [hpre, hmade, hpost]⟩
  cases h with
  | quiet hview _ hmade => exact hkept (by rw [hview]) (hmade.trans hcall)
  | take _ _ hleft => exact absurd (hexhausted.symm.trans hleft) nofun
  | @sealing r _ _ hprotect _ _ hseal =>
    subst hseal
    simp [unqueued, hprotect] at hcall
  | enqueue _ _ _ hmade hview => exact hkept (by rw [hview]; rfl) hmade
  | drop _ hview _ hmade => exact hkept (by rw [hview]) hmade
  | startRekey _ _ hmade _ hview | commitRekey _ _ hmade _ hview =>
    exact hkept (by rw [hview]; rfl) hmade

theorem Move.spent_kept (h : Move e choice used e' made emitted taken)
    (hspent : Spent e (pre ++ (used ++ post))) :
    Spent e' (pre ++ (made ++ post)) := by
  rcases h.tokens with ⟨call, rfl, hchange⟩ | ⟨rfl, hview, hlock⟩
  · exact hchange.spent_kept hspent
  obtain ⟨hexhausted, hnone⟩ := hspent
  refine ⟨(congrArg TokenView.sequenceExhausted hview).trans hexhausted, ?_⟩
  simpa [(tokens_of_unlocked hlock).2] using hnone

theorem Move.broken_kept (h : Move e choice used e' made emitted taken)
    (hcoded : ∀ call ∈ used, call.Coded) (hunique : e.ids.Nodup)
    (hunique' : e'.ids.Nodup) (hbroken : Broken e (pre ++ (used ++ post)) id) :
    Broken e' (pre ++ (made ++ post)) id := by
  rcases hbroken with hdoomed | hgone | hspent
  · exact .inl (h.doomed_kept hdoomed)
  · exact .inr (.inl ((h.table_kept hcoded hunique hunique').2 id hgone))
  · exact .inr (.inr (h.spent_kept hspent))

/-- Every accepted write, in its queue or on its way out, fits one frame. -/
structure SizeInv (e : Engine) (frames : List Call) : Prop where
  streams : ∀ stream ∈ e.streams, ∀ write ∈ stream.pendingWrites,
    write.payload.size ≤ e.limits.maxFramePayload
  waiting : e.terminal = false → ∀ deferred ∈ waiting e frames,
    deferred.record.dataBytes ≤ e.limits.maxFramePayload

theorem StreamOp.writes_sized {limits : SessionLimits} {s s' : Stream} (hop : StreamOp limits s s')
    (h : ∀ write ∈ s.pendingWrites, write.payload.size ≤ limits.maxFramePayload) :
    ∀ write ∈ s'.pendingWrites, write.payload.size ≤ limits.maxFramePayload := by
  cases hop with
  | takeWrite | dropWrite => exact fun write hmem => h write (mem_of_mem_tail hmem)
  | cancelWrite => exact fun write hmem => h write (mem_of_mem_filter hmem)
  | acceptWrite _ _ _ hsize =>
    exact forall_mem_append.mpr ⟨h, forall_mem_singleton.mpr hsize⟩
  | @receiveClose _ code => cases code <;> exact h
  | deliverData => exact h
  | _ => exact h

theorem StreamOps.writes_sized {limits : SessionLimits} {s s' : Stream}
    (hops : StreamOps limits s s')
    (h : ∀ write ∈ s.pendingWrites, write.payload.size ≤ limits.maxFramePayload) :
    ∀ write ∈ s'.pendingWrites, write.payload.size ≤ limits.maxFramePayload := by
  induction hops with
  | refl => exact h
  | tail _ hop ih => exact hop.writes_sized ih

theorem NewStream.no_writes {stream : Stream} (h : NewStream e stream) :
    stream.pendingWrites = [] := by
  cases h <;> rfl

theorem Created.sized {deferred : DeferredRecord} (h : Created e choice call deferred)
    (hstreams : ∀ stream ∈ e.streams, ∀ write ∈ stream.pendingWrites,
      write.payload.size ≤ e.limits.maxFramePayload) :
    deferred.record.dataBytes ≤ e.limits.maxFramePayload := by
  cases h with
  | @control =>
    dsimp only [controlRequest, Request.deferred, controlRecord]
    split
    · split <;> exact Nat.zero_le _
    · exact Nat.zero_le _
  | write hmem _ _ hwrites =>
    exact hstreams _ hmem _ (hwrites ▸ mem_cons_self)
  | _ => exact Nat.zero_le _

theorem Move.sizes_kept (hmove : Move e choice used e' made emitted taken)
    (hcoded : ∀ call ∈ used, call.Coded) (htyped : ∀ call ∈ used, call.Typed)
    (hunique : e.ids.Nodup) (h : SizeInv e (pre ++ (used ++ post))) :
    SizeInv e' (pre ++ (made ++ post)) := by
  have hlimits : e'.limits = e.limits := congrArg Config.limits hmove.config_eq
  refine ⟨fun stream hmem => ?_, fun ht deferred hmem => ?_⟩ <;> rw [hlimits]
  · rcases hmove.stream_back hunique hcoded hmem with ⟨old, hold, hops⟩ | hnew
    · exact hops.writes_sized (h.streams old hold)
    · simp [hnew.no_writes]
  rcases hmove.waiting_back htyped ht hmem with
    ⟨old, hold, hsame⟩ | ⟨call, -, -, hcreated⟩
  · rw [hsame.record]
    exact h.waiting (hmove.live_before ht) old hold
  · exact hcreated.sized h.streams

end Kept

theorem Endpoint.Run.sizes {guard : Guard} (h : Endpoint.Run config guard endpoint) :
    SizeInv endpoint.engine endpoint.frames := by
  refine Run.invariant (K := fun e frames => NameInv e frames ∧ ShapeInv e frames ∧
      ∀ call ∈ frames, call.Coded)
    (fun _ hrun => ⟨hrun.names, hrun.shapes, hrun.coded⟩) ?_
    (fun hknown _ hinv hmove _ => hmove.sizes_kept
      (fun call hcall => hknown.2.2 call (by simp [hcall]))
      (fun call hcall => hknown.2.1.frames call (by simp [hcall]))
      hknown.1.unique hinv) h
  refine ⟨?_, ?_⟩ <;> simp [Endpoint.initial, Endpoint.frames, waiting, held]

section Failures

variable {e e' : Engine} {choice : Choice} {call : Call}
  {others made : List Call} {id size op : Nat} {status : Status}

theorem Owner.resume_settleWrite {owner : Owner} {request : Request}
    {result : Status} {admission : QueueAdmission}
    (h : .settleWrite id size op status ∈ owner.resume request result admission) :
    owner = .writes id size op ∧ status = result := by
  cases owner <;> simp only [Owner.resume] at h <;> (repeat' split at h) <;>
    simp_all [receiveFailed, failCall]

theorem reserveControl_none {control : EngineControl} (h : control.kind = .none) :
    e.reserveControl control = .ok (e, control) :=
  reserveControl_reserved (.inl h)

theorem admitControl_none {control : EngineControl} (h : control.kind = .none) :
    e.admitControl control = .ok e := by
  simp [admitControl, h]

theorem writeTarget_gone {r : Request} {kind : ServiceKind} {payload : Buffer}
    (hrecord : r.record = .data id kind payload) (hnamed : e.Names r.deferred)
    (h : e.targetClosed r.record = true) : e.Gone id := by
  obtain ⟨hid, -, hclosed⟩ := targetClosed_iff.mp h
  have hname := hnamed.resolve_left hid
  simp only [Request.deferred, hrecord, Record.streamId] at hname hclosed
  exact ⟨hname, hclosed⟩

/-- What a caller that publishes a write holds. -/
theorem Owner.Fits.write {r : Request} (hfits : Owner.Fits (.writes id size op) r)
    (hshape : r.deferred.Shaped (Owner.reserved (.writes id size op))) :
    ∃ kind payload, r.record = .data id kind payload ∧ id ≠ 0 ∧
      r.protect = true ∧ r.isControl = false ∧ r.control.kind = .none := by
  obtain ⟨hprotect, -, -, kind, payload, hrecord, -⟩ := hfits
  obtain ⟨hproper, hcontrol, hmessage, -⟩ := hshape
  simp only [Request.deferred, hrecord] at hproper hcontrol hmessage
  exact ⟨kind, payload, hrecord, hproper.1, hprotect, hmessage, by rw [hcontrol]; rfl⟩

/-- A write fails in a live session only when its stream has closed or no
record key is left, as long as writes fit the budget they reach. -/
theorem Effect.settleWrite_made (h : Effect e choice call e' made)
    (htyped : call.Typed) (hguard : writesFitOn id e choice call others)
    (hsized : ∀ deferred ∈ call.held, deferred.record.dataBytes ≤ e.limits.maxFramePayload)
    (hnamed : ∀ deferred ∈ call.held, e.Names deferred)
    (hlive : e'.terminal = false)
    (hmem : .settleWrite id size op status ∈ made) (hbad : status.isOk = false) :
    e.Gone id ∨ (e.outbound.sequenceExhausted = true ∧ e'.outbound = e.outbound ∧
      call.lockRole = 1 ∧ made.flatMap unqueued = []) := by
  have hbefore := (Move.run h).live_before hlive
  have hleaves := h.leaves_of_mem hmem
  cases h with
  | enqueueRefused hsize =>
    obtain ⟨rfl, rfl⟩ := Owner.resume_settleWrite hmem
    obtain ⟨_, _, hrecord, _⟩ := htyped.1.write htyped.2
    have hfits := hsized _ mem_cons_self
    simp only [Request.deferred, hrecord, Record.dataBytes] at hfits
    rw [hrecord, Record.payloadSize] at hsize
    omega
  | admitLeaves hleave =>
    obtain ⟨rfl, rfl⟩ := Owner.resume_settleWrite hmem
    obtain ⟨_, _, hrecord, -⟩ := htyped.1.write htyped.2
    rcases hleave with ⟨hstop, _⟩ | ⟨hclosed, _⟩
    · simp [hbefore] at hstop
    · exact .inl (writeTarget_gone hrecord (hnamed _ mem_cons_self) hclosed)
  | deferLeaves hleave =>
    obtain ⟨rfl, rfl⟩ := Owner.resume_settleWrite hmem
    obtain ⟨_, _, hrecord, -, -, hcontrol, hkind⟩ := htyped.1.write htyped.2.1
    rcases hleave with ⟨hstop, _⟩ | ⟨_, _, hfull⟩
    · simp [hbefore] at hstop
    have hfits := hsized _ mem_cons_self
    simp only [Request.deferred, hrecord, Record.dataBytes] at hfits
    have hguard := hguard (mem_singleton_self id)
    simp only [writesFit, hrecord, Record.payloadSize] at hguard
    simp only [DeferFull, hrecord, Record.payloadSize, hcontrol, queueLimit,
      hkind, if_true, Bool.false_eq_true, false_and, false_or] at hfull
    omega
  | deferPushLeaves hleave =>
    obtain ⟨rfl, rfl⟩ := Owner.resume_settleWrite hmem
    obtain ⟨_, _, -, -, -, -, hkind⟩ := htyped.1.write htyped.2.1
    rcases hleave with ⟨hstop, _⟩ | ⟨_, herror⟩
    · simp [hbefore] at hstop
    rw [reserveControl_none hkind] at herror
    cases herror
  | deferPushes | publishes =>
    obtain ⟨-, rfl⟩ := Owner.resume_settleWrite hmem
    cases hbad
  | tokenLeaves hrefused =>
    obtain ⟨rfl, rfl⟩ := Owner.resume_settleWrite hmem
    obtain ⟨_, _, hrecord, -, hprotect, hcontrol, hkind⟩ := htyped.1.write htyped.2
    have hguard := hguard (mem_singleton_self id)
    simp only [writesFit, hrecord, Record.payloadSize] at hguard
    have hlimit : applicationQueueLimit e.limits ≤ e.limits.maxQueuedBytes := by
      unfold applicationQueueLimit outboundQueueLimit
      omega
    rcases hrefused with ⟨_, hfull⟩ | ⟨hstop, _⟩ | ⟨hclosed, _⟩ | ⟨hstate, _⟩ |
      ⟨_, herror, _⟩
    · simp only [TokenFull, reservation, tokenLimit, queueLimit, hrecord, hprotect,
        hcontrol, hkind, Record.payloadSize, Record.isRekeyControl, if_true,
        if_false, Bool.false_eq_true, false_and, false_or] at hfull
      omega
    · simp [hbefore] at hstop
    · exact .inl (writeTarget_gone hrecord (hnamed _ mem_cons_self) hclosed)
    · simp only [sendable, hprotect, if_true, Bool.or_eq_false_iff, beq_eq_false_iff_ne] at hstate
      cases hs : e.state <;> simp_all [terminal]
    · rw [reserveControl_none hkind] at herror
      cases herror
  | tokenUnadmitted _ hreserve herror =>
    obtain ⟨rfl, rfl⟩ := Owner.resume_settleWrite hmem
    obtain ⟨_, _, -, -, -, -, hkind⟩ := htyped.1.write htyped.2
    rw [reserveControl_none hkind] at hreserve
    obtain ⟨-, rfl⟩ := Prod.mk.inj (Except.ok.inj hreserve)
    rw [admitControl_none hkind] at herror
    cases herror
  | tokenExhausted _ _ _ hprotect hexhausted =>
    exact .inr ⟨hexhausted, rfl, by rw [lockRole, hprotect]; rfl, (Owner.resume_tokens ..).2⟩
  | publishStopped hstop => simp [hbefore] at hstop
  | tokenFails => cases (fail_terminal ..).symm.trans hlive
  | bareLost hbare =>
    obtain ⟨rfl, -⟩ := Owner.resume_settleWrite hmem
    simp [htyped.1.1] at hbare
  | idle => cases hmem
  | receiveFailing => simp [receiveFailed, failCall] at hmem
  | enqueueLocked | admitDefers | admitTakes | deferReserves | tokenBare | tokenTaken =>
    simp at hmem
  | _ => cases hleaves

/-- Writes are dropped only after their stream was closed. -/
theorem Effect.dropWrites_made (h : Effect e choice call e' made) (hmem : .dropWrites id ∈ made) :
    call = .dropWrites id ∨ e'.Gone id := by
  have hleaves := h.leaves_of_mem hmem
  cases h with
  | @removes _ stream reason hfind =>
    simp only [mem_cons, dropWrites.injEq, reduceCtorEq, not_mem_nil, or_false] at hmem
    subst hmem
    obtain ⟨hfind, -⟩ := findOpen_some hfind
    obtain ⟨hmem, hname, -⟩ := find_some hfind
    have hids : (e.closeStream stream reason).ids = e.ids := modify_ids fun _ => rfl
    refine .inr ⟨by rw [hids]; exact hname ▸ mem_map_of_mem hmem, ?_⟩
    cases hopen : (e.closeStream stream reason).findOpen id with
    | none => rfl
    | some other =>
      obtain ⟨hother, hunclosed⟩ := findOpen_some hopen
      obtain ⟨hmem', hname', -⟩ := find_some hother
      rcases mem_modify.mp hmem' with ⟨_, _, _, rfl⟩ | ⟨_, hne⟩
      · cases hunclosed
      · exact absurd (hname'.trans hname.symm) hne
  | dropsWrite =>
    simp only [mem_singleton, dropWrites.injEq] at hmem
    exact .inl (hmem ▸ rfl)
  | removeSkips | dropWritesEnds | idle => cases hmem
  | receiveFailing => simp [receiveFailed, failCall] at hmem
  | _ => cases hleaves

theorem DeferredRecord.mem_writer {deferred : DeferredRecord}
    (h : .write id op ∈ deferred.writer) : deferred.record.streamId = id := by
  unfold writer Record.writer at h
  cases hcompletion : deferred.completion <;> simp [hcompletion] at h
  exact h.1.symm

end Failures

/-- What holds of the failed writes and of the sections that will fail one. -/
structure GapInv (log : List Event) (e : Engine) (frames : List Call) : Prop where
  settles : ∀ id size op status, .settleWrite id size op status ∈ frames →
    status.isOk = false → Broken e frames id
  removed : ∀ id, .dropWrites id ∈ frames → e.Gone id
  failed : ∀ id op, .completed (.write id op) .failed ∈ log → Broken e frames id
  gap : ∀ id i j, [.completed (.write id i) .failed, .published id j].Sublist log →
    Doomed e frames ∨ e.Gone id

/-- The facts about a run that the failures of writes rest on. -/
structure GapContext (e : Engine) (frames : List Call) : Prop where
  names : NameInv e frames
  shapes : ShapeInv e frames
  coded : ∀ call ∈ frames, call.Coded
  roles : RoleInv e frames
  targets : TargetInv e frames
  sizes : SizeInv e frames

theorem Endpoint.Run.gapContext {guard : Guard} (h : Endpoint.Run config guard endpoint) :
    GapContext endpoint.engine endpoint.frames :=
  ⟨h.names, h.shapes, h.coded, h.roles, h.targets, h.sizes⟩

section Step

variable {e e' : Engine} {choice : Choice} {call : Call} {log shown : List Event}
  {pre used made post : List Call} {emitted taken : Option Wire} {id op : Nat}

/-- A failed write that a section shows belongs to a broken stream. -/
theorem CallShows.broken (hshows : CallShows e call (.completed (.write id op) .failed))
    (hcontext : GapContext e (pre ++ ([call] ++ post)))
    (h : GapInv log e (pre ++ ([call] ++ post))) :
    call.stops = true ∨ Broken e (pre ++ ([call] ++ post)) id := by
  have hmem : call ∈ pre ++ ([call] ++ post) := by simp
  -- a record of the flush names a stream of the table
  have hflush : ∀ {deferred : DeferredRecord}, deferred ∈ call.held →
      .write id op ∈ deferred.writer →
      (e.terminal = false → e.targetClosed deferred.record = true) →
      Broken e (pre ++ ([call] ++ post)) id := by
    intro deferred hheld hwriter hclosed
    by_cases hlive : e.terminal = true
    · exact .inl (.inl hlive)
    rw [Bool.not_eq_true] at hlive
    obtain rfl := DeferredRecord.mem_writer hwriter
    obtain ⟨hid, -, hopen⟩ := targetClosed_iff.mp (hclosed hlive)
    have hnamed := hcontext.targets.named hlive deferred
      (mem_append_left _ (mem_flatMap.mpr ⟨call, hmem, hheld⟩))
    exact .inr (.inl ⟨hnamed.resolve_left hid, hopen⟩)
  cases hshows with
  | stops hstops => exact .inl hstops
  | settles hbad => exact .inr (h.settles _ _ _ _ hmem hbad)
  | drops hclosed hwriter =>
    exact .inr (hflush mem_cons_self hwriter fun _ => hclosed)
  | closes hwriter =>
    exact .inr (hflush mem_cons_self hwriter fun hlive =>
      hcontext.targets.closed hlive _ _ hmem)
  | abandons => exact .inr (.inl (.inr ⟨_, hmem, rfl⟩))
  | removes _ hoperation =>
    simp [Stream.opener, Stream.reader] at hoperation
  | removesWrite hobject hoperation =>
    simp only [Stream.writers, mem_map, Operation.write.injEq] at hoperation
    obtain ⟨_, _, rfl, _⟩ := hoperation
    have hgone := h.removed _ hmem
    rw [← (object_some hobject).2] at hgone
    exact .inr (.inr (.inl hgone))
  | ends _ hoperation => simp [Stream.reader] at hoperation

theorem Effect.stops_terminal (h : Effect e choice call e' made)
    (hstops : call.stops = true) : e'.terminal = true := by
  cases h with
  | tokenFails | controlsFailed => exact fail_terminal _ _
  | bareLost hbare => simp [Call.stops, hbare] at hstops
  | stops => exact stop_terminal _ _ _
  | idle hc | receiveFailing hc =>
    cases call with
    | tokenLost | controlsFail | stopSession => cases hc
    | _ => cases hstops
  | _ => cases hstops

variable (hmove : Move e choice used e' made emitted taken)
include hmove

/-- A failing write that a move of a live session leaves belongs to a closed
stream, or no record key was left for it. -/
theorem Move.settles_broken (hcontext : GapContext e (pre ++ (used ++ post)))
    (hguard : ∀ call, used = [call] → writesFitOn id e choice call (pre ++ post))
    (hterminal : e'.terminal = false) {size : Nat} {status : Status}
    (hmem : .settleWrite id size op status ∈ made) (hbad : status.isOk = false) :
    e.Gone id ∨ (e.outbound.sequenceExhausted = true ∧ Spent e' (pre ++ (made ++ post))) := by
  have hlive := hmove.live_before hterminal
  cases hmove with
  | @run call _ _ heffect =>
    have hwaits : ∀ deferred ∈ call.held,
        deferred ∈ waiting e (pre ++ ([call] ++ post)) := fun deferred hheld =>
      mem_append_left _ (mem_flatMap.mpr ⟨call, by simp, hheld⟩)
    rcases heffect.settleWrite_made (hcontext.shapes.frames _ (by simp))
      (hguard _ rfl) (fun d hd => hcontext.sizes.waiting hlive d (hwaits d hd))
      (fun d hd => hcontext.targets.named hlive d (hwaits d hd)) hterminal hmem hbad
      with hgone | ⟨hexhausted, hsame, hlock, hmade⟩
    · exact .inl hgone
    obtain ⟨-, hpre, -, hpost⟩ := tokens_beside_lock hcontext.roles
      (by simp [hlock])
    exact .inr ⟨hexhausted, hsame ▸ hexhausted, by simp [hpre, hmade, hpost]⟩
  | call hcallable => rw [← mem_singleton.mp hmem] at hcallable; cases hcallable
  | _ => simp [failCall] at hmem

theorem Move.removed_gone (hremoved : ∀ id, .dropWrites id ∈ used → e'.Gone id)
    (hmem : .dropWrites id ∈ made) : e'.Gone id := by
  cases hmove with
  | run heffect =>
    rcases heffect.dropWrites_made hmem with rfl | hgone
    · exact hremoved id mem_cons_self
    · exact hgone
  | call hcallable => rw [← mem_singleton.mp hmem] at hcallable; cases hcallable
  | _ => simp [failCall] at hmem

/-- A failed write that a move shows belongs to a broken stream. -/
theorem Move.failed_broken (hshows : Shows e used e' made shown)
    (hcontext : GapContext e (pre ++ (used ++ post)))
    (h : GapInv log e (pre ++ (used ++ post)))
    (hmem : .completed (.write id op) .failed ∈ shown) :
    Doomed e' (pre ++ (made ++ post)) ∨ Broken e (pre ++ (used ++ post)) id := by
  cases hshows with
  | run =>
    rcases (mem_events hmem).broken hcontext h with hstops | hbroken
    · cases hmove with
      | run heffect => exact .inl (.inl (heffect.stops_terminal hstops))
    · exact .inr hbroken
  | @sent active status =>
    obtain ⟨_, _, hresult⟩ := mem_completeAll hmem
    have hbad : status.isOk = false := by
      cases hok : status.isOk <;> simp [hok] at hresult ⊢
    by_cases hterminal : e.terminal = true
    · exact .inr (.inl (.inl hterminal))
    · exact .inl (.inr ⟨failCall status, by simp [hbad, hterminal], rfl⟩)
  | other => cases hmem

omit hmove in
/-- A published write still had its record key. -/
theorem Shows.published (hshows : Shows e used e' made shown)
    (hshapes : ShapeInv e (pre ++ (used ++ post)))
    (hmem : .published id op ∈ shown) :
    (pre ++ (used ++ post)).flatMap unqueued ≠ [] ∧
      ∀ operation result, .completed operation result ∉ shown := by
  cases hshows with
  | @run =>
    cases mem_events hmem with
    | @publishes r o token wire size _ _ hcompletion =>
      obtain ⟨hfits, hshape, -⟩ := hshapes.frames _ (mem_append_right pre
        (mem_append_left post (mem_singleton_self _)))
      have hdata : r.record.isData = true := by
        have hcomplete := hshape.completion
        simp only [Request.deferred, hcompletion, Option.isSome_some] at hcomplete
        exact hcomplete.symm
      have hprotect : r.protect = true := by
        cases o <;> first
          | exact hfits.1
          | (obtain ⟨-, _, _, _, hrecord⟩ := hfits
             simp [hrecord, Record.isData] at hdata)
      refine ⟨by simp [unqueued, hprotect], fun operation result hother => ?_⟩
      cases mem_events hother with
      | stops hstops => cases hstops
  | sent =>
    obtain ⟨_, _, hresult⟩ := mem_completeAll hmem
    cases hresult
  | other => cases hmem

theorem Move.gaps_kept (hshows : Shows e used e' made shown)
    (hcontext : GapContext e (pre ++ (used ++ post)))
    (hunique' : e'.ids.Nodup)
    (hguard : ∀ call, used = [call] → writesFit e choice call (pre ++ post))
    (h : GapInv log e (pre ++ (used ++ post))) :
    GapInv (log ++ shown) e' (pre ++ (made ++ post)) := by
  have hcoded : ∀ call ∈ used, call.Coded := fun call hcall =>
    hcontext.coded call (by simp [hcall])
  have hgone := (hmove.table_kept hcoded hcontext.names.unique hunique').2
  have hbroken : ∀ {id}, Broken e (pre ++ (used ++ post)) id →
      Broken e' (pre ++ (made ++ post)) id :=
    hmove.broken_kept hcoded hcontext.names.unique hunique'
  have hframe : ∀ {call}, call ∈ pre ++ (made ++ post) →
      call ∈ pre ++ (used ++ post) ∨ call ∈ made := by
    intro call hcall
    simp only [mem_append] at hcall ⊢
    tauto
  refine ⟨fun id size op status hmem hbad => ?_, fun id hmem => ?_,
    fun id op hmem => ?_, fun id i j hsub => ?_⟩
  · rcases hframe hmem with hmem | hmem
    · exact hbroken (h.settles id size op status hmem hbad)
    by_cases hterminal : e'.terminal = true
    · exact .inl (.inl hterminal)
    rcases hmove.settles_broken hcontext (fun call hcall _ => hguard call hcall)
      (eq_false_of_ne_true hterminal) hmem hbad with hbefore | ⟨-, hspent⟩
    · exact .inr (.inl (hgone id hbefore))
    · exact .inr (.inr hspent)
  · rcases hframe hmem with hmem | hmem
    · exact hgone id (h.removed id hmem)
    · exact hmove.removed_gone (fun id hused => hgone id (h.removed id (by simp [hused]))) hmem
  · rcases mem_append.mp hmem with hmem | hmem
    · exact hbroken (h.failed id op hmem)
    rcases hmove.failed_broken hshows hcontext h hmem with hdoomed | hbefore
    · exact .inl hdoomed
    · exact hbroken hbefore
  have hold : Doomed e (pre ++ (used ++ post)) ∨ e.Gone id →
      Doomed e' (pre ++ (made ++ post)) ∨ e'.Gone id :=
    Or.imp hmove.doomed_kept (hgone id)
  -- the published write is new, or both events are old
  obtain ⟨before, after, hsplit, hbefore, hafter⟩ := sublist_append_iff.mp hsub
  rcases before with _ | ⟨first, _ | ⟨second, rest⟩⟩
  · obtain rfl : after = _ := hsplit.symm
    have hfailed := hafter.subset mem_cons_self
    have hlast := hafter.subset (mem_cons_of_mem _ mem_cons_self)
    exact absurd hfailed ((hshows.published hcontext.shapes hlast).2 _ _)
  · simp only [cons_append, nil_append, List.cons.injEq] at hsplit
    obtain ⟨rfl, rfl⟩ := hsplit
    have hlast := hafter.subset mem_cons_self
    rcases h.failed id i (hbefore.subset mem_cons_self) with
      hdoomed | hclosed | hspent
    · exact hold (.inl hdoomed)
    · exact hold (.inr hclosed)
    · exact absurd hspent.2 (hshows.published hcontext.shapes hlast).1
  · simp only [cons_append, List.cons.injEq, nil_eq, append_eq_nil_iff] at hsplit
    obtain ⟨rfl, rfl, rfl, rfl⟩ := hsplit
    exact hold (h.gap id i j hbefore)

end Step

theorem Endpoint.Trace.gaps {log : List Event} (h : Endpoint.Trace config writesFit log endpoint) :
    GapInv log endpoint.engine endpoint.frames := by
  refine Trace.invariant (K := GapContext) (fun _ hrun => hrun.gapContext) ?_
    (fun hcontext hcontext' hinv hmove hshows hguard =>
      hmove.gaps_kept hshows hcontext hcontext'.names.unique hguard hinv) h
  refine ⟨?_, ?_, ?_, ?_⟩ <;> simp [Endpoint.initial, Endpoint.frames]

/-- While the session and a stream are live, no write of the stream is published
after another one of it has failed. -/
theorem no_write_after_failed_write {config : Config} {log : List Event}
    {endpoint : Endpoint} (h : Endpoint.Trace config writesFit log endpoint)
    {id i j : Nat}
    (hlog : [.completed (.write id i) .failed, .published id j].Sublist log) :
    ¬ (Live endpoint.engine endpoint.frames ∧
      (endpoint.engine.findOpen id).isSome = true) := by
  rintro ⟨hlive, hopen⟩
  rcases h.gaps.gap id i j hlog with hdoomed | hgone
  · exact hlive.not_doomed hdoomed
  · simp [hgone.2] at hopen

/-- The stream is closed while its first write holds a record key: the second
one fails, and then the first one is published. -/
theorem no_write_after_failed_write_closed :
    ∃ endpoint : Endpoint, endpoint.engine.terminal = false ∧
      ¬ (Live endpoint.engine endpoint.frames ∧
        (endpoint.engine.findOpen 1).isSome = true) := by
  obtain ⟨log, endpoint, htrace, hseen⟩ := Endpoint.Trace.exists_of_follow
    (sampleConfig .server) writesFit
    (twoWrites 100 50 ++ runs 10 8 ++ [.call (.streamClose 1)] ++ runs 11 5 ++
      runs 10 2)
    (fun result => (result.1.drop 3, result.2.engine.terminal))
    ([.completed (.write 1 2) .failed, .published 1 1], false) (by decide +kernel)
  simp only [Prod.mk.injEq] at hseen
  exact ⟨endpoint, hseen.2, no_write_after_failed_write htrace
    (hseen.1 ▸ drop_sublist 3 log)⟩

/-- An application queue of 4288 bytes, to which two records with their overhead
do not fit when their payloads just do. -/
def tightLimits : SessionLimits :=
  { maxFramePayload := 4096, maxPacketSize := 4096, maxQueuedBytes := 8192,
    maxStreamQueuedBytes := 8192, initialConnectionCredit := 8192,
    maxConnectionCredit := 8192, initialStreamCredit := 8192,
    maxStreamCredit := 8192 }

/-- Two writes of 2200 and 2088 bytes are accepted.  The first one is refused
when its record reserves the overhead too, and the second one is published. -/
theorem failed_write_is_followed :
    Admissible tightLimits ∧
    ∃ log endpoint,
      Endpoint.Trace { sampleConfig .server with limits := tightLimits }
        unrestricted log endpoint ∧
      log.drop 1 = [.accepted (.write 1 1), .accepted (.write 1 2),
        .completed (.write 1 1) .failed, .published 1 2] ∧
      Live endpoint.engine endpoint.frames ∧
      (endpoint.engine.findOpen 1).isSome = true := by
  obtain ⟨log, endpoint, htrace, hseen⟩ := Endpoint.Trace.exists_of_follow
    { sampleConfig .server with limits := tightLimits } unrestricted
    (twoWrites 2200 2088 ++ runs 10 17)
    (fun result => (result.1.drop 1, result.2.engine.terminal,
      result.2.frames.any failing, (result.2.engine.findOpen 1).isSome))
    ([.accepted (.write 1 1), .accepted (.write 1 2),
      .completed (.write 1 1) .failed, .published 1 2], false, false, true)
    (by decide +kernel)
  simp only [Prod.mk.injEq] at hseen
  exact ⟨by decide, log, endpoint, htrace, hseen.1, ⟨hseen.2.1, by simpa using hseen.2.2.1⟩,
    hseen.2.2.2⟩

end Yume.Session
