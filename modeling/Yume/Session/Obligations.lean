/-
The controls that an engine owes.  A control that could be sent is never
forgotten: a drain is on its way to it, or a record still occupies the budget
and its end will start one.
-/
import Yume.Session.RekeyReserve
import Yume.Session.WriteGaps

namespace Yume.Session

open Yume.Lib Engine Call List

/-- The stream owes a control that may be queued now: a terminal CLOSE, credit
with a free grant slot, a FIN, or a settlement that nothing has to precede. -/
def Stream.Owing (limits : SessionLimits) (stream : Stream) : Prop :=
  stream.present = true ∧
  ((stream.terminalOwed.isSome = true ∧ stream.terminalQueued = false) ∨
    (stream.closed = false ∧ stream.receiveWindow.owed ≠ 0 ∧
      stream.receiveWindow.grantsQueued < limits.creditReturnsPerWindow) ∨
    (stream.finOwed = true ∧ stream.finQueued = false) ∨
    (stream.settlementOwed = true ∧ stream.settlementQueued = false ∧
      stream.terminalOwed = none ∧ stream.finOwed = false))

instance (limits : SessionLimits) (stream : Stream) :
    Decidable (stream.Owing limits) :=
  inferInstanceAs (Decidable (_ ∧ (_ ∨ (_ ∧ _ ∧ _) ∨ _ ∨ _)))

namespace Engine

def StreamOwing (e : Engine) : Prop :=
  ∃ stream ∈ e.streams, stream.Owing e.limits

instance (e : Engine) : Decidable e.StreamOwing :=
  inferInstanceAs (Decidable (∃ stream ∈ e.streams, stream.Owing e.limits))

/-- The connection owes credit and has a free grant slot. -/
def ConnectionOwing (e : Engine) : Prop :=
  e.connectionWindow.owed ≠ 0 ∧ e.connectionWindow.grantsQueued < e.limits.creditReturnsPerWindow

end Engine

section Streams

variable {e e' : Engine} {id : Nat} {stream : Stream} {control next : EngineControl}
  {update : Stream → Stream} {limits : SessionLimits}

/-- The scan finds every stream that owes a control. -/
theorem Stream.not_owing (h : e.streamOwes stream = none) : ¬ stream.Owing e.limits := by
  unfold streamOwes at h
  split_ifs at h with hterminal hcredit hfin hsettlement
  simp only [grantSlotFree, Bool.not_eq_true, decide_eq_true_eq,
    Option.isNone_iff_eq_none] at hterminal hcredit hfin hsettlement
  rintro ⟨-, howing⟩
  tauto

theorem Engine.ConnectionOwing.not_of_scan (h : e.connectionWindow.owed ≠ 0 →
      e.grantSlotFree e.connectionWindow = false) : ¬ e.ConnectionOwing := by
  rintro ⟨howed, hslot⟩
  have hfull := h howed
  simp only [grantSlotFree, decide_eq_false_iff_not] at hfull
  exact hfull hslot

/-- A scan that finds nothing was told to look at no stream, or none owes. -/
theorem Engine.StreamOwing.flag_of_scan (h : e.StreamOwing)
    (hscan : e.streamControlsOwed = true → ∀ stream ∈ e.streams,
      stream.present = true → e.streamOwes stream = none) :
    e.streamControlsOwed = false := by
  refine eq_false_of_ne_true fun hflag => ?_
  obtain ⟨stream, hmem, howing⟩ := h
  exact Stream.not_owing (hscan hflag stream hmem howing.1) howing

/-- No stream comes to owe a control. -/
def Calm (e e' : Engine) : Prop := e'.StreamOwing → e.StreamOwing

theorem Calm.of_eq (hstreams : e'.streams = e.streams) (hlimits : e'.limits = e.limits) :
    Calm e e' := by
  rintro ⟨stream, hmem, howing⟩
  exact ⟨stream, hstreams ▸ hmem, hlimits ▸ howing⟩

theorem Calm.modify (hstreams : e'.streams = (e.modify id update).streams)
    (hlimits : e'.limits = e.limits)
    (h : ∀ stream ∈ e.streams, stream.id = id →
      (update stream).Owing e.limits → stream.Owing e.limits) : Calm e e' := by
  rintro ⟨stream, hmem, howing⟩
  rw [hstreams] at hmem
  rw [hlimits] at howing
  rcases mem_modify.mp hmem with ⟨old, hold, hid, rfl⟩ | ⟨hold, -⟩
  · exact ⟨old, hold, h old hold hid howing⟩
  · exact ⟨stream, hold, howing⟩

theorem Calm.trans {e'' : Engine} (h : Calm e e') (h' : Calm e' e'') : Calm e e'' :=
  h ∘ h'

theorem Calm.insert {added : Stream} (hstreams : e'.streams = e.streams ++ [added])
    (hlimits : e'.limits = e.limits) (hadded : ¬ added.Owing e.limits) :
    Calm e e' := by
  rintro ⟨stream, hmem, howing⟩
  rw [hstreams, mem_append, mem_singleton] at hmem
  rw [hlimits] at howing
  rcases hmem with hmem | rfl
  · exact ⟨stream, hmem, howing⟩
  · exact absurd howing hadded

theorem Stream.reserve_owing
    (h : (stream.reserveControl control).Owing limits) : stream.Owing limits := by
  obtain ⟨hpresent, howing⟩ := h
  refine ⟨hpresent, ?_⟩
  simp only [Stream.reserveControl, Bool.or_eq_false_iff] at howing
  rcases howing with h | h | h | h
  · exact .inl ⟨h.1, h.2.1⟩
  · refine .inr (.inl ⟨h.1, ?_⟩)
    have h := h.2
    split at h
    · dsimp only at h
      omega
    · exact h
  · exact .inr (.inr (.inl ⟨h.1, h.2.1⟩))
  · exact .inr (.inr (.inr ⟨h.1, h.2.1.1, h.2.2⟩))

theorem Stream.close_owing {reason : Status}
    (h : (stream.close reason).Owing limits) : stream.Owing limits := by
  obtain ⟨hpresent, howing⟩ := h
  refine ⟨hpresent, ?_⟩
  simp only [Stream.close, Bool.true_eq_false, false_and, false_or] at howing
  tauto

/-- Admitting credit changes nothing that is owed. -/
theorem Stream.admitCredit_owing (hkind : control.kind = .credit)
    (h : (stream.admitControl control).Owing limits) : stream.Owing limits := by
  simpa [Stream.admitControl, Stream.Owing, hkind] using h

theorem Stream.refundWrite_owing {size operationId : Nat}
    (h : (stream.refundWrite size operationId).Owing limits) : stream.Owing limits := by
  simpa only [Stream.refundWrite, Stream.endPublication, Stream.forget, Stream.Owing] using h

theorem reserveControl_calm (h : e.reserveControl control = .ok (e', next)) :
    Calm e e' ∧ (e'.ConnectionOwing → e.ConnectionOwing) ∧
      e'.streamControlsOwed = e.streamControlsOwed := by
  cases reserveControl_reserves h with
  | again | uncounted => exact ⟨id, id, rfl⟩
  | connection =>
    refine ⟨.of_eq rfl rfl, ?_, rfl⟩
    simp only [ConnectionOwing, Engine.limits]
    omega
  | stream => exact ⟨.modify rfl rfl fun _ _ _ => Stream.reserve_owing, id, rfl⟩

/-- Only a CLOSE that is admitted can let a stream owe another control. -/
theorem admitControl_calm (h : e.admitControl control = .ok e') :
    (e'.ConnectionOwing → e.ConnectionOwing) ∧
      ((Calm e e' ∧ e'.streamControlsOwed = e.streamControlsOwed) ∨
        (e'.streamControlsOwed = true ∧ control.kind ≠ .none)) := by
  cases admitControl_admits h with
  | uncounted => exact ⟨id, .inl ⟨id, rfl⟩⟩
  | connection => exact ⟨id, .inl ⟨.of_eq rfl rfl, rfl⟩⟩
  | stream hreal =>
    refine ⟨id, ?_⟩
    by_cases hkind : control.kind = .credit
    · refine .inl ⟨.modify rfl rfl fun _ _ _ => Stream.admitCredit_owing hkind, ?_⟩
      simp [hkind]
    · exact .inr ⟨by simp [hkind], hreal⟩

theorem collectStreamCredit_flag (e : Engine) (id : Nat) (now : Time) :
    (e.collectStreamCredit id now).streamControlsOwed = true ∨
      e.collectStreamCredit id now = e := by
  unfold collectStreamCredit
  split
  · exact .inr rfl
  · exact .inl rfl

/-- A completed control of a stream has the scan look at it again. -/
theorem completeControl_flag (e : Engine) (control : EngineControl) (admitted : Bool) (now : Time) :
    (e.completeControl control admitted now).streamControlsOwed = true ∨
      ((e.completeControl control admitted now).streams = e.streams ∧
        (e.completeControl control admitted now).streamControlsOwed = e.streamControlsOwed) := by
  unfold completeControl
  split
  · exact .inr ⟨rfl, rfl⟩
  split
  · exact .inr ⟨rfl, rfl⟩
  split
  · exact .inr ⟨rfl, rfl⟩
  dsimp only
  refine .inl ?_
  split
  · rcases collectStreamCredit_flag (e.completed control admitted) control.streamId now
      with hflag | hsame
    · exact hflag
    rw [hsame]
    rfl
  · rfl

theorem failDeferred_flag (e : Engine) (deferred : DeferredRecord) (now : Time) :
    (Calm e (e.withCredit (e.failDeferred deferred now)) ∧
        (e.failDeferred deferred now).streamControlsOwed = e.streamControlsOwed) ∨
      (e.failDeferred deferred now).streamControlsOwed = true := by
  rw [← failDeferred_frame]
  rcases completeControl_flag e deferred.control false now with hflag | ⟨hstreams, hflag⟩
  · exact .inr hflag
  refine .inl ⟨Calm.trans (.of_eq hstreams (by rw [completeControl_frame]; rfl))
    (.modify rfl rfl fun _ _ _ h => h), hflag⟩

theorem forgetWrites_calm (rest : List DeferredRecord)
    (hstreams : e'.streams = (rest.foldl forgetWrite e).streams)
    (hlimits : e'.limits = e.limits) : Calm e e' := by
  induction rest generalizing e with
  | nil => exact .of_eq hstreams hlimits
  | cons deferred rest ih =>
    have hforget : Calm e (e.forgetWrite deferred) :=
      .modify rfl rfl fun _ _ _ h => h
    exact hforget.trans (ih hstreams hlimits)

theorem returnToStream_flag (e : Engine) (id bytes : Nat) (now : Time) :
    (Calm e (e.withCredit ((e.returnToStream id bytes now).returnToConnection bytes now)) ∧
        (e.returnToStream id bytes now).streamControlsOwed = e.streamControlsOwed) ∨
      (e.returnToStream id bytes now).streamControlsOwed = true := by
  rw [← returnCredit_frame]
  unfold returnToStream
  split
  · exact .inl ⟨fun h => h, rfl⟩
  rcases collectStreamCredit_flag (e.modify id (Stream.returnBytes bytes)) id now with hflag | hsame
  · exact .inr hflag
  rw [hsame]
  exact .inl ⟨.modify rfl rfl fun _ _ _ h => h, rfl⟩

theorem reserveControl_kind (h : e.reserveControl control = .ok (e', next)) :
    next.kind = control.kind := by
  cases reserveControl_reserves h <;> rfl

/-- Reserving and admitting a control. -/
theorem admitted_duty {reserved admitted : Engine}
    (hreserve : e.reserveControl control = .ok (reserved, next))
    (hadmitted : reserved.admitControl next = .ok admitted) :
    ((e.withCredit admitted).ConnectionOwing → e.ConnectionOwing) ∧
      ((Calm e (e.withCredit admitted) ∧ admitted.streamControlsOwed = e.streamControlsOwed) ∨
        (admitted.streamControlsOwed = true ∧ control.kind ≠ .none)) := by
  rw [← admitted_frame hreserve hadmitted]
  obtain ⟨hcalm, hconnection, hflag⟩ := reserveControl_calm hreserve
  obtain ⟨hconnection', hadmit⟩ := admitControl_calm hadmitted
  refine ⟨hconnection ∘ hconnection', ?_⟩
  rcases hadmit with ⟨hcalm', hflag'⟩ | ⟨hflag', hreal⟩
  · exact .inl ⟨hcalm.trans hcalm', hflag'.trans hflag⟩
  · exact .inr ⟨hflag', reserveControl_kind hreserve ▸ hreal⟩

end Streams

/-- What a section does to the controls owed. -/
inductive DutyStep (e e' : Engine) (made : List Call) : Prop where
  | calm : Calm e e' → (e'.ConnectionOwing → e.ConnectionOwing) →
    e'.streamControlsOwed = e.streamControlsOwed → DutyStep e e' made
  | raised : (Calm e e' ∧ e'.streamControlsOwed = e.streamControlsOwed) ∨
        e'.streamControlsOwed = true →
      Drains e' made → DutyStep e e' made
  | ended : ¬ e'.ConnectionOwing →
    (e'.StreamOwing → e.StreamOwing ∧ e.streamControlsOwed = false) →
    DutyStep e e' made
  | stopped : e'.terminal = true → DutyStep e e' made

section Step

variable {e e' : Engine} {choice : Choice} {call : Call} {made : List Call}
  {id : Nat} {update : Stream → Stream} {owner : Owner} {r : Request}

namespace DutyStep

theorem same (hconfig : e'.config = e.config) (hstreams : e'.streams = e.streams)
    (hwindow : e'.connectionWindow = e.connectionWindow)
    (hflag : e'.streamControlsOwed = e.streamControlsOwed) :
    DutyStep e e' made := by
  have hlimits : e'.limits = e.limits := congrArg Config.limits hconfig
  refine .calm (.of_eq hstreams hlimits) ?_ hflag
  rw [ConnectionOwing, hwindow, hlimits]
  exact fun h => h

theorem modify (hconfig : e'.config = e.config)
    (hstreams : e'.streams = (e.modify id update).streams)
    (hwindow : e'.connectionWindow = e.connectionWindow)
    (hflag : e'.streamControlsOwed = e.streamControlsOwed)
    (h : ∀ stream : Stream, (update stream).Owing e.limits → stream.Owing e.limits) :
    DutyStep e e' made := by
  have hlimits : e'.limits = e.limits := congrArg Config.limits hconfig
  refine .calm (.modify hstreams hlimits fun stream _ _ => h stream) ?_ hflag
  rw [ConnectionOwing, hwindow, hlimits]
  exact fun h => h

theorem insert {added : Stream} (hconfig : e'.config = e.config)
    (hstreams : e'.streams = e.streams ++ [added])
    (hwindow : e'.connectionWindow = e.connectionWindow)
    (hflag : e'.streamControlsOwed = e.streamControlsOwed)
    (hadded : ¬ added.Owing e.limits) : DutyStep e e' made := by
  have hlimits : e'.limits = e.limits := congrArg Config.limits hconfig
  refine .calm (.insert hstreams hlimits hadded) ?_ hflag
  rw [ConnectionOwing, hwindow, hlimits]
  exact fun h => h

end DutyStep

theorem Effect.dutyStep (h : Effect e choice call e' made) (htyped : call.Typed) :
    DutyStep e e' made := by
  cases h with
  | deferPushes _ hreserve | tokenUnadmitted _ hreserve =>
    obtain ⟨hcalm, hconnection, hflag⟩ := reserveControl_calm hreserve
    rw [reserveControl_frame hreserve] at hcalm hconnection
    exact .calm hcalm hconnection hflag
  | tokenExhausted _ hreserve hadmitted =>
    obtain ⟨hconnection, ⟨hcalm, hflag⟩ | ⟨hflag, hreal⟩⟩ :=
      admitted_duty hreserve hadmitted
    · exact .calm hcalm hconnection hflag
    refine .raised (.inr hflag) (.inr ?_)
    rcases htyped.1.real htyped.2 hreal with rfl | ⟨rest, rfl⟩
    · exact Owner.controls_resume_drains ..
    · exact Owner.flush_resume_drains ..
  | tokenBare _ hreserve hadmitted =>
    obtain ⟨hconnection, ⟨hcalm, hflag⟩ | ⟨hflag, hreal⟩⟩ :=
      admitted_duty hreserve hadmitted
    · exact .calm hcalm hconnection hflag
    refine .raised (.inr hflag) (.inr ⟨_, mem_cons_self, ?_⟩)
    rcases htyped.1.real htyped.2 hreal with rfl | ⟨rest, rfl⟩ <;> rfl
  | tokenTaken _ hreserve hadmitted =>
    obtain ⟨hconnection, ⟨hcalm, hflag⟩ | ⟨hflag, hreal⟩⟩ :=
      admitted_duty hreserve hadmitted
    · exact .calm (hcalm.trans (.modify rfl rfl fun _ _ _ h => h)) hconnection hflag
    refine .raised (.inr hflag) (.inr ⟨_, mem_cons_self, ?_⟩)
    rcases htyped.1.real htyped.2 hreal with rfl | ⟨rest, rfl⟩ <;> rfl
  | publishes | acceptanceDelivered | writeTaken | writeSettled | dropsWrite | dropsInbound
  | registers | reportsEnd | reads | readsLast | readsEnd | readsLastEnd | parksRead | cancelsRead
  | writes | cancelsWrite
  | shutsDown | closes | activates | discardsData | discardsCrossed | creditsConnection
  | creditsStream | creditsClosed | pings | pongs | switchesInbound =>
    exact .modify rfl rfl rfl rfl fun _ h => h
  | tokenFails | controlsFailed => exact .stopped (fail_terminal _ _)
  | drainEnds _ hconnection hstreams =>
    exact .ended (ConnectionOwing.not_of_scan hconnection)
      fun howing => ⟨howing, StreamOwing.flag_of_scan (e := e) howing hstreams⟩
  | writeRefunded =>
    exact .modify rfl rfl rfl rfl fun _ => Stream.refundWrite_owing
  | flushDrops | flushFindsClosed =>
    exact .raised (failDeferred_flag e _ _) (.inr ⟨_, mem_cons_self, rfl⟩)
  | @flushAbandons deferred rest =>
    exact .raised (.inl ⟨forgetWrites_calm (deferred :: rest) rfl rfl, rfl⟩)
      (.inl (doomed_receiveFailed ..))
  | finishes | settles | acceptsPeer | acceptsOpen =>
    exact .raised (.inr rfl) (.inr ⟨_, mem_cons_self, rfl⟩)
  | removes => exact .modify rfl rfl rfl rfl fun _ => Stream.close_owing
  | retires =>
    refine .modify rfl rfl rfl rfl fun stream howing => ?_
    split at howing
    · cases howing.1
    · exact howing
  | aborts =>
    exact .raised (.inr rfl) (.inr ⟨.drainControls, by simp, rfl⟩)
  | erases => exact .modify rfl rfl rfl rfl fun _ h => nomatch h.1
  | creditReturns | discardReturns =>
    exact .raised (returnToStream_flag e _ _ _) (.inr ⟨_, mem_cons_self, rfl⟩)
  | opens => exact .insert rfl rfl rfl rfl (by simp [Stream.Owing, localStream])
  | stops => exact .stopped (stop_terminal _ _ _)
  | advertisesCredit =>
    exact .raised (.inl ⟨.of_eq rfl rfl, rfl⟩) (.inr ⟨_, mem_cons_self, rfl⟩)
  | @inserts id request service | @insertsRefused id request service =>
    have hinsert (held) : Calm e (e.insertStream (e.peerStream id request service held)) :=
      .insert rfl rfl (by simp [Stream.Owing, peerStream])
    exact .calm ((hinsert _).trans (.modify rfl rfl fun _ _ _ h => h)) (fun h => h) rfl
  | deliversData =>
    exact .raised (.inl ⟨.modify rfl rfl fun _ _ _ h => h, rfl⟩) (.inr ⟨_, mem_cons_self, rfl⟩)
  | @closesByPeer _ code | @shutsDownByPeer _ code =>
    cases code <;> exact .modify rfl rfl rfl rfl fun _ h => h
  | _ => exact .same rfl rfl rfl rfl

/-- How a section that drains the controls can end. -/
inductive DrainEnd (e : Engine) (call : Call) (e' : Engine)
    (made : List Call) : Prop where
  | goesOn : Drains e' made → DrainEnd e call e' made
  | handsOver : call = .drainControls → e.controlsDraining = true →
    e'.controlsDrainAgain = true → DrainEnd e call e' made
  | done : call = .selectControl → ¬ e'.ConnectionOwing →
    (e'.StreamOwing → e.StreamOwing ∧ e.streamControlsOwed = false) →
    DrainEnd e call e' made
  | givesUp : call = .controlRefused → e.controlsDrainAgain = false → DrainEnd e call e' made
  | stopped : e'.terminal = true → DrainEnd e call e' made

theorem Call.drains_owner (howner : call.owner? = some owner)
    (h : call.drains = true) : owner = .controls ∨ ∃ rest, owner = .flush rest := by
  cases call <;> cases howner <;> cases owner <;>
    first | exact .inl rfl | exact .inr ⟨_, rfl⟩ | cases h

theorem Call.passive_drains (h : call.passive = true) : call.drains = false := by
  cases call <;> first | rfl | cases h

theorem Owner.resume_drains {request : Request} {status : Status}
    {admission : QueueAdmission} (h : owner = .controls ∨ ∃ rest, owner = .flush rest) :
    ∃ call ∈ owner.resume request status admission, call.drains = true := by
  rcases h with rfl | ⟨rest, rfl⟩
  · exact Owner.controls_resume_drains ..
  · exact Owner.flush_resume_drains ..

theorem Effect.drainEnd (h : Effect e choice call e' made)
    (hdrains : call.drains = true) : DrainEnd e call e' made := by
  have hresume : ∀ {r : Request} {o : Owner} {status : Status}
      {admission : QueueAdmission}, call.owner? = some o →
      made = o.resume r status admission → DrainEnd e call e' made := by
    rintro r o status admission howner rfl
    exact .goesOn (.inr (Owner.resume_drains (drains_owner howner hdrains)))
  have hpass : ∀ {next : Call}, next ∈ made → next.drains = call.drains →
      DrainEnd e call e' made := by
    intro next hnext hsame
    exact .goesOn (.inr ⟨next, hnext, hsame.trans hdrains⟩)
  cases h with
  | enqueueRefused | admitLeaves | deferLeaves | deferPushLeaves | deferPushes | tokenLeaves
  | tokenUnadmitted | tokenExhausted | publishStopped | publishes | bareLost =>
    exact hresume rfl rfl
  | enqueueLocked | rotatePasses | admitDefers | admitTakes | deferReserves | tokenBare
  | tokenTaken | sealLost | sealDone | drainStarts | drainUnencodable | drainSelects
  | drainContinues | acceptanceSkipped | acceptanceDelivered | flushTakes | flushEnds
  | flushReleases | flushDrops | flushEnqueues | flushFindsClosed =>
    exact hpass mem_cons_self rfl
  | rotates => exact hpass (mem_cons_of_mem _ mem_cons_self) rfl
  | tokenFails | controlsFailed => exact .stopped (fail_terminal _ _)
  | drainSkips hstop | drainStops hstop | flushStopped hstop => exact .stopped hstop
  | drainAgain _ hdraining => exact .handsOver rfl hdraining rfl
  | drainEnds _ hconnection hstreams =>
    exact .done rfl (ConnectionOwing.not_of_scan hconnection)
      fun howing => ⟨howing, StreamOwing.flag_of_scan (e := e) howing hstreams⟩
  | drainRefused hagain => exact .givesUp rfl hagain
  | flushAbandons => exact .goesOn (.inl (doomed_receiveFailed ..))
  | idle hc => simp [passive_drains hc] at hdrains
  | receiveFailing => exact .goesOn (.inl (doomed_receiveFailed ..))
  | _ => cases hdrains

theorem Owner.resume_refused {request : Request} {status : Status} {admission : QueueAdmission}
    (h : .controlRefused ∈ owner.resume request status admission) :
    owner = .controls ∧ admission = .refused := by
  cases owner <;> simp only [Owner.resume] at h <;> (repeat' split at h) <;>
    simp_all [failCall, receiveFailed]

/-- CREDIT is the largest record that the drain publishes. -/
theorem Owner.Fits.controls_payload (h : Owner.Fits .controls r) :
    r.record.payloadSize ≤ creditPayloadBytes := by
  have howed := h.2.2
  cases hr : r.record with
  | close | connectionCredit | streamCredit =>
    simp [Record.payloadSize, closePayloadBytes, creditPayloadBytes]
  | _ => simp [hr, Record.isOwed] at howed

/-- A record that the drain publishes takes no more than the engine's control
reserve. -/
theorem Owner.Fits.controls_reservation (hvalid : e.config.Valid) (h : Owner.Fits .controls r) :
    e.fixedOverhead true + r.record.payloadSize ≤ engineControlReserve e.limits := by
  have hoverhead : e.config.maxSealedOverhead ≤ e.limits.maxSecurityOverhead :=
    hvalid.overhead
  have hsize := h.controls_payload
  simp only [fixedOverhead, engineControlReserve, if_true]
  omega

/-- The queue limit of a record that the drain publishes. -/
theorem Owner.Fits.controls_limit (h : Owner.Fits .controls r) (hshape : r.deferred.Shaped false) :
    r.protect = true ∧ r.isControl = false ∧
      e.queueLimit r.control = outboundQueueLimit e.limits ∧
      e.tokenLimit r = outboundQueueLimit e.limits := by
  have hordinary := h.ordinary h.1 h.2.1
  obtain ⟨hprotect, hbarrier, howed⟩ := h
  have hcontrol : r.control = r.record.control false := hshape.control
  have hmessage : r.isControl = r.record.isMessage := hshape.message
  have hlimit : e.queueLimit r.control = outboundQueueLimit e.limits := by
    rw [queueLimit, hcontrol, if_neg]
    cases hr : r.record with
    | close _ code => cases code <;> simp [Record.control, CloseCode.controlKind]
    | connectionCredit | streamCredit => simp [Record.control]
    | _ => simp [hr, Record.isOwed] at howed
  refine ⟨hprotect, ?_, hlimit, ?_⟩
  · rw [hmessage]
    cases hr : r.record <;> simp_all [Record.isOwed, Record.isMessage]
  · simpa [tokenLimit, hordinary] using hlimit

/-- A control is refused only when some record is charged, and the refusal leaves
the charges as they are. -/
theorem Effect.refused_made {held : List Charge} (hvalid : e.config.Valid)
    (hbudget : Budget e held) (h : Effect e choice call e' made)
    (htyped : call.Typed) (hmem : .controlRefused ∈ made) :
    held ≠ [] ∧ charges e' made = charges e [call] := by
  -- An empty queue holds waiting writes at most, and they leave the reserve free.
  have hcharged : ∀ {r : Request}, Owner.Fits .controls r →
      outboundQueueLimit e.limits <
        e.queue.retained + (e.fixedOverhead true + r.record.payloadSize) →
      held ≠ [] := by
    rintro r hfits hfull rfl
    have hreserved := hfits.controls_reservation hvalid
    have hfacts : LimitFacts e.limits := hvalid.admissible.facts
    have hpending := hbudget.pending
    have hwire : e.queue.wireBytes = 0 := hbudget.bytes
    have hlt := hfacts.reserves_lt
    simp only [OutboundQueue.retained, outboundQueueLimit, applicationQueueLimit]
      at hfull hpending
    omega
  have hsame : ∀ {r : Request} {status : Status} {admission : QueueAdmission},
      charges (e.unlock r) (Owner.controls.resume r status admission) =
        [] ++ e.queue.charges e.config := by
    intro r status admission
    rw [charges, Owner.resume_charges]
    rfl
  have hleaves := h.leaves_of_mem hmem
  cases h with
  | enqueueRefused | admitLeaves | deferPushLeaves | deferPushes | tokenUnadmitted
  | tokenExhausted | publishStopped | publishes | tokenFails | bareLost =>
    cases (Owner.resume_refused hmem).2
  | @deferLeaves r o status admission hleave =>
    obtain ⟨rfl, rfl⟩ := Owner.resume_refused hmem
    refine ⟨?_, hsame⟩
    obtain ⟨-, hmessage, hlimit, -⟩ :=
      htyped.1.controls_limit (e := e) htyped.2.1
    rcases hleave with ⟨_, _, hadmission⟩ | ⟨_, _, hframe | hcontrol | hfull⟩
    · cases hadmission
    · have hsize := htyped.1.controls_payload
      have hfacts : LimitFacts e.limits := hvalid.admissible.facts
      have hframe_ge := hfacts.frame_ge
      simp only [creditPayloadBytes, rekeyEpochBytes, rekeyInitMessageBytes] at hsize hframe_ge
      omega
    · simp [hmessage] at hcontrol
    · exact hcharged htyped.1 (hlimit ▸ hfull)
  | @tokenLeaves r o status admission hrefused =>
    obtain ⟨rfl, rfl⟩ := Owner.resume_refused hmem
    refine ⟨?_, hsame⟩
    obtain ⟨hprotect, hmessage, -, hlimit⟩ :=
      htyped.1.controls_limit (e := e) htyped.2
    rcases hrefused with ⟨_, ⟨_, hadmission⟩ | ⟨hcontrol | hfull, _⟩⟩ | ⟨_, _, hadmission⟩ |
      ⟨_, _, hadmission⟩ | ⟨_, _, hadmission⟩ | ⟨_, _, hadmission⟩
    · cases hadmission
    · simp [hmessage] at hcontrol
    · rw [hlimit, reservation, hprotect] at hfull
      exact hcharged htyped.1 hfull
    all_goals cases hadmission
  | enqueueLocked | admitDefers | admitTakes | deferReserves | tokenBare
  | tokenTaken => simp at hmem
  | idle => cases hmem
  | receiveFailing => simp [receiveFailed, failCall] at hmem
  | _ => cases hleaves

/-- A record that leaves the budget has the controls drained. -/
theorem ChargeStep.ends {used : List Call} {before after : List Charge}
    (h : ChargeStep e used before e' made after) (hlive : e'.terminal = false)
    (hless : after.length < before.length) : Drains e' made := by
  cases h with
  | released gone hcharges _ _ _ hdrains =>
    refine hdrains fun hgone => ?_
    have hlength := hcharges.length_eq
    rw [hgone, nil_append] at hlength
    omega
  | reserved charge _ hcharges =>
    have hlength := hcharges.length_eq
    rw [length_cons] at hlength
    omega
  | shrunk charge size rest _ hold hnew =>
    have hbefore := hold.length_eq
    have hafter := hnew.length_eq
    rw [length_cons] at hbefore hafter
    omega
  | wrote hcharges =>
    have hlength := hcharges.length_eq
    omega
  | stopped hstop => simp [hlive] at hstop

theorem ChargeStep.held {used : List Call} {before after : List Charge}
    (h : ChargeStep e used before e' made after) (hlive : e'.terminal = false)
    (hheld : before ≠ []) : after ≠ [] ∨ Drains e' made := by
  by_cases hafter : after = []
  · refine .inr (h.ends hlive ?_)
    simpa [hafter, length_pos_iff] using hheld
  · exact .inl hafter

variable {pre used post frames : List Call} {emitted taken : Option Wire}

theorem settleSend_flag (active : ActiveSend) (now : Time) :
    (Calm e (e.afterSend active now) ∧
        (e.afterSend active now).streamControlsOwed = e.streamControlsOwed) ∨
      (e.afterSend active now).streamControlsOwed = true := by
  rcases completeControl_flag _ active.control true now with hflag | ⟨hstreams, hflag⟩
  · exact .inr hflag
  · exact .inl ⟨.of_eq hstreams rfl, hflag⟩

theorem Move.dutyStep (h : Move e choice used e' made emitted taken)
    (htyped : ∀ call ∈ used, call.Typed) : DutyStep e e' made := by
  cases h with
  | run heffect => exact heffect.dutyStep (htyped _ mem_cons_self)
  | sent => exact .raised (settleSend_flag ..) (.inr ⟨_, mem_cons_self, rfl⟩)
  | sendFails => exact .raised (settleSend_flag ..) (.inl (.inr ⟨_, mem_cons_self, rfl⟩))
  | _ => exact .same rfl rfl rfl rfl

/-- Only the drain itself forgets that it was asked to go on. -/
theorem Move.drainAgain_kept (h : Move e choice used e' made emitted taken)
    (hagain : e.controlsDrainAgain = true) :
    e'.controlsDrainAgain = true ∨ .selectControl ∈ used ∨ e.controlsDraining = false := by
  cases h with
  | run heffect =>
    rcases heffect.fixed.again hagain with hkept | rfl | ⟨-, hidle⟩
    · exact .inl hkept
    · exact .inr (.inl mem_cons_self)
    · exact .inr (.inr hidle)
  | _ => exact .inl hagain

/-- The controls drainer is the only one. -/
theorem RoleInv.alone (h : RoleInv e (pre ++ (used ++ post)))
    (hcall : call ∈ pre ∨ call ∈ post) (hrole : call.controlsRole = 1) :
    ∀ other ∈ used, other.controlsRole = 0 := by
  intro other hother
  have htotal := h.controls
  have hle : other.controlsRole ≤ weigh controlsRole used :=
    le_weigh_of_mem hother
  have hone : flag e.controlsDraining ≤ 1 := by cases e.controlsDraining <;> decide
  simp only [weigh_append] at htotal
  rcases hcall with hcall | hcall <;>
    have := le_weigh_of_mem (f := controlsRole) hcall <;> omega

/-- A drain that runs is one of the pending sections. -/
theorem RoleInv.drainer (h : RoleInv e frames) (hdraining : e.controlsDraining = true) :
    ∃ call ∈ frames, call.controlsRole = 1 := by
  by_contra hnone
  push Not at hnone
  have hzero : weigh controlsRole frames = 0 := weigh_eq_zero fun call hcall => by
    have hle := (h.held hcall).controls
    have hne := hnone call hcall
    rw [hdraining, flag_true] at hle
    omega
  simp [h.controls, hdraining] at hzero

theorem Call.drains_of_role (h : call.controlsRole = 1) : call.drains = true := by
  cases call <;> first | rfl | simp_all [drains]

/-- Something besides the running drain will call for another one. -/
def Attended (e : Engine) (frames : List Call) : Prop :=
  Doomed e frames ∨
  (∃ call ∈ frames, call.drains = true ∧ call.controlsRole = 0) ∨
  charges e frames ≠ []

/-- No control that could be sent is forgotten. -/
structure ObligationInv (e : Engine) (frames : List Call) : Prop where
  flagged : e.StreamOwing → e.streamControlsOwed = true
  drained : e.ConnectionOwing ∨ e.StreamOwing → Drains e frames ∨ charges e frames ≠ []
  refused : .controlRefused ∈ frames → e.controlsDrainAgain = true ∨ Attended e frames

/-- A pending section is one that the move runs, or it stays. -/
theorem mem_used_or_stays (h : call ∈ pre ++ (used ++ post)) :
    call ∈ used ∨ call ∈ pre ∨ call ∈ post := by
  simp only [mem_append] at h
  tauto

theorem mem_of_stays (h : call ∈ pre ∨ call ∈ post) : call ∈ pre ++ (made ++ post) := by
  simp only [mem_append]
  tauto

theorem Doomed.among (h : Doomed e made) : Doomed e (pre ++ (made ++ post)) := by
  rcases h with hterminal | ⟨call, hcall, hfailing⟩
  · exact .inl hterminal
  · exact .inr ⟨call, by simp [hcall], hfailing⟩

theorem Drains.among (h : Drains e made) : Drains e (pre ++ (made ++ post)) := by
  rcases h with hdoomed | ⟨call, hcall, hdrains⟩
  · exact .inl hdoomed.among
  · exact .inr ⟨call, by simp [hcall], hdrains⟩

/-- What the obligations of a move rest on. -/
structure DutyContext (e : Engine) (frames : List Call) : Prop where
  valid : e.config.Valid
  shapes : ShapeInv e frames
  roles : RoleInv e frames
  budget : BudgetInv e frames

theorem DutyContext.used_typed (h : DutyContext e (pre ++ (used ++ post))) :
    ∀ call ∈ used, call.Typed :=
  fun call hcall => h.shapes.frames call (by simp [hcall])

variable (h : Move e choice used e' made emitted taken)
include h

variable (hcontext : DutyContext e (pre ++ (used ++ post)))
include hcontext

/-- A refused control leaves the records charged that it was refused for. -/
theorem Move.refused_made (hlive : e'.terminal = false) (hmem : .controlRefused ∈ made) :
    charges e' (pre ++ (made ++ post)) ≠ [] := by
  have hconfig := h.config_eq
  have hbudget := hcontext.budget.live (h.live_before hlive)
  cases h with
  | run heffect =>
    obtain ⟨hheld, hsame⟩ := heffect.refused_made hcontext.valid hbudget
      (hcontext.used_typed _ mem_cons_self) hmem
    intro hnone
    have hafter := charges_split e' pre made post
    rw [hnone, hconfig, hsame] at hafter
    exact hheld ((charges_split e pre _ post).trans hafter.symm).eq_nil
  | call hcallable =>
    rw [mem_singleton] at hmem
    subst hmem
    cases hcallable
  | pump => cases hmem
  | sent | sendFails | release | deliver => simp [failCall] at hmem

omit hcontext in
theorem Move.drainEnd (hcall : call ∈ used) (hdrains : call.drains = true) :
    used = [call] ∧ DrainEnd e call e' made := by
  rcases h.run_or_outside with ⟨call', rfl, heffect⟩ | rfl
  · obtain rfl := mem_singleton.mp hcall
    exact ⟨rfl, heffect.drainEnd hdrains⟩
  · cases hcall

theorem Move.refused_kept
    (hroles : RoleInv e' (pre ++ (made ++ post))) (hlive : e'.terminal = false)
    (hcharges : ChargeStep e used (charges e (pre ++ (used ++ post))) e' made
      (charges e' (pre ++ (made ++ post))))
    (hinv : ObligationInv e (pre ++ (used ++ post)))
    (hmem : .controlRefused ∈ pre ++ (made ++ post)) :
    e'.controlsDrainAgain = true ∨ Attended e' (pre ++ (made ++ post)) := by
  by_cases hmade : .controlRefused ∈ made
  · exact .inr (.inr (.inr (h.refused_made hcontext hlive hmade)))
  have hold := (mem_used_or_stays hmem).resolve_left hmade
  -- the drain that was refused still has the role, so no section of the move has it
  have hused := hcontext.roles.alone hold rfl
  have hnew := hroles.alone hold rfl
  have hgoes : Drains e' made → Attended e' (pre ++ (made ++ post)) := by
    rintro (hdoomed | ⟨call, hcall, hdrains⟩)
    · exact .inl hdoomed.among
    · exact .inr (.inl ⟨call, by simp [hcall], hdrains, hnew call hcall⟩)
  rcases hinv.refused (mem_of_stays hold) with
    hagain | hdoomed | ⟨call, hcall, hdrains, hrole⟩ | hheld
  · rcases h.drainAgain_kept hagain with hkept | hselect | hidle
    · exact .inl hkept
    · cases hused _ hselect
    have hdraining := (hcontext.roles.held (mem_of_stays hold)).controls
    rw [hidle] at hdraining
    cases hdraining
  · exact .inr (.inl (h.doomed_kept hdoomed))
  · rcases mem_used_or_stays hcall with hcall | hstays
    · cases (h.drainEnd hcall hdrains).2 with
      | goesOn hnext => exact .inr (hgoes hnext)
      | handsOver _ _ hagain => exact .inl hagain
      | done hselect =>
        subst hselect
        cases hrole
      | givesUp hrefused =>
        subst hrefused
        cases hrole
      | stopped hstop => simp [hlive] at hstop
    · exact .inr (.inr (.inl ⟨call, mem_of_stays hstays, hdrains, hrole⟩))
  · rcases hcharges.held hlive hheld with hafter | hnext
    · exact .inr (.inr (.inr hafter))
    · exact .inr (hgoes hnext)

theorem Move.drained_kept (hlive : e'.terminal = false)
    (hcharges : ChargeStep e used (charges e (pre ++ (used ++ post))) e' made
      (charges e' (pre ++ (made ++ post))))
    (hinv : ObligationInv e (pre ++ (used ++ post)))
    (howing : e'.ConnectionOwing ∨ e'.StreamOwing) :
    Drains e' (pre ++ (made ++ post)) ∨ charges e' (pre ++ (made ++ post)) ≠ [] := by
  have hheld : charges e (pre ++ (used ++ post)) ≠ [] →
      Drains e' (pre ++ (made ++ post)) ∨ charges e' (pre ++ (made ++ post)) ≠ [] :=
    fun hheld => (hcharges.held hlive hheld).symm.imp_left Drains.among
  have hstays : ∀ {call}, call ∈ pre ∨ call ∈ post → call.drains = true →
      Drains e' (pre ++ (made ++ post)) := fun hcall hdrains =>
    .inr ⟨_, mem_of_stays hcall, hdrains⟩
  have hnothing : ¬ e'.ConnectionOwing →
      (e'.StreamOwing → e.StreamOwing ∧ e.streamControlsOwed = false) → False := by
    intro hconnection hstreams
    obtain ⟨hstream, hflag⟩ := hstreams (howing.resolve_left hconnection)
    simp [hinv.flagged hstream] at hflag
  cases h.dutyStep hcontext.used_typed with
  | raised _ hdrains => exact .inl hdrains.among
  | ended hconnection hstreams => exact (hnothing hconnection hstreams).elim
  | stopped hstop => simp [hlive] at hstop
  | calm hcalm hconnection =>
    rcases hinv.drained (howing.imp hconnection hcalm) with
      (hdoomed | ⟨call, hcall, hdrains⟩) | hbefore
    · exact .inl (.inl (h.doomed_kept hdoomed))
    · rcases mem_used_or_stays hcall with hused | hother
      · obtain ⟨rfl, hend⟩ := h.drainEnd hused hdrains
        cases hend with
        | goesOn hnext => exact .inl hnext.among
        | handsOver hdrain hdraining =>
          -- the drain that runs takes the obligation over
          subst hdrain
          obtain ⟨drainer, hdrainer, hrole⟩ := hcontext.roles.drainer hdraining
          refine .inl (hstays ?_ (drains_of_role hrole))
          refine (mem_used_or_stays hdrainer).resolve_left fun hsame => ?_
          cases mem_singleton.mp hsame ▸ hrole
        | done _ hconnection hstreams => exact (hnothing hconnection hstreams).elim
        | givesUp hrefused hagain =>
          subst hrefused
          rcases hinv.refused hcall with
            hmore | hdoomed | ⟨other, hmem, hdrains, hrole⟩ | hbefore
          · simp [hagain] at hmore
          · exact .inl (.inl (h.doomed_kept hdoomed))
          · refine .inl (hstays ?_ hdrains)
            refine (mem_used_or_stays hmem).resolve_left fun hsame => ?_
            cases mem_singleton.mp hsame ▸ hrole
          · exact hheld hbefore
        | stopped hstop => simp [hlive] at hstop
      · exact .inl (hstays hother hdrains)
    · exact hheld hbefore

theorem Move.flagged_kept (hlive : e'.terminal = false)
    (hinv : ObligationInv e (pre ++ (used ++ post))) (howing : e'.StreamOwing) :
    e'.streamControlsOwed = true := by
  cases h.dutyStep hcontext.used_typed with
  | calm hcalm _ hflag => exact hflag.trans (hinv.flagged (hcalm howing))
  | raised hraised =>
    rcases hraised with ⟨hcalm, hflag⟩ | hflag
    · exact hflag.trans (hinv.flagged (hcalm howing))
    · exact hflag
  | ended _ hstreams =>
    obtain ⟨hstream, hflag⟩ := hstreams howing
    simp [hinv.flagged hstream] at hflag
  | stopped hstop => simp [hlive] at hstop

end Step

section Run

variable {config : Config} {guard : Guard} {endpoint : Endpoint}

theorem Endpoint.Run.obligations (hvalid : config.Valid) (h : Endpoint.Run config guard endpoint) :
    endpoint.engine.terminal = false → ObligationInv endpoint.engine endpoint.frames := by
  refine Run.invariant (K := DutyContext)
    (P := fun e frames => e.terminal = false → ObligationInv e frames)
    (fun _ hrun => ⟨hrun.config_eq ▸ hvalid, hrun.shapes, hrun.roles, hrun.budget⟩)
    ?_ ?_ h
  · intro _
    refine ⟨?_, ?_, ?_⟩ <;>
      simp [Endpoint.initial, Endpoint.frames, StreamOwing, ConnectionOwing]
  intro e e' choice pre used made post _ _ hcontext hcontext' hinv hmove _ hlive
  have hinv := hinv (hmove.live_before hlive)
  have hcharges := hmove.allCharges hcontext.shapes hcontext.budget.sized hlive
  exact ⟨hmove.flagged_kept hcontext hlive hinv, hmove.drained_kept hcontext hlive hcharges hinv,
    hmove.refused_kept hcontext hcontext'.roles hlive hcharges hinv⟩

/-- While a control is owed that could be sent and no drain is on its way, some
record is charged, and the step that ends its charge starts a drain.  The scan of
the streams is never skipped while one of them owes a control. -/
theorem owed_controls_not_stranded (hvalid : config.Valid)
    (h : Endpoint.Run config guard endpoint)
    (hlive : endpoint.engine.terminal = false) :
    (endpoint.engine.StreamOwing → endpoint.engine.streamControlsOwed = true) ∧
    (endpoint.engine.ConnectionOwing ∨ endpoint.engine.StreamOwing →
      ¬ Drains endpoint.engine endpoint.frames →
      charges endpoint.engine endpoint.frames ≠ []) ∧
    ∀ label next, endpoint.Meets guard label → endpoint.advance label = some next →
      next.engine.terminal = false →
      (charges next.engine next.frames).length <
        (charges endpoint.engine endpoint.frames).length →
      Drains next.engine next.frames := by
  have hinv := h.obligations hvalid hlive
  refine ⟨hinv.flagged, fun howing hidle => (hinv.drained howing).resolve_left hidle, ?_⟩
  intro label next hmeets hnext hlive' hless
  simp only [Endpoint.advance, Option.map_eq_some_iff] at hnext
  obtain ⟨⟨next, wire⟩, hstep, rfl⟩ := hnext
  obtain ⟨choice, pre, used, made, post, hs, -⟩ := Endpoint.step_steps hstep hmeets
  have hshapes := h.shapes
  have hsized := h.budget.sized
  rw [hs.before] at hshapes hsized hless
  rw [hs.after] at hless ⊢
  exact ((hs.move.allCharges hshapes hsized hlive').ends hlive' hless).among

end Run

/-- A server whose stream 1 was opened by its peer and may be accepted. -/
def peerOpened : List Label :=
  sampleStartup ++ [.pump, .sent {} 0] ++ runs 2 2 ++ [.pump, .sent {} 0] ++
    runs 3 2 ++ [fromPeer 1 (.connectionCredit 8192)] ++ runs 4 5 ++
    [fromPeer 2 (.open 1 sampleOpen)] ++ runs 5 4

/-- Two writes on stream 1 and the first credit of stream 3 fill the queue, and
the first credit of stream 5 is refused. -/
def creditRefused : List Label :=
  peerOpened ++ [.call (.completePeerOpen 1 {})] ++ runs 6 12 ++ [.pump, .sent {} 0] ++ runs 7 2 ++
    [fromPeer 3 (.streamCredit 1 8192)] ++ runs 8 5 ++
    [.call (.streamWrite 1 ⟨0, 2348, 2348⟩)] ++ runs 9 12 ++
    [.call (.streamWrite 1 ⟨0, 2348, 2348⟩)] ++ runs 10 12 ++
    [fromPeer 4 (.open 3 sampleOpen)] ++ runs 11 4 ++
    [.call (.completePeerOpen 3 {})] ++ runs 12 12 ++
    [fromPeer 5 (.open 5 sampleOpen)] ++ runs 13 4 ++
    [.call (.completePeerOpen 5 {})] ++ runs 14 9

theorem owed_controls_not_stranded_refused :
    ∃ endpoint : Endpoint, endpoint.engine.StreamOwing ∧
      ¬ Drains endpoint.engine endpoint.frames ∧
      endpoint.engine.streamControlsOwed = true ∧
      charges endpoint.engine endpoint.frames ≠ [] := by
  obtain ⟨endpoint, hrun, hseen⟩ := Endpoint.Run.exists_of_follow
    (reserveConfig .server) unrestricted creditRefused
    (fun endpoint => (endpoint.engine.terminal, endpoint.frames.length,
      decide endpoint.engine.StreamOwing))
    (false, 0, true) (by decide +kernel)
  simp only [Prod.mk.injEq, decide_eq_true_eq, length_eq_zero_iff] at hseen
  obtain ⟨hlive, hframes, howing⟩ := hseen
  have hidle : ¬ Drains endpoint.engine endpoint.frames := by
    simp [Drains, Doomed, hlive, hframes]
  have hvalid : (reserveConfig .server).Valid := by
    constructor <;> decide
  obtain ⟨hflag, hcharges, -⟩ := owed_controls_not_stranded hvalid hrun hlive
  exact ⟨endpoint, howing, hidle, hflag howing, hcharges (.inr howing) hidle⟩

/-- Between the section that accepts a stream and the drain that it then calls,
the credit is owed, nothing is charged and no drain runs. -/
theorem owed_before_drain_starts :
    (sampleConfig .server).Valid ∧
    ∃ endpoint, Endpoint.Run (sampleConfig .server) unrestricted endpoint ∧
      Live endpoint.engine endpoint.frames ∧
      (∀ call ∈ endpoint.frames, call.controlsRole = 0) ∧
      endpoint.engine.StreamOwing ∧
      charges endpoint.engine endpoint.frames = [] := by
  refine ⟨by constructor <;> decide, ?_⟩
  obtain ⟨endpoint, hrun, hseen⟩ := Endpoint.Run.exists_of_follow
    (sampleConfig .server) unrestricted
    (peerOpened ++ [.call (.completePeerOpen 1 {}), .run 6 {}])
    (fun endpoint => (endpoint.engine.terminal, endpoint.frames.any failing,
      endpoint.frames.all fun call => call.controlsRole == 0,
      decide endpoint.engine.StreamOwing,
      (charges endpoint.engine endpoint.frames).isEmpty))
    (false, false, true, true, true) (by decide +kernel)
  simp only [Prod.mk.injEq, decide_eq_true_eq, any_eq_false, all_eq_true,
    beq_iff_eq, List.isEmpty_iff, Bool.not_eq_true] at hseen
  obtain ⟨hlive, hfailing, hrole, howing, hcharges⟩ := hseen
  exact ⟨endpoint, hrun, ⟨hlive, hfailing⟩, hrole, howing, hcharges⟩

end Yume.Session
