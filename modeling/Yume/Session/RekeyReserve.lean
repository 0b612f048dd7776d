/-
The outbound budget keeps room for one REKEY_INIT and one REKEY_ACK.  A rotation
can start when the previous REKEY_INIT is acknowledged, which may be before the
carrier reports that record as sent.  As long as no rekey record is still
charged when the next one of its kind is made, neither is ever refused.
-/
import Yume.Session.Budget

namespace Yume.Session

open Yume.Lib Engine Charge List

inductive RekeyKind where
  | init
  | ack
deriving DecidableEq

def Record.rekey : Record → Option RekeyKind
  | .rekeyInit _ _ _ => some .init
  | .rekeyAck _ _ _ => some .ack
  | _ => none

theorem Record.rekey_none {record : Record}
    (h : record.isRekeyControl = false) : record.rekey = none := by
  cases record <;> first | rfl | cases h

theorem Record.ordinary_of_rekey {record : Record} (h : record.rekey = none) :
    record.isRekeyControl = false := by
  cases record <;> first | rfl | cases h

theorem Record.rekeyControl_of_rekey {record : Record} {kind : RekeyKind}
    (h : record.rekey = some kind) : record.isRekeyControl = true := by
  cases record <;> first | rfl | cases h

/-- The largest charge of a rekey record. -/
def RekeyKind.bytes (config : Config) : RekeyKind → Nat
  | .init => frameHeaderSize + (protectedEnvelopeBytes + config.maxSealedOverhead) +
    (rekeyEpochBytes + rekeyInitMessageBytes)
  | .ack => frameHeaderSize + (rekeyEpochBytes + rekeyAckMessageBytes)

namespace Call

/-- The record an `enqueue_record` call publishes. -/
def request? : Call → Option Request
  | .enqueue request _ | .rotateCheck request _ | .admitCheck request _
  | .deferReserve request _ | .deferPush request _ | .takeToken request _
  | .sealFrame request _ _ | .publish request _ _ _ _
  | .tokenLost request _ _ => some request
  | _ => none

/-- The rekey record a section makes or publishes. -/
def rekey (call : Call) : Option RekeyKind :=
  match call with
  | .beginRekey _ _ => some .init
  | .acceptRekeyInit _ _ _ _ => some .ack
  | _ => call.request?.bind fun request => request.record.rekey

def rekeys (kind : RekeyKind) (call : Call) : Nat :=
  if call.rekey = some kind then 1 else 0

end Call

namespace Charge

def rekeys (kind : RekeyKind) (charge : Charge) : Nat :=
  if charge.record.rekey = some kind then 1 else 0

/-- A rekey record is charged no more than its reserve. -/
def Bounded (config : Config) (charge : Charge) : Prop :=
  ∀ kind, charge.record.rekey = some kind → charge.bytes ≤ kind.bytes config

end Charge

/-- The rekey records of one kind that are being made, published or sent. -/
def rekeysHeld (kind : RekeyKind) (e : Engine) (calls : List Call) : Nat :=
  weigh (Call.rekeys kind) calls + weigh (rekeys kind) (e.queue.charges e.config)

/-- A REKEY_ACK is processed only when the carrier has reported the REKEY_INIT
that it answers as sent, and a REKEY_INIT only when it has so reported the
previous REKEY_ACK. -/
def rekeysSent : Guard := fun e _ call others =>
  match call with
  | .processRekeyAck _ _ _ => rekeysHeld .init e others = 0
  | .processRekeyInit _ _ _ => rekeysHeld .ack e others = 0
  | _ => True

instance (engine : Engine) (choice : Choice) (call : Call)
    (others : List Call) : Decidable (rekeysSent engine choice call others) := by
  unfold rekeysSent
  split <;> infer_instance

section Bounds

variable {config : Config} {owner : Owner} {request : Request} {call : Call}
  {kind : RekeyKind} {held : List Charge}

/-- Only the rekey functions publish rekey records, within their bounds. -/
theorem Owner.Fits.rekey_bytes (h : owner.Fits request) (hkind : request.record.rekey = some kind) :
    (request.charge config).bytes ≤ kind.bytes config := by
  have hordinary : request.protect = true → request.bypassRekeyBarrier = false →
      (request.charge config).bytes ≤ kind.bytes config := by
    intro hprotect hbarrier
    rw [Record.rekey_none (h.ordinary hprotect hbarrier)] at hkind
    cases hkind
  cases owner
  case rekeyInit =>
      obtain ⟨hprotect, -, _, _, size, hrecord, hsize⟩ := h
      rw [hrecord] at hkind
      cases hkind
      simp only [Request.charge, hprotect, hrecord, Record.payloadSize, if_true, RekeyKind.bytes]
      omega
  case rekeyAck =>
      obtain ⟨hprotect, _, _, size, hrecord, hsize⟩ := h
      rw [hrecord] at hkind
      cases hkind
      simp only [Request.charge, hprotect, hrecord, Record.payloadSize, if_false,
        Bool.false_eq_true, RekeyKind.bytes]
      omega
  all_goals exact hordinary h.1 h.2.1

/-- What a section asks for is bounded. -/
theorem Call.Typed.asks_bounded (h : call.Typed) :
    ∀ charge ∈ call.asks config, charge.Bounded config := by
  cases call with
  | deferReserve =>
    obtain ⟨hfits, -, hprotect, hbarrier⟩ := h
    rw [asks, forall_mem_singleton]
    intro kind hkind
    rw [DeferredRecord.charge, Request.charge, DeferredRecord.request,
      Request.deferred, Record.rekey_none (hfits.ordinary hprotect hbarrier)] at hkind
    cases hkind
  | takeToken =>
    rw [asks, forall_mem_singleton]
    exact fun _ hkind => h.1.rekey_bytes hkind
  | _ => exact forall_mem_nil _

theorem ChargeStep.bounded {e e' : Engine} {used made : List Call}
    {before after : List Charge} (h : ChargeStep e used before e' made after)
    (hlive : e'.terminal = false) (htyped : ∀ call ∈ used, call.Typed)
    (hb : ∀ charge ∈ before, charge.Bounded e.config) :
    ∀ charge ∈ after, charge.Bounded e.config := by
  intro charge hmem
  cases h with
  | released gone hcharges =>
    exact hb charge (hcharges.mem_iff.mpr (mem_append_right _ hmem))
  | reserved asked hasks hcharges =>
    rcases mem_cons.mp (hcharges.mem_iff.mp hmem) with rfl | hmem
    · obtain ⟨call, hcall, hasked⟩ := mem_flatMap.mp hasks
      exact (htyped call hcall).asks_bounded charge hasked
    · exact hb charge hmem
  | shrunk old size rest hsize hold hnew =>
    rcases mem_cons.mp (hnew.mem_iff.mp hmem) with rfl | hmem
    · exact fun kind hkind => Nat.le_trans hsize
        (hb old (hold.mem_iff.mpr mem_cons_self) kind hkind)
    · exact hb charge (hold.mem_iff.mpr (mem_cons_of_mem _ hmem))
  | wrote hcharges => exact hb charge (hcharges.mem_iff.mpr hmem)
  | stopped hstop => simp [hlive] at hstop

/-- The bytes beyond the ordinary ones are those of rekey records. -/
theorem weigh_bytes_le (h : ∀ charge ∈ held, charge.Bounded config) :
    weigh bytes held ≤ weigh ordinaryBytes held +
      RekeyKind.init.bytes config * weigh (rekeys .init) held +
      RekeyKind.ack.bytes config * weigh (rekeys .ack) held := by
  induction held with
  | nil => simp
  | cons charge held ih =>
    rw [forall_mem_cons] at h
    have hrest := ih h.2
    have hcharge : charge.bytes ≤ charge.ordinaryBytes +
        RekeyKind.init.bytes config * charge.rekeys .init +
        RekeyKind.ack.bytes config * charge.rekeys .ack := by
      cases hrekey : charge.record.rekey with
      | none =>
        simp [ordinaryBytes, Record.ordinary_of_rekey hrekey, rekeys, hrekey]
      | some kind =>
        have hbytes := h.1 kind hrekey
        cases kind <;> simp [rekeys, hrekey] <;> omega
    simp only [weigh_cons, Nat.mul_add]
    omega

theorem weigh_slots_le (held : List Charge) :
    weigh slots held ≤ weigh ordinarySlots held +
      weigh (rekeys .init) held + weigh (rekeys .ack) held := by
  induction held with
  | nil => simp
  | cons charge held ih =>
    have hcharge : charge.slots ≤ charge.ordinarySlots +
        charge.rekeys .init + charge.rekeys .ack := by
      cases hrekey : charge.record.rekey with
      | none =>
        simp [ordinarySlots, Record.ordinary_of_rekey hrekey, rekeys, hrekey]
      | some kind =>
        have hslot : charge.slots ≤ 1 := by
          unfold slots
          cases charge.isControl <;> decide
        cases kind <;> simp [rekeys, hrekey] <;> omega
    simp only [weigh_cons]
    omega

theorem weigh_rekeys_ready {rest : List DeferredRecord} (h : ∀ deferred ∈ rest, deferred.Ready) :
    weigh (rekeys kind) (rest.map (DeferredRecord.charge config)) = 0 := by
  refine weigh_eq_zero fun charge hmem => ?_
  obtain ⟨deferred, hdeferred, rfl⟩ := mem_map.mp hmem
  have hnone := Record.rekey_none (h deferred hdeferred).ordinary
  simp [rekeys, DeferredRecord.charge, Request.charge, DeferredRecord.request, hnone]

theorem Owner.Fits.rest_rekeys (h : owner.Fits request) :
    weigh (rekeys kind) (owner.charges config) = 0 := by
  cases owner
  case flush => exact weigh_rekeys_ready h.2.2.2
  all_goals rfl

/-- What a section holds or asks for of one kind, it counts. -/
theorem Call.Typed.rekeys_le (h : call.Typed) :
    weigh (Charge.rekeys kind) (call.charges config) +
      weigh (Charge.rekeys kind) (call.asks config) ≤ call.rekeys kind := by
  cases call with
  | flushNext => simp [charges, asks, weigh_rekeys_ready h]
  | flushCheck | flushClosed | flushAbandon =>
    rw [charges, weigh_rekeys_ready fun d hd => h d (mem_cons_of_mem _ hd)]
    exact Nat.zero_le _
  | enqueue | rotateCheck | admitCheck | tokenLost =>
    rw [charges, h.1.rest_rekeys]
    exact Nat.zero_le _
  | deferReserve | takeToken | deferPush | sealFrame | publish =>
    simp only [charges, asks, weigh_cons, weigh_nil, h.1.rest_rekeys, Nat.add_zero, Nat.zero_add]
    exact Nat.le_refl _
  | _ => exact Nat.zero_le _

end Bounds

/-- How a section moves the rekey records. -/
inductive RekeyStep (e : Engine) (call : Call) (e' : Engine)
    (made : List Call) : Prop where
  | kept : (∀ kind, rekeysHeld kind e' made ≤ rekeysHeld kind e [call]) →
    e'.outbound.rekeyPending = e.outbound.rekeyPending →
    RekeyStep e call e' made
  | starts {caller} : call = .initiateRekey caller →
    e.outbound.rekeyPending = false → e'.outbound.rekeyPending = true →
    rekeysHeld .init e' made = rekeysHeld .init e [] + 1 →
    rekeysHeld .ack e' made = rekeysHeld .ack e [] → RekeyStep e call e' made
  | accepts {epoch secret size} : call = .processRekeyInit epoch secret size →
    e'.outbound.rekeyPending = e.outbound.rekeyPending →
    rekeysHeld .init e' made = rekeysHeld .init e [] →
    rekeysHeld .ack e' made = rekeysHeld .ack e [] + 1 → RekeyStep e call e' made
  | commits {epoch confirmation size} :
    call = .processRekeyAck epoch confirmation size →
    (∀ kind, rekeysHeld kind e' made = rekeysHeld kind e []) →
    RekeyStep e call e' made
  | stopped : e'.terminal = true → RekeyStep e call e' made

section Step

variable {e e' : Engine} {choice : Choice} {call : Call} {made : List Call} {kind : RekeyKind}

theorem RekeyStep.quiet (hconfig : e'.config = e.config)
    (hqueue : e'.queue.charges e.config = e.queue.charges e.config)
    (hpending : e'.outbound.rekeyPending = e.outbound.rekeyPending)
    (hmade : ∀ kind, weigh (Call.rekeys kind) made ≤ call.rekeys kind) :
    RekeyStep e call e' made := by
  refine .kept (fun kind => ?_) hpending
  have hkind := hmade kind
  simp only [rekeysHeld, hconfig, hqueue, weigh_cons, weigh_nil]
  omega

theorem rekeysHeld_cons (kind : RekeyKind) (e : Engine) (call : Call) (calls : List Call) :
    rekeysHeld kind e (call :: calls) = call.rekeys kind + rekeysHeld kind e calls := by
  simp [rekeysHeld, Nat.add_assoc]

/-- A section that has left `enqueue_record` publishes nothing. -/
theorem Owner.resume_rekeys (owner : Owner) (request : Request) (status : Status)
    (admission : QueueAdmission) :
    weigh (Call.rekeys kind) (owner.resume request status admission) = 0 := by
  cases owner <;> simp only [Owner.resume] <;> (repeat' split) <;> rfl

theorem RekeyStep.resume {owner : Owner} {request : Request} {status : Status}
    {admission : QueueAdmission} (hconfig : e'.config = e.config)
    (hqueue : e'.queue.charges e.config = e.queue.charges e.config)
    (hpending : e'.outbound.rekeyPending = e.outbound.rekeyPending) :
    RekeyStep e call e' (owner.resume request status admission) :=
  .quiet hconfig hqueue hpending fun _ => by
    rw [Owner.resume_rekeys]
    exact Nat.zero_le _

/-- A section that hands its record to a queue. -/
theorem RekeyStep.queued {owner : Owner} {request : Request} {status : Status}
    {admission : QueueAdmission} {charge : Charge}
    (hcharges : (charges e' []).Perm (charge :: charges e []))
    (hcharge : ∀ kind, charge.rekeys kind ≤ call.rekeys kind)
    (hpending : e'.outbound.rekeyPending = e.outbound.rekeyPending) :
    RekeyStep e call e' (owner.resume request status admission) := by
  refine .kept (fun kind => ?_) hpending
  have hqueue : weigh (rekeys kind) (e'.queue.charges e'.config) =
      charge.rekeys kind + weigh (rekeys kind) (e.queue.charges e.config) :=
    weigh_perm hcharges
  have hkind := hcharge kind
  rw [rekeysHeld, Owner.resume_rekeys, hqueue, rekeysHeld_cons, rekeysHeld, weigh_nil]
  omega

theorem dispatch_rekeys (state : SessionState) (record : Record) :
    weigh (Call.rekeys kind) (dispatch state record) = 0 := by
  cases record <;> simp only [dispatch] <;> split <;> rfl

theorem controlRequest_rekey (control : EngineControl) (close : CloseCode) :
    (controlRequest control close).record.rekey = none := by
  unfold controlRequest controlRecord
  split
  · split <;> rfl
  · rfl

theorem allocateToken_pending (e : Engine) (record : Record) (now : Time) :
    (e.allocateToken record now).outbound.rekeyPending = e.outbound.rekeyPending := by
  dsimp only [allocateToken]
  split <;> split <;> rfl

theorem Effect.rekeyStep (h : Effect e choice call e' made) (htyped : call.Typed) :
    RekeyStep e call e' made := by
  have hpass : ∀ {n : Nat}, n + 0 ≤ n := Nat.le_refl _
  cases h with
  | enqueueRefused | admitLeaves | deferLeaves | deferPushLeaves | tokenLeaves | tokenUnadmitted
  | tokenExhausted | publishStopped | bareLost => exact .resume rfl rfl rfl
  | enqueueLocked | rotatePasses | admitDefers | admitTakes | deferReserves | tokenBare | sealLost
  | sealDone | rekeyBegins | switchesInbound => exact .quiet rfl rfl rfl fun _ => hpass
  | rotates => exact .quiet rfl rfl rfl fun _ => Nat.le_of_eq (Nat.zero_add _)
  | deferPushes =>
    exact .queued (charges_pushDeferred [] rfl rfl rfl rfl) (fun _ => Nat.le_refl _) rfl
  | tokenTaken => exact .quiet rfl rfl (allocateToken_pending ..) fun _ => hpass
  | publishes =>
    refine .queued (charges_pushItem [] rfl rfl rfl rfl) (fun kind => ?_) rfl
    rw [rekeys, OutboundItem.charge, htyped.2.2.record_eq]
    exact Nat.le_refl _
  | tokenFails | controlsFailed => exact .stopped (fail_terminal _ _)
  | rekeyStarts _ hpending =>
    exact .starts rfl hpending rfl ((rekeysHeld_cons ..).trans (Nat.add_comm ..)) rfl
  | drainSelects =>
    refine .quiet rfl rfl rfl fun _ => ?_
    simp [Call.rekeys, Call.rekey, Call.request?, controlRequest_rekey]
  | flushTakes =>
    refine .kept (fun kind => ?_) rfl
    simp only [rekeysHeld, OutboundQueue.charges, weigh_append, map_nil, weigh_nil, weigh_cons]
    exact Nat.add_le_add_left (Nat.add_le_add_left (Nat.zero_le _) _) _
  | flushReleases =>
    refine .quiet rfl ?_ rfl fun _ => hpass
    unfold flushRelease
    split <;> rfl
  | flushDrops | flushFindsClosed => exact .quiet rfl rfl rfl fun _ => hpass
  | @flushEnqueues deferred =>
    refine .quiet rfl rfl rfl fun _ => ?_
    have hnone := Record.rekey_none (htyped deferred mem_cons_self).ordinary
    simp [Call.rekeys, Call.rekey, Call.request?, DeferredRecord.request, hnone]
  | flushAbandons =>
    refine .quiet rfl ?_ rfl fun _ => Nat.zero_le _
    unfold releaseAll
    split <;> rfl
  | stops => exact .stopped (stop_terminal _ _ _)
  | openSucceeds =>
    refine .quiet rfl rfl rfl fun _ => ?_
    rw [dispatch_rekeys]
    exact Nat.zero_le _
  | acceptsInit =>
    exact .accepts rfl rfl rfl ((rekeysHeld_cons ..).trans (Nat.add_comm ..))
  | commitsRekey => exact .commits rfl fun _ => rfl
  | _ => exact .quiet rfl rfl rfl fun _ => Nat.zero_le _

variable {pre used post : List Call} {emitted taken : Option Wire}

/-- Outside the sections rekey records only leave. -/
theorem Move.rekeys_outside (kind : RekeyKind) (h : Move e choice [] e' made emitted taken) :
    rekeysHeld kind e' made ≤ rekeysHeld kind e [] ∧
      e'.outbound.rekeyPending = e.outbound.rekeyPending := by
  cases h with
  | @call operation hcallable =>
    have hneutral := Engine.callable_neutral hcallable
    have hnone : operation.rekeys kind = 0 := by
      cases operation <;> first | rfl | cases hneutral
    exact ⟨by rw [rekeysHeld_cons, hnone, Nat.zero_add], rfl⟩
  | pump _ hactive hitems =>
    refine ⟨?_, rfl⟩
    simp only [rekeysHeld, OutboundQueue.charges, activate, hactive, hitems,
      weigh_append, weigh_cons, map_cons, map_nil, Option.toList_some,
      Option.toList_none, weigh_nil, ActiveSend.charge, OutboundItem.charge]
    omega
  | sent | sendFails =>
    refine ⟨?_, rfl⟩
    simp [rekeysHeld, OutboundQueue.charges, Engine.release, Call.rekeys, Call.rekey,
      Call.request?, failCall]
  | release | deliver => exact ⟨Nat.le_refl _, rfl⟩

/-- In a live session each rekey record stays in its reserve, at most one
REKEY_INIT is on its way while its rotation is pending, and at most one
REKEY_ACK. -/
structure RekeyInv (e : Engine) (frames : List Call) : Prop where
  bounded : e.terminal = false → ∀ charge ∈ charges e frames, charge.Bounded e.config
  init : e.terminal = false → rekeysHeld .init e frames ≤ flag e.outbound.rekeyPending
  ack : e.terminal = false → rekeysHeld .ack e frames ≤ 1

theorem rekeysHeld_split (kind : RekeyKind) (e : Engine) (pre used post : List Call) :
    rekeysHeld kind e (pre ++ (used ++ post)) =
      weigh (Call.rekeys kind) (pre ++ post) + rekeysHeld kind e used := by
  simp only [rekeysHeld, weigh_append]
  omega

theorem Move.rekeys_kept (hmove : Move e choice used e' made emitted taken)
    (hshapes : ShapeInv e (pre ++ (used ++ post)))
    (hbudget : BudgetInv e (pre ++ (used ++ post)))
    (hguard : ∀ call, used = [call] → rekeysSent e choice call (pre ++ post))
    (h : RekeyInv e (pre ++ (used ++ post))) :
    RekeyInv e' (pre ++ (made ++ post)) := by
  have htyped : ∀ call ∈ used, call.Typed := fun call hcall =>
    hshapes.frames call (by simp [hcall])
  have hkinds : e'.terminal = false →
      rekeysHeld .init e' (pre ++ (made ++ post)) ≤ flag e'.outbound.rekeyPending ∧
      rekeysHeld .ack e' (pre ++ (made ++ post)) ≤ 1 := by
    intro hlive
    have hinit := h.init (hmove.live_before hlive)
    have hack := h.ack (hmove.live_before hlive)
    rw [rekeysHeld_split] at hinit hack ⊢
    rw [rekeysHeld_split]
    rcases hmove.run_or_outside with ⟨call, rfl, heffect⟩ | rfl
    · have hsent := hguard call rfl
      have hnone : ∀ kind, rekeysHeld kind e (pre ++ post) =
          weigh (Call.rekeys kind) (pre ++ post) + rekeysHeld kind e [] :=
        fun kind => by simp [rekeysHeld]
      cases heffect.rekeyStep (htyped _ mem_cons_self) with
      | kept hheld hpending =>
        have h1 := hheld .init
        have h2 := hheld .ack
        rw [hpending]
        omega
      | starts hcall hidle hpending h1 h2 =>
        subst hcall
        rw [rekeysHeld_cons, hidle, flag_false] at hinit
        rw [rekeysHeld_cons] at hack
        rw [hpending, flag_true]
        omega
      | accepts hcall hpending h1 h2 =>
        subst hcall
        have hsent : rekeysHeld .ack e (pre ++ post) = 0 := hsent
        rw [hnone] at hsent
        rw [rekeysHeld_cons] at hinit
        rw [hpending]
        omega
      | commits hcall hheld =>
        subst hcall
        have hsent : rekeysHeld .init e (pre ++ post) = 0 := hsent
        rw [hnone] at hsent
        rw [rekeysHeld_cons] at hack
        have h1 := hheld .init
        have h2 := hheld .ack
        omega
      | stopped hstop => simp [hlive] at hstop
    · have h1 := hmove.rekeys_outside .init
      have h2 := hmove.rekeys_outside .ack
      rw [h1.2]
      omega
  exact ⟨fun hlive => hmove.config_eq ▸
      (hmove.allCharges hshapes hbudget.sized hlive).bounded hlive htyped
        (h.bounded (hmove.live_before hlive)),
    fun hlive => (hkinds hlive).1, fun hlive => (hkinds hlive).2⟩

end Step

theorem Endpoint.Run.rekeys {config : Config} {endpoint : Endpoint}
    (h : Endpoint.Run config rekeysSent endpoint) :
    RekeyInv endpoint.engine endpoint.frames := by
  refine Run.invariant (K := fun e frames => ShapeInv e frames ∧ BudgetInv e frames)
    (fun _ hrun => ⟨hrun.shapes, hrun.budget⟩) ?_
    (fun hknown _ hinv hmove hguard =>
      hmove.rekeys_kept hknown.1 hknown.2 hguard hinv) h
  refine ⟨?_, fun _ => ?_, fun _ => ?_⟩ <;>
    simp [Endpoint.initial, Endpoint.frames, charges, Call.charges, rekeysHeld,
      OutboundQueue.charges, Call.rekeys, Call.rekey, Call.request?]

section Reserve

variable {e : Engine} {frames : List Call} {r : Request} {o : Owner}
  {kind : RekeyKind} {config : Config} {held : List Charge}

/-- What is charged or asked for of one kind is counted. -/
theorem charges_rekeys_le (kind : RekeyKind) (hshapes : ShapeInv e frames) :
    weigh (rekeys kind) (charges e frames) +
      weigh (rekeys kind) (frames.flatMap (Call.asks e.config)) ≤
      rekeysHeld kind e frames := by
  have hcalls : ∀ calls : List Call, (∀ call ∈ calls, call.Typed) →
      weigh (rekeys kind) (calls.flatMap (Call.charges e.config)) +
        weigh (rekeys kind) (calls.flatMap (Call.asks e.config)) ≤
        weigh (Call.rekeys kind) calls := by
    intro calls htyped
    induction calls with
    | nil => exact Nat.le_refl _
    | cons call calls ih =>
      rw [forall_mem_cons] at htyped
      have hcall : weigh (rekeys kind) (call.charges e.config) +
        weigh (rekeys kind) (call.asks e.config) ≤ call.rekeys kind :=
          htyped.1.rekeys_le
      have hrest := ih htyped.2
      simp only [flatMap_cons, weigh_append, weigh_cons]
      omega
  have hframes := hcalls frames hshapes.frames
  simp only [charges, rekeysHeld, weigh_append]
  omega

/-- A section that asks for a rekey record's charge is counted. -/
theorem asks_rekeys (hmem : .takeToken r o ∈ frames) (hkind : r.record.rekey = some kind) :
    1 ≤ weigh (rekeys kind) (frames.flatMap (Call.asks e.config)) := by
  have hask : r.charge e.config ∈ frames.flatMap (Call.asks e.config) :=
    mem_flatMap.mpr ⟨_, hmem, mem_cons_self⟩
  have hone : (r.charge e.config).rekeys kind = 1 := by
    simp [rekeys, Request.charge, hkind]
  exact hone ▸ le_weigh_of_mem hask

theorem reserve_le {limits : SessionLimits} {config : Config}
    (hoverhead : config.maxSealedOverhead ≤ limits.maxSecurityOverhead) :
    RekeyKind.init.bytes config + RekeyKind.ack.bytes config ≤ rekeyQueueReserve limits := by
  simp only [RekeyKind.bytes, rekeyQueueReserve]
  omega

/-- At most one rekey record, of the other kind, is charged beside one that asks
for its charge. -/
theorem charged_beside (hlive : e.terminal = false) (hshapes : ShapeInv e frames)
    (hrekeys : RekeyInv e frames) (hmem : .takeToken r o ∈ frames)
    (hkind : r.record.rekey = some kind) :
    weigh (rekeys kind) (charges e frames) = 0 ∧
      weigh (rekeys .init) (charges e frames) ≤ 1 ∧
      weigh (rekeys .ack) (charges e frames) ≤ 1 := by
  have hasks : 1 ≤ weigh (rekeys kind)
      (frames.flatMap (Call.asks e.config)) := asks_rekeys hmem hkind
  have hinit := charges_rekeys_le .init hshapes
  have hack := charges_rekeys_le .ack hshapes
  have hpending := hrekeys.init hlive
  have hone := hrekeys.ack hlive
  have hflag : flag e.outbound.rekeyPending ≤ 1 := by
    cases e.outbound.rekeyPending <;> decide
  refine ⟨?_, by omega, by omega⟩
  cases kind <;> omega

/-- Together with one that asks for its charge, the rekey records charged stay
in their reserve. -/
theorem rekeyBytes_le (hbounded : ∀ charge ∈ held, charge.Bounded config)
    (hkind : weigh (rekeys kind) held = 0)
    (hinit : weigh (rekeys .init) held ≤ 1)
    (hack : weigh (rekeys .ack) held ≤ 1) :
    weigh bytes held + kind.bytes config ≤ weigh ordinaryBytes held +
        (RekeyKind.init.bytes config + RekeyKind.ack.bytes config) := by
  have hbytes := weigh_bytes_le hbounded
  have hinit := Nat.mul_le_mul_left (RekeyKind.init.bytes config) hinit
  have hack := Nat.mul_le_mul_left (RekeyKind.ack.bytes config) hack
  cases kind <;> rw [hkind, Nat.mul_zero] at hbytes <;> omega

/-- A rekey record that is about to take its token finds room for it. -/
theorem rekey_fits (hvalid : e.config.Valid) (hlive : e.terminal = false)
    (hshapes : ShapeInv e frames) (hbudget : Budget e (charges e frames))
    (hrekeys : RekeyInv e frames) (hmem : .takeToken r o ∈ frames)
    (hkind : r.record.rekey = some kind) :
    ¬ e.TokenFull r ∧ e.reservation r ≤ e.limits.maxQueuedBytes := by
  obtain ⟨hnone, hinit, hack⟩ := charged_beside hlive hshapes hrekeys hmem hkind
  have hbytes := rekeyBytes_le (hrekeys.bounded hlive) hnone hinit hack
  have hslots := weigh_slots_le (charges e frames)
  have hbeside : weigh (rekeys .init) (charges e frames) +
      weigh (rekeys .ack) (charges e frames) ≤ 1 := by
    cases kind <;> omega
  have hreserved : e.reservation r ≤ kind.bytes e.config :=
    (hshapes.frames _ hmem).1.rekey_bytes hkind
  have hreserve : RekeyKind.init.bytes e.config + RekeyKind.ack.bytes e.config ≤
      rekeyQueueReserve e.limits := reserve_le hvalid.overhead
  have hfacts : LimitFacts e.limits := hvalid.admissible.facts
  have hlimit : outboundQueueLimit e.limits + rekeyQueueReserve e.limits =
      e.limits.maxQueuedBytes :=
    Nat.sub_add_cancel (by have := hfacts.reserves_lt; omega)
  have hroom : e.queue.retained + e.reservation r ≤ e.limits.maxQueuedBytes := by
    have hordinary := hbudget.ordinaryBytes
    have hwire := hbudget.bytes
    simp only [OutboundQueue.retained]
    omega
  have hcontrol := Record.rekeyControl_of_rekey hkind
  refine ⟨?_, by omega⟩
  rintro (⟨-, hfull⟩ | hfull)
  · have hmessages := hbudget.ordinarySlots
    have hcount := hbudget.slots
    have hthree := hfacts.control_ge
    simp only [tokenControlLimit, hcontrol, if_true] at hfull
    omega
  · simp only [tokenLimit, hcontrol, if_true] at hfull
    omega

end Reserve

/-- In a live session the outbound queue keeps its byte bound.  All records but
REKEY_INIT and REKEY_ACK leave the rekey reserve and the last two control slots
free, and neither of those two is ever refused for want of room. -/
theorem rekey_controls_fit {config : Config} {endpoint : Endpoint}
    (hvalid : config.Valid) (h : Endpoint.Run config rekeysSent endpoint)
    (hlive : endpoint.engine.terminal = false) :
    endpoint.engine.queue.retained ≤ config.limits.maxQueuedBytes ∧
    weigh ordinaryBytes (charges endpoint.engine endpoint.frames) +
        endpoint.engine.queue.pendingWriteBytes ≤
      config.limits.maxQueuedBytes - rekeyQueueReserve config.limits ∧
    weigh ordinarySlots (charges endpoint.engine endpoint.frames) ≤
      config.limits.maxControlMessages - 2 ∧
    ∀ request owner, request.record.isRekeyControl = true →
      .deferReserve request owner ∉ endpoint.frames ∧
      (.takeToken request owner ∈ endpoint.frames →
        ¬ endpoint.engine.TokenFull request ∧
        endpoint.engine.reservation request ≤ config.limits.maxQueuedBytes) := by
  have hconfig := h.config_eq
  have hshapes := h.shapes
  have hbudget := h.budget.live hlive
  have hlimits : endpoint.engine.limits = config.limits :=
    congrArg Config.limits hconfig
  refine ⟨hlimits ▸ hbudget.retained, hlimits ▸ hbudget.ordinaryBytes,
    hlimits ▸ hbudget.ordinarySlots, fun request owner hrekey => ⟨fun hmem => ?_,
    fun hmem => ?_⟩⟩
  · obtain ⟨hfits, -, hprotect, hbarrier⟩ := hshapes.frames _ hmem
    simp [hfits.ordinary hprotect hbarrier] at hrekey
  cases hkind : request.record.rekey with
  | none => simp [Record.ordinary_of_rekey hkind] at hrekey
  | some =>
    exact hlimits ▸ rekey_fits (hconfig ▸ hvalid) hlive hshapes hbudget h.rekeys
      hmem hkind

/-- The record of a section that is about to take a token. -/
def Call.taking : Call → Option (Request × Owner)
  | .takeToken request owner => some (request, owner)
  | _ => none

/-- The sample session starts a rotation, and its REKEY_INIT finds room. -/
theorem rekey_controls_fit_sample :
    ∃ endpoint : Endpoint, .takeToken (rekeyInitRequest 1 {}) (.rekeyInit .api) ∈
        endpoint.frames ∧
      ¬ endpoint.engine.TokenFull (rekeyInitRequest 1 {}) := by
  obtain ⟨endpoint, hrun, hseen⟩ := Endpoint.Run.exists_of_follow
    (sampleConfig .client) rekeysSent
    (sampleStartup ++ [.call (.initiateRekey .api)] ++ runs 2 5)
    (fun endpoint => (endpoint.engine.terminal,
      endpoint.frames.findSome? Call.taking))
    (false, some (rekeyInitRequest 1 {}, .rekeyInit .api)) (by decide +kernel)
  simp only [Prod.mk.injEq] at hseen
  obtain ⟨call, hmem, htaking⟩ := exists_of_findSome?_eq_some hseen.2
  have hcall : call = .takeToken (rekeyInitRequest 1 {}) (.rekeyInit .api) := by
    cases call with
    | takeToken => cases htaking; rfl
    | _ => cases htaking
  subst hcall
  have hvalid : (sampleConfig .client).Valid := by
    constructor <;> decide
  exact ⟨endpoint, hmem,
    (((rekey_controls_fit hvalid hrun hseen.1).2.2.2 _ _ rfl).2 hmem).1⟩

/-- A queue of 8192 bytes, of which 3376 are the rekey reserve and 4768 may be
taken by waiting writes. -/
def reserveLimits : SessionLimits :=
  { maxFramePayload := 4096, maxPacketSize := 4096, maxQueuedBytes := 8192,
    maxStreamQueuedBytes := 8192, initialConnectionCredit := 8192,
    maxConnectionCredit := 8192, initialStreamCredit := 8192,
    maxStreamCredit := 8192, maxSecurityOverhead := 16 }

def reserveConfig (role : EndpointRole) : Config :=
  { sampleConfig role with limits := reserveLimits, maxSealedOverhead := 16 }

/-- The server's writes fill the application's part of its queue.  Its first
REKEY_INIT is acknowledged while the carrier still owes its completion, and the
second one is refused. -/
def secondRotation : List WorldLabel :=
  sampleConnected ++ starts .client (.asyncOpen sampleOpen) ++ sideRuns .client 5 8 ++
    sends .client ++ receives .server 5 4 ++
    starts .server (.streamWrite 1 ⟨0, 2384, 2384⟩) ++ sideRuns .server 6 3 ++
    starts .server (.streamWrite 1 ⟨0, 2384, 2384⟩) ++ sideRuns .server 7 3 ++
    starts .server (.initiateRekey .api) ++ sideRuns .server 8 6 ++
    [.step .server (.run 8 { overhead := 16 })] ++ sideRuns .server 8 1 ++
    [.step .server .pump] ++ receives .client 7 1 ++
    [.step .client (.run 7 { messageSize := rekeyAckMessageBytes })] ++
    sideRuns .client 7 7 ++ sends .client ++ receives .server 9 3 ++
    starts .server (.initiateRekey .api) ++ sideRuns .server 10 7

theorem second_rotation_refused :
    (∀ role, (reserveConfig role).Valid) ∧
    ∃ world, World.Run reserveConfig unrestricted world ∧
      (world.endpoint .server).engine.state = .failed ∧
      (world.endpoint .server).engine.terminalStatus =
        ⟨.resourceExhausted, "session outbound queue is full"⟩ := by
  refine ⟨fun role => ?_, ?_⟩
  · constructor <;> cases role <;> decide
  obtain ⟨world, hrun, hseen⟩ := World.Run.exists_of_follow reserveConfig
    unrestricted secondRotation
    (fun world => ((world.endpoint .server).engine.state,
      (world.endpoint .server).engine.terminalStatus))
    (.failed, ⟨.resourceExhausted, "session outbound queue is full"⟩)
    (by decide +kernel)
  simp only [Prod.mk.injEq] at hseen
  exact ⟨world, hrun, hseen⟩

end Yume.Session
