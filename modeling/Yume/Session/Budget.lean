/-
The outbound budget.  Every byte and every control slot that the engine counts
belongs to one record: one that is queued, being sent or deferred, or one in the
hands of a pending section.
-/
import Yume.Session.Waiting

namespace Yume.Session

open Yume.Lib Engine List

/-- What one record takes of the outbound budget. -/
structure Charge where
  record : Record
  bytes : Nat
  isControl : Bool

open Charge

namespace Charge

def slots (charge : Charge) : Nat := flag charge.isControl

/-- The bytes that count against everything but the rekey reserve. -/
def ordinaryBytes (charge : Charge) : Nat :=
  if charge.record.isRekeyControl then 0 else charge.bytes

def ordinarySlots (charge : Charge) : Nat :=
  if charge.record.isRekeyControl then 0 else charge.slots

/-- How far a record of this kind may fill the queue. -/
def byteLimit (limits : SessionLimits) (charge : Charge) : Nat :=
  if charge.record.isRekeyControl then limits.maxQueuedBytes
  else outboundQueueLimit limits

def slotLimit (limits : SessionLimits) (charge : Charge) : Nat :=
  limits.maxControlMessages - if charge.record.isRekeyControl then 0 else 2

theorem ordinaryBytes_le (charge : Charge) : charge.ordinaryBytes ≤ charge.bytes := by
  unfold ordinaryBytes
  split <;> omega

theorem ordinarySlots_le (charge : Charge) : charge.ordinarySlots ≤ charge.slots := by
  unfold ordinarySlots
  split <;> omega

end Charge

def Request.charge (config : Config) (request : Request) : Charge where
  record := request.record
  bytes := frameHeaderSize +
    (if request.protect then protectedEnvelopeBytes + config.maxSealedOverhead
      else 0) + request.record.payloadSize
  isControl := request.isControl

def DeferredRecord.charge (config : Config) (deferred : DeferredRecord) :
    Charge :=
  deferred.request.charge config

def OutboundItem.charge (item : OutboundItem) : Charge :=
  ⟨item.wire.record, item.size, item.isControl⟩

def ActiveSend.charge (active : ActiveSend) : Charge :=
  ⟨active.wire.record, active.wireBytes, active.isControl⟩

/-- The charges of the records that the flush has still to publish. -/
def Owner.charges (config : Config) (owner : Owner) : List Charge :=
  owner.rest.map (DeferredRecord.charge config)

/-- The charges a pending section holds.  The flush gives a record's charge back
before it publishes it. -/
def Call.charges (config : Config) : Call → List Charge
  | .deferPush request owner =>
    request.deferred.charge config :: owner.charges config
  | .sealFrame request owner _ | .publish request owner _ _ _ =>
    request.charge config :: owner.charges config
  | .enqueue _ owner | .rotateCheck _ owner | .admitCheck _ owner
  | .deferReserve _ owner | .takeToken _ owner | .tokenLost _ owner _ =>
    owner.charges config
  | .flushNext rest | .flushCheck _ rest | .flushClosed _ rest
  | .flushAbandon _ rest _ => rest.map (DeferredRecord.charge config)
  | _ => []

/-- The charge a section asks for. -/
def Call.asks (config : Config) : Call → List Charge
  | .deferReserve request _ => [request.deferred.charge config]
  | .takeToken request _ => [request.charge config]
  | _ => []

def OutboundQueue.charges (config : Config) (queue : OutboundQueue) : List Charge :=
  queue.items.map OutboundItem.charge ++ queue.active.toList.map ActiveSend.charge ++
    queue.deferred.map (DeferredRecord.charge config)

/-- Every charge of an engine and its pending sections. -/
def charges (e : Engine) (calls : List Call) : List Charge :=
  calls.flatMap (Call.charges e.config) ++ e.queue.charges e.config

/-- Sections that end in `drain_owed_controls`: it is called, it runs, or the
flush that will call it runs. -/
def Call.drains (call : Call) : Bool :=
  match call with
  | .drainControls | .flushDeferred | .flushNext _ | .flushCheck _ _
  | .flushClosed _ _ | .flushAbandon _ _ _ => true
  | _ => (call.owner?.any fun owner => match owner with
    | .flush _ => true
    | _ => false) || call.controlsRole == 1

/-- The sections left fail the session or drain its controls. -/
def Drains (e : Engine) (calls : List Call) : Prop :=
  Doomed e calls ∨ ∃ call ∈ calls, call.drains = true

theorem Owner.resume_charges (config : Config) (owner : Owner)
    (request : Request) (status : Status) (admission : QueueAdmission) :
    (owner.resume request status admission).flatMap (Call.charges config) =
      owner.charges config := by
  cases owner <;> simp only [Owner.resume] <;> (repeat' split) <;>
    simp [Call.charges, Owner.charges, Owner.rest, failCall, receiveFailed]

theorem dispatch_charges (config : Config) (state : SessionState) (record : Record) :
    (dispatch state record).flatMap (Call.charges config) = [] := by
  cases record <;> simp only [dispatch] <;> split <;> rfl

theorem weigh_deferredBytes (e : Engine) (rest : List DeferredRecord) :
    weigh bytes (rest.map (DeferredRecord.charge e.config)) =
      (rest.map e.deferredReservation).sum := by
  simp only [weigh, map_map]
  rfl

theorem weigh_deferredSlots (config : Config) (rest : List DeferredRecord) :
    weigh slots (rest.map (DeferredRecord.charge config)) =
      rest.countP fun deferred => deferred.isControl := by
  induction rest with
  | nil => rfl
  | cons deferred rest ih =>
    rw [map_cons, weigh_cons, ih, countP_cons, Nat.add_comm]
    cases h : deferred.isControl <;>
      simp [slots, DeferredRecord.charge, Request.charge, DeferredRecord.request, h]

variable {made used : List Call} {config : Config} {e e' : Engine}

theorem Call.passive_charges {call : Call}
    (h : call.passive = true) : call.charges config = [] := by
  cases call <;> first | rfl | cases h

theorem Call.receiving_charges {call : Call}
    (h : call.receiving = true) : call.charges config = [] := by
  cases call <;> first | rfl | cases h

/-- Whatever `enqueue_record` returns to it, the drain goes on or fails. -/
theorem Owner.controls_resume_drains (request : Request) (status : Status)
    (admission : QueueAdmission) :
    ∃ call ∈ Owner.controls.resume request status admission, call.drains = true := by
  simp only [Owner.resume]
  (repeat' split) <;> exact ⟨_, mem_cons_self, rfl⟩

theorem Owner.flush_resume_drains (rest : List DeferredRecord)
    (request : Request) (status : Status) (admission : QueueAdmission) :
    ∃ call ∈ (Owner.flush rest).resume request status admission, call.drains = true := by
  simp only [Owner.resume]
  (repeat' split) <;> exact ⟨_, mem_cons_self, rfl⟩

/-- Only the drain and the flush publish records with an engine control. -/
theorem Owner.Fits.real {owner : Owner} {request : Request}
    (h : owner.Fits request) (hshape : request.deferred.Shaped owner.reserved)
    (hreal : request.control.kind ≠ .none) :
    owner = .controls ∨ ∃ rest, owner = .flush rest := by
  have hcontrol : request.control = request.record.control owner.reserved :=
    hshape.control
  rw [hcontrol] at hreal
  cases owner <;> simp only [Fits] at h
  case controls => exact .inl rfl
  case writes =>
      obtain ⟨_, _, _, _, _, hr, _⟩ := h
      simp [hr, Record.control] at hreal
  case flush => exact .inr ⟨_, rfl⟩
  case «open» =>
      obtain ⟨_, _, _, hr⟩ := h
      simp [hr, Record.control] at hreal
  case rekeyInit =>
      obtain ⟨_, _, _, _, _, hr, _⟩ := h
      simp [hr, Record.control] at hreal
  case rekeyAck =>
      obtain ⟨_, _, _, _, hr, _⟩ := h
      simp [hr, Record.control] at hreal
  case pong => simp [h.2.2, Record.control] at hreal
  case capabilities =>
      obtain ⟨_, _, _, hr⟩ := h
      simp [hr, Record.control] at hreal

/-- Only the drain publishes a record whose control is not reserved yet. -/
theorem Owner.Fits.reserveFails {owner : Owner} {request : Request}
    {status : Status} (h : owner.Fits request)
    (hshape : request.deferred.Shaped owner.reserved)
    (herror : e.reserveControl request.control = .error status) :
    owner = .controls := by
  have hreal : request.control.kind ≠ .none ∧ request.control.reserved = false := by
    unfold reserveControl at herror
    split at herror
    · cases herror
    rename_i hreal
    simpa using hreal
  rcases h.real hshape hreal.1 with rfl | ⟨rest, rfl⟩
  · rfl
  have hcontrol : request.control = request.record.control true := hshape.control
  rw [hcontrol] at hreal
  cases hr : request.record <;> simp [hr, Record.control] at hreal

/-- How a step moves the charges and the engine's counters. -/
inductive ChargeStep (e : Engine) (used : List Call) (before : List Charge)
    (e' : Engine) (made : List Call) (after : List Charge) : Prop where
  | released (gone : List Charge) : before.Perm (gone ++ after) →
    e'.queue.wireBytes = e.queue.wireBytes - weigh bytes gone →
    e'.queue.controlMessages = e.queue.controlMessages - weigh slots gone →
    e'.queue.pendingWriteBytes ≤ e.queue.pendingWriteBytes →
    (gone ≠ [] → Drains e' made) → ChargeStep e used before e' made after
  | reserved (charge : Charge) : charge ∈ used.flatMap (Call.asks e.config) →
    after.Perm (charge :: before) →
    e'.queue.wireBytes = e.queue.wireBytes + charge.bytes →
    e'.queue.controlMessages = e.queue.controlMessages + charge.slots →
    e'.queue.pendingWriteBytes = e.queue.pendingWriteBytes →
    e.queue.retained + charge.bytes ≤ charge.byteLimit e.limits →
    (charge.isControl = true → e.queue.controlMessages < charge.slotLimit e.limits) →
    ChargeStep e used before e' made after
  | shrunk (charge : Charge) (size : Nat) (rest : List Charge) :
    size ≤ charge.bytes → before.Perm (charge :: rest) →
    after.Perm ({ charge with bytes := size } :: rest) →
    e'.queue.wireBytes = e.queue.wireBytes - (charge.bytes - size) →
    e'.queue.controlMessages = e.queue.controlMessages →
    e'.queue.pendingWriteBytes = e.queue.pendingWriteBytes →
    ChargeStep e used before e' made after
  | wrote : before.Perm after → e'.queue.wireBytes = e.queue.wireBytes →
    e'.queue.controlMessages = e.queue.controlMessages →
    e'.queue.retained ≤ applicationQueueLimit e.limits →
    ChargeStep e used before e' made after
  | stopped : e'.terminal = true → ChargeStep e used before e' made after

namespace ChargeStep

variable {e e' : Engine} {used made : List Call} {before after : List Charge}

/-- Nothing is charged or given back. -/
theorem same (hcharges : before.Perm after) (hwire : e'.queue.wireBytes = e.queue.wireBytes)
    (hcontrol : e'.queue.controlMessages = e.queue.controlMessages)
    (hpending : e'.queue.pendingWriteBytes ≤ e.queue.pendingWriteBytes) :
    ChargeStep e used before e' made after :=
  .released [] hcharges hwire hcontrol hpending fun h => absurd rfl h

/-- Charges that a step does not touch stand beside it. -/
theorem frame {others allBefore allAfter : List Charge} (h : ChargeStep e used before e' made after)
    (hbefore : allBefore.Perm (others ++ before))
    (hafter : allAfter.Perm (others ++ after)) :
    ChargeStep e used allBefore e' made allAfter := by
  cases h with
  | released gone hcharges hwire hcontrol hpending hdrains =>
    refine .released gone ?_ hwire hcontrol hpending hdrains
    refine (hbefore.trans (hcharges.append_left others)).trans ?_
    refine List.Perm.trans ?_ (hafter.symm.append_left gone)
    simp only [← append_assoc]
    exact perm_append_comm.append_right after
  | reserved charge hasks hcharges hwire hcontrol hpending hroom hslots =>
    refine .reserved charge hasks ?_ hwire hcontrol hpending hroom hslots
    refine (hafter.trans (hcharges.append_left others)).trans ?_
    exact perm_middle.trans (hbefore.symm.cons charge)
  | shrunk charge size rest hsize hold hnew hwire hcontrol hpending =>
    refine .shrunk charge size (others ++ rest) hsize ?_ ?_ hwire hcontrol hpending
    · exact (hbefore.trans (hold.append_left others)).trans perm_middle
    · exact (hafter.trans (hnew.append_left others)).trans perm_middle
  | wrote hcharges hwire hcontrol hroom =>
    refine .wrote ?_ hwire hcontrol hroom
    exact (hbefore.trans (hcharges.append_left others)).trans hafter.symm
  | stopped hstop => exact .stopped hstop

end ChargeStep

/-- The counters are exact, and only rekey records reach into the rekey reserve
and the last two control slots. -/
structure Budget (e : Engine) (held : List Charge) : Prop where
  bytes : e.queue.wireBytes = weigh bytes held
  slots : e.queue.controlMessages = weigh slots held
  pending : e.queue.pendingWriteBytes ≤ applicationQueueLimit e.limits
  retained : e.queue.retained ≤ e.limits.maxQueuedBytes
  ordinaryBytes : weigh ordinaryBytes held + e.queue.pendingWriteBytes ≤ outboundQueueLimit e.limits
  ordinarySlots : weigh ordinarySlots held ≤ e.limits.maxControlMessages - 2

/-- One step keeps the budget. -/
theorem ChargeStep.budget {before after : List Charge} (h : ChargeStep e used before e' made after)
    (hconfig : e'.config = e.config) (hlive : e'.terminal = false)
    (hb : Budget e before) : Budget e' after := by
  have hbytes_le : ∀ l, weigh ordinaryBytes l ≤ weigh bytes l :=
    fun _ => weigh_mono fun c _ => c.ordinaryBytes_le
  have hslots_le : ∀ l, weigh ordinarySlots l ≤ weigh slots l :=
    fun _ => weigh_mono fun c _ => c.ordinarySlots_le
  have houtbound : outboundQueueLimit e.limits ≤ e.limits.maxQueuedBytes :=
    Nat.sub_le _ _
  have happlication : applicationQueueLimit e.limits ≤ outboundQueueLimit e.limits :=
    Nat.sub_le _ _
  have hlimits : e'.limits = e.limits := congrArg Config.limits hconfig
  obtain ⟨hbytes, hslots, hpending, hretained, hordinary, hmessages⟩ := hb
  have hall : e'.queue.wireBytes = weigh bytes after ∧
      e'.queue.controlMessages = weigh slots after ∧
      e'.queue.pendingWriteBytes ≤ applicationQueueLimit e.limits ∧
      e'.queue.wireBytes + e'.queue.pendingWriteBytes ≤ e.limits.maxQueuedBytes ∧
      weigh ordinaryBytes after + e'.queue.pendingWriteBytes ≤ outboundQueueLimit e.limits ∧
      weigh ordinarySlots after ≤ e.limits.maxControlMessages - 2 := by
    have hbytes_after := hbytes_le after
    have hslots_after := hslots_le after
    simp only [OutboundQueue.retained] at hretained
    cases h with
    | released gone hcharges hwire hcontrol hless _ =>
      rw [weigh_perm hcharges, weigh_append] at hbytes hslots hordinary hmessages
      omega
    | reserved charge _ hcharges hwire hcontrol hsame hroom hlimit =>
      simp only [OutboundQueue.retained] at hroom
      simp only [weigh_perm hcharges, weigh_cons] at hbytes_after hslots_after ⊢
      by_cases hrekey : charge.record.isRekeyControl = true
      · simp only [ordinaryBytes, ordinarySlots, byteLimit, hrekey, if_true] at hroom ⊢
        omega
      simp only [ordinaryBytes, ordinarySlots, byteLimit,
        slotLimit, hrekey, if_false, Bool.false_eq_true]
        at hbytes_after hslots_after hroom hlimit ⊢
      cases hmessage : charge.isControl <;>
        simp only [slots, hmessage, flag_true, flag_false, forall_const]
          at hslots_after hcontrol hlimit ⊢ <;> omega
    | shrunk charge size rest hsize hold hnew hwire hcontrol hsame =>
      simp only [weigh_perm hold, weigh_cons] at hbytes hslots hordinary hmessages
      simp only [weigh_perm hnew, weigh_cons]
      by_cases hrekey : charge.record.isRekeyControl = true
      · simp only [ordinaryBytes, ordinarySlots, slots, hrekey,
          if_true] at hslots hordinary hmessages ⊢
        omega
      simp only [ordinaryBytes, ordinarySlots, slots, hrekey,
        if_false, Bool.false_eq_true] at hslots hordinary hmessages ⊢
      omega
    | wrote hcharges hwire hcontrol hroom =>
      rw [weigh_perm hcharges] at hbytes hslots hordinary hmessages
      simp only [OutboundQueue.retained] at hroom
      omega
    | stopped hstop => simp [hlive] at hstop
  exact ⟨hall.1, hall.2.1, hlimits ▸ hall.2.2.1, hlimits ▸ hall.2.2.2.1,
    hlimits ▸ hall.2.2.2.2.1, hlimits ▸ hall.2.2.2.2.2⟩

/-- A section that holds the bytes of its sealed record holds their
reservation. -/
def Call.Sized (config : Config) : Call → Prop
  | .publish request _ _ _ size => size ≤ (request.charge config).bytes
  | _ => True

theorem Engine.writeRefusal_room {id : Nat} {payload : Buffer}
    (h : e.writeRefusal id payload = none) :
    e.queue.retained + payload.retainedCapacity ≤ applicationQueueLimit e.limits := by
  unfold writeRefusal at h
  split at h
  · cases h
  split_ifs at h with _ _ hfits
  simp only [writeFits, Bool.and_eq_true, decide_eq_true_eq] at hfits
  omega

section Step

variable {e e' : Engine} {choice : Choice} {call call' : Call} {made : List Call}

theorem charges_pushDeferred {deferred : DeferredRecord} (calls : List Call)
    (hconfig : e'.config = e.config) (hitems : e'.queue.items = e.queue.items)
    (hactive : e'.queue.active = e.queue.active)
    (hdeferred : e'.queue.deferred = e.queue.deferred ++ [deferred]) :
    (charges e' calls).Perm (deferred.charge e.config :: charges e calls) := by
  simp only [charges, OutboundQueue.charges, hconfig, hitems, hactive, hdeferred,
    map_append, map_cons, map_nil, ← append_assoc]
  exact perm_append_singleton _ _

theorem charges_pushItem {item : OutboundItem} (calls : List Call) (hconfig : e'.config = e.config)
    (hitems : e'.queue.items = e.queue.items ++ [item])
    (hactive : e'.queue.active = e.queue.active)
    (hdeferred : e'.queue.deferred = e.queue.deferred) :
    (charges e' calls).Perm (item.charge :: charges e calls) := by
  have hmiddle : ∀ first rest : List Charge,
      (first ++ item.charge :: rest).Perm (item.charge :: (first ++ rest)) :=
    fun _ _ => perm_middle
  simp only [charges, OutboundQueue.charges, hconfig, hitems, hactive, hdeferred,
    map_append, map_cons, map_nil]
  simpa only [append_assoc, cons_append, nil_append] using
    hmiddle (calls.flatMap (Call.charges e.config) ++
      e.queue.items.map OutboundItem.charge) (e.queue.active.toList.map
        ActiveSend.charge ++ e.queue.deferred.map (DeferredRecord.charge e.config))

/-- Only the byte limit of rekey records reaches into their reserve. -/
theorem queueLimit_le (e : Engine) (control : EngineControl) :
    e.queueLimit control ≤ outboundQueueLimit e.limits := by
  unfold queueLimit applicationQueueLimit
  split <;> omega

theorem outboundLimit_le_byteLimit (limits : SessionLimits) (charge : Charge) :
    outboundQueueLimit limits ≤ charge.byteLimit limits := by
  unfold byteLimit outboundQueueLimit
  split <;> omega

theorem ordinaryLimit_le_slotLimit (limits : SessionLimits) (charge : Charge) :
    limits.maxControlMessages - 2 ≤ charge.slotLimit limits := by
  unfold slotLimit
  split <;> omega

theorem tokenLimit_le (e : Engine) (r : Request) :
    e.tokenLimit r ≤ (r.charge e.config).byteLimit e.limits := by
  by_cases hrekey : r.record.isRekeyControl = true
  · simp [tokenLimit, byteLimit, Request.charge, hrekey]
  · simpa [tokenLimit, byteLimit, Request.charge, hrekey] using queueLimit_le e r.control

/-- The charges of the other pending sections stay where they are. -/
theorem charges_split (e : Engine) (pre used post : List Call) :
    (charges e (pre ++ (used ++ post))).Perm
      ((pre ++ post).flatMap (Call.charges e.config) ++ charges e used) := by
  simp only [charges, flatMap_append, ← append_assoc]
  refine Perm.append_right _ ?_
  simp only [append_assoc]
  exact perm_append_comm.append_left _

/-- A section that leaves `enqueue_record` without its record. -/
theorem ChargeStep.resume {r : Request} {o : Owner} {status : Status}
    {admission : QueueAdmission} (hconfig : e'.config = e.config)
    (hqueue : e'.queue = e.queue)
    (hused : call.charges e.config = o.charges e.config) :
    ChargeStep e [call] (charges e [call]) e' (o.resume r status admission)
      (charges e' (o.resume r status admission)) := by
  refine .same ?_ (by rw [hqueue]) (by rw [hqueue]) (Nat.le_of_eq (by rw [hqueue]))
  simp only [charges, hconfig, hqueue, Owner.resume_charges, flatMap_singleton, hused]
  exact .refl _

/-- A section that moves no record. -/
theorem ChargeStep.idle (hconfig : e'.config = e.config) (hqueue : e'.queue = e.queue)
    (hmade : made.flatMap (Call.charges e.config) = call.charges e.config) :
    ChargeStep e [call] (charges e [call]) e' made (charges e' made) := by
  refine .same ?_ (by rw [hqueue]) (by rw [hqueue]) (Nat.le_of_eq (by rw [hqueue]))
  simp only [charges, hconfig, hqueue, hmade, flatMap_singleton]
  exact .refl _

/-- A section that changes only the storage of waiting writes. -/
theorem ChargeStep.unwrote {bytes : Nat} (hconfig : e'.config = e.config)
    (hqueue : e'.queue = { e.queue with pendingWriteBytes := bytes })
    (hbytes : bytes ≤ e.queue.pendingWriteBytes)
    (hmade : made.flatMap (Call.charges e.config) = call.charges e.config) :
    ChargeStep e [call] (charges e [call]) e' made (charges e' made) := by
  refine .same ?_ (by rw [hqueue]) (by rw [hqueue]) (by rw [hqueue]; exact hbytes)
  simp only [charges, hconfig, hqueue, hmade, flatMap_singleton]
  exact .refl _

theorem Effect.chargeStep (h : Effect e choice call e' made) (htyped : call.Typed)
    (hsized : call.Sized e.config) (hlive : e'.terminal = false) :
    ChargeStep e [call] (charges e [call]) e' made (charges e' made) := by
  have hbefore := (Move.run h).live_before hlive
  cases h with
  | enqueueRefused | admitLeaves | deferLeaves | tokenLeaves | tokenUnadmitted | tokenExhausted
  | bareLost => exact .resume rfl rfl rfl
  | enqueueLocked | rotates | rotatePasses | admitDefers | admitTakes | sealDone | flushDrops
  | flushFindsClosed | flushEnqueues => exact .idle rfl rfl (append_nil _)
  | @deferReserves r o _ hcontrol hroom =>
    refine .reserved (r.deferred.charge e.config) mem_cons_self ?_ rfl rfl rfl ?_ fun hmessage => ?_
    · exact .refl _
    · exact Nat.le_trans (Nat.le_trans hroom (queueLimit_le e _)) (outboundLimit_le_byteLimit ..)
    · exact Nat.lt_of_lt_of_le (hcontrol hmessage) (ordinaryLimit_le_slotLimit ..)
  | @deferPushLeaves r o status hleaves =>
    refine .released [r.deferred.charge e.config] ?_ ?_ ?_ (Nat.le_refl _) fun _ => ?_
    · simp only [charges, flatMap_singleton, Owner.resume_charges]
      exact .refl _
    · rw [weigh_cons, weigh_nil]
      rfl
    · rw [weigh_cons, weigh_nil]
      rfl
    rcases hleaves with ⟨hstop, _⟩ | ⟨_, herror⟩
    · simp [hbefore] at hstop
    obtain rfl := htyped.1.reserveFails htyped.2.1 herror
    exact .inr (Owner.controls_resume_drains ..)
  | deferPushes =>
    refine .same ?_ rfl rfl (Nat.le_refl _)
    refine .trans ?_ (.symm (charges_pushDeferred (e := e) _ rfl rfl rfl rfl))
    simp only [charges, flatMap_singleton, Owner.resume_charges]
    exact .refl _
  | @tokenBare r _ _ _ _ hopen | @tokenTaken r _ _ _ _ _ hopen =>
    refine .reserved (r.charge e.config) mem_cons_self ?_ rfl rfl rfl
      (Nat.le_trans hopen.room (tokenLimit_le e r)) hopen.control
    exact .refl _
  | @sealLost r o token status _ hstatus =>
    refine .released [r.charge e.config] ?_ ?_ ?_ (Nat.le_refl _) fun _ => ?_
    · exact .refl _
    · rw [weigh_cons, weigh_nil]
      rfl
    · rw [weigh_cons, weigh_nil]
      rfl
    refine .inl (.inr ⟨_, mem_cons_self, ?_⟩)
    cases hprotect : r.protect with
    | true => simp [Call.failing, hprotect]
    | false => simp [Call.failing, htyped.1.bare hprotect, hstatus]
  | publishStopped hstop => simp [hbefore] at hstop
  | @publishes r o token wire size =>
    refine .shrunk (r.charge e.config) size
      (o.charges e.config ++ e.queue.charges e.config) hsized ?_ ?_ rfl rfl rfl
    · simp [charges, Call.charges]
    refine .trans (charges_pushItem (e := e) _ rfl rfl rfl rfl) ?_
    simp only [charges, Owner.resume_charges, OutboundItem.charge, htyped.2.2.record_eq]
    exact .refl _
  | tokenFails | controlsFailed => exact .stopped (fail_terminal _ _)
  | writeTaken | removes => exact .unwrote rfl rfl (Nat.sub_le _ _) rfl
  | flushTakes =>
    refine .same ?_ rfl rfl (Nat.le_refl _)
    simp only [charges, OutboundQueue.charges, Call.charges, map_nil,
      append_nil, flatMap_singleton, nil_append]
    exact perm_append_comm
  | @flushReleases deferred =>
    refine .released [deferred.charge e.config] ?_ ?_ ?_ ?_
      fun _ => .inr ⟨_, mem_cons_self, rfl⟩ <;>
      simp [flushRelease, hbefore, charges, Call.charges, Engine.release, OutboundQueue.charges]
    · rfl
    · rfl
  | @flushAbandons deferred rest =>
    refine .released (rest.map (DeferredRecord.charge e.config)) ?_ ?_ ?_ ?_
      fun _ => .inl (doomed_receiveFailed ..) <;>
      simp [releaseAll, hbefore, charges, Call.charges, OutboundQueue.charges,
        weigh_deferredBytes, weigh_deferredSlots, receiveFailed, failCall]
  | writes hfind hrefusal =>
    refine .wrote ?_ rfl rfl ?_
    · exact .refl _
    have hroom := writeRefusal_room hrefusal
    simp only [OutboundQueue.retained, queueWrite] at hroom ⊢
    omega
  | cancelsWrite =>
    refine .unwrote rfl rfl ?_ rfl
    split <;> omega
  | stops => exact .stopped (stop_terminal _ _ _)
  | openSucceeds => exact .idle rfl rfl (dispatch_charges ..)
  | idle hc => exact .idle rfl rfl (Call.passive_charges hc).symm
  | receiveFailing hc => exact .idle rfl rfl (Call.receiving_charges hc).symm
  | _ => exact .idle rfl rfl rfl

variable {pre used post : List Call} {emitted taken : Option Wire}

theorem Move.chargeStep (h : Move e choice used e' made emitted taken)
    (htyped : ∀ call ∈ used, call.Typed)
    (hsized : ∀ call ∈ used, call.Sized e.config) (hlive : e'.terminal = false) :
    ChargeStep e used (charges e used) e' made (charges e' made) := by
  cases h with
  | run heffect =>
    exact heffect.chargeStep (htyped _ mem_cons_self) (hsized _ mem_cons_self) hlive
  | @call operation hcallable =>
    refine .same ?_ rfl rfl (Nat.le_refl _)
    have hneutral := Engine.callable_neutral hcallable
    have hnone : operation.charges e.config = [] := by
      cases operation <;> first | rfl | cases hneutral
    simp [charges, hnone]
  | pump _ hactive hitems =>
    refine .same ?_ rfl rfl (Nat.le_refl _)
    simp only [charges, OutboundQueue.charges, activate, hactive, hitems,
      List.flatMap_nil, map_cons, Option.toList_none, Option.toList_some,
      map_nil, append_nil, nil_append]
    refine Perm.append_right _ (List.Perm.symm ?_)
    exact perm_append_singleton _ _
  | @sent active _ hactive | @sendFails active _ _ hactive =>
    refine .released [active.charge] ?_ rfl rfl (Nat.le_refl _) fun _ => ?_
    · simp only [charges, OutboundQueue.charges, Engine.release, hactive, flatMap_singleton,
        failCall, Call.charges, List.flatMap_nil, nil_append, Option.toList_none,
        Option.toList_some, map_nil, map_cons, append_nil, append_assoc]
      exact perm_middle
    first
      | exact .inr ⟨_, mem_cons_self, rfl⟩
      | exact .inl (.inr ⟨_, mem_cons_self, rfl⟩)
  | release | deliver => exact .same (.refl _) rfl rfl (Nat.le_refl _)

theorem Effect.sized_made (h : Effect e choice call e' made)
    (hmem : call' ∈ made) : call'.Sized e.config := by
  cases call' with
  | publish =>
    have hleaves := h.leaves_of_mem hmem
    cases h with
    | sealDone hsize =>
      simp only [mem_singleton, Call.publish.injEq] at hmem
      obtain ⟨rfl, -, -, -, rfl⟩ := hmem
      exact hsize
    | sealLost => simp at hmem
    | idle => cases hmem
    | receiveFailing => simp [receiveFailed, failCall] at hmem
    | _ => cases hleaves
  | _ => trivial

/-- The budget of a session that is not terminal. -/
structure BudgetInv (e : Engine) (frames : List Call) : Prop where
  sized : ∀ call ∈ frames, call.Sized e.config
  live : e.terminal = false → Budget e (charges e frames)

theorem Move.sized_kept (hmove : Move e choice used e' made emitted taken)
    (h : ∀ call ∈ pre ++ (used ++ post), call.Sized e.config) :
    ∀ call ∈ pre ++ (made ++ post), call.Sized e'.config := by
  rw [hmove.config_eq]
  simp only [forall_mem_append] at h ⊢
  refine ⟨h.1, ?_, h.2.2⟩
  cases hmove with
  | run heffect => exact fun call hcall => heffect.sized_made hcall
  | call hcallable =>
    have hneutral := Engine.callable_neutral hcallable
    rw [forall_mem_singleton]
    cases ‹Call› <;> trivial
  | pump => exact forall_mem_nil _
  | sent | sendFails | release | deliver => exact forall_mem_singleton.mpr trivial

/-- How a move changes the charges of all pending sections. -/
theorem Move.allCharges (hmove : Move e choice used e' made emitted taken)
    (hshapes : ShapeInv e (pre ++ (used ++ post)))
    (hsized : ∀ call ∈ pre ++ (used ++ post), call.Sized e.config)
    (hlive : e'.terminal = false) :
    ChargeStep e used (charges e (pre ++ (used ++ post))) e' made
      (charges e' (pre ++ (made ++ post))) := by
  have hused : ∀ call ∈ used, call ∈ pre ++ (used ++ post) := fun call hcall =>
    mem_append_right _ (mem_append_left _ hcall)
  refine (hmove.chargeStep (fun call hcall => hshapes.frames call (hused call hcall))
    (fun call hcall => hsized call (hused call hcall)) hlive).frame
    (charges_split e pre used post) ?_
  have hsplit := charges_split e' pre made post
  rwa [hmove.config_eq] at hsplit

end Step

/-- In every run the counters are exact and the rekey reserve is left to rekey
records. -/
theorem Endpoint.Run.budget {guard : Guard}
    {endpoint : Endpoint} (h : Endpoint.Run config guard endpoint) :
    BudgetInv endpoint.engine endpoint.frames := by
  refine Run.invariant (K := ShapeInv) (fun _ hrun => hrun.shapes) ?_ ?_ h
  · refine ⟨?_, fun _ => ⟨?_, ?_, ?_, ?_, ?_, ?_⟩⟩ <;>
      simp [Endpoint.initial, Endpoint.frames, Call.Sized, charges, Call.charges,
        OutboundQueue.charges, OutboundQueue.retained]
  intro e e' choice pre used made post _ _ hshapes _ hinv hmove _
  refine ⟨hmove.sized_kept hinv.sized, fun hlive => ?_⟩
  exact (hmove.allCharges hshapes hinv.sized hlive).budget hmove.config_eq hlive
    (hinv.live (hmove.live_before hlive))

end Yume.Session
