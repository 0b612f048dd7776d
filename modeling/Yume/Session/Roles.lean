/-
Which pending sections belong to the one controls drainer, the one writes
drainer, the one received record and the holder of the record-order lock.  Each
role is counted and its count equals the engine's flag.
-/
import Yume.Session.Frames

namespace Yume.Session

open Yume.Lib Engine Call

/-- A flag as a count. -/
def flag (b : Bool) : Nat := if b then 1 else 0

@[simp] theorem flag_true : flag true = 1 := rfl
@[simp] theorem flag_false : flag false = 0 := rfl

namespace Owner

def controlsRole : Owner → Nat
  | .controls => 1
  | _ => 0

def writesRole : Owner → Nat
  | .writes _ _ _ => 1
  | _ => 0

def receiveRole : Owner → Nat
  | .flush _ | .capabilities | .pong | .rekeyAck => 1
  | _ => 0

end Owner

namespace Call

/-- The caller that an `enqueue_record` section returns to. -/
def owner? : Call → Option Owner
  | .enqueue _ owner | .rotateCheck _ owner | .admitCheck _ owner
  | .deferReserve _ owner | .deferPush _ owner | .takeToken _ owner
  | .sealFrame _ owner _ | .publish _ owner _ _ _ | .tokenLost _ owner _ =>
    some owner
  | _ => none

/-- Sections of `drain_owed_controls` after it took the drain. -/
def controlsRole (call : Call) : Nat :=
  (call.owner?.map Owner.controlsRole).getD <| match call with
    | .selectControl | .controlRefused | .localAcceptance _
    | .controlsFail _ => 1
    | _ => 0

/-- Sections of `drain_pending_writes` after it took the drain. -/
def writesRole (call : Call) : Nat :=
  (call.owner?.map Owner.writesRole).getD <| match call with
    | .selectWrite | .settleWrite _ _ _ _ => 1
    | _ => 0

/-- Sections that hold the record-order lock. -/
def lockRole : Call → Nat
  | .rotateCheck request _ | .admitCheck request _ | .deferReserve request _
  | .deferPush request _ | .takeToken request _ | .sealFrame request _ _
  | .publish request _ _ _ _ => flag request.protect
  | _ => 0

/-- Sections that process the received record, up to the end of the receive. -/
def receiveRole (call : Call) : Nat :=
  (call.owner?.map Owner.receiveRole).getD <| match call with
    | .processReceived _ | .processCapabilities _ | .processOpen _ _
    | .insertPeerStream _ _ _ | .processData _ _ _ | .publishData _ _ _
    | .processClose _ _ | .processConnectionCredit _ | .processStreamCredit _ _
    | .processPing | .processPong | .processRekeyInit _ _ _
    | .acceptRekeyInit _ _ _ _ | .processRekeyAck _ _ _ | .flushDeferred
    | .flushNext _ | .flushCheck _ _ | .flushClosed _ _ | .flushAbandon _ _ _
    | .advertise | .advertiseCredit | .receiveDone => 1
    | .returnCredit _ _ discarded => flag discarded
    | _ => 0

end Call

/-- The engine's flags for the four roles. -/
structure RoleFlags where
  controls : Bool
  writes : Bool
  lock : Bool
  receive : Bool

def Engine.roleFlags (engine : Engine) : RoleFlags where
  controls := engine.controlsDraining
  writes := engine.pendingWritesDraining
  lock := engine.orderingLocked
  receive := engine.receiveInProgress

/-- What a section consumes and leaves, role by role. -/
structure RoleBalance (before after : RoleFlags) (used made : List Call) :
    Prop where
  controls : weigh controlsRole made + flag before.controls =
    weigh controlsRole used + flag after.controls
  writes : weigh writesRole made + flag before.writes = weigh writesRole used + flag after.writes
  lock : weigh lockRole made + flag before.lock = weigh lockRole used + flag after.lock
  receive : weigh receiveRole made + flag before.receive =
    weigh receiveRole used + flag after.receive

namespace RoleBalance

variable {before after : RoleFlags} {used made : List Call}

/-- A section that changes no flag passes its roles on. -/
theorem quiet (hflags : after = before)
    (hcontrols : weigh controlsRole made = weigh controlsRole used)
    (hwrites : weigh writesRole made = weigh writesRole used)
    (hlock : weigh lockRole made = weigh lockRole used)
    (hreceive : weigh receiveRole made = weigh receiveRole used) :
    RoleBalance before after used made := by
  subst hflags
  exact ⟨by omega, by omega, by omega, by omega⟩

/-- A section that ends `enqueue_record` hands its caller's role back. -/
theorem resume {owner : Owner} {request : Request} {status : Status} {admission : QueueAdmission}
    (hcontrols : owner.controlsRole + flag before.controls =
      weigh controlsRole used + flag after.controls)
    (hwrites : owner.writesRole + flag before.writes = weigh writesRole used + flag after.writes)
    (hlock : flag before.lock = weigh lockRole used + flag after.lock)
    (hreceive : owner.receiveRole + flag before.receive =
      weigh receiveRole used + flag after.receive) :
    RoleBalance before after used (owner.resume request status admission) := by
  have hmade : weigh controlsRole (owner.resume request status admission) = owner.controlsRole ∧
      weigh writesRole (owner.resume request status admission) = owner.writesRole ∧
      weigh lockRole (owner.resume request status admission) = 0 ∧
      weigh receiveRole (owner.resume request status admission) = owner.receiveRole := by
    cases owner <;> simp only [Owner.resume] <;> (repeat' split) <;>
      exact ⟨rfl, rfl, rfl, rfl⟩
  obtain ⟨h1, h2, h3, h4⟩ := hmade
  exact ⟨by omega, by omega, by omega, by omega⟩

end RoleBalance

/-- The role counts of every pending section equal the engine's flags. -/
structure RoleInv (e : Engine) (frames : List Call) : Prop where
  controls : weigh controlsRole frames = flag e.controlsDraining
  writes : weigh writesRole frames = flag e.pendingWritesDraining
  lock : weigh lockRole frames = flag e.orderingLocked
  receive : weigh receiveRole frames = flag e.receiveInProgress

/-- A section that has a role finds the role's flag set. -/
structure RoleHeld (e : Engine) (call : Call) : Prop where
  controls : call.controlsRole ≤ flag e.controlsDraining
  writes : call.writesRole ≤ flag e.pendingWritesDraining
  lock : call.lockRole ≤ flag e.orderingLocked
  receive : call.receiveRole ≤ flag e.receiveInProgress

variable {call : Call} {made : List Call} {e : Engine}

theorem RoleInv.held {frames : List Call}
    (h : RoleInv e frames) (hmem : call ∈ frames) : RoleHeld e call where
  controls := h.controls ▸ le_weigh_of_mem hmem
  writes := h.writes ▸ le_weigh_of_mem hmem
  lock := h.lock ▸ le_weigh_of_mem hmem
  receive := h.receive ▸ le_weigh_of_mem hmem

section Unlock

variable {e : Engine} {r : Request} {n : Nat}

/-- A protected record releases the lock it holds. -/
theorem flag_unlock (h : flag r.protect ≤ flag e.orderingLocked) :
    flag e.orderingLocked = flag r.protect + flag (e.orderingLocked && !r.protect) := by
  revert h
  cases r.protect <;> cases e.orderingLocked <;> decide

theorem flag_lock (h : r.protect = true → e.orderingLocked = false) :
    flag r.protect + flag e.orderingLocked = 0 + flag (e.orderingLocked || r.protect) := by
  revert h
  cases r.protect <;> cases e.orderingLocked <;> decide

theorem flag_clear {b : Bool} (h : 1 ≤ flag b) : 0 + flag b = 1 + flag false := by
  revert h
  cases b <;> decide

end Unlock

/-- Sections that hold no record, no lock and no drain. -/
def Call.neutral : Call → Bool
  | .initiateRekey _ | .rotateAgedEpoch | .expireRekey | .drainControls
  | .drainWrites | .finishShutdown _ | .finishCheck _ | .removeStream _ _
  | .dropWrites _ | .settleHandshake _ | .retire _ | .abortStream _ _ _
  | .eraseUnpublished _ | .asyncOpen _ | .openRegistered _ | .cancelOpen _
  | .streamRead _ | .cancelRead _ _ | .streamWrite _ _ | .cancelWrite _ _
  | .streamShutdown _ | .streamClose _ | .completePeerOpen _ _
  | .stopSession _ _ => true
  | _ => false

theorem Call.passive_neutral (h : call.passive = true) : call.neutral = true := by
  cases call <;> first | rfl | cases h

/-- Neutral sections have no role. -/
theorem Call.neutral_roles (h : call.neutral = true) :
    call.controlsRole = 0 ∧ call.writesRole = 0 ∧ call.lockRole = 0 ∧ call.receiveRole = 0 := by
  cases call <;> first | exact ⟨rfl, rfl, rfl, rfl⟩ | cases h

/-- Sections that work on the received record have only that role. -/
theorem Call.receiving_roles (h : call.receiving = true) :
    call.controlsRole = 0 ∧ call.writesRole = 0 ∧ call.lockRole = 0 ∧ call.receiveRole = 1 := by
  cases call <;> first | exact ⟨rfl, rfl, rfl, rfl⟩ | cases h

theorem Engine.callable_neutral (h : e.callable call = true) : call.neutral = true := by
  cases call <;> first | rfl | cases h

theorem RoleBalance.neutral {flags : RoleFlags} (h : call.neutral = true)
    (hmade : ∀ made' ∈ made, made'.neutral = true) :
    RoleBalance flags flags [call] made := by
  obtain ⟨h1, h2, h3, h4⟩ := call.neutral_roles h
  refine .quiet rfl ?_ ?_ ?_ ?_
  · simpa [h1] using weigh_eq_zero fun c hc => (c.neutral_roles (hmade c hc)).1
  · simpa [h2] using weigh_eq_zero fun c hc => (c.neutral_roles (hmade c hc)).2.1
  · simpa [h3] using weigh_eq_zero fun c hc =>
      (c.neutral_roles (hmade c hc)).2.2.1
  simpa [h4] using weigh_eq_zero fun c hc =>
    (c.neutral_roles (hmade c hc)).2.2.2

theorem RoleBalance.receiveFailing {flags : RoleFlags}
    {status : Status} (h : call.receiving = true) :
    RoleBalance flags flags [call] (receiveFailed status) := by
  obtain ⟨h1, h2, h3, h4⟩ := call.receiving_roles h
  refine .quiet rfl ?_ ?_ ?_ ?_
  · simp only [weigh_cons, weigh_nil, h1]; rfl
  · simp only [weigh_cons, weigh_nil, h2]; rfl
  · simp only [weigh_cons, weigh_nil, h3]; rfl
  · simp only [weigh_cons, weigh_nil, h4]; rfl

theorem dispatch_roles (state : SessionState) (record : Record) :
    weigh controlsRole (dispatch state record) = 0 ∧
      weigh writesRole (dispatch state record) = 0 ∧
      weigh lockRole (dispatch state record) = 0 ∧
      weigh receiveRole (dispatch state record) = 1 := by
  cases record <;> simp only [dispatch] <;> split <;>
    exact ⟨rfl, rfl, rfl, rfl⟩

/-- Each branch hands its roles on. -/
theorem Effect.roles {e' : Engine} {choice : Choice}
    (h : Effect e choice call e' made) (hheld : RoleHeld e call) :
    RoleBalance e.roleFlags e'.roleFlags [call] made := by
  cases h with
  | idle hc => exact .neutral (call.passive_neutral hc) (by simp)
  | receiveFailing hc => exact .receiveFailing hc
  | enqueueRefused | tokenFails | bareLost => exact .resume rfl rfl (Nat.zero_add _).symm rfl
  | enqueueLocked hfree =>
    refine ⟨rfl, rfl, ?_, rfl⟩
    exact flag_lock hfree
  | rotates =>
    refine ⟨?_, ?_, (Nat.zero_add _).trans (flag_unlock hheld.lock), ?_⟩ <;>
      exact congrArg (· + _) (Nat.zero_add _)
  | admitLeaves | deferLeaves | deferPushLeaves | deferPushes | tokenLeaves | tokenUnadmitted
  | tokenExhausted | publishStopped | publishes => exact .resume rfl rfl (flag_unlock hheld.lock) rfl
  | sealLost =>
    refine ⟨rfl, rfl, ?_, rfl⟩
    exact (Nat.zero_add _).trans (flag_unlock hheld.lock)
  | drainStarts _ hidle => exact ⟨by simp [roleFlags, hidle]; rfl, rfl, rfl, rfl⟩
  | drainStops | drainEnds | drainRefused | controlsFailed =>
    exact ⟨flag_clear hheld.controls, rfl, rfl, rfl⟩
  | writesStart hidle => exact ⟨rfl, by simp [roleFlags, hidle]; rfl, rfl, rfl⟩
  | writesIdle => exact ⟨rfl, flag_clear hheld.writes, rfl, rfl⟩
  | openSucceeds =>
    obtain ⟨h1, h2, h3, h4⟩ := dispatch_roles e.state _
    exact .quiet rfl h1 h2 h3 h4
  | receiveEnds => exact ⟨rfl, rfl, rfl, flag_clear hheld.receive⟩
  | _ => exact .quiet rfl rfl rfl rfl rfl

/-- Outside calls and carrier events hold no role, except a delivered record. -/
theorem Move.roles {e' : Engine} {choice : Choice} {used : List Call}
    {emitted taken : Option Wire} (h : Move e choice used e' made emitted taken)
    (hheld : ∀ call ∈ used, RoleHeld e call) :
    RoleBalance e.roleFlags e'.roleFlags used made := by
  cases h with
  | run heffect => exact heffect.roles (hheld _ (List.mem_singleton_self _))
  | call hcallable =>
    have hneutral := callable_neutral hcallable
    obtain ⟨h1, h2, h3, h4⟩ := neutral_roles hneutral
    exact .quiet rfl (by simp [h1]) (by simp [h2]) (by simp [h3]) (by simp [h4])
  | pump | sent | sendFails | release => exact .quiet rfl rfl rfl rfl rfl
  | deliver _ hidle =>
    exact ⟨rfl, rfl, rfl, by simp [roleFlags, hidle]; rfl⟩

/-- In every run each role is held by as many sections as its flag says. -/
theorem Endpoint.Run.roles {config : Config} {guard : Guard}
    {endpoint : Endpoint} (h : Endpoint.Run config guard endpoint) :
    RoleInv endpoint.engine endpoint.frames := by
  refine Run.invariant (K := fun _ _ => True) (fun _ _ => trivial) ⟨rfl, rfl, rfl, rfl⟩ ?_ h
  intro e e' choice pre used made post _ _ _ _ hinv hmove _
  have hbalance := hmove.roles fun call hcall =>
    hinv.held (List.mem_append_right _ (List.mem_append_left _ hcall))
  obtain ⟨i1, i2, i3, i4⟩ := hinv
  obtain ⟨b1, b2, b3, b4⟩ := hbalance
  simp only [weigh_append, roleFlags] at i1 i2 i3 i4 b1 b2 b3 b4
  constructor <;> simp only [weigh_append] <;> omega

end Yume.Session
