/-
The records that wait for a token: in the hands of an `enqueue_record` call, in
the deferred queue, or in the hands of the flush.
-/
import Yume.Session.Failure
import Yume.Session.Shapes

namespace Yume.Session

open Yume.Lib Engine Owner List

/-- The records the flush publishes after the current one. -/
def Owner.rest : Owner → List DeferredRecord
  | .flush rest => rest
  | _ => []

/-- The records a pending section holds that have not taken a token. -/
def Call.held : Call → List DeferredRecord
  | .enqueue request owner | .rotateCheck request owner
  | .admitCheck request owner | .deferReserve request owner
  | .deferPush request owner | .takeToken request owner =>
    request.deferred :: owner.rest
  | .sealFrame _ owner _ | .publish _ owner _ _ _ | .tokenLost _ owner _ =>
    owner.rest
  | .flushNext rest => rest
  | .flushCheck deferred rest | .flushClosed deferred rest
  | .flushAbandon deferred rest _ => deferred :: rest
  | _ => []

/-- What the caller of `enqueue_record` still holds of a record: the flush keeps
one that was not published until it has dropped it. -/
def Owner.kept (owner : Owner) (request : Request) (status : Status) : List DeferredRecord :=
  match owner with
  | .flush rest => if status.isOk then rest else request.deferred :: rest
  | _ => []

theorem Owner.resume_held (owner : Owner) (request : Request) (status : Status)
    (admission : QueueAdmission) :
    (owner.resume request status admission).flatMap Call.held = owner.kept request status := by
  cases owner <;> simp only [resume, kept] <;> (repeat' split) <;>
    first | rfl | simp_all [Call.held]

theorem Owner.kept_ok {owner : Owner} {request : Request} {status : Status}
    (h : status.isOk = true) : owner.kept request status = owner.rest := by
  cases owner <;> simp [kept, rest, h]

theorem Owner.kept_subset (owner : Owner) (request : Request) (status : Status) :
    owner.kept request status ⊆ request.deferred :: owner.rest := by
  cases owner <;> simp only [kept, rest]
  case flush => split <;> simp
  all_goals exact nil_subset _

/-- Only REKEY_ACK leaves unprotected. -/
theorem Owner.Fits.bare {owner : Owner} {request : Request}
    (h : owner.Fits request) (hbare : request.protect = false) :
    owner = .rekeyAck := by
  cases owner <;> simp_all [Owner.Fits]

theorem flushRelease_deferred (e : Engine) (deferred : DeferredRecord) :
    (e.flushRelease deferred).queue.deferred = e.queue.deferred := by
  dsimp only [flushRelease]
  split <;> rfl

theorem dispatch_held (state : SessionState) (record : Record) :
    (dispatch state record).flatMap Call.held = [] := by
  cases record <;> simp only [dispatch] <;> split <;> rfl

/-- The records that a section starts to publish. -/
inductive Created (e : Engine) (choice : Choice) :
    Call → DeferredRecord → Prop where
  | control {control close} : e.terminal = false → e.Owes control close →
    (control.kind = .credit → control.increment ≠ 0 ∧ control.increment ≤ maxCreditIncrement) →
    Created e choice .selectControl (controlRequest control close).deferred
  | write {stream write rest} : stream ∈ e.streams → stream.present = true →
    stream.closed = false → stream.pendingWrites = write :: rest →
    Created e choice .selectWrite (writeRequest stream write).deferred
  | open {request} : e.openRefusal request = none →
    Created e choice (.asyncOpen request) ⟨.open e.nextLocalStreamId request, false, none, {}⟩
  | pong : Created e choice .processPing ⟨.pong, true, none, {}⟩
  | capabilities : Created e choice .advertise
    ⟨.capabilities e.config.localManifest, true, none, {}⟩
  | rekeyInit {caller n} : Created e choice (.beginRekey caller n)
    (rekeyInitRequest n choice).deferred
  | rekeyAck {epoch secret size ackSize} :
    Created e choice (.acceptRekeyInit epoch secret size ackSize)
      (e.rekeyAckRequest epoch ackSize).deferred

/-- A record keeps all but the reservation of its control while it waits. -/
structure DeferredRecord.Same (deferred old : DeferredRecord) : Prop where
  record : deferred.record = old.record
  isControl : deferred.isControl = old.isControl
  completion : deferred.completion = old.completion

theorem DeferredRecord.Same.refl (deferred : DeferredRecord) :
    deferred.Same deferred := ⟨rfl, rfl, rfl⟩

section Step

variable {e e' : Engine} {choice : Choice} {call : Call} {made : List Call}

/-- The records that wait in `calls` or in the deferred queue of `engine`. -/
def waiting (engine : Engine) (calls : List Call) : List DeferredRecord :=
  calls.flatMap Call.held ++ engine.queue.deferred

/-- Every record that waits after a section waited before it, or the section
creates it. -/
def Carried (e : Engine) (choice : Choice) (call : Call) (held : List DeferredRecord) : Prop :=
  ∀ deferred ∈ held, (∃ old ∈ waiting e [call], deferred.Same old) ∨ Created e choice call deferred

theorem Carried.of_subset {held : List DeferredRecord}
    (h : held ⊆ call.held ++ e.queue.deferred) : Carried e choice call held :=
  fun deferred hmem => .inl ⟨deferred, by simpa [waiting] using h hmem, .refl _⟩

theorem Carried.append {held held' : List DeferredRecord}
    (h : Carried e choice call held) (h' : Carried e choice call held') :
    Carried e choice call (held ++ held') :=
  forall_mem_append.mpr ⟨h, h'⟩

section Cases

variable {r : Request} {o : Owner} {status : Status} {admission : QueueAdmission}

theorem Carried.resume (hheld : call.held = r.deferred :: o.rest)
    (hdeferred : e'.queue.deferred ⊆ e.queue.deferred) :
    Carried e choice call (waiting e' (o.resume r status admission)) := by
  refine .of_subset ?_
  rw [waiting, resume_held, hheld]
  exact append_subset.mpr ⟨subset_append_of_subset_left _ (kept_subset ..),
      subset_append_of_subset_right _ hdeferred⟩

theorem Carried.pass (hheld : made.flatMap Call.held = call.held)
    (hdeferred : e'.queue.deferred = e.queue.deferred) :
    Carried e choice call (waiting e' made) := by
  refine .of_subset ?_
  rw [waiting, hheld, hdeferred]
  exact List.Subset.refl _

theorem Carried.create {deferred : DeferredRecord} (hheld : made.flatMap Call.held = [deferred])
    (hdeferred : e'.queue.deferred = e.queue.deferred)
    (hcreated : Created e choice call deferred) :
    Carried e choice call (waiting e' made) := by
  rw [waiting, hheld, hdeferred]
  refine .append (fun other hother => .inr ?_) (.of_subset (subset_append_right _ _))
  exact mem_singleton.mp hother ▸ hcreated

theorem Carried.nothing (hheld : made.flatMap Call.held = [])
    (hdeferred : e'.queue.deferred ⊆ e.queue.deferred) :
    Carried e choice call (waiting e' made) := by
  refine .of_subset ?_
  rw [waiting, hheld, nil_append]
  exact subset_append_of_subset_right _ hdeferred

end Cases

/-- Outside the failure of the session, records only leave the waiting ones or
are created. -/
theorem Effect.waiting_carried (h : Effect e choice call e' made)
    (htyped : call.Typed) (hlive : e'.terminal = false) :
    Carried e choice call (waiting e' made) := by
  have hbefore := (Move.run h).live_before hlive
  cases h with
  | enqueueRefused | admitLeaves | deferLeaves | deferPushLeaves | tokenLeaves | tokenUnadmitted =>
    exact .resume rfl (List.Subset.refl _)
  | enqueueLocked | rotates | rotatePasses | admitDefers | admitTakes | deferReserves | sealLost
  | sealDone | flushEnqueues => exact .pass (append_nil _) rfl
  | @deferPushes r =>
    rw [waiting, resume_held, kept_ok rfl]
    refine .append (.of_subset ?_) (.append (.of_subset ?_) ?_)
    · exact subset_append_of_subset_left _ (subset_cons_self _ _)
    · exact subset_append_right _ _
    intro deferred hmem
    rw [mem_singleton.mp hmem]
    exact .inl ⟨r.deferred, mem_append_left _ mem_cons_self,
      rfl, rfl, rfl⟩
  | @tokenExhausted r =>
    rw [waiting, resume_held]
    refine .append ?_ (.of_subset (subset_append_right _ _))
    intro deferred hmem
    rcases mem_cons.mp (kept_subset _ _ _ hmem) with rfl | hmem
    · exact .inl ⟨r.deferred, mem_append_left _ mem_cons_self,
        rfl, rfl, rfl⟩
    · exact .inl ⟨deferred, by simp [waiting, Call.held, hmem], .refl _⟩
  | tokenBare => exact .of_subset (by simp [waiting, Call.held, charge])
  | tokenTaken =>
    exact .of_subset (by simp [waiting, Call.held, committed, charge])
  | publishStopped hstop => simp [hbefore] at hstop
  | publishes =>
    refine .pass ?_ rfl
    rw [resume_held, kept_ok rfl]
    rfl
  | @bareLost r o status hbare =>
    obtain rfl := htyped.1.bare hbare
    exact .nothing (resume_held ..) (List.Subset.refl _)
  | rekeyBegins => exact .create rfl rfl .rekeyInit
  | drainSelects hlive howes hencode => exact .create rfl rfl (.control hlive howes hencode)
  | tokenFails | controlsFailed | stops => cases (stop_terminal ..).symm.trans hlive
  | writeTaken _ _ hmem hpresent hopen hwrites =>
    exact .create rfl rfl (.write hmem hpresent hopen hwrites)
  | flushTakes => exact .of_subset (by simp [waiting, Call.held])
  | flushReleases => exact .pass (append_nil _) (flushRelease_deferred ..)
  | flushDrops | flushFindsClosed => exact .of_subset (by simp [waiting, Call.held])
  | flushAbandons =>
    refine .nothing rfl ?_
    dsimp only [releaseAll]
    split <;> exact List.Subset.refl _
  | opens hrefusal => exact .create rfl rfl (.open hrefusal)
  | advertises => exact .create rfl rfl .capabilities
  | openSucceeds => exact .nothing (dispatch_held ..) (List.Subset.refl _)
  | pings => exact .create rfl rfl .pong
  | switchesInbound => exact .create rfl rfl .rekeyAck
  | _ => exact .nothing rfl (List.Subset.refl _)

variable {pre used post : List Call} {emitted taken : Option Wire}

theorem waiting_mem_used {deferred : DeferredRecord} (h : deferred ∈ waiting e used) :
    deferred ∈ waiting e (pre ++ (used ++ post)) := by
  simp only [waiting, flatMap_append, mem_append] at h ⊢
  tauto

theorem waiting_split {deferred : DeferredRecord} (used : List Call)
    (h : deferred ∈ waiting e' (pre ++ (made ++ post))) :
    deferred ∈ waiting e (pre ++ (used ++ post)) ∨ deferred ∈ waiting e' made := by
  simp only [waiting, flatMap_append, mem_append] at h ⊢
  tauto

/-- Outside the sections no waiting record moves. -/
theorem Move.waiting_outside (h : Move e choice [] e' made emitted taken) :
    waiting e' (pre ++ (made ++ post)) = waiting e (pre ++ ([] ++ post)) := by
  have hsame : made.flatMap Call.held = [] →
      e'.queue.deferred = e.queue.deferred →
      waiting e' (pre ++ (made ++ post)) = waiting e (pre ++ ([] ++ post)) := by
    intro hmade hdeferred
    simp only [waiting, flatMap_append, hmade, hdeferred, List.flatMap_nil]
  cases h with
  | @call operation hcallable =>
    have hneutral := Engine.callable_neutral hcallable
    refine hsame ?_ rfl
    rw [flatMap_singleton]
    cases operation <;> first | rfl | cases hneutral
  | _ => exact hsame rfl rfl

/-- Every record that waits after a move waited before it, or its section
creates it. -/
theorem Move.waiting_back (h : Move e choice used e' made emitted taken)
    (htyped : ∀ call ∈ used, call.Typed) (hlive : e'.terminal = false)
    {deferred : DeferredRecord}
    (hmem : deferred ∈ waiting e' (pre ++ (made ++ post))) :
    (∃ old ∈ waiting e (pre ++ (used ++ post)), deferred.Same old) ∨
      ∃ call, used = [call] ∧ Effect e choice call e' made ∧ Created e choice call deferred := by
  rcases h.run_or_outside with ⟨call, rfl, heffect⟩ | rfl
  · rcases waiting_split [call] hmem with hmem | hmem
    · exact .inl ⟨deferred, hmem, .refl _⟩
    rcases heffect.waiting_carried (htyped _ mem_cons_self) hlive deferred
      hmem with ⟨old, hold, hsame⟩ | hcreated
    · exact .inl ⟨old, waiting_mem_used hold, hsame⟩
    · exact .inr ⟨call, rfl, heffect, hcreated⟩
  · exact .inl ⟨deferred, h.waiting_outside ▸ hmem, .refl _⟩

end Step

end Yume.Session
