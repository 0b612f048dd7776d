/-
A stream of the embedding backend whose handle is destroyed.  The destructor
must not release receive credit beside the runner, so it may wait until the run
has drained.
-/
import Mathlib.Data.Bool.Basic
import Yume.Lib.Runs

namespace Yume.NativeRun

open Yume.Lib Option

inductive Phase where
  | running | stopping | drained
deriving DecidableEq

/-- The application's handle.  `waiting`: its thread is in `wait_drained`. -/
inductive Handle where
  | held | waiting | gone
deriving DecidableEq

/-- A `NativeRun` with its execution context, one `NativeStream` and its handle. -/
structure State where
  phase : Phase := .running
  guard : Bool := true
  closeQueued : Bool := false
  /-- A thread in `shutdown` has still to call `finish`. -/
  finishing : Bool := false
  /-- The run began to stop by itself, and nobody asked it to drain since. -/
  stoppedItself : Bool := false
  /-- The work of the other streams and sessions. -/
  others : Nat := 0
  records : Nat := 0
  consumed : Nat := 0
  chunks : Nat := 0
  serviceQueued : Bool := false
  readPending : Bool := true
  writeInFlight : Bool := false
  localClosed : Bool := false
  closedOnRunner : Bool := false
  handle : Handle := .held
  /-- Credit was released beside the runner before the drain. -/
  releasedEarly : Bool := false
deriving DecidableEq

/-- What a read of the engine reports. -/
inductive ReadResult where
  | record | endOfStream | failure

inductive Label where
  -- the application
  | read | write | close | destroy | stop
  -- the runner and the engine
  | acceptFailure | keeperFailure | deliveryThrows | closeTask | service
  | onRead (result : ReadResult) | onWrite (ok : Bool) | spawnOther | runOther
  | finish | drain | wake

namespace State

def beginStop (s : State) : State :=
  if s.phase = .running then { s with phase := .stopping, closeQueued := true }
  else s

/-- The run begins to stop and nobody calls `finish`. -/
def stopItself (s : State) : State :=
  if s.phase = .running then { s.beginStop with stoppedItself := true } else s

def requestService (s : State) : State :=
  if s.phase = .running then { s with serviceQueued := true } else s

def close (s : State) : State :=
  if s.localClosed then s else { s with localClosed := true }.requestService

def closeOnRunner (s : State) : State :=
  if s.closedOnRunner then s
  else
    { s with
      closedOnRunner := true
      localClosed := true
      records := 0
      consumed := 0
      chunks := 0 }

def pumpWrites (s : State) : State :=
  if s.writeInFlight ∨ s.localClosed ∨ s.chunks = 0 then s
  else { s with chunks := s.chunks - 1, writeInFlight := true }

def service (s : State) : State :=
  let released := { s with
    serviceQueued := false, records := s.records - s.consumed, consumed := 0 }
  if released.localClosed ∧ ¬ released.closedOnRunner then released.closeOnRunner
  else released.pumpWrites

/-- The read is armed again only after a queued record. -/
def onRead (s : State) (result : ReadResult) : State :=
  let idle := { s with readPending := false }
  if s.localClosed then idle
  else
    match result with
    | .record => { s with records := s.records + 1 }
    | .endOfStream => idle
    | .failure => idle.closeOnRunner

def onWrite (s : State) (ok : Bool) : State :=
  let idle := { s with writeInFlight := false }
  if s.localClosed then idle
  else if ok then idle.pumpWrites
  else { idle with chunks := 0 }

/-- Operations and queued tasks that own the stream. -/
def owned (s : State) : Bool := s.readPending || s.writeInFlight || s.serviceQueued

/-- `~NativeStream` on the application's thread, once it need not wait. -/
def release (s : State) : State :=
  { s with
    handle := .gone
    releasedEarly := s.releasedEarly || (s.records ≠ 0 && s.phase ≠ .drained) }

/-- The handle closes its stream and gives its reference up. -/
def destroy (s : State) : State :=
  let closed := s.close
  if closed.owned then { closed with handle := .gone }
  else if closed.records ≠ 0 ∧ closed.phase ≠ .drained then
    { closed with handle := .waiting }
  else closed.release

/-- `context->run()` returns once the guard is gone and no work is left. -/
def idle (s : State) : Bool :=
  !s.guard && !s.closeQueued && !s.owned && s.others == 0 && s.phase ≠ .drained

def usable (s : State) : Bool :=
  s.handle = .held && s.phase = .running && !s.localClosed

def step (s : State) : Label → Option State
  | .read => if s.usable ∧ s.consumed < s.records then
      some { s with consumed := s.consumed + 1 }.requestService else none
  | .write => if s.usable then
      some { s with chunks := s.chunks + 1 }.requestService else none
  | .close => if s.handle = .held then some s.close else none
  | .destroy => if s.handle = .held then some s.destroy else none
  | .stop => some { s.beginStop with finishing := true, stoppedItself := false }
  | .acceptFailure | .keeperFailure => some s.stopItself
  | .deliveryThrows => if s.phase = .drained then none else
      some { s.beginStop with guard := false, stoppedItself := false }
  | .closeTask => if s.closeQueued then some { s with closeQueued := false } else none
  | .service => if s.serviceQueued then some s.service else none
  | .onRead result => if s.readPending then some (s.onRead result) else none
  | .onWrite ok => if s.writeInFlight then some (s.onWrite ok) else none
  | .spawnOther => if s.phase = .drained then none else
      some { s with others := s.others + 1 }
  | .runOther => if s.others = 0 then none else some { s with others := s.others - 1 }
  | .finish => if s.finishing then some { s with guard := false, finishing := false }
      else none
  | .drain => if s.idle then some { s with phase := .drained } else none
  | .wake => if s.handle = .waiting ∧ s.phase = .drained then some s.release else none

end State

open State

/-- Steps that need no further call and no further event of the peer. -/
def Label.internal : Label → Bool
  | .closeTask | .service | .runOther | .finish | .drain | .wake => true
  | _ => false

/-- The internal steps still to come. -/
def State.work (s : State) : Nat :=
  s.closeQueued.toNat + s.serviceQueued.toNat + s.others + s.finishing.toNat +
    (decide (s.phase ≠ .drained)).toNat + (decide (s.handle = .waiting)).toNat

/-- The states a run can reach. -/
def Reachable : State → Prop := Reaches step (fun _ _ => True) {}

structure Inv (s : State) : Prop where
  /-- Whoever stops the run lets it drain, unless it stops itself. -/
  stops : s.phase ≠ .running → s.stoppedItself = false → s.finishing = true ∨ s.guard = false
  closing : s.phase = .running → s.localClosed = true →
    s.serviceQueued = true ∨ s.closedOnRunner = true
  dropped : s.closedOnRunner = true → s.records = 0 ∧ s.localClosed = true
  waits : s.handle = .waiting → s.phase ≠ .running ∧ s.owned = false
  credit : s.releasedEarly = false

section Step

variable {s t : State} {label : Label}

/-- A stream that some task owns is not waited for. -/
theorem Inv.busy (h : Inv s) (howned : s.owned = true) : s.handle ≠ .waiting := fun hwaiting =>
  absurd (howned.symm.trans (h.waits hwaiting).2) nofun

theorem usable_held (h : s.usable = true) : s.handle ≠ .waiting := by
  simp only [usable, Bool.and_eq_true, decide_eq_true_eq] at h
  simp [h.1.1]

theorem Inv.requestService (h : Inv s) (hbusy : s.handle ≠ .waiting) : Inv s.requestService := by
  unfold State.requestService
  split
  · exact { h with closing := fun _ _ => .inl rfl, waits := (absurd · hbusy) }
  · exact h

theorem Inv.close (h : Inv s) (hbusy : s.handle ≠ .waiting) : Inv s.close := by
  unfold State.close State.requestService
  split
  · exact h
  have hdropped : s.closedOnRunner = true → s.records = 0 ∧ true = true := fun hclosed =>
    ⟨(h.dropped hclosed).1, rfl⟩
  split
  · exact { h with
      closing := fun _ _ => .inl rfl
      dropped := hdropped
      waits := (absurd · hbusy) }
  · rename_i hphase
    exact { h with closing := fun hrunning => absurd hrunning hphase, dropped := hdropped }

theorem close_localClosed (s : State) : s.close.localClosed = true := by
  unfold State.close State.requestService
  split
  · assumption
  · split <;> rfl

theorem Inv.release (h : Inv s) (hsafe : s.records = 0 ∨ s.phase = .drained) : Inv s.release where
  __ := h
  waits := nofun
  credit := by rcases hsafe with hsafe | hsafe <;> simp [State.release, h.credit, hsafe]

theorem Inv.destroy (h : Inv s) (hbusy : s.handle ≠ .waiting) : Inv s.destroy := by
  have hclose := h.close hbusy
  unfold State.destroy
  dsimp only
  split
  · exact { hclose with waits := nofun }
  rename_i howned
  rw [Bool.not_eq_true] at howned
  split
  · rename_i hrecords
    refine { hclose with waits := fun _ => ⟨fun hrunning => ?_, howned⟩ }
    -- a stream that is closed while the run goes on is owned by its queued task
    rcases hclose.closing hrunning (close_localClosed s) with hqueued | hclosed
    · simp [owned, hqueued] at howned
    · exact hrecords.1 (hclose.dropped hclosed).1
  · rename_i hsafe
    exact hclose.release (by simpa [Decidable.or_iff_not_imp_left] using hsafe)

theorem Inv.closeOnRunner (h : Inv s) : Inv s.closeOnRunner := by
  unfold State.closeOnRunner
  split
  · exact h
  · exact { h with closing := fun _ _ => .inr rfl, dropped := fun _ => ⟨rfl, rfl⟩ }

theorem Inv.pumpWrites (h : Inv s) (hbusy : s.handle ≠ .waiting) : Inv s.pumpWrites := by
  unfold State.pumpWrites
  split
  · exact h
  · exact { h with waits := (absurd · hbusy) }

theorem Inv.service (h : Inv s) (hbusy : s.handle ≠ .waiting) : Inv s.service := by
  have hdropped : s.closedOnRunner = true → s.records - s.consumed = 0 ∧ s.localClosed = true :=
    fun hclosed => (h.dropped hclosed).imp_left fun hnone => by rw [hnone, Nat.zero_sub]
  unfold State.service
  dsimp only
  split
  · rename_i hclosed
    rw [State.closeOnRunner, if_neg hclosed.2]
    exact { h with
      closing := fun _ _ => .inr rfl
      dropped := fun _ => ⟨rfl, rfl⟩
      waits := (absurd · hbusy) }
  · rename_i hopen
    refine Inv.pumpWrites { h with
      closing := fun _ hclosed => .inr ?_
      dropped := hdropped
      waits := (absurd · hbusy) } hbusy
    exact Decidable.not_not.mp fun hnot => hopen ⟨hclosed, hnot⟩

theorem Inv.onRead (h : Inv s) (hbusy : s.handle ≠ .waiting) (result : ReadResult) :
    Inv (s.onRead result) := by
  have hidle : Inv { s with readPending := false } :=
    { h with waits := (absurd · hbusy) }
  unfold State.onRead
  split
  · exact hidle
  rename_i hopen
  cases result with
  | record =>
    exact { h with dropped := fun hclosed => absurd (h.dropped hclosed).2 hopen }
  | endOfStream => exact hidle
  | failure => exact hidle.closeOnRunner

theorem Inv.onWrite (h : Inv s) (hbusy : s.handle ≠ .waiting) (ok : Bool) :
    Inv (s.onWrite ok) := by
  have hidle : Inv { s with writeInFlight := false } :=
    { h with waits := (absurd · hbusy) }
  unfold State.onWrite
  split
  · exact hidle
  split
  · exact hidle.pumpWrites hbusy
  · exact { hidle with }

/-- A run that begins to stop keeps the invariant, if somebody lets it drain or it
stops itself. -/
theorem Inv.beginStop (h : Inv s) {guard finishing stoppedItself : Bool}
    (hstops : stoppedItself = false → finishing = true ∨ guard = false) :
    Inv { s.beginStop with
      guard := guard, finishing := finishing, stoppedItself := stoppedItself } := by
  unfold State.beginStop
  split
  · exact { h with
      stops := fun _ => hstops
      closing := nofun
      waits := fun hwaiting => ⟨nofun, (h.waits hwaiting).2⟩ }
  · exact { h with stops := fun _ => hstops }

/-- Every step keeps the invariant.  Only a stop by the run itself leaves nobody
to call `finish`. -/
theorem Inv.kept (h : Inv s) (hstep : s.step label = some t) : Inv t := by
  cases label with
  | read =>
    obtain ⟨⟨husable, -⟩, ⟨⟩⟩ := ite_none_right_eq_some.mp hstep
    exact Inv.requestService { h with } (usable_held husable)
  | write =>
    obtain ⟨husable, ⟨⟩⟩ := ite_none_right_eq_some.mp hstep
    exact Inv.requestService { h with } (usable_held husable)
  | close =>
    obtain ⟨hheld, ⟨⟩⟩ := ite_none_right_eq_some.mp hstep
    exact h.close (by simp [hheld])
  | destroy =>
    obtain ⟨hheld, ⟨⟩⟩ := ite_none_right_eq_some.mp hstep
    exact h.destroy (by simp [hheld])
  | stop =>
    cases hstep
    exact h.beginStop fun _ => .inl rfl
  | acceptFailure | keeperFailure =>
    cases hstep
    unfold stopItself
    split
    · exact h.beginStop nofun
    · exact h
  | deliveryThrows =>
    obtain ⟨-, ⟨⟩⟩ := ite_none_left_eq_some.mp hstep
    exact h.beginStop fun _ => .inr rfl
  | closeTask =>
    obtain ⟨-, ⟨⟩⟩ := ite_none_right_eq_some.mp hstep
    exact { h with }
  | service =>
    obtain ⟨hqueued, ⟨⟩⟩ := ite_none_right_eq_some.mp hstep
    exact h.service (h.busy (by simp [owned, hqueued]))
  | onRead result =>
    obtain ⟨hpending, ⟨⟩⟩ := ite_none_right_eq_some.mp hstep
    exact h.onRead (h.busy (by simp [owned, hpending])) result
  | onWrite ok =>
    obtain ⟨hflight, ⟨⟩⟩ := ite_none_right_eq_some.mp hstep
    exact h.onWrite (h.busy (by simp [owned, hflight])) ok
  | spawnOther | runOther =>
    obtain ⟨-, ⟨⟩⟩ := ite_none_left_eq_some.mp hstep
    exact { h with }
  | finish =>
    obtain ⟨-, ⟨⟩⟩ := ite_none_right_eq_some.mp hstep
    exact { h with stops := fun _ _ => .inr rfl }
  | drain =>
    obtain ⟨hidle, ⟨⟩⟩ := ite_none_right_eq_some.mp hstep
    simp only [idle, Bool.and_eq_true, Bool.not_eq_true'] at hidle
    exact { h with
      stops := fun _ _ => .inr hidle.1.1.1.1
      closing := nofun
      waits := fun hwaiting => ⟨nofun, (h.waits hwaiting).2⟩ }
  | wake =>
    obtain ⟨⟨-, hdrained⟩, ⟨⟩⟩ := ite_none_right_eq_some.mp hstep
    exact h.release (.inr hdrained)

/-- An internal step uses up work and does not stop the run. -/
theorem internal_step (hinternal : label.internal = true) (hstep : s.step label = some t) :
    t.work < s.work ∧ t.stoppedItself = s.stoppedItself := by
  cases label <;> try cases hinternal
  all_goals
    simp only [step, service, closeOnRunner, pumpWrites, idle, release, work] at hstep ⊢
    grind -linarith

/-- A destructor that waits is not left alone while the run is to drain. -/
theorem Inv.progress (h : Inv s) (hstop : s.stoppedItself = false)
    (hwaiting : s.handle = .waiting) :
    ∃ label, label.internal = true ∧ (s.step label).isSome = true := by
  obtain ⟨hphase, howned⟩ := h.waits hwaiting
  by_cases hdrained : s.phase = .drained
  · exact ⟨.wake, rfl, by simp [step, hwaiting, hdrained]⟩
  by_cases hclose : s.closeQueued = true
  · exact ⟨.closeTask, rfl, by simp [step, hclose]⟩
  by_cases hothers : s.others = 0
  · rcases h.stops hphase hstop with hfinish | hguard
    · exact ⟨.finish, rfl, by simp [step, hfinish]⟩
    · exact ⟨.drain, rfl, by simp [step, idle, hguard, hclose, howned, hothers, hdrained]⟩
  · exact ⟨.runOther, rfl, by simp [step, hothers]⟩

end Step

theorem Reachable.inv {s : State} (h : Reachable s) : Inv s :=
  Reaches.invariant (P := Inv) (by constructor <;> simp [owned])
    (fun _ _ _ _ hinv _ hstep => hinv.kept hstep) h

/-- Unless the run has stopped itself, a destructor that waits returns by
internal steps alone: while it waits one is possible, and each one uses up
work.  No credit is released beside the runner before the drain. -/
theorem destroyed_handle_returns {s t : State} (h : Reachable s)
    (hstop : s.stoppedItself = false)
    (hrun : Reaches step (fun _ label => label.internal = true) s t) :
    t.releasedEarly = false ∧
    (t.handle = .waiting → ∃ label, label.internal = true ∧ (t.step label).isSome = true) ∧
    ∀ label next, label.internal = true → t.step label = some next → next.work < t.work := by
  have hinv : Inv t := Reachable.inv (h.trans (hrun.strengthen fun _ _ _ _ => trivial))
  have hkept : t.stoppedItself = false :=
    hrun.invariant (P := fun t => t.stoppedItself = false) hstop
      fun _ _ _ _ hflag hinternal hstep => (internal_step hinternal hstep).2.trans hflag
  exact ⟨hinv.credit, hinv.progress hkept, fun _ _ h hstep => (internal_step h hstep).1⟩

theorem Reachable.of_labels (labels : List Label) {s : State}
    (h : runChecked step (fun _ _ => true) {} labels = some s) : Reachable s :=
  .of_runChecked (fun _ _ _ => trivial) h

/-- The application has called `stop`, and another thread destroys a stream that
ended with an unread record. -/
def stopping : State where
  phase := .stopping
  finishing := true
  records := 1
  readPending := false
  localClosed := true
  handle := .waiting

theorem destroyed_handle_returns_stopped :
    stopping.handle = .waiting ∧
    (∃ label, label.internal = true ∧ (stopping.step label).isSome = true) ∧
    (∀ label next, label.internal = true → stopping.step label = some next →
      next.work < stopping.work) ∧
    ∃ t : State, t.handle = .gone ∧ t.releasedEarly = false := by
  have hstopping : Reachable stopping := .of_labels
    [.onRead .record, .onRead .endOfStream, .stop, .closeTask, .destroy] rfl
  obtain ⟨-, hprogress, hwork⟩ := destroyed_handle_returns hstopping rfl .refl
  have hreturned : Reaches step (fun _ label => label.internal = true) stopping
      { stopping with phase := .drained, guard := false, finishing := false, handle := .gone } :=
    .of_runChecked (fun _ _ h => h) (rfl : runChecked step (fun _ label => label.internal)
      stopping [.finish, .drain, .wake] = _)
  exact ⟨rfl, hprogress rfl, hwork, _, rfl, (destroyed_handle_returns hstopping rfl hreturned).1⟩

/-- The stream has ended with an unread record, and the server can accept no
more sessions: nothing but a stop of the endpoint ends the wait. -/
theorem destructor_waits_for_stop :
    ∃ s, Reachable s ∧ s.handle = .waiting ∧
      ∀ label, label.internal = true → s.step label = none :=
  ⟨_, .of_labels [.onRead .record, .onRead .endOfStream, .acceptFailure, .closeTask,
    .destroy] rfl, rfl, fun label h => by cases label <;> first | rfl | cases h⟩

end Yume.NativeRun
