/-
The scheduler that keeps a bounded number of session starts pending on each
listener.  The driver has its turn inside `start_accept` and between calls, so a
state carries the calls that wait for a start to return.
-/
import Yume.Lib.Runs
import Yume.Session.Limits

namespace Yume.Runtime

open Yume.Lib Yume.Session List

inductive Phase where
  | idle
  | running
  | failed
deriving DecidableEq

structure LaneState where
  pending : Nat := 0
  retryScheduled : Bool := false
  arming : Bool := false
  armAgain : Bool := false

/-- What happened to the starts of the lanes.  A start stalls when it is refused
or fails sooner than the retry delay. -/
inductive Event where
  | started (lane : Nat)
  | stalled (lane : Nat)
  | settled (lane : Nat)
  | retryDue (lane : Nat)
  | failed (status : Status)

/-- A call of `start_accept` that has not returned, with the lanes that `start`
arms after it. -/
structure Frame where
  lane : Nat
  armedAt : Int
  rest : List Nat

/-- The scheduler, and on the driver's side the starts that neither were refused
nor settled, the retries to come and what happened, the newest first. -/
structure AcceptScheduler where
  laneCount : Nat
  lanes : Nat → LaneState := fun _ => {}
  pendingPerLane : Nat := 0
  retryDelay : Int := 0
  phase : Phase := .idle
  closing : Bool := false
  live : List (Nat × Int) := []
  timers : List Nat := []
  stack : List Frame := []
  events : List Event := []

namespace AcceptScheduler

def running (s : AcceptScheduler) : Bool := s.phase = .running && !s.closing

def set (s : AcceptScheduler) (lane : Nat) (change : LaneState → LaneState) :
    AcceptScheduler :=
  { s with lanes := fun other => if other = lane then change (s.lanes lane) else s.lanes other }

/-- The test of the loop in `arm`. -/
def wants (s : AcceptScheduler) (lane : Nat) : Bool :=
  s.running && !(s.lanes lane).retryScheduled && decide ((s.lanes lane).pending < s.pendingPerLane)

def issue (s : AcceptScheduler) (now : Int) (lane : Nat) (rest : List Nat) : AcceptScheduler :=
  { s.set lane fun l => { l with pending := l.pending + 1, arming := true } with
    live := (lane, now) :: s.live
    stack := ⟨lane, now, rest⟩ :: s.stack
    events := .started lane :: s.events }

/-- `arm` of the lanes in turn, up to the first start. -/
def arms (now : Int) : List Nat → AcceptScheduler → AcceptScheduler
  | [], s => s
  | lane :: rest, s =>
    if (s.lanes lane).arming then arms now rest (s.set lane ({ · with armAgain := true }))
    else
      let s := s.set lane ({ · with armAgain := false })
      if s.wants lane then s.issue now lane rest else arms now rest s

/-- The end of the inner loop of `arm`. -/
def leave (s : AcceptScheduler) (now : Int) (lane : Nat) (rest : List Nat) : AcceptScheduler :=
  arms now (if (s.lanes lane).armAgain then lane :: rest else rest) s

def fail (s : AcceptScheduler) (status : Status) : AcceptScheduler :=
  if s.phase = .running then
    { s with phase := .failed, events := .failed status :: s.events }
  else s

/-- `defer`, with what `schedule_retry` answers. -/
def defer (s : AcceptScheduler) (lane : Nat) (scheduled : Bool) : AcceptScheduler :=
  if (s.lanes lane).retryScheduled || !s.running then s
  else if scheduled then
    { s.set lane ({ · with retryScheduled := true }) with timers := lane :: s.timers }
  else if (s.lanes lane).pending = 0 then
    s.fail ⟨.resourceExhausted, "accept retry could not be scheduled"⟩
  else s

/-- A start is no longer pending. -/
def release (s : AcceptScheduler) (lane : Nat) (armedAt : Int) (event : Event) :
    AcceptScheduler :=
  { s.set lane fun l => { l with pending := l.pending - 1 } with
    live := s.live.erase (lane, armedAt)
    events := event :: s.events }

def start (s : AcceptScheduler) (now : Int) (pendingPerLane : Nat) (retryDelay : Int) :
    Except StatusCode AcceptScheduler :=
  if s.laneCount = 0 ∨ pendingPerLane = 0 ∨ retryDelay ≤ 0 then .error .invalidArgument
  else if s.phase ≠ .idle then .error .failedPrecondition
  else .ok (arms now (List.range s.laneCount)
    { s with pendingPerLane, retryDelay, phase := .running })

/-- `settled`, with what `listener_stopped`, `now` and `schedule_retry` answer. -/
def settled (s : AcceptScheduler) (now : Int) (lane : Nat) (armedAt : Int)
    (succeeded stopped : Bool) (reading : Int) (scheduled : Bool) : AcceptScheduler :=
  let early := !succeeded && decide (reading - armedAt < s.retryDelay)
  let s := s.release lane armedAt (if early then .stalled lane else .settled lane)
  if !s.running then s
  else if succeeded then s.arms now [lane]
  else if stopped then s.fail ⟨.closed, "native listener stopped accepting"⟩
  else if early then s.defer lane scheduled
  else s.arms now [lane]

def retryDue (s : AcceptScheduler) (now : Int) (lane : Nat) : AcceptScheduler :=
  arms now [lane] { s.set lane ({ · with retryScheduled := false }) with
    timers := s.timers.erase lane
    events := .retryDue lane :: s.events }

/-- `arm` goes on when `start_accept` returns.  The flag `arming` is lowered here
and raised again by the next start; nothing reads it in between. -/
def returned (s : AcceptScheduler) (now : Int) (status : Status) (scheduled : Bool) :
    AcceptScheduler :=
  match s.stack with
  | [] => s
  | ⟨lane, armedAt, rest⟩ :: below =>
    let s := { s.set lane ({ · with arming := false }) with stack := below }
    if status.isOk then
      if s.wants lane then s.issue now lane rest else s.leave now lane rest
    else
      let s := s.release lane armedAt (.stalled lane)
      (if status.code = .closed then s else s.defer lane scheduled).leave now lane rest

inductive Move where
  | start (pendingPerLane : Nat) (retryDelay : Int)
  | settled (lane : Nat) (armedAt : Int) (succeeded stopped : Bool) (reading : Int)
    (scheduled : Bool)
  | retryDue (lane : Nat)
  | returned (status : Status) (scheduled : Bool)
  | close

/-- One move of the driver, with the clock's reading for the start it leads to. -/
def step (s : AcceptScheduler) : Move × Int → Option AcceptScheduler
  | (.start pendingPerLane retryDelay, now) =>
    some ((s.start now pendingPerLane retryDelay).toOption.getD s)
  | (.settled lane armedAt succeeded stopped reading scheduled, now) =>
    some (s.settled now lane armedAt succeeded stopped reading scheduled)
  | (.retryDue lane, now) => some (s.retryDue now lane)
  | (.returned status scheduled, now) => some (s.returned now status scheduled)
  | (.close, _) => some { s with closing := true }

/-- The driver's contract: a start settles once and not after a refusal, a retry
comes due once, and `Closed` is returned only when the owner is closing. -/
def obeys (s : AcceptScheduler) : Move × Int → Bool
  | (.settled lane armedAt .., _) => s.live.contains (lane, armedAt)
  | (.retryDue lane, _) => s.timers.contains lane
  | (.returned status _, _) => s.stack.head?.any fun frame =>
    (status.isOk || s.live.contains (frame.lane, frame.armedAt)) &&
      (status.code ≠ .closed || s.closing)
  | _ => true

/-- `schedule_retry` is refused only for a lane with no other start pending. -/
def patient (s : AcceptScheduler) : Move × Int → Bool
  | (.settled lane _ _ _ _ scheduled, _) => scheduled || (s.lanes lane).pending ≤ 1
  | (.returned _ scheduled, _) => scheduled ||
    s.stack.head?.all fun frame => (s.lanes frame.lane).pending ≤ 1
  | _ => true

/-- The lane stalled, and since then neither a retry came due nor another of its
starts settled. -/
def waits (lane : Nat) : List Event → Bool
  | [] => false
  | .stalled other :: events => other = lane || waits lane events
  | .settled other :: events | .retryDue other :: events => other ≠ lane && waits lane events
  | _ :: events => waits lane events

/-- No start was issued for a lane that waited. -/
def paced : List Event → Bool
  | [] => true
  | .started lane :: events => !waits lane events && paced events
  | _ :: events => paced events

section Invariant

variable {careful : Prop} {s : AcceptScheduler} {todo stalled rest : List Nat} {lane : Nat}
  {armedAt now : Int} {scheduled : Bool}

/-- What holds of one lane, while the lanes of `todo` are still to be armed and
those of `stalled` still to be deferred. -/
structure LaneSound (careful : Prop) (todo stalled : List Nat) (s : AcceptScheduler) (lane : Nat)
    (l : LaneState) : Prop where
  live : s.live.countP (·.1 = lane) = l.pending
  bound : l.pending ≤ s.pendingPerLane
  arming : l.arming = true ↔ lane ∈ s.stack.map Frame.lane
  timers : l.retryScheduled = true → lane ∈ s.timers
  busy : lane < s.laneCount → s.running = true → l.arming = false →
    lane ∉ todo ++ s.stack.flatMap Frame.rest → 0 < l.pending ∨ l.retryScheduled = true
  calm : careful → s.running = true → lane ∉ stalled → waits lane s.events = true →
    l.retryScheduled = true

/-- What holds of a scheduler that was started, with its lanes. -/
structure Sound (careful : Prop) (todo stalled : List Nat) (s : AcceptScheduler) : Prop where
  begun : s.phase ≠ .idle
  positive : 0 < s.pendingPerLane
  nodup : (s.stack.map Frame.lane).Nodup
  quiet : s.phase ≠ .failed → ∀ status, .failed status ∉ s.events
  once : s.events.Pairwise fun later earlier => ∀ status, earlier = .failed status →
    (∀ lane, later ≠ .started lane) ∧ ∀ other, later ≠ .failed other
  paced : careful → paced s.events = true
  lane : ∀ lane, LaneSound careful todo stalled s lane (s.lanes lane)

/-- A change of one lane keeps what the changed lane and the other ones have. -/
theorem forall_set {P : Nat → LaneState → Prop} {lanes lanes' : Nat → LaneState} {l : LaneState}
    (hset : lanes' = fun other => if other = lane then l else lanes other) (hlane : P lane l)
    (hother : ∀ other ≠ lane, P other (lanes other)) (other : Nat) : P other (lanes' other) := by
  subst hset
  by_cases hsame : other = lane
  · simpa [hsame] using hlane
  · simpa [hsame] using hother other hsame

theorem running_iff : s.running = true ↔ s.phase = .running ∧ s.closing = false := by
  simp [running]

theorem Sound.issued (h : Sound careful (lane :: rest) [] s)
    (harming : (s.lanes lane).arming = false) (hwants : s.wants lane = true) :
    Sound careful [] [] (s.issue now lane rest) := by
  simp only [wants, Bool.and_eq_true, Bool.not_eq_true', decide_eq_true_eq] at hwants
  obtain ⟨⟨hrun, hretry⟩, hroom⟩ := hwants
  have hquiet := h.quiet (by simp [(running_iff.mp hrun).1])
  have hlane := h.lane lane
  refine ⟨h.begun, h.positive, nodup_cons.mpr ⟨fun hmem => ?_, h.nodup⟩, fun _ status =>
    not_mem_cons_of_ne_of_not_mem nofun (hquiet status), pairwise_cons.mpr ⟨fun _ hmem status hfail =>
    absurd (hfail ▸ hmem) (hquiet status), h.once⟩, fun hcareful => ?_,
    forall_set (P := LaneSound careful [] [] (s.issue now lane rest)) rfl
      ⟨?_, hroom, ?_, hlane.timers, fun _ _ => nofun, hlane.calm⟩ fun other hne => ?_⟩
  · exact absurd (harming.symm.trans (hlane.arming.mpr hmem)) nofun
  · -- a lane that waits has its retry scheduled, and then wants no start
    have hwaits : waits lane s.events = false := eq_false_of_ne_true fun hwaits =>
      absurd (hretry.symm.trans (hlane.calm hcareful hrun not_mem_nil hwaits)) nofun
    simp [issue, AcceptScheduler.paced, hwaits, h.paced hcareful]
  · simp [issue, hlane.live]
  · simp [issue]
  · have hother := h.lane other
    refine ⟨?_, hother.bound, ?_, hother.timers, fun hlt hrun harming hrest => ?_, hother.calm⟩
    · simp [issue, Ne.symm hne, hother.live]
    · simp [issue, hne, hother.arming]
    · exact hother.busy hlt hrun harming (by simpa [issue, hne] using hrest)

/-- A lane that is being armed or wants no start need not be armed. -/
theorem Sound.skip (h : Sound careful (lane :: todo) stalled s)
    (hskip : (s.lanes lane).arming = true ∨ s.wants lane = false) :
    Sound careful todo stalled s where
  __ := h
  lane other :=
    { h.lane other with
      busy := fun hlt hrun harming hrest => by
        by_cases hlane : other = lane
        · subst hlane
          have hwants := hskip.resolve_left (by simp [harming])
          simp only [wants, hrun, Bool.true_and, Bool.and_eq_false_iff, Bool.not_eq_false',
            decide_eq_false_iff_not, Nat.not_lt] at hwants
          exact hwants.symm.imp_left (Nat.lt_of_lt_of_le h.positive)
        · exact (h.lane other).busy hlt hrun harming (by simpa [hlane] using hrest) }

theorem Sound.mono (h : Sound careful todo stalled s) :
    Sound careful (lane :: todo) stalled s where
  __ := h
  lane other :=
    { h.lane other with
      busy := fun hlt hrun harming hrest => (h.lane other).busy hlt hrun harming fun hmem =>
        hrest (mem_cons_of_mem _ hmem) }

theorem Sound.flag (h : Sound careful todo stalled s) (again : Bool) :
    Sound careful todo stalled (s.set lane ({ · with armAgain := again })) where
  __ := h
  lane := forall_set (P := LaneSound careful todo stalled (s.set lane _)) rfl
    { h.lane lane with } fun other _ => { h.lane other with }

theorem Sound.arms (h : Sound careful todo [] s) : Sound careful [] [] (s.arms now todo) := by
  induction todo generalizing s with
  | nil => exact h
  | cons lane rest ih =>
    simp only [arms]
    split
    · rename_i harming
      exact ih ((h.skip (.inl harming)).flag true)
    rename_i harming
    split
    · rename_i hwants
      exact (h.flag false).issued (by simpa [set] using harming) hwants
    rename_i hwants
    exact ih ((h.flag false).skip (.inr (Bool.not_eq_true _ ▸ hwants)))

theorem Sound.leave (h : Sound careful rest [] s) :
    Sound careful [] [] (s.leave now lane rest) := by
  unfold AcceptScheduler.leave
  split
  · exact h.mono.arms
  · exact h.arms

/-- A scheduler that does not run has nothing to arm or to defer. -/
theorem Sound.of_not_running (h : Sound careful todo stalled s) (hstop : s.running = false) :
    Sound careful rest [] s where
  __ := h
  lane other := { h.lane other with busy := by simp [hstop], calm := by simp [hstop] }

theorem Sound.fail (h : Sound careful todo stalled s) (hphase : s.phase = .running)
    (status : Status) : Sound careful rest [] (s.fail status) := by
  have hquiet := h.quiet (by simp [hphase])
  rw [AcceptScheduler.fail, if_pos hphase]
  exact { h with
    begun := nofun
    quiet := fun hnot => absurd rfl hnot
    once := pairwise_cons.mpr
      ⟨fun _ hmem status hfail => absurd (hfail ▸ hmem) (hquiet status), h.once⟩
    lane := fun other => { h.lane other with
      busy := fun _ hrun => absurd (running_iff.mp hrun).1 nofun
      calm := fun _ hrun => absurd (running_iff.mp hrun).1 nofun } }

/-- A lane with a start or a retry to come is neither to be armed nor deferred. -/
theorem Sound.deferred (h : Sound careful (lane :: todo) [lane] s)
    (hbusy : 0 < (s.lanes lane).pending ∨ (s.lanes lane).retryScheduled = true)
    (hcalm : careful → (s.lanes lane).retryScheduled = true) : Sound careful todo [] s where
  __ := h
  lane other := by
    by_cases hlane : other = lane
    · subst hlane
      exact { h.lane other with
        busy := fun _ _ _ _ => hbusy
        calm := fun hcareful _ _ _ => hcalm hcareful }
    · exact { h.lane other with
        busy := fun hlt hrun harming hrest =>
          (h.lane other).busy hlt hrun harming (by simpa [hlane] using hrest)
        calm := fun hcareful hrun _ => (h.lane other).calm hcareful hrun (by simpa using hlane) }

theorem Sound.schedule (h : Sound careful todo stalled s) : Sound careful todo stalled
    { s.set lane ({ · with retryScheduled := true }) with timers := lane :: s.timers } where
  __ := h
  lane := forall_set (P := LaneSound careful todo stalled { s.set lane _ with timers := _ }) rfl
    { h.lane lane with
      timers := fun _ => mem_cons_self
      busy := fun _ _ _ _ => .inr rfl
      calm := fun _ _ _ _ => rfl }
    fun other _ => { h.lane other with
      timers := fun hretry => mem_cons_of_mem _ ((h.lane other).timers hretry) }

theorem Sound.defer (h : Sound careful (lane :: todo) [lane] s)
    (hpatient : careful → scheduled = true ∨ (s.lanes lane).pending = 0) :
    Sound careful todo [] (s.defer lane scheduled) := by
  unfold AcceptScheduler.defer
  cases hretry : (s.lanes lane).retryScheduled with
  | true => exact h.deferred (.inr hretry) fun _ => hretry
  | false =>
  cases hrun : s.running with
  | false => exact h.of_not_running hrun
  | true =>
  simp only [Bool.not_true, Bool.or_false, Bool.false_eq_true, if_false]
  split
  · exact h.schedule.deferred (.inr (by simp [set])) fun _ => by simp [set]
  rename_i hunscheduled
  split
  · exact h.fail (running_iff.mp hrun).1 _
  rename_i hpending
  exact h.deferred (.inl (Nat.pos_of_ne_zero hpending)) fun hcareful =>
    absurd ((hpatient hcareful).resolve_left hunscheduled) hpending

/-- An event that neither starts a lane nor reports a failure. -/
theorem Sound.cons (h : Sound careful todo stalled s) (event : Event)
    (hstarted : ∀ lane, event ≠ .started lane) (hfailed : ∀ status, event ≠ .failed status) :
    (s.phase ≠ .failed → ∀ status, .failed status ∉ event :: s.events) ∧
    ((event :: s.events).Pairwise fun later earlier => ∀ status, earlier = .failed status →
      (∀ lane, later ≠ .started lane) ∧ ∀ other, later ≠ .failed other) ∧
    (careful → AcceptScheduler.paced (event :: s.events) = true) := by
  refine ⟨fun hphase status => ?_, pairwise_cons.mpr ⟨fun _ _ _ _ => ⟨hstarted, hfailed⟩, h.once⟩,
    fun hcareful => ?_⟩
  · exact not_mem_cons_of_ne_of_not_mem (hfailed status).symm (h.quiet hphase status)
  · cases event with
    | started lane => exact absurd rfl (hstarted lane)
    | _ => exact h.paced hcareful

theorem Sound.released (h : Sound careful todo [] s) (hlive : (lane, armedAt) ∈ s.live)
    (htodo : todo ⊆ lane :: rest) {event : Event}
    (hevent : event = .stalled lane ∧ stalled = [lane] ∨ event = .settled lane) :
    Sound careful (lane :: rest) stalled (s.release lane armedAt event) := by
  obtain ⟨hquiet, honce, hpaced⟩ := h.cons event
    (by rcases hevent with ⟨rfl, -⟩ | rfl <;> simp) (by rcases hevent with ⟨rfl, -⟩ | rfl <;> simp)
  have hcount (other : Nat) := (perm_cons_erase hlive).countP_eq (·.1 = other)
  refine ⟨h.begun, h.positive, h.nodup, hquiet, honce, hpaced, forall_set
    (P := LaneSound careful (lane :: rest) stalled (s.release lane armedAt event)) rfl
    { h.lane lane with live := ?_, bound := ?_, busy := ?_, calm := ?_ }
    fun other hne => { h.lane other with live := ?_, busy := ?_, calm := ?_ }⟩
  · have hall := (h.lane lane).live
    rw [hcount lane, countP_cons_of_pos (by simp)] at hall
    exact Nat.eq_sub_of_add_eq hall
  · exact Nat.le_trans (Nat.sub_le _ _) (h.lane lane).bound
  · exact fun _ _ _ hrest => absurd mem_cons_self hrest
  · -- the lane itself waits to be deferred, or has just settled
    intro _ _ hstalled hwaits
    rcases hevent with ⟨rfl, rfl⟩ | rfl
    · exact absurd mem_cons_self hstalled
    · simp [release, waits] at hwaits
  · have hall := (h.lane other).live
    rwa [hcount other, countP_cons_of_neg (by simpa using Ne.symm hne)] at hall
  · refine fun hlt hrun harming hrest => (h.lane other).busy hlt hrun harming fun hmem => hrest ?_
    rcases mem_append.mp hmem with hmem | hmem
    · exact mem_append_left _ (htodo hmem)
    · exact mem_append_right _ hmem
  · refine fun hcareful hrun _ hwaits => (h.lane other).calm hcareful hrun not_mem_nil ?_
    rcases hevent with ⟨rfl, -⟩ | rfl <;>
      simpa [release, waits, Ne.symm hne] using hwaits

section

variable (h : Sound careful [] [] s)
include h

/-- The frame of `start_accept` is left, and its lane is armed again. -/
theorem Sound.unwind {frame : Frame} {below : List Frame} (hstack : s.stack = frame :: below) :
    Sound careful (frame.lane :: frame.rest) []
      { s.set frame.lane ({ · with arming := false }) with stack := below } := by
  have hlanes : (frame.lane :: below.map Frame.lane).Nodup := by simpa [hstack] using h.nodup
  obtain ⟨hfree, hnodup⟩ := nodup_cons.mp hlanes
  exact { h with
    nodup := hnodup
    lane := forall_set (P := LaneSound careful (frame.lane :: frame.rest) []
        { s.set frame.lane _ with stack := below }) rfl
      { h.lane frame.lane with
        arming := by simpa using hfree
        busy := fun _ _ _ hrest => absurd mem_cons_self hrest }
      fun other hne => { h.lane other with
        arming := by simp [(h.lane other).arming, hstack, hne]
        busy := fun hlt hrun harming hrest =>
          (h.lane other).busy hlt hrun harming (by simpa [hstack, hne] using hrest) } }

theorem Sound.returned {status : Status} (hok : s.obeys (.returned status scheduled, now) = true)
    (hpatient : careful → s.patient (.returned status scheduled, now) = true) :
    Sound careful [] [] (s.returned now status scheduled) := by
  cases hstack : s.stack with
  | nil => simp [obeys, hstack] at hok
  | cons frame below =>
  obtain ⟨lane, armedAt, rest⟩ := frame
  obtain ⟨hlive, hclosed⟩ : (status.isOk = false → (lane, armedAt) ∈ s.live) ∧
      (status.code = .closed → s.closing = true) := by
    simpa [obeys, hstack, Decidable.or_iff_not_imp_left] using hok
  have hunwind := h.unwind hstack
  simp only [AcceptScheduler.returned, hstack]
  split
  · split
    · exact hunwind.issued (by simp [set]) ‹_›
    · exact (hunwind.skip (.inr (Bool.not_eq_true _ ▸ ‹_›))).leave
  rename_i hrefused
  have hrelease : Sound careful (lane :: rest) [lane] _ := hunwind.released
    (hlive (Bool.not_eq_true _ ▸ hrefused)) (List.Subset.refl _) (.inl ⟨rfl, rfl⟩)
  apply Sound.leave
  split
  · rename_i hcode
    exact hrelease.of_not_running (by
      simp [running, release, set, hclosed hcode])
  exact hrelease.defer fun hp => by
    simpa [patient, hstack, release, set,
      Nat.sub_eq_zero_iff_le] using hpatient hp

theorem Sound.settled (hlive : (lane, armedAt) ∈ s.live)
    (hpatient : careful → scheduled = true ∨ (s.lanes lane).pending ≤ 1)
    (succeeded stopped : Bool) (reading : Int) :
    Sound careful [] [] (s.settled now lane armedAt succeeded stopped reading scheduled) := by
  simp only [AcceptScheduler.settled]
  cases hearly : !succeeded && decide (reading - armedAt < s.retryDelay) with
  | false =>
    have hrelease : Sound careful [lane] [] _ := h.released hlive (nil_subset _) (.inr rfl)
    simp only [Bool.false_eq_true, if_false]
    split
    · rename_i hstop
      exact hrelease.of_not_running (by simpa using hstop)
    split
    · exact hrelease.arms
    split
    · exact hrelease.fail (by grind -linarith [running]) _
    · exact hrelease.arms
  | true =>
    have hrelease : Sound careful [lane] [lane] _ := h.released hlive (nil_subset _)
      (.inl ⟨rfl, rfl⟩)
    simp only [if_true]
    split
    · rename_i hstop
      exact hrelease.of_not_running (by simpa using hstop)
    split
    · simp_all
    split
    · exact hrelease.fail (by grind -linarith [running]) _
    exact hrelease.defer fun hp => by
      simpa [release, set, Nat.sub_eq_zero_iff_le] using hpatient hp

theorem Sound.retryDue : Sound careful [] [] (s.retryDue now lane) := by
  obtain ⟨hquiet, honce, hpaced⟩ := h.cons (.retryDue lane) nofun nofun
  exact Sound.arms { h with
    quiet := hquiet
    once := honce
    paced := hpaced
    lane := forall_set (P := LaneSound careful [lane] [] { s.set lane _ with
        timers := s.timers.erase lane, events := .retryDue lane :: s.events }) rfl
      { h.lane lane with
        timers := nofun
        busy := fun _ _ _ hrest => absurd mem_cons_self hrest
        calm := fun _ _ _ hwaits => by simp [waits] at hwaits }
      fun other hne => { h.lane other with
        timers := fun hretry => (mem_erase_of_ne hne).mpr ((h.lane other).timers hretry)
        busy := fun hlt hrun harming hrest =>
          (h.lane other).busy hlt hrun harming fun hmem => hrest (mem_cons_of_mem _ hmem)
        calm := fun hcareful hrun _ hwaits => (h.lane other).calm hcareful hrun not_mem_nil
          (by simpa [waits, Ne.symm hne] using hwaits) } }

theorem Sound.step {s' : AcceptScheduler} {label : Move × Int}
    (hok : s.obeys label = true) (hpatient : careful → s.patient label = true)
    (hnext : s.step label = some s') : Sound careful [] [] s' := by
  obtain ⟨move, now⟩ := label
  cases move with
  | start pendingPerLane retryDelay =>
    have hstart : (s.start now pendingPerLane retryDelay).toOption = none := by
      unfold start
      split
      · rfl
      rw [if_pos h.begun]
      rfl
    simp only [AcceptScheduler.step, hstart, Option.getD_none, Option.some.injEq] at hnext
    exact hnext ▸ h
  | settled lane armedAt succeeded stopped reading scheduled =>
    cases hnext
    exact h.settled (by simpa [obeys] using hok) (by simpa [patient] using hpatient) ..
  | retryDue lane =>
    cases hnext
    exact h.retryDue
  | returned status scheduled =>
    cases hnext
    exact h.returned hok hpatient
  | close =>
    cases hnext
    exact { h with lane := fun other =>
      { h.lane other with busy := by simp [running], calm := by simp [running] } }

end

/-- A reached scheduler was not started, or is sound. -/
theorem Sound.of_reaches (careful : Prop) {ok : AcceptScheduler → Move × Int → Prop} {count : Nat}
    (hok : ∀ s label, ok s label → s.obeys label = true ∧ (careful → s.patient label = true))
    (h : Reaches AcceptScheduler.step ok { laneCount := count } s) :
    s = { laneCount := s.laneCount, closing := s.closing } ∨ Sound careful [] [] s := by
  refine h.invariant (P := fun s => s = { laneCount := s.laneCount, closing := s.closing } ∨
    Sound careful [] [] s) (.inl rfl) fun s label s' _ hs hlabel hnext => ?_
  obtain ⟨hobeys, hpatient⟩ := hok s label hlabel
  rcases hs with hs | hs
  · rw [hs] at hobeys hnext
    obtain ⟨move, now⟩ := label
    cases move with
    | start pendingPerLane retryDelay =>
      simp only [AcceptScheduler.step, start, ne_eq, not_true, if_false] at hnext
      split at hnext
      · cases hnext
        exact .inl rfl
      rename_i hvalid
      cases hnext
      simp only [not_or] at hvalid
      refine .inr (Sound.arms ⟨nofun, Nat.pos_of_ne_zero hvalid.2.1, .nil, fun _ _ => not_mem_nil,
        .nil, fun _ => rfl, fun lane => ⟨rfl, Nat.zero_le _, by simp, nofun, ?_, fun _ _ _ => nofun⟩⟩)
      exact fun hlt _ _ hrest => absurd (mem_range.mpr hlt) (by simpa using hrest)
    | close =>
      cases hnext
      exact .inl rfl
    | settled | retryDue | returned => simp [obeys] at hobeys
  · exact .inr (hs.step hobeys hpatient hnext)

end Invariant

/-- Under the driver's contract a running scheduler never leaves a lane without a
pending start or a retry to come, counts the pending starts of each lane within
the limit, and reports one failure at most and starts nothing after it. -/
theorem no_listener_idle {count : Nat} {s : AcceptScheduler}
    (h : Reaches step (fun s label => s.obeys label = true) { laneCount := count } s) :
    (s.stack = [] → s.running = true → ∀ lane < s.laneCount,
      0 < (s.lanes lane).pending ∨ lane ∈ s.timers) ∧
    (∀ lane, (s.lanes lane).pending = s.live.countP (·.1 = lane) ∧
      (s.lanes lane).pending ≤ s.pendingPerLane) ∧
    s.events.Pairwise fun later earlier => ∀ status, earlier = .failed status →
      (∀ lane, later ≠ .started lane) ∧ ∀ other, later ≠ .failed other := by
  rcases Sound.of_reaches False (fun _ _ hok => ⟨hok, nofun⟩) h with hidle | h
  · rw [hidle]
    exact ⟨by simp [running], by simp, .nil⟩
  refine ⟨fun hstack hrun lane hlane => ?_, fun lane => ⟨(h.lane lane).live.symm,
    (h.lane lane).bound⟩, h.once⟩
  have harming : (s.lanes lane).arming = false := by
    simpa [hstack] using (h.lane lane).arming
  exact ((h.lane lane).busy hlane hrun harming (by simp [hstack])).imp id (h.lane lane).timers

theorem no_listener_idle_refused : ∃ s : AcceptScheduler, s.running = true ∧
    s.laneCount = 2 ∧ ∀ lane < s.laneCount, 0 < (s.lanes lane).pending ∨ lane ∈ s.timers := by
  have hrun : (runChecked step obeys { laneCount := 2 } [(.start 1 10, 0),
      (.returned .success false, 1), (.returned ⟨.resourceExhausted, ""⟩ true, 2)]).any
      (fun s => s.stack.isEmpty && s.running && s.laneCount == 2) = true := by decide
  obtain ⟨s, hreach, hs⟩ := Reaches.exists_of_runChecked (fun _ _ h => h) _ _ hrun
  simp only [Bool.and_eq_true, List.isEmpty_iff, beq_iff_eq] at hs
  exact ⟨s, hs.1.2, hs.2, (no_listener_idle hreach).1 hs.1.1 hs.1.2⟩

section Returning

variable {s s' : AcceptScheduler} {lane : Nat} {rest : List Nat} {now : Int} {scheduled : Bool}
  {frame : Frame} {below : List Frame}

/-- The call has returned to the frames below it, or has fewer lanes left. -/
def Returns (below : List Frame) (lanes : Nat) (s : AcceptScheduler) : Prop :=
  s.stack = below ∨ ∃ frame, s.stack = frame :: below ∧ frame.rest.length < lanes

theorem arms_returns (lanes : List Nat) (s : AcceptScheduler) :
    Returns s.stack lanes.length (s.arms now lanes) := by
  induction lanes generalizing s with
  | nil => exact .inl rfl
  | cons lane rest ih =>
    simp only [arms]
    split
    · exact (ih _).imp id fun ⟨frame, hframe, hlt⟩ => ⟨frame, hframe, Nat.lt_succ_of_lt hlt⟩
    split
    · exact .inr ⟨_, rfl, Nat.lt_succ_self _⟩
    · exact (ih _).imp id fun ⟨frame, hframe, hlt⟩ => ⟨frame, hframe, Nat.lt_succ_of_lt hlt⟩

/-- A lane that wants no start is left for the lanes after it. -/
theorem leave_returns (hstack : s.stack = below) (harming : (s.lanes lane).arming = false)
    (hwants : s.wants lane = false) : Returns below rest.length (s.leave now lane rest) := by
  subst hstack
  unfold leave
  split
  · have hagain : (s.set lane ({ · with armAgain := false })).wants lane = false := by
      simpa [wants, running, set] using hwants
    simp only [arms, harming, hagain, Bool.false_eq_true, if_false]
    exact arms_returns rest _
  · exact arms_returns rest s

theorem defer_wants (hpatient : scheduled = true ∨ (s.lanes lane).pending = 0) :
    (s.defer lane scheduled).wants lane = false := by
  grind -linarith [defer, wants, running, set, fail]

theorem defer_stack : (s.defer lane scheduled).stack = s.stack := by
  unfold defer fail
  split_ifs <;> rfl

theorem defer_arming (other : Nat) :
    ((s.defer lane scheduled).lanes other).arming = (s.lanes other).arming := by
  grind -linarith [defer, set, fail]

theorem settled_wants {reading armedAt : Int} (now : Int) (stopped : Bool)
    (hearly : reading - armedAt < s.retryDelay)
    (hpatient : scheduled = true ∨ (s.lanes lane).pending ≤ 1) :
    (s.settled now lane armedAt false stopped reading scheduled).wants lane = false ∧
    (s.settled now lane armedAt false stopped reading scheduled).stack = s.stack := by
  simp only [settled, hearly, Bool.not_false, decide_true, Bool.and_true, if_true,
    Bool.false_eq_true, if_false]
  split
  · rename_i hstop
    exact ⟨by grind -linarith [wants], rfl⟩
  split
  · exact ⟨by grind -linarith [wants, running, fail], by grind -linarith [fail, running, release, set]⟩
  refine ⟨defer_wants ?_, defer_stack⟩
  simpa [release, set, Nat.sub_eq_zero_iff_le] using hpatient

/-- The driver fails the start it is asked for at once: it refuses it, or it
accepts it after settling it sooner than the retry delay. -/
inductive FailsAtOnce (s : AcceptScheduler) : AcceptScheduler → Prop where
  | refused {status : Status} {scheduled : Bool} {now : Int} : status.isOk = false →
    s.obeys (.returned status scheduled, now) = true →
    s.patient (.returned status scheduled, now) = true →
    FailsAtOnce s (s.returned now status scheduled)
  | settled {frame : Frame} {stopped scheduled : Bool} {reading now later : Int} :
    s.stack.head? = some frame → reading - frame.armedAt < s.retryDelay →
    s.obeys (.settled frame.lane frame.armedAt false stopped reading scheduled, now) = true →
    s.patient (.settled frame.lane frame.armedAt false stopped reading scheduled, now) = true →
    FailsAtOnce s ((s.settled now frame.lane frame.armedAt false stopped reading
      scheduled).returned later .success true)

theorem FailsAtOnce.sound (hfail : FailsAtOnce s s') (h : Sound True [] [] s) :
    Sound True [] [] s' := by
  cases hfail with
  | refused _ hobeys hpatient => exact h.returned hobeys fun _ => hpatient
  | settled hhead hearly hobeys hpatient =>
    rename_i stopped _ _ now later
    have hsame := (settled_wants now stopped hearly (by simpa [patient] using hpatient)).2
    refine (h.settled (by simpa [obeys] using hobeys)
      (by simpa [patient] using hpatient) ..).returned ?_ fun _ => rfl
    simp [obeys, hsame, hhead, Status.success, Status.isOk]

/-- An accepted start of a lane that wants no more ends the lane's turn. -/
theorem returned_returns (hstack : s.stack = frame :: below) (hwants : s.wants frame.lane = false) :
    Returns below frame.rest.length (s.returned now .success scheduled) := by
  have hunwound : ({ s.set frame.lane ({ · with arming := false }) with
      stack := below } : AcceptScheduler).wants frame.lane = false := by
    simpa [wants, running, set] using hwants
  have hok : Status.success.isOk = true := rfl
  simp only [returned, hstack, hok, hunwound, if_true, Bool.false_eq_true, if_false]
  exact leave_returns rfl (by simp [set]) hunwound

theorem FailsAtOnce.returns (hfail : FailsAtOnce s s') (hstack : s.stack = frame :: below) :
    Returns below frame.rest.length s' := by
  cases hfail with
  | refused hrefused hobeys hpatient =>
    simp only [returned, hstack, hrefused, Bool.false_eq_true, if_false]
    split
    · rename_i hcode
      have hclosing : s.closing = true := by grind -linarith [obeys]
      exact leave_returns rfl (by simp [release, set])
        (by simp [wants, running, release, set, hclosing])
    refine leave_returns (defer_stack.trans rfl) (by simp [defer_arming, release, set])
      (defer_wants ?_)
    simpa [patient, hstack, release, set, Nat.sub_eq_zero_iff_le] using hpatient
  | settled hhead hearly hobeys hpatient =>
    obtain ⟨hwants, hsame⟩ := settled_wants _ _ hearly (by simpa [patient] using hpatient)
    obtain rfl : frame = _ := by simpa [hstack] using hhead
    exact returned_returns (hsame.trans hstack) hwants

/-- When every start that a call issues fails at once, the call returns. -/
theorem FailsAtOnce.run_returns {turns : Nat → AcceptScheduler} (h : Sound True [] [] (turns 0))
    (hstack : (turns 0).stack = frame :: below)
    (hfail : ∀ n, (turns n).stack ≠ below → FailsAtOnce (turns n) (turns (n + 1))) :
    ∃ n ≤ frame.rest.length + 1, (turns n).stack = below := by
  induction hlanes : frame.rest.length using Nat.strongRecOn generalizing frame turns with
  | _ lanes ih =>
    have hfirst := hfail 0 (by simp [hstack])
    rcases hfirst.returns hstack with hreturned | ⟨next, hnext, hlt⟩
    · exact ⟨1, by omega, hreturned⟩
    obtain ⟨n, hn, hreturned⟩ := ih _ (hlanes ▸ hlt) (hfirst.sound h) hnext
      (fun n => hfail (n + 1)) rfl
    exact ⟨n + 1, by omega, hreturned⟩

end Returning

/-- When `schedule_retry` is refused only for lanes with no other start pending,
a stalled lane gets no start before its retry, and a call whose starts all fail at
once issues one start a lane at most and returns. -/
theorem starts_are_paced {count : Nat} {s : AcceptScheduler}
    (h : Reaches step (fun s label => s.obeys label = true ∧ s.patient label = true)
      { laneCount := count } s) :
    paced s.events = true ∧
    ∀ frame below, s.stack = frame :: below → ∀ turns : Nat → AcceptScheduler, turns 0 = s →
      (∀ n, (turns n).stack ≠ below → FailsAtOnce (turns n) (turns (n + 1))) →
      ∃ n ≤ frame.rest.length + 1, (turns n).stack = below := by
  rcases Sound.of_reaches True (fun _ _ hok => ⟨hok.1, fun _ => hok.2⟩) h with hidle | h
  · rw [hidle]
    exact ⟨rfl, nofun⟩
  refine ⟨h.paced trivial, fun frame below hstack turns hfirst hfail => ?_⟩
  subst hfirst
  exact FailsAtOnce.run_returns h hstack hfail

theorem starts_are_paced_refused : ∃ s : AcceptScheduler,
    (s.timers = [0] ∧ s.events.length = 2) ∧ paced s.events = true := by
  have hrun : (runChecked step (fun s label => s.obeys label && s.patient label)
      { laneCount := 1 } [(.start 1 10, 0), (.returned ⟨.resourceExhausted, ""⟩ true, 1)]).any
      (fun s => s.timers == [0] && s.events.length == 2) = true := by decide
  obtain ⟨s, hreach, hs⟩ := Reaches.exists_of_runChecked
    (fun _ _ h => Bool.and_eq_true _ _ ▸ h) _ _ hrun
  exact ⟨s, by simpa using hs, (starts_are_paced hreach).1⟩

/-- With one start pending and `schedule_retry` refused, a start that fails inside
`start_accept` is followed by the next one at once. -/
theorem unscheduled_retry_starts_again : ∃ s : AcceptScheduler,
    Reaches step (fun s label => s.obeys label = true) { laneCount := 1 } s ∧
      paced s.events = false := by
  have hrun : (runChecked step obeys { laneCount := 1 } [(.start 2 10, 0),
      (.returned .success false, 1), (.settled 0 1 false false 2 false, 2),
      (.returned .success false, 3)]).any (fun s => !paced s.events) = true := by decide
  obtain ⟨s, hreach, hs⟩ := Reaches.exists_of_runChecked (fun _ _ h => h) _ _ hrun
  exact ⟨s, hreach, by simpa using hs⟩

end AcceptScheduler

end Yume.Runtime
