/-
The traffic totals of a client endpoint.  A total is spread over what replaced
backends have carried, what earlier runs of the backend have retired and the live
run, and a status read takes them in two steps.
-/
import Mathlib.Algebra.Order.BigOperators.Group.List
import Mathlib.Algebra.Order.Ring.Nat
import Yume.Lib.Runs

namespace Yume.EndpointTraffic

open Yume.Lib

inductive Counter where
  | payloadBytesSent | payloadBytesReceived | recordBytesSent | recordBytesReceived

/-- Byte totals.  They are only added up, so they wrap where they are reported. -/
abbrev Traffic := Counter → Nat

inductive Phase where
  | created | starting | running | stopping | stopped | failed
deriving DecidableEq

/-- Where the call is that holds the lifecycle mutex. -/
inductive Call where
  | build | start | settle (started : Bool) | stop | finish
deriving DecidableEq

structure Backend where
  retired : Traffic := fun _ => 0
  /-- The totals of the run that is published. -/
  run : Option Traffic := none

/-- A status read that holds the state mutex: what it has added up, and whether it
has still to read the traffic of the published run. -/
structure Read where
  counted : Traffic
  live : Bool

structure State where
  phase : Phase := .created
  call : Option Call := none
  carried : Traffic := fun _ => 0
  backend : Option Backend := none
  /-- The final totals of the runs whose backend start succeeded. -/
  ended : List Traffic := []
  reading : Option Read := none
  /-- What the reads have added up, the last one first. -/
  returned : List Traffic := []

inductive Label where
  -- yume_endpoint_start
  | start | build (made : Bool) | backendStarts (first : Traffic) | backendFails
  | settle (cancelled : Bool)
  -- yume_endpoint_stop, and a change of a setting
  | stop | backendStops | finish | discard
  -- the published run, and yume_endpoint_get_status
  | grow (more : Traffic) | sample | report

namespace State

variable (s : State)

def run : Option Traffic := s.backend.bind Backend.run

def retired (c : Counter) : Nat := s.backend.elim 0 (·.retired c)

/-- The traffic of the published run. -/
def live (c : Counter) : Nat := s.run.elim 0 (· c)

/-- `NativeBackend::stop`.  The totals of a run that has stopped are final, so a
read that holds the run has what it will find. -/
def stopBackend : State :=
  match s.run with
  | none => s
  | some total =>
    { s with
      backend := some ⟨fun c => s.retired c + total c, none⟩
      ended := total :: s.ended
      reading := s.reading.map fun read =>
        if read.live then ⟨fun c => read.counted c + total c, false⟩ else read }

def step : Label → Option State
  | .start =>
    if s.call = none ∧ s.reading = none ∧ (s.phase = .created ∨ s.phase = .stopped) then
      some { s with phase := .starting, call := some .build }
    else none
  | .build made =>
    if s.call ≠ some .build then none
    else if s.backend.isSome then some { s with call := some .start }
    else if s.reading.isSome then none
    else if made then some { s with backend := some {}, call := some .start }
    else some { s with call := some (.settle false) }
  | .backendStarts first =>
    if s.call = some .start ∧ s.run = none then
      some { s with backend := some ⟨s.retired, some first⟩, call := some (.settle true) }
    else none
  -- the caller stops a backend whose start has failed
  | .backendFails =>
    if s.call = some .start then some { s.stopBackend with call := some (.settle false) } else none
  | .settle cancelled =>
    match s.call, s.reading with
    | some (.settle started), none =>
      if cancelled ∨ s.phase ≠ .starting then
        some { (if started then s.stopBackend else s) with
          phase := if s.phase = .starting then .stopped else s.phase
          call := none }
      else some { s with phase := if started then .running else .failed, call := none }
    | _, _ => none
  | .stop =>
    if s.call = none ∧ s.reading = none ∧ s.phase ≠ .stopped then
      some { s with phase := .stopping, call := some .stop }
    else none
  | .backendStops =>
    if s.call = some .stop then some { s.stopBackend with call := some .finish } else none
  | .finish =>
    if s.call = some .finish ∧ s.reading = none then some { s with phase := .stopped, call := none }
    else none
  -- `discard_backend`, whose callers hold both mutexes
  | .discard =>
    if s.call = none ∧ s.reading = none ∧ s.phase ≠ .starting ∧ s.phase ≠ .running ∧
        s.phase ≠ .stopping then
      some { s with carried := fun c => s.carried c + s.retired c + s.live c, backend := none }
    else none
  | .grow more =>
    s.run.map fun total => { s with backend := some ⟨s.retired, some fun c => total c + more c⟩ }
  -- what is carried does not change under the state mutex, so it is read with the rest
  | .sample =>
    if s.reading = none then
      some { s with reading := some ⟨fun c => s.carried c + s.retired c, s.run.isSome⟩ }
    else none
  | .report => s.reading.map fun read =>
      { s with
        reading := none
        returned := (fun c => read.counted c + if read.live then s.live c else 0) :: s.returned }

/-- The totals of all runs whose backend start succeeded. -/
def sum (c : Counter) : Nat := (s.ended.map (· c)).sum + s.live c

/-- What the read that is under way adds up to, or one that began now. -/
def seen (c : Counter) : Nat :=
  match s.reading with
  | some read => read.counted c + if read.live then s.live c else 0
  | none => s.sum c

end State

open State

def Reachable : State → Prop := Reaches step (fun _ _ => True) {}

/-- A run is published only while it is started, used or stopped. -/
@[mk_iff]
structure Calm (s : State) : Prop where
  published : s.run ≠ none → s.call = some (.settle true) ∨ s.call = some .stop ∨
    (s.call = none ∧ s.phase = .running)
  settling : ∀ started, s.call = some (.settle started) → s.phase = .starting
  starting : s.call = some .build ∨ s.call = some .start → s.phase = .starting

/-- Where the bytes of one counter are, and what the reads can have seen of them. -/
@[mk_iff]
structure Books (s : State) (c : Counter) : Prop where
  kept : s.carried c + s.retired c = (s.ended.map (· c)).sum
  read : ∀ read, s.reading = some read → read.counted c ≤ (s.ended.map (· c)).sum ∧
    (read.live = true → s.run ≠ none)
  values : ∀ value ∈ s.returned, value c ≤ s.seen c
  order : s.returned.Pairwise fun later earlier => earlier c ≤ later c

section Step

variable {s t : State} {label : Label} {c : Counter}

@[simp]
theorem run_stopBackend : s.stopBackend.run = none := by
  unfold stopBackend
  split
  · assumption
  · rfl

@[simp]
theorem phase_stopBackend : s.stopBackend.phase = s.phase := by
  unfold stopBackend
  split <;> rfl

theorem Calm.step (h : Calm s) (hstep : s.step label = some t) : Calm t := by
  rw [calm_iff] at h ⊢
  cases label
  all_goals
    simp only [State.step, Option.map_eq_some_iff] at hstep
    grind [run_stopBackend, phase_stopBackend, State.run]

namespace Books

theorem seen_le (h : Books s c) : s.seen c ≤ s.sum c := by
  have hread := h.read
  unfold seen State.sum
  grind

/-- A backend is made, or one without a run is replaced. -/
theorem replaced (h : Books s c) (carried : Traffic) (backend : Option Backend)
    (hrun : backend.bind Backend.run = s.run)
    (hkept : carried c + backend.elim 0 (·.retired c) = s.carried c + s.retired c) :
    Books { s with carried := carried, backend := backend } c := by
  rw [State.run] at hrun
  simp only [books_iff, seen, State.sum, live, State.run, State.retired, hrun, hkept] at h ⊢
  exact h

/-- A call that moves on leaves the books alone. -/
theorem moved (h : Books s c) (phase : Phase) (call : Option Call) :
    Books { s with phase := phase, call := call } c :=
  ⟨h.kept, h.read, h.values, h.order⟩

theorem stopBackend (h : Books s c) : Books s.stopBackend c := by
  have hkept := h.kept
  have hvalues := h.values
  unfold State.stopBackend
  split
  case h_1 => exact h
  rename_i total hrun
  have hlive : s.live c = total c := by simp [live, hrun]
  refine ⟨?_, ?_, ?_, h.order⟩
  · simp only [State.retired, Option.elim_some, List.map_cons, List.sum_cons] at hkept ⊢
    omega
  · intro read hread
    obtain ⟨old, hold, rfl⟩ := Option.map_eq_some_iff.mp hread
    have := h.read old hold
    grind
  · intro value hvalue
    have := hvalues value hvalue
    -- a read that waits for the run is given its totals, any other keeps what it has
    rcases hreading : s.reading with _ | ⟨counted, _ | _⟩ <;>
      simp [seen, State.sum, hlive, hreading] at this ⊢ <;> omega

/-- A run is published, or the published run counts on. -/
theorem publish (h : Books s c) {total : Traffic} (hle : s.live c ≤ total c) :
    Books { s with backend := some ⟨s.retired, some total⟩ } c := by
  have hvalues := h.values
  refine ⟨h.kept, fun read hread => ⟨(h.read read hread).1, nofun⟩, fun value hvalue => ?_, h.order⟩
  have hlive : ({ s with backend := some ⟨s.retired, some total⟩ } : State).live c = total c := rfl
  simp only [seen, State.sum, hlive] at hvalues ⊢
  grind

theorem step (hcalm : Calm s) (h : Books s c) (hstep : s.step label = some t) : Books t c := by
  have hkept := h.kept
  have hvalues := h.values
  cases label with
  | grow =>
    obtain ⟨total, hrun, rfl⟩ := Option.map_eq_some_iff.mp hstep
    exact h.publish (by simp [live, hrun])
  | sample =>
    simp only [State.step, Option.ite_none_right_eq_some, Option.some.injEq] at hstep
    obtain ⟨hfree, rfl⟩ := hstep
    simp only [seen, State.sum, hfree] at hvalues
    refine ⟨h.kept, ?_, ?_, h.order⟩
    · rintro read ⟨⟩
      exact ⟨Nat.le_of_eq hkept, Option.isSome_iff_ne_none.mp⟩
    · intro value hvalue
      have hle := hvalues value hvalue
      change value c ≤ s.carried c + s.retired c + if s.run.isSome then s.live c else 0
      cases hrun : s.run <;> simp only [live, hrun, Option.elim_none] at hle ⊢ <;> grind
  | report =>
    obtain ⟨read, hread, rfl⟩ := Option.map_eq_some_iff.mp hstep
    have hle := h.seen_le
    simp only [seen, hread] at hvalues hle
    refine ⟨h.kept, nofun, ?_, List.pairwise_cons.mpr ⟨hvalues, h.order⟩⟩
    intro value hvalue
    rcases List.mem_cons.mp hvalue with rfl | hold
    · exact hle
    · exact Nat.le_trans (hvalues value hold) hle
  | discard =>
    simp only [State.step, Option.ite_none_right_eq_some, Option.some.injEq] at hstep
    obtain ⟨hidle, rfl⟩ := hstep
    have hrun : s.run = none := by
      have := hcalm.published
      grind
    exact h.replaced _ none hrun.symm (by simp [live, hrun])
  | build made =>
    simp only [State.step] at hstep
    cases hbackend : s.backend with
    | none =>
      have hnew : Books { s with backend := some {}, call := some .start } c :=
        (h.replaced s.carried (some {}) (by simp [State.run, hbackend])
          (by simp [State.retired, hbackend])).moved _ _
      grind [moved]
    | some backend => grind [moved]
  | backendStarts =>
    simp only [State.step, Option.ite_none_right_eq_some, Option.some.injEq] at hstep
    obtain ⟨⟨-, hrun⟩, rfl⟩ := hstep
    exact (h.publish (by simp [live, hrun])).moved _ _
  | _ =>
    simp only [State.step] at hstep
    grind [moved, stopBackend]

end Books

theorem Reachable.calm_books (h : Reachable s) : Calm s ∧ ∀ c, Books s c := by
  refine Reaches.invariant (P := fun s => Calm s ∧ ∀ c, Books s c) ?_ ?_ h
  · exact ⟨⟨nofun, nofun, by simp⟩, fun c => ⟨rfl, nofun, nofun, .nil⟩⟩
  · intro s label t _ hs _ hstep
    exact ⟨hs.1.step hstep, fun c => (hs.2 c).step hs.1 hstep⟩

end Step

/-- The total of a counter in the status of an endpoint, a 64-bit sum. -/
def reported (traffic : Traffic) (c : Counter) : Nat := traffic c % 2 ^ 64

/-- As long as all runs together stay below the counter's range, a later read
reports no less, and at rest a read reports the sum over the runs. -/
theorem reported_totals_grow {s : State} (h : Reachable s) {c : Counter} (hfit : s.sum c < 2 ^ 64) :
    s.returned.Pairwise (fun later earlier => reported earlier c ≤ reported later c) ∧
    (s.phase = .stopped → s.call = none → s.reading = none →
      ∃ t u value, s.step .sample = some t ∧ t.step .report = some u ∧
        u.returned = value :: s.returned ∧ reported value c = (s.ended.map (· c)).sum) := by
  obtain ⟨hcalm, hbooks⟩ := h.calm_books
  have hc := hbooks c
  have hread : ∀ value ∈ s.returned, reported value c = value c := fun value hvalue =>
    Nat.mod_eq_of_lt (Nat.lt_of_le_of_lt (Nat.le_trans (hc.values value hvalue) hc.seen_le) hfit)
  refine ⟨hc.order.imp_of_mem fun hl he hle => ?_, fun hphase hcall hreading => ?_⟩
  · rwa [hread _ hl, hread _ he]
  have hrun : s.run = none := by
    have := hcalm.published
    grind
  refine ⟨_, _, _, if_pos hreading, rfl, rfl, ?_⟩
  simp only [State.sum, live, hrun] at hfit
  simpa [reported, hrun, hc.kept] using hfit

/-- Start, run until a read has reported, and stop. -/
def oneRun (first : Nat) : List Label :=
  [.start, .build true, .backendStarts fun _ => first, .settle false, .sample, .report,
    .stop, .backendStops, .finish]

theorem reported_totals_grow_two_runs : ∃ s : State, s.phase = .stopped ∧ s.ended.length = 2 ∧
    s.returned.Pairwise fun later earlier =>
      reported earlier .recordBytesSent ≤ reported later .recordBytesSent := by
  obtain ⟨s, hreach, hs⟩ := Reaches.exists_of_runChecked (fun _ _ _ => trivial)
    (oneRun 7 ++ oneRun 5)
    (fun s => s.phase = .stopped ∧ s.ended.length = 2 ∧ s.sum .recordBytesSent < 2 ^ 64)
    (by decide : (runChecked step (fun _ _ => true) {} _).any _ = true)
  simp only [decide_eq_true_eq] at hs
  exact ⟨s, hs.1, hs.2.1, (reported_totals_grow hreach hs.2.2).1⟩

/-- Two runs that each fit the counter can wrap it together. -/
theorem reported_total_wraps : ∃ s : State, Reachable s ∧
    (∀ run ∈ s.ended, run .recordBytesSent < 2 ^ 64) ∧
    s.returned.map (reported · .recordBytesSent) = [0, 2 ^ 64 - 1] := by
  obtain ⟨s, hreach, hs⟩ := Reaches.exists_of_runChecked (fun _ _ _ => trivial)
    (oneRun (2 ^ 64 - 1) ++ oneRun 1)
    (fun s => (∀ run ∈ s.ended, run .recordBytesSent < 2 ^ 64) ∧
      s.returned.map (reported · .recordBytesSent) = [0, 2 ^ 64 - 1])
    (by decide : (runChecked step (fun _ _ => true) {} _).any _ = true)
  exact ⟨s, hreach, of_decide_eq_true hs⟩

end Yume.EndpointTraffic
