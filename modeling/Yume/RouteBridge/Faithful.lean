/-
A route bridge is faithful in every interleaving: it moves bytes in order, shuts
a side down only after everything was written, releases each credit once, and
settles its acceptance and its route once.
-/
import Yume.RouteBridge.Calls
import Yume.RouteBridge.Credits

namespace Yume.RouteBridge

open Yume.Lib List Option Bool

structure Invariant (had : Bool) (b : Bridge) (tasks : List Task) : Prop where
  drivers : Drivers b tasks
  shutdowns : Shutdowns b tasks
  acceptance : Acceptance had b tasks
  closing : Closing b tasks
  forward : Forward b tasks
  backward : Backward b tasks
  alive : Alive b tasks
  credits : Credits b tasks

namespace Invariant

variable {had : Bool} {limits : Limits} {b : Bridge} {task : Task} {l m others : List Task}

theorem perm (h : Invariant had b l) (hperm : l.Perm m) : Invariant had b m :=
  ⟨h.drivers.perm hperm, h.shutdowns.perm hperm, h.acceptance.perm hperm, h.closing.perm hperm,
    h.forward.perm hperm, h.backward.perm hperm, h.alive.perm hperm, h.credits.perm hperm⟩

theorem exec (ok : Bool) (h : Invariant had b (task :: others)) :
    Kept (Invariant had) (b.exec limits ok task) others :=
  ⟨h.drivers.exec ok, h.shutdowns.exec ok h.drivers,
    h.acceptance.exec ok h.drivers h.shutdowns, h.closing.exec ok h.drivers,
    h.forward.exec ok h.drivers, h.backward.exec ok h.drivers,
    h.alive.exec ok h.drivers, h.credits.exec ok⟩

theorem complete {result : Bridge × List Task} (hdone : Completion limits b result)
    (h : Invariant had b others) : Kept (Invariant had) result others :=
  ⟨h.drivers.complete hdone, h.shutdowns.complete hdone h.drivers, h.acceptance.complete hdone,
    h.closing.complete hdone, h.forward.complete hdone h.drivers,
    h.backward.complete hdone h.drivers, h.alive.complete hdone h.drivers h.forward,
    h.credits.complete hdone h.drivers h.forward⟩

theorem destroy (h : Invariant had b []) (hidle : b.idle = true) : Invariant had b.destroy [] := by
  have hwrites : b.routeWrites = 0 := by
    simp only [Bridge.idle, and_eq_true, beq_iff_eq] at hidle
    exact hidle.1.1.2
  exact ⟨h.drivers.destroy, h.shutdowns.destroy, h.acceptance.destroy, h.closing.destroy,
    h.forward.destroy (by simpa using hwrites), h.backward.destroy, h.alive.destroy,
    h.credits.destroy h.alive hidle⟩

end Invariant

namespace System

variable {had : Bool} {s after : System} {limits : Limits}

/-- A completion adds the tasks of its thread. -/
theorem complete_invariant (limits : Limits) {result : Bridge × List Task}
    (h : Invariant had s.bridge s.tasks) (hdone : Completion limits s.bridge result) :
    Invariant had (s.complete result).bridge (s.complete result).tasks := by
  refine (h.complete hdone).perm ?_
  simp only [complete, tasks, flatten_append, flatten_singleton]
  exact perm_append_comm

theorem step_invariant {move : Move} (h : Invariant had s.bridge s.tasks)
    (hstep : step limits s move = some after) : Invariant had after.bridge after.tasks := by
  cases move with
  | run i ok =>
    simp only [step] at hstep
    split at hstep
    · rename_i task rest hthread
      cases hstep
      obtain ⟨pre, post, hflat, hset⟩ := flatten_set_cons hthread
      have hfront : Invariant had s.bridge (task :: (pre ++ post)) := by
        rw [tasks, hflat] at h
        exact h.perm perm_middle
      refine (hfront.exec ok).perm ?_
      simp only [tasks, hset]
      rw [← append_assoc, ← append_assoc]
      exact perm_append_comm.append_right post
    · cases hstep
  | opened result =>
    obtain ⟨hopen, ⟨⟩⟩ := ite_none_left_eq_some.mp hstep
    exact complete_invariant limits h (.opened result hopen)
  | streamRead result =>
    obtain ⟨hread, ⟨⟩⟩ := ite_none_left_eq_some.mp hstep
    exact complete_invariant limits h (.streamRead result hread)
  | routeWrote ok transferred =>
    obtain ⟨hwrite, ⟨⟩⟩ := ite_none_left_eq_some.mp hstep
    exact complete_invariant limits h (.routeWrote ok transferred hwrite)
  | routeRead result =>
    obtain ⟨hread, ⟨⟩⟩ := ite_none_left_eq_some.mp hstep
    exact complete_invariant limits h (.routeRead result hread)
  | streamWrote ok transferred =>
    obtain ⟨hwrite, ⟨⟩⟩ := ite_none_left_eq_some.mp hstep
    exact complete_invariant limits h (.streamWrote ok transferred hwrite)
  | destroy =>
    obtain ⟨hquiet, ⟨⟩⟩ := ite_none_right_eq_some.mp hstep
    simp only [quiet, and_eq_true, List.isEmpty_iff] at hquiet
    change Invariant had s.bridge.destroy s.tasks
    rw [hquiet.1] at h ⊢
    exact h.destroy hquiet.2

theorem start_invariant : Invariant true start.bridge start.tasks := by
  refine ⟨?_, ?_, ?_, ?_, ?_, ?_, ?_, ?_⟩ <;> constructor <;>
    simp [start, tasks, Bridge.create, Bridge.parked, Bridge.holding, Bridge.Carries]

theorem attach_invariant (fits : Bool) :
    Invariant false (attach fits).bridge (attach fits).tasks := by
  refine ⟨?_, ?_, ?_, ?_, ?_, ?_, ?_, ?_⟩ <;> constructor <;>
    simp [attach, tasks, Bridge.create, Bridge.parked, Bridge.holding, Bridge.Carries]

theorem Reached.invariant {first : System} (hfirst : Invariant had first.bridge first.tasks)
    (h : Reached limits first s) : Invariant had s.bridge s.tasks :=
  Reaches.invariant (P := fun s => Invariant had s.bridge s.tasks) hfirst
    (fun _ _ _ _ hbefore _ hstep => step_invariant hbefore hstep) h

/-- What a bridge owes its stream, its route and its acceptor, in one state.
`had` says whether it was made with an acceptance. -/
structure Faithful (had : Bool) (s : System) : Prop where
  /-- Bytes go on in the order they were read. -/
  route_prefix : s.bridge.toRoute <+: s.bridge.fromStream
  stream_prefix : s.bridge.toStream <+: s.bridge.fromRoute
  route_shutdown_once : s.bridge.routeShutdowns ≤ 1
  /-- A side is shut down when all the other side sent is written and reported. -/
  route_shutdown : 0 < s.bridge.routeShutdowns → s.bridge.toRoute = s.bridge.fromStream ∧
    s.bridge.routeWritten = s.bridge.fromStream.length
  stream_shutdown_once : s.bridge.streamShutdowns ≤ 1
  stream_shutdown : 0 < s.bridge.streamShutdowns → s.bridge.toStream = s.bridge.fromRoute ∧
    s.bridge.streamWritten = s.bridge.fromRoute.length
  /-- No credit is released twice, and none of a record that was not received. -/
  credit_once : ∀ record, s.bridge.released.count record ≤ 1
  credit_received : ∀ record ∈ s.bridge.released, record < s.bridge.ends.length
  /-- Once the bridge is destroyed every credit is released. -/
  credit_released : s.quiet = true → ∀ record < s.bridge.ends.length,
    s.bridge.destroy.released.count record = 1
  /-- A bridge that has neither ended nor failed releases what is written. -/
  credit_written : s.bridge.terminal = false → Task.fail ∉ s.tasks →
    ∀ record ∈ s.bridge.released,
      ∃ stop, s.bridge.ends[record]? = some stop ∧ stop ≤ s.bridge.routeWritten
  acceptance_once : s.bridge.acceptances.length ≤ had.toNat
  acceptance_success : true ∈ s.bridge.acceptances → s.bridge.routeOpen = true
  acceptance_invoked : s.quiet = true → s.bridge.acceptances.length = had.toNat
  /-- An established route is closed once, when the bridge ends. -/
  route_closed_once : s.bridge.routeCloses ≤ 1
  route_closed : s.quiet = true → s.bridge.routeOpen = true → s.bridge.terminal = true →
    s.bridge.routeCloses = 1
  route_close_ends : 0 < s.bridge.routeCloses → s.bridge.terminal = true
  /-- A connection that was delivered is installed or closed. -/
  connections : s.quiet = true → s.bridge.discarded + s.bridge.routeOpen.toNat = s.bridge.delivered
  /-- Each provider has one read and one write outstanding at most. -/
  outstanding : s.bridge.streamReads ≤ 1 ∧ s.bridge.routeWrites ≤ 1 ∧ s.bridge.routeReads ≤ 1 ∧
    s.bridge.streamWrites ≤ 1

theorem tasks_of_quiet (h : s.quiet = true) : s.tasks = [] := by
  simp only [quiet, and_eq_true, List.isEmpty_iff] at h
  exact h.1

theorem idle_of_quiet (h : s.quiet = true) : s.bridge.idle = true := by
  simp only [quiet, and_eq_true] at h
  exact h.2

theorem failing_eq_zero {l : List Task} (h : Task.fail ∉ l) : weigh Task.failing l = 0 := by
  refine weigh_eq_zero fun task htask => ?_
  cases task <;> first | rfl | exact absurd htask h

section

variable (h : Invariant had s.bridge s.tasks)
include h

/-- A shut down side has seen the end of the other one's input. -/
theorem route_eof_of_shutdown
    (hshutdown : 0 < s.bridge.routeShutdowns) : 0 < s.bridge.streamInputEof.toNat := by
  have hroute := h.shutdowns.route
  have heof := h.shutdowns.streamEof
  omega

theorem stream_eof_of_shutdown
    (hshutdown : 0 < s.bridge.streamShutdowns) : 0 < s.bridge.routeInputEof.toNat := by
  have hstream := h.shutdowns.stream
  have heof := h.shutdowns.routeEof
  omega

/-- The acceptance is not left over. -/
theorem acceptance_of_quiet (hquiet : s.quiet = true) : s.bridge.acceptance = false := by
  by_contra hacceptance
  rw [not_eq_false] at hacceptance
  have hidle := idle_of_quiet hquiet
  simp only [Bridge.idle, and_eq_true, beq_iff_eq] at hidle
  have hsettling := h.acceptance.settling hacceptance
  rw [tasks_of_quiet hquiet] at hsettling
  simp [hidle] at hsettling

theorem credit_of_quiet (hquiet : s.quiet = true)
    {record : Nat} (hrecord : record < s.bridge.ends.length) :
    s.bridge.destroy.released.count record = 1 := by
  have honce := h.credits.once record
  rw [tasks_of_quiet hquiet, if_pos hrecord] at honce
  unfold Bridge.destroy
  split
  · rename_i hpending
    rw [Credits.holding_of_pending hpending] at honce
    simpa [count_cons, beq_iff_eq] using honce
  rename_i hnone
  simpa [Bridge.holding, hnone] using honce

theorem faithful_of_invariant : Faithful had s := by
  have hread := h.drivers.streamRead
  have hwrite := h.drivers.routeWrite
  have hrouteRead := h.drivers.routeRead
  have hstreamWrite := h.drivers.streamWrite
  have hroute := h.shutdowns.route
  have hstream := h.shutdowns.stream
  have haccepted := h.acceptance.once
  have hcloses := h.closing.closes
  have hbound := toNat_le
  exact {
    route_prefix := h.forward.handed
    stream_prefix := h.backward.handed
    route_shutdown_once := by have := hbound s.bridge.routeWriteShutdown; omega
    route_shutdown := fun hpos => by
      have heof := route_eof_of_shutdown h hpos
      exact (h.forward.reading (by omega)).2
    stream_shutdown_once := by have := hbound s.bridge.streamWriteShutdown; omega
    stream_shutdown := fun hpos => by
      have heof := stream_eof_of_shutdown h hpos
      exact h.backward.reading (by unfold Bridge.routeReaders; omega)
    credit_once := fun record => by
      have honce := h.credits.once record
      split at honce <;> omega
    credit_received := fun record hrecord => by
      have honce := h.credits.once record
      have hpos := count_pos_iff.mpr hrecord
      split at honce
      · assumption
      · omega
    credit_released := fun hquiet record hrecord => credit_of_quiet h hquiet hrecord
    credit_written := fun hterminal hfail record hrecord =>
      h.credits.written hterminal (failing_eq_zero hfail) record
        (Nat.add_pos_right _ (count_pos_iff.mpr hrecord))
    acceptance_once := by omega
    acceptance_success := fun hsuccess =>
      h.acceptance.success (Nat.add_pos_right _ (count_pos_iff.mpr hsuccess))
    acceptance_invoked := fun hquiet => by
      rw [tasks_of_quiet hquiet, acceptance_of_quiet h hquiet] at haccepted
      simpa using haccepted
    route_closed_once := by
      have := hbound (s.bridge.terminal && s.bridge.routeOpen)
      omega
    route_closed := fun hquiet hopen hterminal => by
      rw [tasks_of_quiet hquiet, hopen, hterminal] at hcloses
      simpa using hcloses
    route_close_ends := fun hpos => by
      by_contra hterminal
      rw [not_eq_true] at hterminal
      rw [hterminal, Bool.false_and, toNat_false] at hcloses
      omega
    connections := fun hquiet => by
      have hconnections := h.closing.connections
      rw [tasks_of_quiet hquiet] at hconnections
      simpa using hconnections
    outstanding := by
      have h1 := hbound s.bridge.streamReadInflight
      have h2 := hbound s.bridge.routeWriteInflight
      have h3 := hbound s.bridge.routeReadInflight
      have h4 := hbound s.bridge.streamWriteInflight
      omega }

end

/-- Every bridge is faithful in every state it gets into, whether it opens its
route or is given one. -/
theorem route_bridge_faithful (limits : Limits) (s : System) :
    (Reached limits start s → Faithful true s) ∧
      ∀ fits, Reached limits (attach fits) s → Faithful false s :=
  ⟨fun h => faithful_of_invariant (h.invariant start_invariant),
    fun fits h => faithful_of_invariant (h.invariant (attach_invariant fits))⟩

/-- A bridge that writes a record of three bytes in two chunks, returns a byte,
and ends when both sides have. -/
def sampleMoves : List Move :=
  [.run 0 true, .run 0 true, .run 0 true, .run 0 true, .streamRead (.record [1, 2, 3]),
    -- The route opens and takes up the record that waited for it.
    .opened (.connection true), .run 2 true, .run 2 true, .run 2 true, .run 2 true, .run 2 true,
    .run 2 true, .run 2 true, .run 2 true, .run 2 true, .run 2 true,
    .routeWrote true 2, .run 3 true, .run 3 true, .run 3 true, .run 3 true,
    .routeWrote true 1, .run 4 true, .run 4 true, .run 4 true,
    .routeRead (.bytes [9]), .run 5 true,
    .streamWrote true 1, .run 6 true, .run 6 true,
    .streamRead .endOfStream, .run 7 true, .run 7 true, .run 7 true,
    .routeRead .closed, .run 8 true, .run 8 true, .run 8 true, .run 8 true]

/-- The end of the sample run. -/
def sampleEnd (s : System) : Bool :=
  s.quiet && s.bridge.terminal && s.bridge.toRoute == [1, 2, 3] && s.bridge.toStream == [9] &&
    s.bridge.released == [0] && s.bridge.acceptances == [true]

theorem route_bridge_faithful_sample :
    (∃ s, Reached ⟨4, 2, 4⟩ start s ∧ sampleEnd s = true ∧ Faithful true s) ∧
      Faithful false (attach true) := by
  have hrun : (runChecked (step ⟨4, 2, 4⟩) (fun _ _ => true) start sampleMoves).any sampleEnd =
      true := by
    decide
  obtain ⟨s, hreached, hend⟩ := Reaches.exists_of_runChecked (fun _ _ _ => trivial) _ _ hrun
  exact ⟨⟨s, hreached, hend, (route_bridge_faithful _ s).1 hreached⟩,
    (route_bridge_faithful ⟨4, 2, 4⟩ _).2 true .refl⟩

end System

end Yume.RouteBridge
