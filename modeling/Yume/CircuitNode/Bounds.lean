/-
What a node keeps for its circuits, against any clients: the recorded circuits
of an origin are its live ones, each circuit's holdings are bounded, and a
closed circuit leaves nothing behind.
-/
import Mathlib.Logic.Function.Basic
import Yume.CircuitNode.ExitBounds
import Yume.Lib.Runs

namespace Yume.CircuitNode

open Yume.Lib List Option

variable {Identity : Type} [DecidableEq Identity]

structure ServiceLimits where
  circuitsPerClient : Nat
  exit : ExitLimits
deriving Repr, DecidableEq

/-- A circuit of a node: who opened it, whether as a peer, and its streams. -/
structure ServedCircuit (Identity : Type) where
  origin : Identity
  peer : Bool
  exit : Exit
deriving Repr, DecidableEq

/-- `CircuitService::Node`. -/
structure Service (Identity : Type) where
  /-- `origins`, the recorded circuits of each. -/
  origins : Identity → Option Nat
  circuits : List (ServedCircuit Identity)

inductive ServiceMove (Identity : Type) where
  /-- `async_open`: whether the identity is a peer's, whether its bucket gives a
  token and whether its fingerprint can be read. -/
  | «open» (identity : Identity) (peer admits readable : Bool)
  /-- A step of a circuit. -/
  | circuit (index : Nat) (move : ExitMove)
  /-- `sweep_now`, with the origins whose buckets are full. -/
  | sweep (refilled : Identity → Bool)

namespace Service

variable {limits : ServiceLimits} {service : Service Identity} {index : Nat} {move : ExitMove}
  {after : Service Identity}

def create : Service Identity where
  origins := fun _ => none
  circuits := []

def recorded (service : Service Identity) (identity : Identity) : Nat :=
  (service.origins identity).getD 0

/-- `async_open`. -/
def asyncOpen (limits : ServiceLimits) (service : Service Identity) (identity : Identity)
    (peer admits readable : Bool) : Service Identity :=
  let count := service.recorded identity
  let service :=
    { service with origins := Function.update service.origins identity (some count) }
  if ¬ peer ∧ count ≥ limits.circuitsPerClient then service
  else if ¬ admits then service
  else if peer ∧ ¬ readable then service
  else
    { origins := Function.update service.origins identity (some (count + 1))
      circuits := service.circuits ++ [⟨identity, peer, .create⟩] }

/-- The end of `close`: the origin's count goes down. -/
def release (service : Service Identity) (identity : Identity) : Service Identity :=
  match service.origins identity with
  | some (count + 1) =>
    { service with origins := Function.update service.origins identity (some count) }
  | _ => service

/-- A step of one circuit.  A closed circuit takes none, and one that closes
releases its origin in the same call. -/
def circuitStep (limits : ServiceLimits) (service : Service Identity) (index : Nat)
    (move : ExitMove) : Option (Service Identity) :=
  match service.circuits[index]? with
  | none => none
  | some circuit =>
    if circuit.exit.closed then none
    else
      (circuit.exit.step limits.exit move).map fun exit =>
        let changed :=
          { service with circuits := service.circuits.set index { circuit with exit } }
        if exit.closed then changed.release circuit.origin else changed

/-- `sweep_now`. -/
def sweepNow (service : Service Identity) (refilled : Identity → Bool) : Service Identity where
  circuits := service.circuits.filter fun circuit => !circuit.exit.closed
  origins := fun identity =>
    if service.origins identity = some 0 ∧ refilled identity then none
    else service.origins identity

def step (limits : ServiceLimits) (service : Service Identity) :
    ServiceMove Identity → Option (Service Identity)
  | .open identity peer admits readable =>
    some (service.asyncOpen limits identity peer admits readable)
  | .circuit index move => service.circuitStep limits index move
  | .sweep refilled => some (service.sweepNow refilled)

/-- One for a live circuit of an origin. -/
def liveOf (identity : Identity) (circuit : ServedCircuit Identity) : Nat :=
  if circuit.origin = identity ∧ circuit.exit.closed = false then 1 else 0

/-- One for a live circuit that an origin opened as a client. -/
def liveClientOf (identity : Identity) (circuit : ServedCircuit Identity) : Nat :=
  if circuit.peer then 0 else liveOf identity circuit

def live (service : Service Identity) (identity : Identity) : Nat :=
  weigh (liveOf identity) service.circuits

def liveClients (service : Service Identity) (identity : Identity) : Nat :=
  weigh (liveClientOf identity) service.circuits

/-- The invariant of a node. -/
structure Accounted (limits : ServiceLimits) (service : Service Identity) : Prop where
  recorded : ∀ identity, service.recorded identity = service.live identity
  clients : ∀ identity, service.liveClients identity ≤ limits.circuitsPerClient
  exits : ∀ circuit ∈ service.circuits, circuit.exit.Bounded limits.exit

theorem create_accounted (limits : ServiceLimits) :
    Accounted limits (create : Service Identity) where
  recorded := fun _ => rfl
  clients := fun _ => Nat.zero_le _
  exits := fun _ h => absurd h not_mem_nil

theorem liveClients_le_live (service : Service Identity) (identity : Identity) :
    service.liveClients identity ≤ service.live identity := by
  refine weigh_mono fun circuit _ => ?_
  unfold liveClientOf
  split
  · exact Nat.zero_le _
  · exact Nat.le_refl _

theorem recorded_update (service : Service Identity) (identity other : Identity)
    (count : Nat) (circuits : List (ServedCircuit Identity)) :
    recorded ⟨Function.update service.origins identity (some count), circuits⟩ other =
      if other = identity then count else service.recorded other := by
  simp only [recorded, Function.update_apply]
  split <;> rfl

theorem liveOf_create (identity other : Identity) (peer : Bool) :
    liveOf other ⟨identity, peer, .create⟩ = if other = identity then 1 else 0 := by
  simp [liveOf, Exit.create, eq_comm]

theorem asyncOpen_accounted {identity : Identity} {peer admits readable : Bool}
    (h : Accounted limits service) :
    Accounted limits (service.asyncOpen limits identity peer admits readable) := by
  have hentered : Accounted limits { service with
        origins := Function.update service.origins identity
          (some (service.recorded identity)) } := by
    refine ⟨fun other => ?_, h.clients, h.exits⟩
    rw [recorded_update]
    split
    · rename_i hsame
      rw [hsame]
      exact h.recorded identity
    · exact h.recorded other
  unfold asyncOpen
  dsimp only
  split
  · exact hentered
  rename_i hroom
  split
  · exact hentered
  split
  · exact hentered
  rw [Function.update_idem]
  refine ⟨fun other => ?_, fun other => ?_, fun circuit hmem => ?_⟩
  · have hother := h.recorded other
    unfold live at hother
    rw [recorded_update, live, weigh_append, weigh_cons, weigh_nil, Nat.add_zero, liveOf_create]
    split
    · rename_i hsame
      rw [← hsame, hother]
    · exact hother
  · have hclients := h.clients other
    have hle := liveClients_le_live service other
    have hother := h.recorded other
    unfold liveClients at hclients hle
    rw [liveClients, weigh_append, weigh_cons, weigh_nil, Nat.add_zero, liveClientOf, liveOf_create]
    dsimp only
    split_ifs with hpeer hsame
    · exact hclients
    · -- A client was admitted below the limit on all of its circuits.
      have hbelow : service.recorded identity < limits.circuitsPerClient := by
        simpa [hpeer] using hroom
      rw [← hsame] at hbelow
      omega
    · exact hclients
  · rcases mem_append.mp hmem with hold | hnew
    · exact h.exits circuit hold
    rw [mem_singleton.mp hnew]
    exact Exit.create_bounded _

theorem release_recorded (service : Service Identity) (identity other : Identity) :
    (service.release identity).recorded other =
      if other = identity then service.recorded other - 1 else service.recorded other := by
  unfold release
  split
  · rename_i count hcount
    rw [recorded_update]
    split
    · rename_i hsame
      rw [hsame]
      simp [recorded, hcount]
    · rfl
  rename_i hnone
  split
  · rename_i hsame
    subst hsame
    unfold recorded
    cases horigin : service.origins other with
    | none => rfl
    | some count =>
      cases count with
      | zero => rfl
      | succ count => exact absurd horigin (hnone count)
  · rfl

@[simp] theorem release_circuits (service : Service Identity) (identity : Identity) :
    (service.release identity).circuits = service.circuits := by
  unfold release
  split <;> rfl

theorem circuitStep_some (hstep : service.circuitStep limits index move = some after) :
    ∃ circuit exit, service.circuits[index]? = some circuit ∧ circuit.exit.closed = false ∧
      circuit.exit.step limits.exit move = some exit ∧
      after.circuits = service.circuits.set index { circuit with exit } ∧
      ∀ other, after.recorded other = if exit.closed = true ∧ other = circuit.origin then
        service.recorded other - 1 else service.recorded other := by
  unfold circuitStep at hstep
  split at hstep
  · cases hstep
  rename_i circuit hcircuit
  split at hstep
  · cases hstep
  rename_i hopen
  obtain ⟨exit, hexit, hafter⟩ := map_eq_some_iff.mp hstep
  refine ⟨circuit, exit, hcircuit, by simpa using hopen, hexit, ?_, ?_⟩
  · subst hafter
    split
    · rw [release_circuits]
    · rfl
  intro other
  subst hafter
  split
  · rename_i hclosed
    rw [release_recorded]
    simp [hclosed, recorded]
  rename_i hclosed
  rw [if_neg (fun hand => hclosed hand.1)]
  rfl

theorem circuitStep_accounted (h : Accounted limits service)
    (hstep : service.circuitStep limits index move = some after) : Accounted limits after := by
  obtain ⟨circuit, exit, hindex, hopen, hexit, hcircuits, hrecorded⟩ := circuitStep_some hstep
  have hmem : circuit ∈ service.circuits := mem_of_getElem? hindex
  refine ⟨fun other => ?_, fun other => ?_, fun served hserved => ?_⟩
  · have hlive := weigh_set hindex { circuit with exit } (liveOf other)
    have hother := h.recorded other
    rw [hrecorded other, live, hcircuits]
    unfold live at hother
    simp only [liveOf, hopen] at hlive hother ⊢
    by_cases horigin : circuit.origin = other <;> by_cases hclosed : exit.closed = true
    · simp only [horigin, hclosed] at hlive ⊢
      simp at hlive ⊢
      omega
    · simp only [horigin, hclosed] at hlive ⊢
      simp at hlive ⊢
      omega
    · have hdiffers : ¬ other = circuit.origin := fun heq => horigin heq.symm
      simp [horigin, hdiffers] at hlive ⊢
      omega
    · simp [horigin, hclosed] at hlive ⊢
      omega
  · have hlive := weigh_set hindex { circuit with exit } (liveClientOf other)
    have hclients := h.clients other
    have hless : liveClientOf other { circuit with exit } ≤ liveClientOf other circuit := by
      unfold liveClientOf liveOf
      rw [hopen]
      split_ifs <;> simp_all
    rw [liveClients, hcircuits]
    unfold liveClients at hclients
    omega
  · rw [hcircuits] at hserved
    rcases mem_or_eq_of_mem_set hserved with hold | hnew
    · exact h.exits served hold
    rw [hnew]
    exact Exit.step_bounded (h.exits circuit hmem) hexit

omit [DecidableEq Identity] in
theorem weigh_filter_live {w : ServedCircuit Identity → Nat}
    (hclosed : ∀ circuit : ServedCircuit Identity, circuit.exit.closed = true → w circuit = 0)
    (circuits : List (ServedCircuit Identity)) :
    weigh w (circuits.filter fun circuit => !circuit.exit.closed) = weigh w circuits := by
  induction circuits with
  | nil => rfl
  | cons circuit circuits ih =>
    cases hstate : circuit.exit.closed with
    | false => simp [hstate, ih]
    | true => simp [hstate, ih, hclosed circuit hstate]

theorem sweepNow_accounted {refilled : Identity → Bool} (h : Accounted limits service) :
    Accounted limits (service.sweepNow refilled) := by
  refine ⟨fun other => ?_, fun other => ?_, fun circuit hmem =>
    h.exits circuit (mem_filter.mp hmem).1⟩
  · have hother := h.recorded other
    have hlive : (service.sweepNow refilled).live other = service.live other :=
      weigh_filter_live (fun circuit hclosed => by simp [liveOf, hclosed]) _
    rw [hlive, ← hother]
    unfold recorded sweepNow
    dsimp only
    split
    · rename_i hempty
      rw [hempty.1]
      rfl
    · rfl
  · have hlive : (service.sweepNow refilled).liveClients other = service.liveClients other :=
      weigh_filter_live (fun circuit hclosed => by simp [liveClientOf, liveOf, hclosed]) _
    rw [hlive]
    exact h.clients other

theorem step_accounted {move : ServiceMove Identity}
    (h : Accounted limits service) (hstep : service.step limits move = some after) :
    Accounted limits after := by
  cases move with
  | «open» =>
    cases hstep
    exact asyncOpen_accounted h
  | circuit => exact circuitStep_accounted h hstep
  | sweep =>
    cases hstep
    exact sweepNow_accounted h

theorem reached_accounted
    (h : Reaches (step limits) (fun _ _ => True) (create : Service Identity) service) :
    Accounted limits service :=
  h.invariant (create_accounted limits) fun _ _ _ _ hinv _ hstep => step_accounted hinv hstep

/-- What a step of a circuit may do to the node's counts: a circuit that closes
gives back the one place of its origin, and nothing of its streams is left. -/
structure ReleasesOnce (before after : Service Identity) (index : Nat)
    (circuit : ServedCircuit Identity) : Prop where
  live : circuit.exit.closed = false
  others : ∀ other, other ≠ index → after.circuits[other]? = before.circuits[other]?
  closed : ∀ changed, after.circuits[index]? = some changed → changed.exit.closed = true →
    changed.exit.streams = [] ∧ changed.exit.queue = [] ∧
      after.recorded circuit.origin + 1 = before.recorded circuit.origin ∧
      ∀ other, other ≠ circuit.origin → after.recorded other = before.recorded other
  «open» : ∀ changed, after.circuits[index]? = some changed → changed.exit.closed = false →
    ∀ other, after.recorded other = before.recorded other

theorem circuitStep_releasesOnce {circuit : ServedCircuit Identity} (h : Accounted limits service)
    (hindex : service.circuits[index]? = some circuit)
    (hstep : service.circuitStep limits index move = some after) :
    ReleasesOnce service after index circuit := by
  obtain ⟨served, exit, hserved, hopen, hexit, hcircuits, hrecorded⟩ := circuitStep_some hstep
  rw [hindex, some.injEq] at hserved
  subst hserved
  have hlength : index < service.circuits.length :=
    (List.getElem?_eq_some_iff.mp hindex).1
  have hchanged : after.circuits[index]? = some { circuit with exit } := by
    rw [hcircuits, getElem?_set_self hlength]
  refine ⟨hopen, ?_, ?_, ?_⟩
  · intro other hother
    rw [hcircuits, getElem?_set_ne (Ne.symm hother)]
  · intro changed hsome hclosed
    rw [hchanged, some.injEq] at hsome
    subst hsome
    obtain ⟨hstreams, hqueue⟩ := Exit.step_closed hexit hopen hclosed
    refine ⟨hstreams, hqueue, ?_, ?_⟩
    · have hone : 1 ≤ service.recorded circuit.origin := by
        rw [h.recorded, live]
        have hle := le_weigh_of_mem (f := liveOf circuit.origin) (mem_of_getElem? hindex)
        simpa [liveOf, hopen] using hle
      rw [hrecorded, if_pos ⟨hclosed, rfl⟩]
      omega
    · intro other hother
      rw [hrecorded, if_neg (fun hand => hother hand.2)]
  · intro changed hsome hstays other
    rw [hchanged, some.injEq] at hsome
    subst hsome
    dsimp only at hstays
    rw [hrecorded, if_neg (fun hand => by rw [hstays] at hand; cases hand.1)]

/-- In every run, whatever the clients send and in whatever order the exits'
channels complete: an origin's recorded circuits are its live ones, of which it
opened at most `circuits_per_client` as a client; a circuit's streams and the
bytes it holds for their destinations stay within the limits, and the bytes
queued toward the client within the queue's and one cell for each stream; and a
circuit that closes gives its place back once. -/
theorem node_holds_bounds
    (h : Reaches (step limits) (fun _ _ => True) (create : Service Identity) service) :
    (∀ identity, service.recorded identity = service.live identity ∧
      service.liveClients identity ≤ limits.circuitsPerClient) ∧
    (∀ circuit ∈ service.circuits,
      circuit.exit.streams.length ≤ limits.exit.streamsPerCircuit ∧
      circuit.exit.forwardHeld ≤ limits.exit.circuitWindow ∧
      circuit.exit.backwardHeld ≤ maxDataPayload .backward *
        (limits.exit.backwardQueueCells + limits.exit.streamsPerCircuit)) ∧
    ∀ index move after circuit, service.circuits[index]? = some circuit →
      service.step limits (.circuit index move) = some after →
      ReleasesOnce service after index circuit := by
  have hinv := reached_accounted h
  refine ⟨fun identity => ⟨hinv.recorded identity, hinv.clients identity⟩,
    fun circuit hmem => ?_, fun index move after circuit hindex hstep =>
      circuitStep_releasesOnce hinv hindex hstep⟩
  have hexit := hinv.exits circuit hmem
  exact ⟨hexit.count, hexit.forwardHeld_le, hexit.backwardHeld_le⟩

section Samples

/-- A node with one circuit for each client and a small circuit window. -/
def sampleLimits : ServiceLimits where
  circuitsPerClient := 1
  exit :=
    { streamsPerCircuit := 4
      streamWindow := 4
      circuitWindow := 8
      backwardQueueCells := 2 }

theorem exists_sampleRun (moves : List (ServiceMove Nat)) (test : Service Nat → Bool)
    (h : (runChecked (step sampleLimits) (fun _ _ => true) create moves).any test = true) :
    ∃ service, Reaches (step sampleLimits) (fun _ _ => True) create service ∧ test service = true :=
  Reaches.exists_of_runChecked (fun _ _ _ => trivial) moves test h

/-- A client's circuit with a stream that holds three bytes for its
destination. -/
def holdingMoves : List (ServiceMove Nat) :=
  [.open 7 false true true, .circuit 0 (.begin 1 true true true), .circuit 0 (.data 1 [1, 2, 3])]

theorem node_holds_bounds_sample : ∃ service : Service Nat,
    service.recorded 7 = 1 ∧ service.live 7 = 1 ∧
      ∃ circuit ∈ service.circuits, circuit.exit.forwardHeld = 3 ∧
        circuit.exit.forwardHeld ≤ sampleLimits.exit.circuitWindow ∧
        ∀ after, service.step sampleLimits (.circuit 0 .close) = some after →
          ReleasesOnce service after 0 circuit := by
  obtain ⟨service, hreach, htest⟩ := exists_sampleRun holdingMoves
    (fun service => service.recorded 7 == 1 &&
      service.circuits.head?.any fun circuit => circuit.exit.forwardHeld == 3) (by decide)
  have hbounds := node_holds_bounds hreach
  simp only [Bool.and_eq_true, beq_iff_eq] at htest
  obtain ⟨hrecorded, hheld⟩ := htest
  cases hcircuits : service.circuits with
  | nil => simp [hcircuits] at hheld
  | cons circuit rest =>
    rw [hcircuits] at hheld
    have hmem : circuit ∈ service.circuits := hcircuits ▸ mem_cons_self
    refine ⟨service, hrecorded, (hbounds.1 7).1 ▸ hrecorded, circuit, hcircuits ▸ hmem,
      by simpa using hheld, (hbounds.2.1 circuit hmem).2.1, fun after hstep =>
        hbounds.2.2 0 .close after circuit (by rw [hcircuits]; rfl) hstep⟩

/-- A peer holds more circuits than a client may, and a client that grants much
makes an exit hold more for it than the circuit window. -/
theorem peer_and_credit_exceed_bounds :
    (∃ service : Service Nat, Reaches (step sampleLimits) (fun _ _ => True) create service ∧
      service.recorded 9 > sampleLimits.circuitsPerClient) ∧
    ∃ service : Service Nat, Reaches (step sampleLimits) (fun _ _ => True) create service ∧
      ∃ circuit ∈ service.circuits,
        circuit.exit.backwardHeld > sampleLimits.exit.circuitWindow := by
  constructor
  · obtain ⟨service, hreach, htest⟩ := exists_sampleRun
      [.open 9 true true true, .open 9 true true true]
      (fun service => decide (service.recorded 9 > sampleLimits.circuitsPerClient))
      (by decide)
    exact ⟨service, hreach, of_decide_eq_true htest⟩
  obtain ⟨service, hreach, htest⟩ := exists_sampleRun
    [.open 7 false true true, .circuit 0 (.begin 1 true true true),
      .circuit 0 (.exitOpen 0 none), .circuit 0 (.credit 1 100), .circuit 0 (.pumpRead 0),
      .circuit 0 (.read 0 (.data [1, 2, 3, 4, 5, 6, 7, 8, 9]))]
    (fun service => service.circuits.any fun circuit =>
      decide (circuit.exit.backwardHeld > sampleLimits.exit.circuitWindow)) (by decide)
  obtain ⟨circuit, hmem, hheld⟩ := any_eq_true.mp htest
  exact ⟨service, hreach, circuit, hmem, of_decide_eq_true hheld⟩

end Samples

end Service

end Yume.CircuitNode
