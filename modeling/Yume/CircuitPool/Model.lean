/-
The client's circuit pool.  Opens wait in a queue; a pump serves it from the
circuits of the length in use, starts builds, and settles what it cannot serve.
Every call that leaves the pool (a completion, a provider's operation) may come
back into it before it returns, so the code between two such calls is one step
of a machine with an explicit stack of the calls still running.
-/
import Yume.Lib.Hex
import Yume.Lib.Runs

namespace Yume.CircuitPool

open Yume.Lib

/-- `CircuitPoolOptions`, with the ranges `create` insists on.  Times are in
milliseconds. -/
structure CircuitPoolOptions where
  hops : Nat
  minHops : Nat
  plainHttpAllowed : Bool
  rotation : Nat
  recheck : Nat
  attempts : Nat
  tick : Nat
  two_le_hops : 2 ≤ hops
  hops_le_three : hops ≤ 3
  one_le_minHops : 1 ≤ minHops
  minHops_le : minHops ≤ hops
  attempts_pos : 0 < attempts
  tick_pos : 0 < tick

/-- A node of the served view, as far as the pool reads it. -/
structure RouteNode where
  name : Bytes
  fingerprint : Bytes
deriving DecidableEq, Repr

/-- A route of a given number of nodes, what `RouteChooser::choose` returns. -/
abbrev Route (hops : Nat) := { route : List RouteNode // route.length = hops }

structure RouteProposal where
  id : Bytes
  hops : Nat
  serial : Nat
  nodes : List Bytes
deriving DecidableEq, Repr

/-- What the pool is made with besides its options: the digest of its crypto
context and the entry as the view describes it. -/
structure Credentials where
  digest : Bytes → Bytes
  entry : RouteNode

/-- The decimal text of a number. -/
def decimal (n : Nat) : Bytes := (Nat.toDigits 10 n).map fun digit => UInt8.ofNat digit.toNat

/-- The bytes a proposal's id is the digest of: each text with a zero after it. -/
def proposalFields (hops : Nat) (route : List RouteNode) (serial : Nat) : Bytes :=
  decimal hops ++ [0] ++ route.flatMap (fun node => node.fingerprint ++ [0]) ++
    decimal serial ++ [0]

def proposalId (digest : Bytes → Bytes) (hops : Nat) (route : List RouteNode)
    (serial : Nat) : Bytes :=
  hexLower ((digest (proposalFields hops route serial)).take 8)

inductive View where
  | idle
  | fetching
  | ready
  | failed
deriving DecidableEq, Repr

/-- A destination, as far as the pool reads it. -/
structure Destination where
  port : Nat
  tcp : Bool
deriving DecidableEq, Repr

/-- An open that waits.  `call` numbers the calls of `open`; `done` says whether
the completion is still there, since settling moves it out first. -/
structure Waiter where
  call : Nat
  destination : Destination
  done : Bool
deriving DecidableEq, Repr

structure Entry where
  circuit : Nat
  route : List RouteNode
  firstStream : Option Nat
deriving DecidableEq, Repr

/-- How the pool itself answers an open, and the answer of a provider. -/
inductive Outcome where
  | cancelled
  | closed
  | noSession
  | stopped (message : String)
  | needsConsent (proposal : Option Bytes)
  | plainHttp
  | notTcp
  | unregistered
  | provider (ok : Bool)
deriving DecidableEq, Repr

/-- An operation a provider has taken and not completed. -/
inductive Op where
  | routes (generation : Nat)
  | routesRead (generation received : Nat)
  | direct (waiter : Waiter)
  | stream (waiter : Waiter)
  | entry (generation : Nat) (route : List RouteNode) (probe : Bool)
  | build (generation circuit : Nat) (route : List RouteNode) (probe : Bool)
deriving DecidableEq, Repr

/-- What `accept_served_routes` and `RouteChooser::create` make of a served view. -/
inductive Served where
  | refused (message : String)
  | accepted (notAfter serial : Nat) (namesEntry : Bool)
deriving DecidableEq, Repr

/-- How a provider's operation ends. -/
inductive Reply where
  | ok
  | failed (message : String)
  | bytes (size : Nat)
  | ended (served : Served)
deriving DecidableEq, Repr

/-- A point of the pool's code where a call of it goes on.  `outside` is a call
that has left the pool: a completion or a provider is running. -/
inductive Task where
  | outside
  | pump
  | settleAll (waiters : List Waiter) (outcome : Outcome)
  | resume
  | loop (now : Nat)
  | popFront
deriving DecidableEq, Repr

/-- The service a stream was asked from. -/
inductive Via where
  | direct
  | circuit (hops : Nat)
deriving DecidableEq, Repr

/-- What happened, for statements about whole runs. -/
inductive Event where
  | opened (call : Nat)
  | settled (call : Nat) (outcome : Outcome)
  | lost (call : Nat)
  | emptyPop
  | streamed (via : Via) (currentHops : Nat)
  | proposed (proposal : RouteProposal)
  | accepted (proposal : RouteProposal)
  | built (hops : Nat) (probe : Bool) (before : Nat)
  | session
  | view
deriving DecidableEq, Repr

/-- The pool's state, then the running calls, the providers' operations and
the history, newest first. -/
structure Pool where
  session : Option Nat
  generation : Nat
  view : View
  stopped : String
  chooser : Bool
  viewExpires : Nat
  serial : Nat
  entries : List Entry
  waiters : List Waiter
  building : Bool
  attempts : Nat
  currentHops : Nat
  acceptedHops : Nat
  proposal : Option RouteProposal
  nextRecheck : Option Nat
  spareAfter : Nat
  closed : Bool
  stack : List Task
  ops : List Op
  calls : Nat
  circuits : Nat
  log : List Event
deriving DecidableEq, Repr

/-- What a step reads of the world: both clocks, which opens are cancelled, the
circuits' states and the chooser's pick for each length. -/
structure World where
  now : Nat
  wall : Nat
  cancelled : Nat → Bool
  circuitClosed : Nat → Bool
  hasStreamCapacity : Nat → Bool
  streams : Nat → Nat
  createsCircuit : Bool
  choose : (hops : Nat) → Option (Route hops)

/-- The longest served view the pool reads: a signature and a list. -/
def maxRoutesBytes : Nat := (64 + 4627) + 1024 * 1024

section Code

variable (o : CircuitPoolOptions) (credentials : Credentials) (w : World)

/-- A new pool, before its first session. -/
def start : Pool where
  session := none
  generation := 0
  view := .idle
  stopped := ""
  chooser := false
  viewExpires := 0
  serial := 0
  entries := []
  waiters := []
  building := false
  attempts := 0
  currentHops := o.hops
  acceptedHops := 0
  proposal := none
  nextRecheck := none
  spareAfter := 0
  closed := false
  stack := []
  ops := []
  calls := 0
  circuits := 0
  log := []

namespace Pool

def push (p : Pool) (tasks : List Task) : Pool := { p with stack := tasks ++ p.stack }

def note (p : Pool) (event : Event) : Pool := { p with log := event :: p.log }

/-- A provider takes an operation; it may complete before this call returns. -/
def ask (p : Pool) (op : Op) : Pool :=
  { p with ops := p.ops ++ [op], stack := .outside :: p.stack }

/-- `settle`: the completion is moved out and invoked, if it is still there. -/
def settle (p : Pool) (waiter : Waiter) (outcome : Outcome) : Pool :=
  if waiter.done then (p.note (.settled waiter.call outcome)).push [.outside] else p

def discardProposal (p : Pool) : Pool :=
  if p.currentHops = 0 then
    { p with proposal := none, currentHops := o.hops, attempts := 0, nextRecheck := none }
  else { p with proposal := none }

def proposalCurrent (p : Pool) : Bool :=
  !p.closed && p.session.isSome && p.view == .ready && p.chooser &&
    decide (w.wall < p.viewExpires) &&
    match p.proposal with
    | some proposal => proposal.serial == p.serial
    | none => false

/-- The waiters are detached before the first completion runs. -/
def failWaiters (p : Pool) (outcome : Outcome) : Pool :=
  { p with waiters := [], stack := .settleAll p.waiters outcome :: p.stack }

def allowedMin (p : Pool) : Nat :=
  if p.acceptedHops ≠ 0 then min o.minHops p.acceptedHops else o.minHops

def usable (p : Pool) (entry : Entry) (now : Nat) : Bool :=
  entry.route.length == p.currentHops && w.hasStreamCapacity entry.circuit &&
    !(match entry.firstStream with
      | some first => decide (first + o.rotation ≤ now)
      | none => false)

/-- The proposal of a chosen route. -/
def offer (p : Pool) (hops : Nat) (route : List RouteNode) : Pool :=
  let proposal : RouteProposal :=
    { id := proposalId credentials.digest hops route p.serial
      hops := hops
      serial := p.serial
      nodes := route.map (·.name) }
  { p with proposal := some proposal, log := .proposed proposal :: p.log }

/-- `propose`: the longest route that exists up to the given length. -/
def propose : Nat → Pool → Pool
  | 0, p => { p with proposal := none }
  | hops + 1, p =>
    if !p.chooser || p.view != .ready || p.session.isNone || p.closed ||
        decide (p.viewExpires ≤ w.wall) then
      { p with proposal := none }
    else if hops = 0 then p.offer credentials 1 [credentials.entry]
    else
      match w.choose (hops + 1) with
      | some route => p.offer credentials (hops + 1) route.1
      | none => propose hops p

/-- `length_failed`, with what it does to build the next shorter length. -/
def lengthFailedBy (retry : Pool → Pool) (hops : Nat) (p : Pool) : Pool :=
  let shorter := hops - 1
  if 1 ≤ shorter ∧ p.allowedMin o ≤ shorter then
    let p := { p with
      attempts := 0, currentHops := shorter, nextRecheck := some (w.now + o.recheck) }
    if 2 ≤ shorter then retry p else p.push [.pump]
  else
    let p := propose credentials w shorter { p with attempts := 0, currentHops := 0 }
    p.failWaiters (.needsConsent (p.proposal.map (·.id)))

/-- `start_build`.  The pool never asks for a length of zero. -/
def startBuild : Nat → Bool → Pool → Pool
  | 0, _, p => p
  | hops + 1, probe, p =>
    if p.chooser then
      match w.choose (hops + 1) with
      | some route =>
        { p with building := true }.ask (.entry p.generation route.1 probe)
      | none =>
        if probe then p
        else lengthFailedBy o credentials w (startBuild hops false) (hops + 1) p
    else p

def lengthFailed (hops : Nat) (p : Pool) : Pool :=
  lengthFailedBy o credentials w (startBuild o credentials w (hops - 1) false) hops p

def buildFailed (route : List RouteNode) (probe : Bool) (p : Pool) : Pool :=
  if probe then p.push [.pump]
  else if route.length = p.currentHops ∧ p.entries.any (p.usable o w · w.now) then
    { p with spareAfter := w.now + o.tick }.push [.pump]
  else if p.attempts + 1 < o.attempts then
    startBuild o credentials w route.length false { p with attempts := p.attempts + 1 }
  else lengthFailed o credentials w route.length { p with attempts := p.attempts + 1 }

/-- `built`: a probe, or a length above the one in use, becomes the length in
use and ends an accepted shorter one. -/
def built (circuit : Nat) (route : List RouteNode) (probe : Bool) (p : Pool) : Pool :=
  let p := { p with attempts := 0, log := .built route.length probe p.currentHops :: p.log }
  let p := if probe ∨ p.currentHops < route.length then
      { p with
        currentHops := route.length, acceptedHops := 0, proposal := none, nextRecheck := none }
    else p
  { p with entries := p.entries ++ [Entry.mk circuit route none] }.push [.pump]

def fetchView (p : Pool) : Pool :=
  { p.discardProposal o with view := .fetching }.ask (.routes p.generation)

def viewFailed (message : String) (p : Pool) : Pool :=
  let stopped := if message = "" then "the entry's routes view failed its checks" else message
  { p.discardProposal o with view := .failed, chooser := false, stopped := stopped }.failWaiters
    (.stopped stopped)

def viewReceived (served : Served) (p : Pool) : Pool :=
  let p := p.discardProposal o
  match served with
  | .refused message => p.viewFailed o message
  | .accepted notAfter serial namesEntry =>
    let p := { p with viewExpires := notAfter, serial := serial, log := .view :: p.log }
    if namesEntry then
      { p with chooser := true, view := .ready, stopped := "" }.push [.pump]
    else p.viewFailed o "the routes view does not name this client's entry"

/-- `pump_now` up to its first completion: closed circuits leave, and cancelled
opens are detached wherever they wait. -/
def pump (p : Pool) : Pool :=
  if p.closed then p.failWaiters .closed
  else
    { p with
      entries := p.entries.filter fun entry => !w.circuitClosed entry.circuit
      waiters := p.waiters.filter fun waiter => !w.cancelled waiter.call }.push
      [.settleAll (p.waiters.filter fun waiter => w.cancelled waiter.call) .cancelled, .resume]

/-- `pump_now` after the cancelled opens, up to its loop. -/
def resume (p : Pool) : Pool :=
  if p.waiters = [] ∧ (p.session = none ∨ p.view = .failed) then p
  else if p.session = none then p.failWaiters .noSession
  else
    match p.view with
    | .idle => p.fetchView o
    | .fetching => p
    | .failed => p.failWaiters (.stopped p.stopped)
    | .ready => p.push [.loop w.now]

/-- `pump_now` after its loop: a build for a waiting stream, or a spare. -/
def afterLoop (now : Nat) (p : Pool) : Pool :=
  let spare := p.entries.any fun entry => p.usable o w entry now && w.streams entry.circuit == 0
  if (p.waiters ≠ [] ∨ (spare = false ∧ p.spareAfter ≤ now)) ∧ p.building = false ∧
      2 ≤ p.currentHops then
    startBuild o credentials w p.currentHops false p
  else p

/-- `open_direct`, on a waiter that has left the queue. -/
def openDirect (waiter : Waiter) (p : Pool) : Pool :=
  if p.session = none ∨ p.closed then
    p.settle waiter (if p.closed then .closed else .noSession)
  else (p.note (.streamed .direct p.currentHops)).ask (.direct waiter)

/-- `open_on`, on a waiter that has left the queue. -/
def openOn (entry : Entry) (waiter : Waiter) (p : Pool) : Pool :=
  if waiter.destination.tcp then
    (p.note (.streamed (.circuit entry.route.length) p.currentHops)).ask (.stream waiter)
  else p.settle waiter .notTcp

/-- A circuit's first stream starts its rotation. -/
def markFirst (circuit now : Nat) (entries : List Entry) : List Entry :=
  entries.map fun entry =>
    if entry.circuit = circuit ∧ entry.firstStream = none then
      { entry with firstStream := some now }
    else entry

/-- The front waiter is settled where it stands and popped afterwards. -/
def settleFront (now : Nat) (waiter : Waiter) (rest : List Waiter) (outcome : Outcome)
    (p : Pool) : Pool :=
  ({ p with waiters := { waiter with done := false } :: rest }.push
    [.popFront, .loop now]).settle waiter outcome

/-- One round of the loop of `pump_now`. -/
def loop (now : Nat) (p : Pool) : Pool :=
  match p.waiters with
  | [] => p.afterLoop o credentials w now
  | waiter :: rest =>
    if w.cancelled waiter.call then p.settleFront now waiter rest .cancelled
    else if p.currentHops = 0 then
      p.failWaiters (.needsConsent (p.proposal.map (·.id)))
    else if p.currentHops = 1 then
      ({ p with waiters := rest }.push [.loop now]).openDirect waiter
    else if !o.plainHttpAllowed && waiter.destination.port == 80 then
      p.settleFront now waiter rest .plainHttp
    else
      match p.entries.find? (p.usable o w · now) with
      | none => p.afterLoop o credentials w now
      | some entry =>
        ({ p with
          waiters := rest
          entries := markFirst entry.circuit now p.entries }.push [.loop now]).openOn
          entry waiter

/-- `waiters.pop_front()` after the front was settled.  A waiter that leaves
with its completion is lost. -/
def popFront (p : Pool) : Pool :=
  match p.waiters with
  | [] => p.note .emptyPop
  | waiter :: rest =>
    if waiter.done then { p with waiters := rest }.note (.lost waiter.call)
    else { p with waiters := rest }

/-- The code at a point, with that point already off the stack. -/
def exec (p : Pool) : Task → Pool
  | .outside => p
  | .pump => p.pump w
  | .settleAll [] _ => p
  | .settleAll (waiter :: rest) outcome => (p.push [.settleAll rest outcome]).settle waiter outcome
  | .resume => p.resume o w
  | .loop now => p.loop o credentials w now
  | .popFront => p.popFront

/-- `CircuitPool::set_session`. -/
def setSession (next : Option Nat) (p : Pool) : Pool :=
  if next = p.session then p
  else
    { { p with generation := p.generation + 1, session := next }.discardProposal o with
      entries := []
      building := false
      attempts := 0
      view := .idle
      chooser := false
      log := .session :: p.log }.push [.pump]

/-- `CircuitPool::open`. -/
def «open» (destination : Destination) (registered : Bool) (p : Pool) : Pool :=
  let waiter : Waiter := ⟨p.calls, destination, true⟩
  let p := { p with calls := p.calls + 1, log := .opened p.calls :: p.log }
  if registered then { p with waiters := p.waiters ++ [waiter] }.push [.pump]
  else p.settle waiter .unregistered

/-- `CircuitPool::accept`, with whether it succeeds. -/
def accept (id : Bytes) (p : Pool) : Bool × Pool :=
  if p.proposalCurrent w then
    match p.proposal with
    | some proposal =>
      if proposal.id = id then
        (true, { p with
          acceptedHops := proposal.hops
          currentHops := proposal.hops
          proposal := none
          attempts := 0
          nextRecheck := some (w.now + o.recheck)
          log := .accepted proposal :: p.log }.push [.pump])
      else (false, p)
    | none => (false, p)
  else (false, p.discardProposal o)

/-- `CircuitPool::close`. -/
def close (p : Pool) : Pool :=
  if p.closed then p
  else { { p with closed := true }.discardProposal o with entries := [] }.failWaiters .closed

/-- The views that `maintain` asks for again: a failed one, and one that expired. -/
def refresh (p : Pool) : Pool :=
  if p.view = .failed ∧ p.session ≠ none then { p.discardProposal o with view := .idle }
  else if p.view = .ready ∧ p.viewExpires ≤ w.wall then { p.discardProposal o with view := .idle }
  else p

/-- `maintain`, without the circuits it closes: those show in the world. -/
def maintain (p : Pool) : Pool :=
  let p := (p.push [.pump]).refresh o w
  if p.currentHops < o.hops ∧ p.building = false ∧ p.view = .ready ∧
      (∀ due ∈ p.nextRecheck, due ≤ w.now) then
    let p := { p with nextRecheck := some (w.now + o.recheck) }
    if p.session ≠ none ∧ p.chooser then startBuild o credentials w o.hops true p else p
  else p

/-- A callback that carries the generation it was made in. -/
def current (generation : Nat) (p : Pool) : Bool := p.generation == generation && !p.closed

/-- The callbacks the pool gave its providers, on their operations' results. -/
def complete (p : Pool) : Op → Reply → Pool
  | .routes generation, reply =>
    if p.current generation then
      match reply with
      | .failed message => p.viewFailed o message
      | _ => p.ask (.routesRead generation 0)
    else p
  | .routesRead generation received, reply =>
    if p.current generation then
      match reply with
      | .failed message => p.viewFailed o message
      | .ended served => p.viewReceived o served
      | .bytes size =>
        if maxRoutesBytes < received + size then
          p.viewFailed o "the entry's routes view is too long"
        else p.ask (.routesRead generation (received + size))
      | .ok => p.ask (.routesRead generation received)
    else p
  | .direct waiter, reply => p.settle waiter (.provider (reply == .ok))
  | .stream waiter, reply => p.settle waiter (.provider (reply == .ok))
  | .entry generation route probe, reply =>
    if p.current generation then
      match reply with
      | .ok =>
        if w.createsCircuit then
          { p with circuits := p.circuits + 1 }.ask (.build generation p.circuits route probe)
        else buildFailed o credentials w route probe { p with building := false }
      | _ => buildFailed o credentials w route probe { p with building := false }
    else p
  | .build generation circuit route probe, reply =>
    if p.current generation then
      match reply with
      | .ok => built circuit route probe { p with building := false }
      | _ => buildFailed o credentials w route probe { p with building := false }
    else p

/-- Whether control is outside the pool, so that it may be called. -/
def free (p : Pool) : Bool :=
  match p.stack with
  | [] => true
  | .outside :: _ => true
  | _ => false

end Pool

/-- The calls into the pool: its interface, its timer and its posted pumps. -/
inductive Call where
  | setSession (session : Option Nat)
  | «open» (destination : Destination) (registered : Bool)
  | accept (id : Bytes)
  | close
  | tick
  | posted
deriving DecidableEq, Repr

def Pool.call (p : Pool) : Call → Pool
  | .setSession session => p.setSession o session
  | .open destination registered => p.open destination registered
  | .accept id => (p.accept o w id).2
  | .close => p.close o
  | .tick => if p.closed then p else p.maintain o credentials w
  | .posted => p.push [.pump]

end Code

/-- A move of the machine: the pool's own code goes on, a call that left it
returns, someone calls it, or a provider completes an operation. -/
inductive Move where
  | run (w : World)
  | back
  | call (w : World) (call : Call)
  | complete (w : World) (index : Nat) (reply : Reply)

/-- One move, if the machine can make it. -/
def step (o : CircuitPoolOptions) (credentials : Credentials) (p : Pool) : Move → Option Pool
  | .run w =>
    match p.stack with
    | [] => none
    | .outside :: _ => none
    | task :: rest => some ({ p with stack := rest }.exec o credentials w task)
  | .back =>
    match p.stack with
    | .outside :: rest => some { p with stack := rest }
    | _ => none
  | .call w call => if p.free then some (p.call o credentials w call) else none
  | .complete w index reply =>
    if p.free then
      p.ops[index]?.map fun op =>
        { p with ops := p.ops.eraseIdx index }.complete o credentials w op reply
    else none

end Yume.CircuitPool
