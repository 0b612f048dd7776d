/-
The completions that applications hand to the engine, and what each step shows
of them: which ones it accepts, which ones it invokes and with what result, and
which writes enter the wire queue.
-/
import Yume.Session.Effects

namespace Yume.Session

open Engine List

/-- An operation whose completion the engine keeps: one of `async_start`, one
for each `async_open`, and one for each operation ID of a read or a write. -/
inductive Operation where
  | start
  | open (streamId : Nat)
  | read (streamId operationId : Nat)
  | write (streamId operationId : Nat)
deriving Repr, DecidableEq

inductive Result where
  | succeeded
  | cancelled
  | failed
deriving Repr, DecidableEq

inductive Event where
  | accepted (operation : Operation)
  | completed (operation : Operation) (result : Result)
  | published (streamId operationId : Nat)
deriving Repr, DecidableEq

def completeAll (operations : List Operation) (result : Result) : List Event :=
  operations.map (.completed · result)

namespace Stream

/-- `open_completion`. -/
def opener (stream : Stream) : List Operation :=
  if stream.openedByPeer || stream.responderHeld || stream.closed then []
  else [.open stream.id]

/-- `pending_read`. -/
def reader (stream : Stream) : List Operation :=
  (stream.pendingRead.map (.read stream.id)).toList

/-- `pending_writes`. -/
def writers (stream : Stream) : List Operation :=
  stream.pendingWrites.map fun write => .write stream.id write.operationId

end Stream

/-- The completion that travels with a record. -/
def Record.writer (record : Record) (completion : Option Nat) : List Operation :=
  (completion.map (.write record.streamId)).toList

def DeferredRecord.writer (deferred : DeferredRecord) : List Operation :=
  deferred.record.writer deferred.completion

def OutboundItem.writer (item : OutboundItem) : List Operation :=
  item.wire.record.writer item.completion

def ActiveSend.writer (active : ActiveSend) : List Operation :=
  active.wire.record.writer active.completion

namespace Engine

/-- `start_completion_` is taken when the session becomes active. -/
def starter (e : Engine) : List Operation :=
  if e.state = .awaitingCapabilities then [.start] else []

/-- The completions in the queues of records. -/
def queued (e : Engine) : List Operation :=
  e.queue.items.flatMap OutboundItem.writer ++ e.queue.deferred.flatMap DeferredRecord.writer ++
    e.queue.active.toList.flatMap ActiveSend.writer

/-- The operations that `stop` completes: those of every entry of `streams_`,
closed ones included, and of every queue.  It leaves the streams' queues as
they are. -/
def stopped (e : Engine) : List Operation :=
  if e.terminal then []
  else e.starter ++ (e.streams.filter fun stream => stream.present).flatMap
    (fun stream => stream.opener ++ stream.reader ++ stream.writers) ++ e.queued

/-- The completions of a stream that `remove_stream` takes while it holds the
engine's lock. -/
def removeEvents (e : Engine) (id : Nat) : List Event :=
  match e.findOpen id with
  | none => []
  | some stream => completeAll (stream.opener ++ stream.reader) .failed

def dropEvents (e : Engine) (id : Nat) : List Event :=
  match e.object id with
  | none => []
  | some stream => completeAll (stream.writers.take 1) .failed

def acceptanceEvents (e : Engine) (id : Nat) : List Event :=
  match e.findOpen id with
  | none => []
  | some stream => if stream.acceptanceReady then
    completeAll stream.opener .succeeded else []

/-- Received data goes to the waiting read. -/
def deliveryEvents (e : Engine) (id size : Nat) : List Event :=
  match e.crossedFailure id size, e.find id with
  | none, some stream => if stream.closed || e.inboundFull stream size then []
    else completeAll stream.reader .succeeded
  | _, _ => []

/-- The peer's FIN ends the waiting read when nothing is queued. -/
def closeEvents (e : Engine) (id : Nat) (code : CloseCode) : List Event :=
  match e.closeFailure id code, e.find id with
  | none, some stream => if code = .normal ∧ stream.inbound.isEmpty then
    completeAll stream.reader .failed else []
  | _, _ => []

def cancelReadEvents (e : Engine) (id operationId : Nat) : List Event :=
  match e.find id with
  | none => []
  | some stream => if stream.pendingRead = some operationId then
    [.completed (.read id operationId) .cancelled] else []

def cancelWriteEvents (e : Engine) (id operationId : Nat) : List Event :=
  match e.find id with
  | none => []
  | some stream => if stream.pendingWrites.any (fun write => write.operationId == operationId) then
      [.completed (.write id operationId) .cancelled] else []

/-- What one critical section shows.  An operation that is refused or answered
in the section that takes it is not listed. -/
def events (e : Engine) : Call → List Event
  | .publish request _ _ _ _ => if e.terminal then []
    else (request.completion.map (.published request.record.streamId)).toList
  | .tokenLost request _ _ => if request.protect then
    completeAll e.stopped .failed else []
  | .controlsFail _ | .stopSession _ _ => completeAll e.stopped .failed
  | .settleWrite id _ operationId status => if status.isOk then []
    else [.completed (.write id operationId) .failed]
  | .flushCheck deferred _ => if e.targetClosed deferred.record then
    completeAll deferred.writer .failed else []
  | .flushClosed deferred _ => completeAll deferred.writer .failed
  | .flushAbandon deferred rest _ =>
    completeAll ((deferred :: rest).flatMap DeferredRecord.writer) .failed
  | .localAcceptance id => e.acceptanceEvents id
  | .removeStream id _ => e.removeEvents id
  | .dropWrites id => e.dropEvents id
  | .asyncOpen request => if e.openRefusal request = none then
    [.accepted (.open e.nextLocalStreamId)] else []
  | .streamRead id => if e.readParks id then
    [.accepted (.read id e.nextOperationId)] else []
  | .cancelRead id operationId => e.cancelReadEvents id operationId
  | .streamWrite id payload => if e.writeRefusal id payload = none then
    [.accepted (.write id e.nextOperationId)] else []
  | .cancelWrite id operationId => e.cancelWriteEvents id operationId
  | .processCapabilities manifest => if e.state = .awaitingCapabilities ∧
        manifest = e.config.peerManifest then
      [.completed .start .succeeded] else []
  | .publishData id _ payload => e.deliveryEvents id payload.size
  | .processClose id code => e.closeEvents id code
  | _ => []

end Engine

/-- Sections that call `stop`. -/
def Call.stops : Call → Bool
  | .tokenLost request _ _ => request.protect
  | .controlsFail _ | .stopSession _ _ => true
  | _ => false

/-- The events of the critical sections, one by one. -/
inductive CallShows (e : Engine) : Call → Event → Prop where
  | publishes {r o token wire size op} : e.terminal = false →
    r.completion = some op →
    CallShows e (.publish r o token wire size) (.published r.record.streamId op)
  | stops {call operation} : call.stops = true → operation ∈ e.stopped →
    CallShows e call (.completed operation .failed)
  | settles {id size op status} : status.isOk = false →
    CallShows e (.settleWrite id size op status) (.completed (.write id op) .failed)
  | drops {deferred rest operation} : e.targetClosed deferred.record = true →
    operation ∈ deferred.writer →
    CallShows e (.flushCheck deferred rest) (.completed operation .failed)
  | closes {deferred rest operation} : operation ∈ deferred.writer →
    CallShows e (.flushClosed deferred rest) (.completed operation .failed)
  | abandons {deferred rest status operation} :
    operation ∈ (deferred :: rest).flatMap DeferredRecord.writer →
    CallShows e (.flushAbandon deferred rest status) (.completed operation .failed)
  | accepts {id stream operation} : e.findOpen id = some stream →
    operation ∈ stream.opener →
    CallShows e (.localAcceptance id) (.completed operation .succeeded)
  | removes {id reason stream operation} : e.findOpen id = some stream →
    operation ∈ stream.opener ++ stream.reader →
    CallShows e (.removeStream id reason) (.completed operation .failed)
  | removesWrite {id stream operation} : e.object id = some stream →
    operation ∈ stream.writers →
    CallShows e (.dropWrites id) (.completed operation .failed)
  | opens {request} : e.openRefusal request = none →
    CallShows e (.asyncOpen request) (.accepted (.open e.nextLocalStreamId))
  | parks {id} : e.readParks id = true →
    CallShows e (.streamRead id) (.accepted (.read id e.nextOperationId))
  | cancelsRead {id op} : CallShows e (.cancelRead id op) (.completed (.read id op) .cancelled)
  | writes {id payload} : e.writeRefusal id payload = none →
    CallShows e (.streamWrite id payload) (.accepted (.write id e.nextOperationId))
  | cancelsWrite {id op} : CallShows e (.cancelWrite id op) (.completed (.write id op) .cancelled)
  | starts {manifest} : e.state = .awaitingCapabilities →
    CallShows e (.processCapabilities manifest) (.completed .start .succeeded)
  | delivers {id kind payload stream operation} : e.find id = some stream →
    operation ∈ stream.reader →
    CallShows e (.publishData id kind payload) (.completed operation .succeeded)
  | ends {id code stream operation} : e.find id = some stream →
    operation ∈ stream.reader →
    CallShows e (.processClose id code) (.completed operation .failed)

theorem mem_completeAll {event : Event} {operations : List Operation}
    {result : Result} (h : event ∈ completeAll operations result) :
    ∃ operation ∈ operations, event = .completed operation result := by
  obtain ⟨operation, hmem, rfl⟩ := mem_map.mp h
  exact ⟨operation, hmem, rfl⟩

theorem mem_events {e : Engine} {call : Call} {event : Event}
    (h : event ∈ e.events call) : CallShows e call event := by
  cases call with
  | publish =>
    obtain ⟨hlive, h⟩ := mem_ite_nil_left.mp h
    simp only [Option.mem_toList, Option.map_eq_some_iff] at h
    obtain ⟨_, hcompletion, rfl⟩ := h
    exact .publishes (eq_false_of_ne_true hlive) hcompletion
  | tokenLost =>
    obtain ⟨hprotect, h⟩ := mem_ite_nil_right.mp h
    obtain ⟨_, hmem, rfl⟩ := mem_completeAll h
    exact .stops hprotect hmem
  | controlsFail | stopSession =>
    obtain ⟨_, hmem, rfl⟩ := mem_completeAll h
    exact .stops rfl hmem
  | settleWrite =>
    obtain ⟨hbad, h⟩ := mem_ite_nil_left.mp h
    obtain rfl := mem_singleton.mp h
    exact .settles (eq_false_of_ne_true hbad)
  | flushCheck =>
    obtain ⟨hclosed, h⟩ := mem_ite_nil_right.mp h
    obtain ⟨_, hmem, rfl⟩ := mem_completeAll h
    exact .drops hclosed hmem
  | flushClosed =>
    obtain ⟨_, hmem, rfl⟩ := mem_completeAll h
    exact .closes hmem
  | flushAbandon =>
    obtain ⟨_, hmem, rfl⟩ := mem_completeAll h
    exact .abandons hmem
  | localAcceptance =>
    simp only [events, acceptanceEvents] at h
    split at h
    · cases h
    obtain ⟨_, hmem, rfl⟩ := mem_completeAll (mem_ite_nil_right.mp h).2
    exact .accepts ‹_› hmem
  | removeStream =>
    simp only [events, removeEvents] at h
    split at h
    · cases h
    obtain ⟨_, hmem, rfl⟩ := mem_completeAll h
    exact .removes ‹_› hmem
  | dropWrites =>
    simp only [events, dropEvents] at h
    split at h
    · cases h
    obtain ⟨_, hmem, rfl⟩ := mem_completeAll h
    exact .removesWrite ‹_› (mem_of_mem_take hmem)
  | asyncOpen =>
    obtain ⟨hopen, h⟩ := mem_ite_nil_right.mp h
    obtain rfl := mem_singleton.mp h
    exact .opens hopen
  | streamRead =>
    obtain ⟨hparks, h⟩ := mem_ite_nil_right.mp h
    obtain rfl := mem_singleton.mp h
    exact .parks hparks
  | cancelRead =>
    simp only [events, cancelReadEvents] at h
    split at h
    · cases h
    obtain rfl := mem_singleton.mp (mem_ite_nil_right.mp h).2
    exact .cancelsRead
  | streamWrite =>
    obtain ⟨hopen, h⟩ := mem_ite_nil_right.mp h
    obtain rfl := mem_singleton.mp h
    exact .writes hopen
  | cancelWrite =>
    simp only [events, cancelWriteEvents] at h
    split at h
    · cases h
    obtain rfl := mem_singleton.mp (mem_ite_nil_right.mp h).2
    exact .cancelsWrite
  | processCapabilities =>
    obtain ⟨hwaits, h⟩ := mem_ite_nil_right.mp h
    obtain rfl := mem_singleton.mp h
    exact .starts hwaits.1
  | publishData =>
    simp only [events, deliveryEvents] at h
    split at h
    · obtain ⟨_, hmem, rfl⟩ := mem_completeAll (mem_ite_nil_left.mp h).2
      exact .delivers ‹_› hmem
    · cases h
  | processClose =>
    simp only [events, closeEvents] at h
    split at h
    · obtain ⟨_, hmem, rfl⟩ := mem_completeAll (mem_ite_nil_right.mp h).2
      exact .ends ‹_› hmem
    · cases h
  | _ => cases h

/-- The carrier's completion of a send is the completion of its write. -/
def ActiveSend.events (active : ActiveSend) (status : Status) : List Event :=
  completeAll active.writer (if status.isOk then .succeeded else .failed)

/-- The events of one move.  `other` stands for the moves of the environment
that complete no send. -/
inductive Shows (e : Engine) : List Call → Engine → List Call → List Event →
    Prop where
  | run {call e' made} : Shows e [call] e' made (e.events call)
  | sent {active status now} : e.queue.active = some active →
    Shows e [] (e.settleSend active now)
      (if status.isOk ∨ e.terminal then [.drainControls] else [failCall status])
      (active.events status)
  | other {e' made} : (e'.queue.active = none → e.queue.active = none) → Shows e [] e' made []

end Yume.Session
