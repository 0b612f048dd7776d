/-
`RouteBridge` over a byte stream: two half-duplex pumps and the opening of the
route, under one mutex that is dropped around every call of a provider.

A task is one critical section or one call of a provider.  A thread inside the
bridge is the list of tasks it still has to run, and every completion of an
operation starts a thread of its own, so a completion made inline is one whose
thread runs before the one that made the call goes on.
-/
import Yume.Lib.Bytes
import Yume.Lib.Runs
import Yume.Lib.Stacks

namespace Yume.RouteBridge

open Yume.Lib

/-- `kAbsoluteMaxBufferBytes`. -/
def absoluteMaxBufferBytes : Nat := 16 * 1024 * 1024

/-- What the route channel and the stream responder declare. -/
structure Limits where
  maxReadSize : Nat
  maxWriteSize : Nat
  streamMaxWriteSize : Nat
deriving DecidableEq, Repr

/-- `Result<RouteConnection>`; `fits` says that the kinds and the executor
affinities of the connection and of the stream are the ones required. -/
inductive OpenResult where
  | connection (fits : Bool)
  | failed
deriving DecidableEq, Repr

/-- `Result<ReceivedRecord>` of the stream. -/
inductive StreamResult where
  | record (payload : Bytes)
  | endOfStream
  | failed
deriving DecidableEq, Repr

/-- `Result<Buffer>` of the route channel. -/
inductive RouteResult where
  | bytes (payload : Bytes)
  | closed
  | failed
deriving DecidableEq, Repr

/-- `PendingStreamRecord`.  The record is named by its number; its credit is
held as long as it is here. -/
structure PendingStreamRecord where
  record : Nat
  payload : Bytes
  offset : Nat
deriving DecidableEq, Repr

inductive Task where
  | issueStreamRead
  | callStreamRead
  /-- `start` after its first read. -/
  | checkStart
  | callOpen
  | completeOpen (result : OpenResult)
  /-- The last critical section of `complete_open`. -/
  | install
  | issueRouteWrite
  /-- The second critical section of `issue_route_write`. -/
  | takeChunk (offset size : Nat)
  /-- The third one. -/
  | checkRouteWrite (chunk : Bytes)
  | callRouteWrite (chunk : Bytes)
  | issueRouteRead
  | callRouteRead
  | callStreamWrite (payload : Bytes)
  | propagateStreamEof
  | callRouteShutdown
  | propagateRouteEof
  | callStreamShutdown
  | finishIfGraceful
  | completeAcceptance (success : Bool)
  | invokeAcceptance (success : Bool)
  | fail
  | release (record : Nat)
  | closeRoute
  | closeConnection
  | closeStream
deriving DecidableEq, Repr

/-- The members of the bridge, the operations its providers have not completed,
and what has happened so far.  `failure_needs_cleanup_` is set and cleared in
one critical section and left out. -/
structure Bridge where
  openSettled : Bool
  routeOpen : Bool
  streamReadInflight : Bool
  routeWriteInflight : Bool
  routeReadInflight : Bool
  streamWriteInflight : Bool
  streamInputEof : Bool
  routeInputEof : Bool
  routeWriteShutdown : Bool
  streamWriteShutdown : Bool
  routeCloseIssued : Bool
  terminal : Bool
  acceptance : Bool
  pending : Option PendingStreamRecord
  routeWriteExpected : Nat
  streamWriteExpected : Nat
  /-- Operations outstanding at the providers. -/
  opens : Nat
  streamReads : Nat
  routeWrites : Nat
  routeReads : Nat
  streamWrites : Nat
  /-- The bytes read from the stream, those handed to the route, and how many
  of them the route has reported written. -/
  fromStream : Bytes
  toRoute : Bytes
  routeWritten : Nat
  fromRoute : Bytes
  toStream : Bytes
  streamWritten : Nat
  /-- Where each received record ends in `fromStream`. -/
  ends : List Nat
  released : List Nat
  acceptances : List Bool
  routeShutdowns : Nat
  streamShutdowns : Nat
  routeCloses : Nat
  streamCloses : Nat
  /-- Connections that were delivered, and those closed without being installed. -/
  delivered : Nat
  discarded : Nat
deriving DecidableEq, Repr

namespace Bridge

/-- A constructed bridge. -/
def create (acceptance : Bool) : Bridge where
  openSettled := false
  routeOpen := false
  streamReadInflight := false
  routeWriteInflight := false
  routeReadInflight := false
  streamWriteInflight := false
  streamInputEof := false
  routeInputEof := false
  routeWriteShutdown := false
  streamWriteShutdown := false
  routeCloseIssued := false
  terminal := false
  acceptance := acceptance
  pending := none
  routeWriteExpected := 0
  streamWriteExpected := 0
  opens := 0
  streamReads := 0
  routeWrites := 0
  routeReads := 0
  streamWrites := 0
  fromStream := []
  toRoute := []
  routeWritten := 0
  fromRoute := []
  toStream := []
  streamWritten := 0
  ends := []
  released := []
  acceptances := []
  routeShutdowns := 0
  streamShutdowns := 0
  routeCloses := 0
  streamCloses := 0
  delivered := 0
  discarded := 0

section Code

variable (limits : Limits)

def issueStreamRead (b : Bridge) : Bridge × List Task :=
  if b.terminal || b.streamInputEof || b.streamReadInflight || b.pending.isSome then (b, [])
  else ({ b with streamReadInflight := true }, [.callStreamRead])

/-- The check of the bounds in `complete_open`. -/
def boundsValid (fits : Bool) : Bool :=
  fits && limits.maxReadSize != 0 && limits.maxWriteSize != 0 && limits.streamMaxWriteSize != 0

def completeOpen (b : Bridge) (result : OpenResult) : Bridge × List Task :=
  if b.terminal || b.openSettled then
    match result with
    | .connection _ => (b, [.closeConnection])
    | .failed => (b, [])
  else
    match result with
    | .failed => ({ b with openSettled := true }, [.fail])
    | .connection fits =>
      if boundsValid limits fits then ({ b with openSettled := true }, [.install])
      else ({ b with openSettled := true }, [.closeConnection, .fail])

/-- What `complete_open` goes on with once the channel is installed. -/
def afterInstall (b : Bridge) : List Task :=
  if b.pending.isSome then [.issueRouteWrite]
  else if b.streamInputEof then [.propagateStreamEof] else []

def install (b : Bridge) : Bridge × List Task :=
  if b.terminal then (b, [.closeConnection])
  else ({ b with routeOpen := true }, [.completeAcceptance true, .issueRouteRead] ++ b.afterInstall)

/-- The first critical section of `issue_route_write`. -/
def issueRouteWrite (b : Bridge) : Bridge × List Task :=
  match b.pending with
  | none => (b, [])
  | some pending =>
    if b.terminal || !b.routeOpen || b.routeWriteInflight then (b, [])
    else if pending.payload.length ≤ pending.offset || limits.maxWriteSize == 0 then (b, [.fail])
    else
      ({ b with
          routeWriteInflight := true
          routeWriteExpected := min (pending.payload.length - pending.offset) limits.maxWriteSize },
        [.takeChunk pending.offset
          (min (pending.payload.length - pending.offset) limits.maxWriteSize)])

/-- The whole payload is moved out and a part of it is copied; the payload of a
record that was moved out is not read again. -/
def takeChunk (b : Bridge) (offset size : Nat) : Bridge × List Task :=
  match b.pending with
  | none => ({ b with routeWriteInflight := false }, [])
  | some pending =>
    if b.terminal then
      ({ b with routeWriteInflight := false, pending := none }, [.release pending.record])
    else (b, [.checkRouteWrite ((pending.payload.drop offset).take size)])

def issueRouteRead (b : Bridge) : Bridge × List Task :=
  if b.terminal || !b.routeOpen || b.routeInputEof || b.routeReadInflight ||
      b.streamWriteInflight then (b, [])
  else ({ b with routeReadInflight := true }, [.callRouteRead])

/-- The bound of a route read. -/
def maxReadBytes : Nat :=
  min limits.maxReadSize (min limits.streamMaxWriteSize absoluteMaxBufferBytes)

def callRouteRead (b : Bridge) : Bridge × List Task :=
  if maxReadBytes limits == 0 then ({ b with routeReadInflight := false }, [.fail])
  else ({ b with routeReads := b.routeReads + 1 }, [])

def propagateStreamEof (b : Bridge) : Bridge × List Task :=
  if b.terminal || !b.routeOpen || b.routeWriteShutdown then (b, [])
  else ({ b with routeWriteShutdown := true }, [.callRouteShutdown])

def propagateRouteEof (b : Bridge) : Bridge × List Task :=
  if b.terminal || b.streamWriteShutdown then (b, [])
  else ({ b with streamWriteShutdown := true }, [.callStreamShutdown])

/-- What follows a call of `shutdown_write`. -/
def afterShutdown (ok : Bool) : List Task := if ok then [.finishIfGraceful] else [.fail]

/-- The close of the route: there is a channel only if one was installed. -/
def routeClose (b : Bridge) : List Task :=
  if !b.routeCloseIssued && b.routeOpen then [.closeRoute] else []

def finishIfGraceful (b : Bridge) : Bridge × List Task :=
  if b.terminal || !b.streamInputEof || !b.routeInputEof || !b.routeWriteShutdown ||
      !b.streamWriteShutdown then (b, [])
  else ({ b with terminal := true, routeCloseIssued := true }, b.routeClose)

def completeAcceptance (b : Bridge) (success : Bool) : Bridge × List Task :=
  if b.acceptance then ({ b with acceptance := false }, [.invokeAcceptance success]) else (b, [])

/-- The record whose credit `fail` drops. -/
def dropped (b : Bridge) : List Task :=
  match b.pending with
  | some pending => if b.routeWriteInflight then [] else [.release pending.record]
  | none => []

def fail (b : Bridge) : Bridge × List Task :=
  if b.terminal then (b, [])
  else
    ({ b with
        terminal := true
        routeCloseIssued := true
        pending := if b.routeWriteInflight then b.pending else none },
      b.dropped ++ b.routeClose ++ [.completeAcceptance false, .closeStream])

/-- One task.  `ok` is what a `shutdown_write` called in it returns. -/
def exec (ok : Bool) (b : Bridge) : Task → Bridge × List Task
  | .issueStreamRead => b.issueStreamRead
  | .callStreamRead => ({ b with streamReads := b.streamReads + 1 }, [])
  | .checkStart => if b.terminal then (b, []) else (b, [.callOpen])
  | .callOpen => ({ b with opens := b.opens + 1 }, [])
  | .completeOpen result => b.completeOpen limits result
  | .install => b.install
  | .issueRouteWrite => b.issueRouteWrite limits
  | .takeChunk offset size => b.takeChunk offset size
  | .checkRouteWrite chunk => if b.terminal then (b, []) else (b, [.callRouteWrite chunk])
  | .callRouteWrite chunk =>
    ({ b with routeWrites := b.routeWrites + 1, toRoute := b.toRoute ++ chunk }, [])
  | .issueRouteRead => b.issueRouteRead
  | .callRouteRead => b.callRouteRead limits
  | .callStreamWrite payload =>
    ({ b with streamWrites := b.streamWrites + 1, toStream := b.toStream ++ payload }, [])
  | .propagateStreamEof => b.propagateStreamEof
  | .callRouteShutdown => ({ b with routeShutdowns := b.routeShutdowns + 1 }, afterShutdown ok)
  | .propagateRouteEof => b.propagateRouteEof
  | .callStreamShutdown => ({ b with streamShutdowns := b.streamShutdowns + 1 }, afterShutdown ok)
  | .finishIfGraceful => b.finishIfGraceful
  | .completeAcceptance success => b.completeAcceptance success
  | .invokeAcceptance success => ({ b with acceptances := success :: b.acceptances }, [])
  | .fail => b.fail
  | .release record => ({ b with released := record :: b.released }, [])
  | .closeRoute => ({ b with routeCloses := b.routeCloses + 1 }, [])
  | .closeConnection => ({ b with discarded := b.discarded + 1 }, [])
  | .closeStream => ({ b with streamCloses := b.streamCloses + 1 }, [])

/-- A record as the stream hands it over. -/
def receive (b : Bridge) (payload : Bytes) : Bridge :=
  { b with
    fromStream := b.fromStream ++ payload
    ends := b.ends ++ [b.fromStream.length + payload.length] }

/-- The critical section of `complete_stream_read`.  A record that is not kept
releases its credit when it is destroyed. -/
def completeStreamRead (b : Bridge) : StreamResult → Bridge × List Task
  | .record payload =>
    if !b.streamReadInflight || b.terminal then
      ({ b.receive payload with streamReadInflight := false }, [.release b.ends.length])
    else if payload.isEmpty then
      ({ b.receive payload with streamReadInflight := false }, [.release b.ends.length, .fail])
    else
      ({ b.receive payload with
          streamReadInflight := false
          pending := some ⟨b.ends.length, payload, 0⟩ },
        if b.routeOpen then [.issueRouteWrite] else [])
  | .endOfStream =>
    if !b.streamReadInflight || b.terminal then ({ b with streamReadInflight := false }, [])
    else
      ({ b with streamReadInflight := false, streamInputEof := true },
        if b.routeOpen then [.propagateStreamEof] else [])
  | .failed =>
    if !b.streamReadInflight || b.terminal then ({ b with streamReadInflight := false }, [])
    else ({ b with streamReadInflight := false }, [.fail])

/-- The critical section of `complete_route_write`. -/
def completeRouteWrite (b : Bridge) (ok : Bool) (transferred : Nat) : Bridge × List Task :=
  if !b.routeWriteInflight then (b, [])
  else
    match b.pending with
    | none => ({ b with routeWriteInflight := false }, if b.terminal then [] else [.fail])
    | some pending =>
      if b.terminal then
        ({ b with routeWriteInflight := false, pending := none }, [.release pending.record])
      else if !ok || transferred != b.routeWriteExpected then
        ({ b with routeWriteInflight := false, pending := none }, [.release pending.record, .fail])
      else if pending.offset + b.routeWriteExpected = pending.payload.length then
        ({ b with
            routeWriteInflight := false
            pending := none
            routeWritten := b.routeWritten + b.routeWriteExpected },
          [.release pending.record, .issueStreamRead])
      else if pending.offset + b.routeWriteExpected < pending.payload.length then
        ({ b with
            routeWriteInflight := false
            pending := some { pending with offset := pending.offset + b.routeWriteExpected }
            routeWritten := b.routeWritten + b.routeWriteExpected },
          [.issueRouteWrite])
      else
        ({ b with routeWriteInflight := false, pending := none }, [.release pending.record, .fail])

/-- The critical section of `complete_route_read`. -/
def completeRouteRead (b : Bridge) : RouteResult → Bridge × List Task
  | .bytes payload =>
    if !b.routeReadInflight || b.terminal then
      ({ b with routeReadInflight := false, fromRoute := b.fromRoute ++ payload }, [])
    else if payload.isEmpty || limits.streamMaxWriteSize < payload.length then
      ({ b with routeReadInflight := false, fromRoute := b.fromRoute ++ payload }, [.fail])
    else
      ({ b with
          routeReadInflight := false
          fromRoute := b.fromRoute ++ payload
          streamWriteInflight := true
          streamWriteExpected := payload.length },
        [.callStreamWrite payload])
  | .closed =>
    if !b.routeReadInflight || b.terminal then ({ b with routeReadInflight := false }, [])
    else ({ b with routeReadInflight := false, routeInputEof := true }, [.propagateRouteEof])
  | .failed =>
    if !b.routeReadInflight || b.terminal then ({ b with routeReadInflight := false }, [])
    else ({ b with routeReadInflight := false }, [.fail])

/-- The critical section of `complete_stream_write`. -/
def completeStreamWrite (b : Bridge) (ok : Bool) (transferred : Nat) : Bridge × List Task :=
  if !b.streamWriteInflight then (b, [])
  else if b.terminal then ({ b with streamWriteInflight := false }, [])
  else if !ok || transferred != b.streamWriteExpected then
    ({ b with streamWriteInflight := false }, [.fail])
  else
    ({ b with
        streamWriteInflight := false
        streamWritten := b.streamWritten + b.streamWriteExpected },
      [.issueRouteRead])

end Code

/-- Nothing is outstanding at the providers. -/
def idle (b : Bridge) : Bool :=
  b.opens == 0 && b.streamReads == 0 && b.routeWrites == 0 && b.routeReads == 0 &&
    b.streamWrites == 0

/-- The destruction of the bridge releases a credit it still holds. -/
def destroy (b : Bridge) : Bridge :=
  match b.pending with
  | some pending => { b with pending := none, released := pending.record :: b.released }
  | none => b

end Bridge

/-- A bridge and the threads that are inside it. -/
structure System where
  bridge : Bridge
  threads : List (List Task)
deriving DecidableEq, Repr

inductive Move where
  /-- A thread runs its next task. -/
  | run (thread : Nat) (ok : Bool)
  | opened (result : OpenResult)
  | streamRead (result : StreamResult)
  | routeWrote (ok : Bool) (transferred : Nat)
  | routeRead (result : RouteResult)
  | streamWrote (ok : Bool) (transferred : Nat)
  /-- The last reference to the bridge is gone. -/
  | destroy
deriving DecidableEq, Repr

namespace System

/-- `start`: the bridge of an accepted stream opens its route. -/
def start : System := ⟨.create true, [[.issueStreamRead, .checkStart]]⟩

/-- `attach`: the route is already there, and nothing waits for acceptance. -/
def attach (fits : Bool) : System :=
  ⟨{ Bridge.create false with delivered := 1 },
    [[.issueStreamRead, .completeOpen (.connection fits)]]⟩

def tasks (s : System) : List Task := s.threads.flatten

/-- A completion, in a thread of its own. -/
def complete (s : System) (result : Bridge × List Task) : System :=
  ⟨result.1, s.threads ++ [result.2]⟩

/-- No thread is inside the bridge and no operation is outstanding. -/
def quiet (s : System) : Bool := s.tasks.isEmpty && s.bridge.idle

/-- The completion of an open, which counts a delivered connection. -/
def deliver (b : Bridge) : OpenResult → Bridge
  | .connection _ => { b with opens := b.opens - 1, delivered := b.delivered + 1 }
  | .failed => { b with opens := b.opens - 1 }

def step (limits : Limits) (s : System) : Move → Option System
  | .run i ok =>
    match s.threads[i]? with
    | some (task :: rest) =>
      some ⟨(s.bridge.exec limits ok task).1,
        s.threads.set i ((s.bridge.exec limits ok task).2 ++ rest)⟩
    | _ => none
  | .opened result =>
    if s.bridge.opens = 0 then none
    else some (s.complete (deliver s.bridge result, [.completeOpen result]))
  | .streamRead result =>
    if s.bridge.streamReads = 0 then none
    else some (s.complete
      ({ s.bridge with streamReads := s.bridge.streamReads - 1 }.completeStreamRead result))
  | .routeWrote ok transferred =>
    if s.bridge.routeWrites = 0 then none
    else some (s.complete
      ({ s.bridge with routeWrites := s.bridge.routeWrites - 1 }.completeRouteWrite ok transferred))
  | .routeRead result =>
    if s.bridge.routeReads = 0 then none
    else some (s.complete
      ({ s.bridge with routeReads := s.bridge.routeReads - 1 }.completeRouteRead limits result))
  | .streamWrote ok transferred =>
    if s.bridge.streamWrites = 0 then none
    else some (s.complete
      ({ s.bridge with streamWrites := s.bridge.streamWrites - 1 }.completeStreamWrite
        ok transferred))
  | .destroy => if s.quiet then some { s with bridge := s.bridge.destroy } else none

/-- The states a bridge gets into, with providers that complete each operation
at most once. -/
def Reached (limits : Limits) (start state : System) : Prop :=
  Reaches (step limits) (fun _ _ => True) start state

end System

end Yume.RouteBridge
