/-
The close handshake of a stream and the return of consumed credit:
`finish_stream_shutdown_if_ready`, `remove_stream`, `settle_handshake`,
`abort_stream` and `return_receive_credit`.
-/
import Yume.Session.Drains

namespace Yume.Session

namespace Stream

/-- May the owed FIN be raised now? -/
def readyToFinish (stream : Stream) : Bool :=
  !stream.opening && stream.localWriteShutdownRequested &&
    !stream.localWriteClosed && stream.pendingWrites.isEmpty &&
    stream.outboundPublications == 0

/-- The write side closes and owes its FIN. -/
def finishWrites (stream : Stream) : Stream :=
  { stream with localWriteClosed := true, finOwed := true }

/-- Both FINs were exchanged and nothing is left to read. -/
def fullyClosed (stream : Stream) : Bool :=
  stream.localWriteClosed && stream.peerWriteClosed && stream.inbound.isEmpty

/-- Does `settle_handshake` raise this side's settlement? -/
def owesSettlement (stream : Stream) : Bool :=
  stream.closed && !stream.settlementSent && (stream.terminalReceived ||
      (stream.localWriteClosed && stream.peerWriteClosed))

def raiseSettlement (stream : Stream) : Stream :=
  { stream with settlementSent := true, settlementOwed := true }

/-- Was the stream's OPEN never published? -/
def unpublished (stream : Stream) : Bool :=
  !stream.openedByPeer && !stream.openPublished

/-- `abort_stream` owes the terminal CLOSE.  An owed FIN that is not yet queued
is dropped. -/
def raiseTerminal (code : CloseCode) (stream : Stream) : Stream :=
  { stream with
    terminalSent := true
    terminalOwed := some code
    finOwed := stream.finOwed && stream.finQueued }

def erase (stream : Stream) : Stream :=
  { stream with present := false }

/-- `remove_stream` completes the first waiting write with its error. -/
def dropWrite (stream : Stream) : Stream :=
  { stream.forget (stream.pendingWrites.head?.map PendingWrite.operationId) with
    pendingWrites := stream.pendingWrites.tail }

def dropInbound (stream : Stream) : Stream :=
  { stream with inbound := stream.inbound.tail }

def returnBytes (bytes : Nat) (stream : Stream) : Stream :=
  { stream with receiveWindow :=
      { stream.receiveWindow with
        unreturned := stream.receiveWindow.unreturned + bytes } }

end Stream

/-- The check of `return_receive_credit`: the returned bytes were outside the
window's other terms. -/
def ReceiveWindow.canReturn (window : ReceiveWindow) (inbound bytes : Nat) :
    Bool :=
  let outside := inbound + window.granting + window.owed + window.unreturned
  decide (outside ≤ window.size) && decide (bytes ≤ window.size - outside)

def streamFullyClosed : Status := ⟨.closed, "stream is fully closed"⟩

namespace Engine

/-- `finish_stream_shutdown_if_ready`, up to its drain. -/
def finishShutdown (engine : Engine) (id : Nat) : Outcome :=
  match engine.findOpen id with
  | none => some (engine, [])
  | some stream =>
    if stream.readyToFinish then
      some ({ engine.modify id Stream.finishWrites with
        streamControlsOwed := true }, [.drainControls, .finishCheck id])
    else some (engine, [])

def finishCheck (engine : Engine) (id : Nat) : Outcome :=
  match engine.findOpen id with
  | none => some (engine, [])
  | some stream =>
    if stream.peerWriteClosed && stream.inbound.isEmpty then
      some (engine, [.removeStream id streamFullyClosed, .settleHandshake id])
    else some (engine, [])

/-- The locked part of `remove_stream`. -/
def closeStream (engine : Engine) (stream : Stream) (reason : Status) :
    Engine :=
  { engine.modify stream.id (Stream.close reason) with
    pendingOpens := engine.pendingOpens - if stream.opening then 1 else 0
    inboundQueuedBytes := engine.inboundQueuedBytes - stream.inboundQueuedBytes
    queue := { engine.queue with pendingWriteBytes :=
      engine.queue.pendingWriteBytes - stream.outboundQueuedBytes } }

def removeStream (engine : Engine) (id : Nat) (reason : Status) : Outcome :=
  match engine.findOpen id with
  | none => some (engine, [])
  | some stream =>
    some (engine.closeStream stream reason, [.dropWrites id, .dropInbound id])

/-- The waiting writes of a removed stream fail one at a time. -/
def dropWrites (engine : Engine) (id : Nat) : Outcome :=
  match engine.object id with
  | none => some (engine, [])
  | some stream =>
    if stream.pendingWrites.isEmpty then some (engine, [])
    else some (engine.modify id Stream.dropWrite, [.dropWrites id])

/-- Destroying an unread record releases its credit lease. -/
def dropInbound (engine : Engine) (id : Nat) : Outcome :=
  match engine.object id with
  | none => some (engine, [.drainWrites])
  | some stream =>
    match stream.inbound with
    | [] => some (engine, [.drainWrites])
    | payload :: _ =>
      some (engine.modify id Stream.dropInbound,
        [.returnCredit id payload.size false, .dropInbound id])

def settleHandshake (engine : Engine) (id : Nat) : Outcome :=
  match engine.find id with
  | none => some (engine, [])
  | some stream =>
    if stream.owesSettlement then
      some ({ engine.modify id Stream.raiseSettlement with
        streamControlsOwed := true }, [.drainControls, .retire id])
    else some (engine, [.retire id])

/-- `abort_stream`.  A stream whose OPEN was never published is erased. -/
def abortStream (engine : Engine) (id : Nat) (code : CloseCode) (reason : Status) : Outcome :=
  match engine.find id with
  | none => some (engine, [])
  | some stream =>
    if stream.terminalSent ∨ stream.settlementSent then some (engine, [])
    else if stream.unpublished then
      some (engine, [.removeStream id reason, .eraseUnpublished id])
    else
      some ({ engine.modify id (Stream.raiseTerminal code) with
        streamControlsOwed := true },
        [.removeStream id reason, .drainControls])

/-- May these bytes be returned to the connection and to a live stream? -/
def returnable (engine : Engine) (id bytes : Nat) : Bool :=
  engine.connectionWindow.canReturn engine.inboundConnectionCredit bytes &&
    (engine.findOpen id).all fun stream =>
      stream.receiveWindow.canReturn stream.inboundCredit bytes

/-- The stream's part: only a live stream still counts its bytes. -/
def returnToStream (engine : Engine) (id bytes : Nat) (now : Time) : Engine :=
  match engine.findOpen id with
  | none => engine
  | some _ =>
    (engine.modify id (Stream.returnBytes bytes)).collectStreamCredit id now

/-- The connection's part. -/
def returnToConnection (engine : Engine) (bytes : Nat) (now : Time) : Engine :=
  let returned := { engine with connectionWindow :=
    { engine.connectionWindow with unreturned :=
        engine.connectionWindow.unreturned + bytes } }
  returned.collectConnectionCredit (returned.grantSlotFree returned.connectionWindow) now

/-- The receive that discarded a record ends after it returned its credit. -/
def endDiscard (discarded : Bool) : List Call :=
  if discarded then [.receiveDone] else []

/-- `return_receive_credit`, for a released record or for one that the receive
path discards. -/
def returnCredit (engine : Engine) (id bytes : Nat) (discarded : Bool) (now : Time) : Outcome :=
  if bytes = 0 ∨ bytes > maxCreditIncrement then
    some (engine, failCall ⟨.internal, "application returned invalid receive credit"⟩ ::
        endDiscard discarded)
  else if engine.terminal then some (engine, endDiscard discarded)
  else if ¬ engine.returnable id bytes then
    some (engine, failCall (protocolFailure "receive-credit accounting overflowed") ::
        endDiscard discarded)
  else
    some ((engine.returnToStream id bytes now).returnToConnection bytes now,
      .drainControls :: endDiscard discarded)

end Engine

end Yume.Session
