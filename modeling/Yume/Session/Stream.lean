/-
One stream object of the engine: its close handshake, its receive window and
its two application queues.
-/
import Yume.Session.Records

namespace Yume.Session

/-- Receive credit for the connection or one stream.  `owed` is returned or
grown credit that no grant record carries yet, `granting` is carried by grant
records behind the rekey barrier, and `grantsQueued` counts grant records
accepted and not yet sent. -/
structure ReceiveWindow where
  size : Nat := 0
  unreturned : Nat := 0
  owed : Nat := 0
  granting : Nat := 0
  grantsQueued : Nat := 0
  lastReturn : Option Time := none
deriving Repr, DecidableEq

/-- `StreamStateData`.  `present` says that `streams_` holds the entry: an
object outlives its entry while a call still owns it.  The fields after the
queues belong to the responder, and the last six are history that no engine
function reads: the records of this stream that took a token, the writes that
entered the wire queue, the records of this stream that were processed, the
payloads handed to the reader, the accepted writes that were neither cancelled
nor failed, and whether a read ended with EndOfStream. -/
structure Stream where
  id : Nat
  serviceName : ServiceName
  kind : ServiceKind
  openedByPeer : Bool
  present : Bool := true
  closed : Bool := false
  opening : Bool := true
  openPublished : Bool := false
  acceptanceReady : Bool := false
  terminalSent : Bool := false
  terminalReceived : Bool := false
  settlementSent : Bool := false
  settlementReceived : Bool := false
  finOwed : Bool := false
  terminalOwed : Option CloseCode := none
  settlementOwed : Bool := false
  finQueued : Bool := false
  terminalQueued : Bool := false
  settlementQueued : Bool := false
  queuedControls : Nat := 0
  openCancellation : Bool := false
  localWriteShutdownRequested : Bool := false
  localWriteClosed : Bool := false
  peerWriteClosed : Bool := false
  outboundCredit : Nat := 0
  inboundCredit : Nat := 0
  maxReceiveCredit : Nat := 0
  receiveWindow : ReceiveWindow := {}
  largestPacket : Nat := 0
  inboundQueuedBytes : Nat := 0
  outboundQueuedBytes : Nat := 0
  outboundPublications : Nat := 0
  inbound : List Buffer := []
  pendingRead : Option Nat := none
  pendingWrites : List PendingWrite := []
  responderHeld : Bool := false
  endOfStream : Bool := false
  terminated : Bool := false
  sent : List Record := []
  sentWrites : List PendingWrite := []
  received : List Record := []
  delivered : List Buffer := []
  kept : List PendingWrite := []
  endReported : Bool := false

namespace Stream

/-- A terminal CLOSE cannot discharge the peer's settlement after both FINs. -/
def expectsPeerSettlement (stream : Stream) : Bool :=
  stream.terminalSent || (stream.localWriteClosed && stream.peerWriteClosed)

def peerSettled (stream : Stream) : Bool :=
  !stream.expectsPeerSettlement || stream.settlementReceived

def localSettled (stream : Stream) : Bool :=
  stream.settlementSent || (stream.terminalSent && !stream.terminalReceived)

/-- The condition under which `retire_stream_locked` erases the entry. -/
def retirable (stream : Stream) : Bool :=
  stream.closed && (stream.peerSettled && stream.localSettled) &&
    stream.queuedControls == 0 && stream.receiveWindow.owed == 0 &&
    !stream.finOwed && stream.terminalOwed.isNone && !stream.settlementOwed

/-- The stream's part of `reserve_control_locked`. -/
def reserveControl (control : EngineControl) (stream : Stream) : Stream :=
  { stream with
    queuedControls := stream.queuedControls + 1
    finQueued := stream.finQueued || control.kind == .fin
    terminalQueued := stream.terminalQueued || control.kind == .terminal
    settlementQueued := stream.settlementQueued || control.kind == .settlement
    receiveWindow := if control.kind = .credit then
        { stream.receiveWindow with
          owed := stream.receiveWindow.owed - control.increment
          granting := stream.receiveWindow.granting + control.increment
          grantsQueued := stream.receiveWindow.grantsQueued + 1 }
      else stream.receiveWindow }

/-- The stream's part of `admit_control_locked`. -/
def admitControl (control : EngineControl) (stream : Stream) : Stream :=
  { stream with
    finOwed := stream.finOwed && control.kind != .fin
    terminalOwed := if control.kind = .terminal then none
      else stream.terminalOwed
    settlementOwed := stream.settlementOwed && control.kind != .settlement
    receiveWindow := if control.kind = .credit then
        { stream.receiveWindow with
          granting := stream.receiveWindow.granting - control.increment }
      else stream.receiveWindow
    inboundCredit := stream.inboundCredit +
      if control.kind = .credit then control.increment else 0 }

/-- The flag and counter updates of `complete_control_locked`, before the
stream's credit is collected and its entry retired. -/
def completeControl (control : EngineControl) (admitted : Bool) (stream : Stream) : Stream :=
  { stream with
    queuedControls := stream.queuedControls - 1
    finQueued := stream.finQueued && control.kind != .fin
    terminalQueued := stream.terminalQueued && control.kind != .terminal
    settlementQueued := stream.settlementQueued && control.kind != .settlement
    receiveWindow := if control.kind = .credit then
        { stream.receiveWindow with
          grantsQueued := stream.receiveWindow.grantsQueued - 1
          granting := if admitted then stream.receiveWindow.granting
            else stream.receiveWindow.granting - control.increment }
      else stream.receiveWindow }

/-- The stream's part of taking a token: OPEN counts as published, and the
record joins the stream's history. -/
def commit (request : Request) (stream : Stream) : Stream :=
  { stream with
    openPublished := stream.openPublished || request.record.isOpen
    sent := stream.sent ++ [request.record] }

/-- The stream's part of queueing a record. -/
def enqueued (request : Request) (stream : Stream) : Stream :=
  { stream with sentWrites := stream.sentWrites ++ request.write }

/-- `note_packet_locked`. -/
def notePacket (bytes : Nat) (stream : Stream) : Stream :=
  { stream with
    largestPacket := if stream.kind = .packetChannel then
        max stream.largestPacket bytes
      else stream.largestPacket }

/-- A write that was cancelled or completed with an error leaves the history
of kept writes. -/
def forget (operationId : Option Nat) (stream : Stream) : Stream :=
  { stream with kept :=
      stream.kept.filter fun write => some write.operationId ≠ operationId }

/-- The locked part of `remove_stream`. -/
def close (reason : Status) (stream : Stream) : Stream :=
  { stream with
    closed := true
    receiveWindow := { stream.receiveWindow with owed := 0, unreturned := 0 }
    terminated := stream.terminated || reason.code != .closed ||
      !stream.localWriteClosed || !stream.peerWriteClosed
    opening := false
    openCancellation := false
    pendingRead := none
    outboundQueuedBytes := 0
    inboundQueuedBytes := 0 }

end Stream

end Yume.Session
