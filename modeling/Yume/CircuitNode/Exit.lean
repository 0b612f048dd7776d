/-
The exit's side of a circuit's streams.  Each call and each completion is a step
of its own, as are the pumps that the source calls between them, so that the
steps may come in any order, also inside one another.
-/
import Yume.Circuit.Relay

namespace Yume.CircuitNode

open Yume.Lib
open Yume.Circuit (Direction bucketsOf maxCreditIncrement relayCapacity relayHeaderBytes)

/-- The part of `NodeLimits` that the exit reads. -/
structure ExitLimits where
  streamsPerCircuit : Nat
  streamWindow : Nat
  circuitWindow : Nat
  backwardQueueCells : Nat
deriving Repr, DecidableEq

/-- `MaxDataPayload`. -/
def maxDataPayload (direction : Direction) : Nat :=
  relayCapacity direction ((bucketsOf direction).getD 2 0) - relayHeaderBytes

namespace StreamReason

def done : UInt8 := 0
def policy : UInt8 := 1
def unreachable : UInt8 := 3
def resources : UInt8 := 6
def protocol : UInt8 := 7

end StreamReason

/-- The messages an exit sends toward the client. -/
inductive ExitMessage where
  | connected (id : Nat)
  | data (id : Nat) (payload : Bytes)
  | «end» (id : Nat) (reason : UInt8)
  | credit (id : Nat) (increment : Nat)
deriving Repr, DecidableEq

structure ExitStream where
  /-- The object's identity: completions of a dropped stream find no stream. -/
  key : Nat
  id : Nat
  channel : Bool
  toDestination : List Bytes
  /-- The buffer being written, if one is. -/
  writing : Option Bytes
  reading : Bool
  receiveAllowed : Nat
  consumed : Nat
  sendWindow : Nat
  clientDone : Bool
  destinationDone : Bool
  shut : Bool
deriving Repr, DecidableEq

structure Exit where
  streams : List ExitStream
  /-- `backward_queue_`. -/
  queue : List ExitMessage
  nextKey : Nat
  closed : Bool
deriving Repr, DecidableEq

namespace Exit

def create : Exit where
  streams := []
  queue := []
  nextKey := 0
  closed := false

/-- `close`. -/
def close (exit : Exit) : Exit := { exit with streams := [], queue := [], closed := true }

/-- `send` of a message that is not data. -/
def send (exit : Exit) (message : ExitMessage) : Exit :=
  { exit with queue := exit.queue ++ [message] }

/-- `send` of credit, which throws on an increment that no message carries. -/
def sendCredit (exit : Exit) (id increment : Nat) : Exit :=
  if increment = 0 ∨ increment > maxCreditIncrement then exit.close
  else exit.send (.credit id increment)

/-- `find`. -/
def find (exit : Exit) (id : Nat) : Option ExitStream :=
  exit.streams.find? fun stream => stream.id == id

/-- The stream of a completion, if it is still this circuit's. -/
def findKey (exit : Exit) (key : Nat) : Option ExitStream :=
  exit.streams.find? fun stream => stream.key == key

def modify (exit : Exit) (key : Nat) (f : ExitStream → ExitStream) : Exit :=
  { exit with streams := exit.streams.map fun stream =>
      if stream.key = key then f stream else stream }

/-- `drop`. -/
def drop (exit : Exit) (key : Nat) : Exit :=
  { exit with streams := exit.streams.filter fun stream => stream.key != key }

/-- `fail_stream`. -/
def failStream (exit : Exit) (stream : ExitStream) (reason : UInt8) : Exit :=
  (exit.drop stream.key).send (.end stream.id reason)

def queueHasRoom (limits : ExitLimits) (exit : Exit) : Bool :=
  decide (exit.queue.length < limits.backwardQueueCells)

/-- `begin`: whether the circuit ends here and is in phase Open, whether this
node serves exits at its depth, and whether the payload decodes. -/
def begin (limits : ExitLimits) (exit : Exit) (id : Nat) (isOpen serves decodes : Bool) :
    Exit :=
  if ¬ isOpen then exit.close
  else if (exit.find id).isSome then exit.close
  else if ¬ serves then exit.send (.end id StreamReason.policy)
  else if exit.streams.length ≥ limits.streamsPerCircuit ∨
      (exit.streams.length + 1) * limits.streamWindow > limits.circuitWindow then
    exit.send (.end id StreamReason.resources)
  else if ¬ decodes then exit.send (.end id StreamReason.protocol)
  else
    { exit with
      streams := exit.streams ++ [{
        key := exit.nextKey
        id := id
        channel := false
        toDestination := []
        writing := none
        reading := false
        receiveAllowed := limits.streamWindow
        consumed := 0
        sendWindow := limits.streamWindow
        clientDone := false
        destinationDone := false
        shut := false }]
      nextKey := exit.nextKey + 1 }

/-- `data`, up to its pump. -/
def data (exit : Exit) (id : Nat) (payload : Bytes) : Exit :=
  match exit.find id with
  | none => exit
  | some stream =>
    if stream.clientDone ∨ payload.length > stream.receiveAllowed then exit.close
    else
      exit.modify stream.key fun stream =>
        { stream with
          receiveAllowed := stream.receiveAllowed - payload.length
          toDestination := stream.toDestination ++ [payload] }

/-- `end`, up to its pump. -/
def «end» (exit : Exit) (id : Nat) (reason : UInt8) : Exit :=
  match exit.find id with
  | none => exit
  | some stream =>
    if reason ≠ StreamReason.done then exit.drop stream.key
    else exit.modify stream.key fun stream => { stream with clientDone := true }

/-- `credit`, up to its pump. -/
def credit (exit : Exit) (id : Nat) (increment : Nat) : Exit :=
  match exit.find id with
  | none => exit
  | some stream =>
    if stream.sendWindow + increment > maxCreditIncrement then exit.close
    else
      exit.modify stream.key fun stream =>
        { stream with sendWindow := stream.sendWindow + increment }

/-- `on_exit_open`, up to its pumps: the reason, if the destination could not be
reached. -/
def onExitOpen (exit : Exit) (key : Nat) (failure : Option UInt8) : Exit :=
  match exit.findKey key with
  | none => exit
  | some stream =>
    match failure with
    | some reason => (exit.drop key).send (.end stream.id reason)
    | none =>
      (exit.modify key fun stream => { stream with channel := true }).send (.connected stream.id)

/-- `pump_write`, up to the write. -/
def pumpWrite (exit : Exit) (key : Nat) : Exit :=
  match exit.findKey key with
  | none => exit
  | some stream =>
    if ¬ stream.channel ∨ stream.writing.isSome then exit
    else
      match stream.toDestination with
      | [] =>
        if stream.clientDone ∧ ¬ stream.shut then
          exit.modify key fun stream => { stream with shut := true }
        else exit
      | buffer :: rest =>
        exit.modify key fun stream =>
          { stream with writing := some buffer, toDestination := rest }

/-- The completion of a write, up to its pump. -/
def onWritten (limits : ExitLimits) (exit : Exit) (key : Nat) (ok : Bool) (written : Nat) :
    Exit :=
  match exit.findKey key with
  | none => exit
  | some stream =>
    if ¬ ok then
      (exit.modify key fun stream => { stream with writing := none }).failStream stream
        StreamReason.unreachable
    else
      let consumed := stream.consumed + written
      if consumed ≥ limits.streamWindow / 2 ∧ ¬ stream.clientDone then
        (exit.modify key fun stream =>
          { stream with
            writing := none
            consumed := 0
            receiveAllowed := stream.receiveAllowed + consumed }).sendCredit
          stream.id consumed
      else
        exit.modify key fun stream => { stream with writing := none, consumed }

/-- `pump_read`, up to the read. -/
def pumpRead (limits : ExitLimits) (exit : Exit) (key : Nat) : Exit :=
  match exit.findKey key with
  | none => exit
  | some stream =>
    if ¬ stream.channel ∨ stream.reading ∨ stream.destinationDone ∨
        stream.sendWindow = 0 ∨ ¬ exit.queueHasRoom limits then exit
    else exit.modify key fun stream => { stream with reading := true }

/-- What a destination's read completes with. -/
inductive ReadResult where
  | data (payload : Bytes)
  /-- `EndOfStream` or `Closed`. -/
  | ended
  | failed
deriving Repr, DecidableEq

/-- The completion of a read.  `send` throws on a payload beyond one cell. -/
def onRead (exit : Exit) (key : Nat) (result : ReadResult) : Exit :=
  match exit.findKey key with
  | none => exit
  | some stream =>
    let exit := exit.modify key fun stream => { stream with reading := false }
    match result with
    | .ended =>
      (exit.modify key fun stream => { stream with destinationDone := true }).send
        (.end stream.id StreamReason.done)
    | .failed => exit.failStream stream StreamReason.unreachable
    | .data payload =>
      if payload = [] ∨ payload.length > stream.sendWindow then
        exit.failStream stream StreamReason.protocol
      else if payload.length > maxDataPayload .backward then exit.close
      else
        (exit.modify key fun stream =>
          { stream with sendWindow := stream.sendWindow - payload.length }).send
          (.data stream.id payload)

/-- `settle`. -/
def settle (exit : Exit) (key : Nat) : Exit :=
  match exit.findKey key with
  | none => exit
  | some stream =>
    if stream.clientDone ∧ stream.destinationDone ∧ stream.toDestination = [] ∧
        stream.writing.isNone then exit.drop key
    else exit

end Exit

inductive ExitMove where
  | begin (id : Nat) (isOpen serves decodes : Bool)
  | data (id : Nat) (payload : Bytes)
  | «end» (id : Nat) (reason : UInt8)
  | credit (id : Nat) (increment : Nat)
  | exitOpen (key : Nat) (failure : Option UInt8)
  | pumpWrite (key : Nat)
  | written (key : Nat) (ok : Bool) (count : Nat)
  | pumpRead (key : Nat)
  | read (key : Nat) (result : Exit.ReadResult)
  | settle (key : Nat)
  /-- The previous hop takes the first queued cell. -/
  | taken
  | close
deriving Repr, DecidableEq

/-- A step of an exit that is not closed.  A channel completes what it was asked
for: a write of at most its buffer, and a read. -/
def Exit.step (limits : ExitLimits) (exit : Exit) : ExitMove → Option Exit
  | .begin id isOpen serves decodes => some (exit.begin limits id isOpen serves decodes)
  | .data id payload => some (exit.data id payload)
  | .end id reason => some (exit.end id reason)
  | .credit id increment => some (exit.credit id increment)
  | .exitOpen key failure => some (exit.onExitOpen key failure)
  | .pumpWrite key => some (exit.pumpWrite key)
  | .written key ok count =>
    if (exit.findKey key).all fun stream =>
        stream.writing.any fun buffer => decide (count ≤ buffer.length) then
      some (exit.onWritten limits key ok count)
    else none
  | .pumpRead key => some (exit.pumpRead limits key)
  | .read key result =>
    if (exit.findKey key).all fun stream => stream.reading then
      some (exit.onRead key result)
    else none
  | .settle key => some (exit.settle key)
  | .taken => some { exit with queue := exit.queue.tail }
  | .close => some exit.close

end Yume.CircuitNode
