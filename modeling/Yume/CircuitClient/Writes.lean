/-
The writes of a client circuit's streams.  A stream sends its queued buffers as
DATA while its window and the circuit's queue toward the entry allow.  The
entry may complete the write of a cell before the call that started it returns,
and that completion resumes the streams that wait; so the code between two
calls of the entry is one step, over a stack of the calls still running.
-/
import Yume.Lib.Bytes
import Yume.Lib.Runs

namespace Yume.CircuitClient

open Yume.Lib List Option

/-- `kDataPerCell`: the most data a forward cell carries. -/
def dataPerCell : Nat := 16251

/-- `PendingWrite`, with a number for its completion. -/
structure PendingWrite where
  write : Nat
  data : Bytes
  offset : Nat
deriving DecidableEq, Repr

/-- A stream, as far as its writes depend on it.  `listed` says whether the
circuit still has it. -/
structure ClientStream where
  sendWindow : Nat
  writes : List PendingWrite
  connected : Bool
  remoteDone : Bool
  shutdown : Bool
  endSent : Bool
  closedSent : Bool
  terminated : Bool
  listed : Bool
deriving DecidableEq, Repr

inductive Phase where
  | idle
  | building
  | ready
  | closed
deriving DecidableEq, Repr

/-- A point where a call of the circuit's code goes on; `outside` is a call of
the entry's `async_write`. -/
inductive Task where
  | outside
  /-- The loop of `pump`, with its bound and how many cells it has sent. -/
  | pump (stream : Nat) (cells : Option Nat) (sent : Nat)
  /-- `pump` after the call that sent a part of a write. -/
  | advance (stream write chunk : Nat) (cells : Option Nat) (sent : Nat)
  /-- `pump` after the call that sent END. -/
  | ended (stream : Nat)
  | abort (stream : Nat)
  /-- A completed cell write, after the next one was started. -/
  | resumeWriters
  /-- The rounds of `resume_writers`. -/
  | round (waiting rest : List Nat) (sent : Bool)
  | resumed (stream : Nat) (waiting rest : List Nat) (sent : Bool)
deriving DecidableEq, Repr

/-- What happened to the streams' bytes, for statements about runs. -/
inductive Event where
  | accepted (stream write : Nat) (data : Bytes)
  | sent (stream : Nat) (payload : Bytes)
  | completed (stream write : Nat) (ok : Bool)
  /-- A write that was popped is used again. -/
  | dangling (stream write : Nat)
deriving DecidableEq, Repr

structure Client where
  phase : Phase
  forwardQueue : Nat
  writing : Bool
  writeCursor : Nat
  nextStream : Nat
  streams : Nat → ClientStream
  /-- What the last `pump` returned. -/
  returned : Bool
  writes : Nat
  stack : List Task
  log : List Event

open Client

structure ClientLimits where
  streamWindow : Nat
  forwardQueueCells : Nat
deriving DecidableEq, Repr

/-- A stream before it is opened. -/
def ClientStream.unopened : ClientStream where
  sendWindow := 0
  writes := []
  connected := false
  remoteDone := false
  shutdown := false
  endSent := false
  closedSent := false
  terminated := false
  listed := false

/-- A built circuit. -/
def start : Client where
  phase := .ready
  forwardQueue := 0
  writing := false
  writeCursor := 0
  nextStream := 1
  streams _ := .unopened
  returned := false
  writes := 0
  stack := []
  log := []

section Code

variable (limits : ClientLimits)

namespace Client

def push (c : Client) (tasks : List Task) : Client := { c with stack := tasks ++ c.stack }

def note (c : Client) (event : Event) : Client := { c with log := event :: c.log }

def setStream (c : Client) (id : Nat) (stream : ClientStream) : Client :=
  { c with streams := fun other => if other = id then stream else c.streams other }

def forwardRoom (c : Client) : Bool := decide (c.forwardQueue < limits.forwardQueueCells)

/-- `write`: one cell at a time is with the entry. -/
def write (c : Client) : Client :=
  if c.phase = .closed ∨ c.writing ∨ c.forwardQueue = 0 then c
  else { c with writing := true }.push [.outside]

/-- `queue_cell`, after `send_message` has sealed the cell. -/
def queueCell (c : Client) : Client := { c with forwardQueue := c.forwardQueue + 1 }.write

/-- `ClientStream::abort`: every queued write ends where it was. -/
def abort (id : Nat) (c : Client) : Client :=
  let stream := c.streams id
  if stream.terminated then c
  else
    { (c.setStream id { stream with terminated := true, writes := [], listed := false }) with
      log := (stream.writes.map fun write => Event.completed id write.write false).reverse ++
        c.log }

/-- `close` of the circuit: its streams are aborted in their order. -/
def close (c : Client) : Client :=
  if c.phase = .closed then c
  else
    ((List.range c.nextStream).filter fun id => (c.streams id).listed).foldl
      (fun c id => c.abort id) { c with phase := .closed, forwardQueue := 0 }

/-- `forget`: the circuit drops the stream. -/
def forget (id : Nat) (c : Client) : Client :=
  c.setStream id { c.streams id with listed := false }

/-- `send_end`.  A message that cannot be sealed ends the circuit. -/
def sendEnd (sealed : Bool) (id : Nat) (done : Bool) (c : Client) : Client :=
  let stream := c.streams id
  let sent := if done then stream.endSent else stream.closedSent
  if sent ∨ c.phase ≠ .ready then c
  else
    let c := c.setStream id
      (if done then { stream with endSent := true } else { stream with closedSent := true })
    if sealed then c.queueCell else c.close

/-- `send_window_ -= chunk`, in 64 bits. -/
def lower (window chunk : Nat) : Nat := (window + (2 ^ 64 - chunk)) % 2 ^ 64

/-- `pump` once its loop has ended. -/
def pumped (sealed : Bool) (id sent : Nat) (c : Client) : Client :=
  let stream := c.streams id
  let c := { c with returned := decide (0 < sent) }
  if stream.writes = [] ∧ stream.shutdown ∧ stream.endSent = false then
    (c.push [.ended id]).sendEnd sealed id true
  else c

/-- One round of the loop of `pump`, up to the call that sends a cell. -/
def pump (sealed : Bool) (id : Nat) (cells : Option Nat) (sent : Nat) (c : Client) : Client :=
  let stream := c.streams id
  match stream.writes with
  | [] => c.pumped sealed id sent
  | write :: _ =>
    if (∃ most ∈ cells, most ≤ sent) ∨ stream.sendWindow = 0 ∨ c.forwardRoom limits = false then
      { c with returned := decide (0 < sent) }
    else
      let chunk := min (write.data.length - write.offset) (min stream.sendWindow dataPerCell)
      if sealed then
        ((c.note (.sent id ((write.data.drop write.offset).take chunk))).push
          [.advance id write.write chunk cells sent]).queueCell
      else { c.close with returned := decide (0 < sent) }

/-- `pump` after the cell was handed on: window and offset move, and a write
whose last byte was sent completes. -/
def advance (id write chunk : Nat) (cells : Option Nat) (sent : Nat) (c : Client) : Client :=
  let stream := c.streams id
  match stream.writes with
  | [] => c.note (.dangling id write)
  | front :: rest =>
    if front.write ≠ write then c.note (.dangling id write)
    else
      let offset := front.offset + chunk
      let window := lower stream.sendWindow chunk
      if offset = front.data.length then
        ((c.setStream id { stream with sendWindow := window, writes := rest }).note
          (.completed id write true)).push [.pump id cells (sent + 1)]
      else
        (c.setStream id { stream with
          sendWindow := window, writes := { front with offset := offset } :: rest }).push
          [.pump id cells (sent + 1)]

/-- The entry of `pump`. -/
def startPump (id : Nat) (cells : Option Nat) (c : Client) : Client :=
  if (c.streams id).terminated then { c with returned := false } else c.push [.pump id cells 0]

/-- The streams with writes, in the order of the next round. -/
def waiting (c : Client) : List Nat :=
  let listed := (List.range c.nextStream).filter fun id =>
    (c.streams id).listed && !(c.streams id).writes.isEmpty
  listed.filter (fun id => decide (c.writeCursor < id)) ++
    listed.filter (fun id => decide (id ≤ c.writeCursor))

def resumeWriters (c : Client) : Client :=
  if c.phase ≠ .ready ∨ c.forwardRoom limits = false then c
  else c.push [.round c.waiting c.waiting false]

/-- One stream of a round of `resume_writers`. -/
def round (waiting rest : List Nat) (sent : Bool) (c : Client) : Client :=
  match rest with
  | [] => if sent then c.push [.round waiting waiting false] else c
  | id :: rest =>
    if c.phase ≠ .ready ∨ c.forwardRoom limits = false then c
    else (c.push [.resumed id waiting rest sent]).startPump id (some 1)

def resumed (id : Nat) (waiting rest : List Nat) (sent : Bool) (c : Client) : Client :=
  if c.returned then { c with writeCursor := id }.push [.round waiting rest true]
  else c.push [.round waiting rest sent]

/-- The code at a point, with that point already off the stack. -/
def exec (sealed : Bool) (c : Client) : Task → Client
  | .outside => c
  | .pump id cells sent => c.pump limits sealed id cells sent
  | .advance id write chunk cells sent => c.advance id write chunk cells sent
  | .ended id => if (c.streams id).remoteDone then c.forget id else c
  | .abort id => c.abort id
  | .resumeWriters => c.resumeWriters limits
  | .round waiting rest sent => c.round limits waiting rest sent
  | .resumed id waiting rest sent => c.resumed id waiting rest sent

/-- The completion of a cell's write. -/
def onWritten (ok : Bool) (c : Client) : Client :=
  let c := { c with writing := false }
  if c.phase = .closed then c
  else if ok then ({ c with forwardQueue := c.forwardQueue - 1 }.push [.resumeWriters]).write
  else c.close

/-- `open_stream`, when the circuit has room for another stream. -/
def openStream (sealed : Bool) (c : Client) : Client :=
  if c.phase ≠ .ready then c
  else
    let opened := { c with nextStream := c.nextStream + 1 }.setStream c.nextStream
      { ClientStream.unopened with sendWindow := limits.streamWindow, listed := true }
    if sealed then opened.queueCell else opened.close

/-- `async_write` of a buffer. -/
def asyncWrite (id : Nat) (data : Bytes) (c : Client) : Client :=
  let stream := c.streams id
  if stream.terminated ∨ stream.shutdown ∨ data = [] then c
  else
    ({ c with writes := c.writes + 1 }.setStream id
      { stream with writes := stream.writes ++ [PendingWrite.mk c.writes data 0] }).note
      (.accepted id c.writes data) |>.startPump id none

def shutdownWrite (id : Nat) (c : Client) : Client :=
  if (c.streams id).terminated then c
  else (c.setStream id { c.streams id with shutdown := true }).startPump id none

/-- `ClientStream::close`, by the application. -/
def closeStream (sealed : Bool) (id : Nat) (c : Client) : Client :=
  let stream := c.streams id
  if stream.terminated then c
  else if stream.endSent ∧ stream.remoteDone then c.abort id
  else (c.push [.abort id]).sendEnd sealed id false

/-- CONNECTED from the exit. -/
def onConnected (id : Nat) (c : Client) : Client :=
  c.setStream id { c.streams id with connected := true }

/-- END from the exit. -/
def onEnd (id : Nat) (done : Bool) (c : Client) : Client :=
  let stream := c.streams id
  if stream.connected = false ∨ done = false then c.abort id
  else c.setStream id { stream with remoteDone := true, listed := stream.listed && !stream.endSent }

/-- Credit from the exit, up to `kMaxCreditIncrement` in all. -/
def onCredit (id increment : Nat) (c : Client) : Client :=
  let stream := c.streams id
  if 2 ^ 30 < stream.sendWindow + increment then c.close
  else (c.setStream id { stream with sendWindow := stream.sendWindow + increment }).startPump id none

/-- A message of another kind: credit for the exit, or of the circuit itself. -/
def control (sealed : Bool) (c : Client) : Client :=
  if c.phase ≠ .ready then c else if sealed then c.queueCell else c.close

end Client

end Code

/-- A move: the circuit's code goes on, the entry's call returns, the entry
completes the write of a cell, or a message or a call of the application comes.
`sealed` says whether a message the step sends can be sealed. -/
inductive Move where
  | run (sealed : Bool)
  | back
  | written (ok : Bool)
  | openStream (sealed : Bool)
  | asyncWrite (id : Nat) (data : Bytes)
  | shutdownWrite (id : Nat)
  | closeStream (sealed : Bool) (id : Nat)
  | connected (id : Nat)
  | ended (id : Nat) (done : Bool)
  | credit (id increment : Nat)
  | control (sealed : Bool)
  | close
deriving DecidableEq, Repr

namespace Client

/-- Whether control is outside the circuit's code. -/
def free (c : Client) : Bool :=
  match c.stack with
  | [] => true
  | .outside :: _ => true
  | _ => false

/-- What runs on the circuit's context between other calls: a call of the
application on a stream it was given, or a message for a stream. -/
def handle (limits : ClientLimits) (c : Client) : Move → Option Client
  | .openStream sealed => some (c.openStream limits sealed)
  | .asyncWrite id data => if id < c.nextStream then some (c.asyncWrite id data) else none
  | .shutdownWrite id => if id < c.nextStream then some (c.shutdownWrite id) else none
  | .closeStream sealed id => if id < c.nextStream then some (c.closeStream sealed id) else none
  | .connected id => if (c.streams id).listed then some (c.onConnected id) else none
  | .ended id done => if (c.streams id).listed then some (c.onEnd id done) else none
  | .credit id increment => if (c.streams id).listed then some (c.onCredit id increment) else none
  | .control sealed => some (c.control sealed)
  | .close => some c.close
  | _ => none

end Client

/-- One move, if it can be made. -/
def step (limits : ClientLimits) (c : Client) : Move → Option Client
  | .run sealed =>
    match c.stack with
    | [] => none
    | .outside :: _ => none
    | task :: rest => some ({ c with stack := rest }.exec limits sealed task)
  | .back =>
    match c.stack with
    | .outside :: rest => some { c with stack := rest }
    | _ => none
  | .written ok => if c.writing && c.free then some (c.onWritten ok) else none
  | move => if c.stack = [] then c.handle limits move else none

/-- The entry completes the write of a cell only after the call returned. -/
def deferred (c : Client) : Move → Bool
  | .written _ => c.stack.isEmpty
  | _ => true

/-! ### The bytes of a stream -/

/-- What a history says about one stream's writes, in their order. -/
structure Ledger where
  accepted : List (Nat × Bytes)
  sent : Bytes
  done : List Nat
  failed : List Nat
deriving DecidableEq, Repr

def Event.stream : Event → Nat
  | .accepted stream _ _ => stream
  | .sent stream _ => stream
  | .completed stream _ _ => stream
  | .dangling stream _ => stream

def Ledger.add (ledger : Ledger) : Event → Ledger
  | .accepted _ write data => { ledger with accepted := ledger.accepted ++ [(write, data)] }
  | .sent _ payload => { ledger with sent := ledger.sent ++ payload }
  | .completed _ write true => { ledger with done := ledger.done ++ [write] }
  | .completed _ write false => { ledger with failed := ledger.failed ++ [write] }
  | .dangling _ _ => ledger

/-- A stream's ledger in a history, newest event first. -/
def ledger (id : Nat) : List Event → Ledger
  | [] => ⟨[], [], [], []⟩
  | event :: log => if event.stream = id then (ledger id log).add event else ledger id log

/-- The part of the first queued write that was sent, with bytes that were sent
and are not yet counted in its offset. -/
def PendingWrite.begun (extra : Nat) : List PendingWrite → Bytes
  | [] => []
  | front :: _ => front.data.take (front.offset + extra)

/-- A stream's queue and its ledger agree: the sent bytes are the finished writes
and the begun part of the next one. -/
inductive StreamOk (ledger : Ledger) (stream : ClientStream) (extra : Nat) : Prop where
  | live (finished : List (Nat × Bytes)) (terminated : stream.terminated = false)
    (accepted : ledger.accepted =
      finished ++ stream.writes.map fun write => (write.write, write.data))
    (done : ledger.done = finished.map Prod.fst) (failed : ledger.failed = [])
    (sent : ledger.sent = finished.flatMap Prod.snd ++ PendingWrite.begun extra stream.writes)
    (behind : ∀ write ∈ stream.writes.tail, write.offset = 0)
    (bounded : ∀ front ∈ stream.writes.head?, front.offset + extra ≤ front.data.length)
  | closed (finished left : List (Nat × Bytes)) (count : Nat)
    (terminated : stream.terminated = true) (writes : stream.writes = [])
    (accepted : ledger.accepted = finished ++ left)
    (done : ledger.done = finished.map Prod.fst) (failed : ledger.failed = left.map Prod.fst)
    (sent : ledger.sent = finished.flatMap Prod.snd ++ (left.flatMap Prod.snd).take count)
    (bounded : ∀ first ∈ left.head?, count ≤ first.2.length)

/-- One stream's queue and history: its writes are numbered once, below `writes`,
and it has none before it is opened. -/
structure StreamExact (writes next id : Nat) (ledger : Ledger) (stream : ClientStream)
    (extra : Nat) : Prop where
  ok : StreamOk ledger stream extra
  fresh : ∀ entry ∈ ledger.accepted, entry.1 < writes
  nodup : (ledger.accepted.map Prod.fst).Nodup
  unopened : next ≤ id → ledger = ⟨[], [], [], []⟩

/-- Every stream's queue agrees with the history, where some streams have sent
bytes that their queue does not count yet. -/
structure Exact (c : Client) (extra : Nat → Nat) : Prop where
  stream : ∀ id, StreamExact c.writes c.nextStream id (ledger id c.log) (c.streams id) (extra id)
  sound : ∀ id write, .dangling id write ∉ c.log

def Task.isAdvance : Task → Bool
  | .advance _ _ _ _ _ => true
  | _ => false

/-- Between two cells: everything sent is counted. -/
structure Clean (c : Client) : Prop where
  exact : Exact c fun _ => 0
  stack : ∀ task ∈ c.stack, task.isAdvance = false

section

variable {limits : ClientLimits} {c c' : Client} {extra : Nat → Nat} {id : Nat}

theorem ledger_cons (event : Event) (log : List Event) :
    ledger id (event :: log) =
      if event.stream = id then (ledger id log).add event else ledger id log := rfl

variable {stream' : ClientStream} {chunk : Nat} {rest : List PendingWrite} {front : PendingWrite}

/-- A stream whose queue and end are as before. -/
theorem StreamOk.flags {ledger : Ledger} {stream : ClientStream} {extra : Nat}
    (h : StreamOk ledger stream extra) (hwrites : stream'.writes = stream.writes)
    (hterminated : stream'.terminated = stream.terminated) : StreamOk ledger stream' extra := by
  cases h with
  | live finished terminated accepted done failed sent behind bounded =>
    exact .live finished (hterminated.trans terminated) (hwrites ▸ accepted) done failed
      (hwrites ▸ sent) (hwrites ▸ behind) (hwrites ▸ bounded)
  | closed finished left count terminated writes accepted done failed sent bounded =>
    exact .closed finished left count (hterminated.trans terminated) (hwrites.trans writes)
      accepted done failed sent bounded

namespace Exact

theorem frame (h : Exact c extra) (hstreams : c'.streams = c.streams) (hlog : c'.log = c.log)
    (hwrites : c'.writes = c.writes) (hnext : c'.nextStream = c.nextStream) : Exact c' extra where
  stream := by rw [hstreams, hlog, hwrites, hnext]; exact h.stream
  sound := by rw [hlog]; exact h.sound

/-- One stream and its history change. -/
theorem set (h : Exact c extra) (id : Nat) {extra' : Nat → Nat}
    (hothers : ∀ other, other ≠ id → ledger other c'.log = ledger other c.log ∧
      c'.streams other = c.streams other ∧ extra' other = extra other)
    (hwrites : c.writes ≤ c'.writes) (hnext : c'.nextStream = c.nextStream)
    (hsound : ∀ id write, .dangling id write ∉ c'.log)
    (hid : StreamExact c'.writes c.nextStream id (ledger id c'.log) (c'.streams id) (extra' id)) :
    Exact c' extra' := by
  refine ⟨fun other => ?_, hsound⟩
  rw [hnext]
  by_cases hother : other = id
  · exact hother ▸ hid
  obtain ⟨hledger, hstream, hextra⟩ := hothers other hother
  rw [hledger, hstream, hextra]
  exact { h.stream other with
    fresh := fun entry hentry =>
      Nat.lt_of_lt_of_le ((h.stream other).fresh entry hentry) hwrites }

theorem setStream (h : Exact c extra) {stream : ClientStream}
    (hstream : StreamOk (ledger id c.log) stream (extra id)) :
    Exact (c.setStream id stream) extra :=
  h.set id (fun _ hother => ⟨rfl, if_neg hother, rfl⟩) (Nat.le_refl _) rfl h.sound
    { h.stream id with ok := by simpa [Client.setStream] using hstream }

theorem flags (h : Exact c extra) {stream : ClientStream}
    (hwrites : stream.writes = (c.streams id).writes)
    (hterminated : stream.terminated = (c.streams id).terminated) :
    Exact (c.setStream id stream) extra :=
  h.setStream ((h.stream id).ok.flags hwrites hterminated)

end Exact

/-- Only a stream that was opened has writes. -/
theorem Exact.opened (h : Exact c extra) (hne : (c.streams id).writes ≠ []) :
    id < c.nextStream := by
  refine Nat.lt_of_not_le fun hle => ?_
  have hnone := (h.stream id).unopened hle
  cases (h.stream id).ok with
  | live finished _ accepted =>
    rw [hnone] at accepted
    have hqueue := (append_eq_nil_iff.mp accepted.symm).2
    exact hne (by simpa using hqueue)
  | closed _ _ _ _ writes => exact hne writes

/-- An event that accepts no write, of a stream that was opened, with the stream
it leaves. -/
theorem Exact.record (h : Exact c extra) (extra' : Nat → Nat) (event : Event)
    (stream : ClientStream) (hid : event.stream < c.nextStream)
    (hsound : ∀ id write, event ≠ .dangling id write)
    (haccepts : ∀ ledger : Ledger, (ledger.add event).accepted = ledger.accepted)
    (hextra : ∀ other, other ≠ event.stream → extra' other = extra other)
    (hok : StreamOk ((ledger event.stream c.log).add event) stream (extra' event.stream)) :
    Exact ((c.setStream event.stream stream).note event) extra' := by
  have hold := h.stream event.stream
  refine h.set event.stream (fun other hother => ?_) (Nat.le_refl _) rfl
    (fun id write hmem => ?_) ?_
  · exact ⟨if_neg (Ne.symm hother), if_neg hother, hextra other hother⟩
  · rcases mem_cons.mp hmem with hnew | hmem
    · exact hsound id write hnew.symm
    · exact h.sound id write hmem
  simp only [Client.note, Client.setStream, ledger_cons, if_true]
  refine ⟨hok, ?_, ?_, fun hle => absurd hid (Nat.not_lt.mpr hle)⟩ <;> rw [haccepts]
  · exact hold.fresh
  · exact hold.nodup

theorem setStream_self (c : Client) (id : Nat) : c.setStream id (c.streams id) = c := by
  have hsame : (fun other => if other = id then c.streams id else c.streams other) = c.streams := by
    funext other
    split
    · rename_i hother
      rw [hother]
    · rfl
  simp [setStream, hsame]

/-- A write is queued behind those that wait. -/
theorem StreamOk.accept {ledger : Ledger} {stream : ClientStream} (h : StreamOk ledger stream 0)
    (hopen : stream.terminated = false) (write : Nat) (data : Bytes) :
    StreamOk (ledger.add (.accepted id write data))
      { stream with writes := stream.writes ++ [⟨write, data, 0⟩] } 0 := by
  cases h with
  | live finished terminated accepted done failed sent behind bounded =>
    refine .live finished terminated (by simp [Ledger.add, accepted]) done failed ?_ ?_ ?_ <;>
      cases hqueue : stream.writes <;>
      simp_all [Ledger.add, PendingWrite.begun, or_imp]
  | closed _ _ _ terminated => cases hopen.symm.trans terminated

theorem StreamOk.abort {ledger : Ledger} {stream : ClientStream} (h : StreamOk ledger stream 0)
    (hterminated : stream.terminated = false)
    (hterminated' : stream'.terminated = true) (hwrites : stream'.writes = []) :
    StreamOk { ledger with
      failed := ledger.failed ++ stream.writes.map PendingWrite.write } stream' 0 := by
  cases h with
  | live finished _ accepted done failed sent behind bounded =>
    refine .closed finished (stream.writes.map fun write => (write.write, write.data))
      ((stream.writes.head?.map PendingWrite.offset).getD 0) hterminated' hwrites accepted done
      ?_ ?_ ?_
    · simp [failed, Function.comp_def]
    · rw [sent]
      cases hqueue : stream.writes with
      | nil => simp [PendingWrite.begun]
      | cons front rest =>
        have hle := bounded front (by simp [hqueue])
        simp only [PendingWrite.begun, map_cons, flatMap_cons, head?_cons,
          map_some, getD_some, Nat.add_zero]
        rw [take_append_of_le_length (by simpa using hle)]
    intro first hfirst
    cases hqueue : stream.writes with
    | nil => simp [hqueue] at hfirst
    | cons front rest =>
      have hle := bounded front (by simp [hqueue])
      simp only [hqueue, map_cons, head?_cons, mem_def, some.injEq] at hfirst
      subst hfirst
      simpa using hle
  | closed _ _ _ terminated => cases hterminated.symm.trans terminated

/-- The failed completions of a stream's writes, as its ledger sees them. -/
theorem ledger_failed (writes : List PendingWrite) (log : List Event) (id other : Nat) :
    ledger other ((writes.map fun write => Event.completed id write.write false).reverse ++ log) =
      if other = id then
        { ledger other log with
          failed := (ledger other log).failed ++ writes.map PendingWrite.write }
      else ledger other log := by
  induction writes generalizing log with
  | nil => simp
  | cons write writes ih =>
    rw [map_cons, reverse_cons, append_assoc, singleton_append, ih]
    by_cases hother : other = id
    · subst hother
      rw [ledger_cons, if_pos rfl]
      simp [Event.stream, Ledger.add]
    · simp [hother, ledger_cons, Event.stream, Ne.symm hother]

namespace Clean

variable (h : Clean c)
include h

theorem frame (hstreams : c'.streams = c.streams) (hlog : c'.log = c.log)
    (hwrites : c'.writes = c.writes) (hnext : c'.nextStream = c.nextStream)
    (hstack : c'.stack = c.stack) : Clean c' :=
  ⟨h.exact.frame hstreams hlog hwrites hnext, hstack ▸ h.stack⟩

theorem push {tasks : List Task} (htasks : ∀ task ∈ tasks, task.isAdvance = false) :
    Clean (c.push tasks) := by
  exact ⟨h.exact.frame rfl rfl rfl rfl, forall_mem_append.mpr ⟨htasks, h.stack⟩⟩

theorem pushOne {task : Task} (htask : task.isAdvance = false) : Clean (c.push [task]) :=
  h.push (by simpa using htask)

theorem flags {stream : ClientStream} (hwrites : stream.writes = (c.streams id).writes)
    (hterminated : stream.terminated = (c.streams id).terminated) : Clean (c.setStream id stream) :=
  ⟨h.exact.flags hwrites hterminated, h.stack⟩

theorem write : Clean c.write := by
  unfold Client.write
  split
  · exact h
  refine Clean.pushOne ?_ rfl
  exact h.frame rfl rfl rfl rfl rfl

theorem queueCell : Clean c.queueCell := by
  refine Clean.write ?_
  exact h.frame rfl rfl rfl rfl rfl

theorem abort (id : Nat) : Clean (c.abort id) := by
  unfold Client.abort
  dsimp only
  split
  · exact h
  rename_i hterminated
  have hold := h.exact.stream id
  refine ⟨h.exact.set id (fun other hother => ⟨?_, if_neg hother, rfl⟩) (Nat.le_refl _) rfl ?_ ?_,
    h.stack⟩
  · rw [ledger_failed, if_neg hother]
  · intro other write hmem
    rcases mem_append.mp hmem with hmem | hmem
    · simp at hmem
    · exact h.exact.sound other write hmem
  simp only [ledger_failed, Client.setStream, if_true]
  refine { hold with
    ok := hold.ok.abort (by simpa using hterminated) rfl rfl
    unopened := fun hle => ?_ }
  -- A stream that was never opened has no writes.
  have hqueue : (c.streams id).writes = [] :=
    Decidable.byContradiction fun hne => absurd (h.exact.opened hne) (Nat.not_lt.mpr hle)
  simp [hold.unopened hle, hqueue]

theorem close : Clean c.close := by
  unfold Client.close
  split
  · exact h
  have hclosed : Clean { c with phase := .closed, forwardQueue := 0 } :=
    h.frame rfl rfl rfl rfl rfl
  generalize { c with phase := .closed, forwardQueue := 0 } = start at hclosed
  induction (List.range c.nextStream).filter fun id => (c.streams id).listed generalizing start with
  | nil => exact hclosed
  | cons id rest ih => exact ih _ (hclosed.abort id)

theorem forget (id : Nat) : Clean (c.forget id) := h.flags rfl rfl

/-- A message that marks its stream first. -/
theorem send (sealed : Bool) {stream : ClientStream}
    (hwrites : stream.writes = (c.streams id).writes)
    (hterminated : stream.terminated = (c.streams id).terminated) :
    Clean (if sealed then (c.setStream id stream).queueCell else (c.setStream id stream).close) := by
  have hmarked := h.flags hwrites hterminated
  split
  · exact hmarked.queueCell
  · exact hmarked.close

theorem sendEnd (sealed : Bool) (id : Nat) (done : Bool) : Clean (c.sendEnd sealed id done) := by
  unfold Client.sendEnd
  cases done with
  | true =>
    simp only [if_true]
    split
    · exact h
    · exact h.send sealed rfl rfl
  | false =>
    simp only [Bool.false_eq_true, if_false]
    split
    · exact h
    · exact h.send sealed rfl rfl

theorem pumped (sealed : Bool) (id sent : Nat) : Clean (c.pumped sealed id sent) := by
  have hreturned : Clean { c with returned := decide (0 < sent) } := h.frame rfl rfl rfl rfl rfl
  unfold Client.pumped
  dsimp only
  split
  · exact (hreturned.pushOne rfl).sendEnd _ _ _
  · exact hreturned

theorem startPump (id : Nat) (cells : Option Nat) : Clean (c.startPump id cells) := by
  unfold Client.startPump
  split
  · exact h.frame rfl rfl rfl rfl rfl
  · exact h.pushOne rfl

theorem resumeWriters : Clean (c.resumeWriters limits) := by
  unfold Client.resumeWriters
  split
  · exact h
  · exact h.pushOne rfl

theorem round (waiting rest : List Nat) (sent : Bool) :
    Clean (c.round limits waiting rest sent) := by
  unfold Client.round
  split
  · split
    · exact h.pushOne rfl
    · exact h
  split
  · exact h
  · exact (h.pushOne rfl).startPump _ _

theorem resumed (id : Nat) (waiting rest : List Nat) (sent : Bool) :
    Clean (c.resumed id waiting rest sent) := by
  unfold Client.resumed
  split
  · refine Clean.pushOne ?_ rfl
    exact h.frame rfl rfl rfl rfl rfl
  · exact h.pushOne rfl

theorem onWritten (ok : Bool) : Clean (c.onWritten ok) := by
  have hidle : Clean { c with writing := false } := h.frame rfl rfl rfl rfl rfl
  unfold Client.onWritten
  dsimp only
  split
  · exact hidle
  split
  · refine Clean.write (Clean.pushOne ?_ rfl)
    exact h.frame rfl rfl rfl rfl rfl
  · exact hidle.close

theorem openStream (sealed : Bool) : Clean (c.openStream limits sealed) := by
  unfold Client.openStream
  split
  · exact h
  have hnext : Clean { c with nextStream := c.nextStream + 1 } := by
    refine ⟨⟨fun id => { h.exact.stream id with unopened := fun hle => ?_ }, h.exact.sound⟩,
      h.stack⟩
    exact (h.exact.stream id).unopened (Nat.le_of_succ_le hle)
  have hopened : Clean ({ c with nextStream := c.nextStream + 1 }.setStream c.nextStream
      { ClientStream.unopened with sendWindow := limits.streamWindow, listed := true }) := by
    refine ⟨hnext.exact.setStream ?_, hnext.stack⟩
    rw [show ledger c.nextStream c.log = ⟨[], [], [], []⟩ from
      (h.exact.stream _).unopened (Nat.le_refl _)]
    exact .live [] rfl rfl rfl rfl rfl nofun nofun
  split
  · exact hopened.queueCell
  · exact hopened.close

theorem asyncWrite (id : Nat) (hid : id < c.nextStream) (data : Bytes) :
    Clean (c.asyncWrite id data) := by
  unfold Client.asyncWrite
  dsimp only
  split
  · exact h
  rename_i hopen
  simp only [not_or, Bool.not_eq_true] at hopen
  refine Clean.startPump ?_ _ _
  have hold := h.exact.stream id
  refine ⟨h.exact.set id (fun other hother => ⟨if_neg (Ne.symm hother), if_neg hother, rfl⟩)
    (Nat.le_succ _) rfl ?_ ?_, h.stack⟩
  · intro other write hmem
    rcases mem_cons.mp hmem with hnew | hmem
    · cases hnew
    · exact h.exact.sound other write hmem
  simp only [Client.note, Client.setStream, ledger_cons, Event.stream, if_true]
  refine ⟨hold.ok.accept hopen.1 .., forall_mem_append.mpr ⟨fun entry hentry => ?_, ?_⟩, ?_,
    fun hle => absurd hid (Nat.not_lt.mpr hle)⟩
  · exact Nat.lt_succ_of_lt (hold.fresh entry hentry)
  · exact forall_mem_singleton.mpr (Nat.lt_succ_self _)
  simp only [Ledger.add, map_append, map_cons, map_nil]
  refine nodup_append.mpr ⟨hold.nodup, by simp, ?_⟩
  intro write hwrite new hnew heq
  obtain ⟨entry, hentry, rfl⟩ := mem_map.mp hwrite
  have hlt := hold.fresh entry hentry
  rw [mem_singleton.mp hnew] at heq
  omega

theorem shutdownWrite (id : Nat) : Clean (c.shutdownWrite id) := by
  unfold Client.shutdownWrite
  split
  · exact h
  refine Clean.startPump ?_ _ _
  exact h.flags rfl rfl

theorem closeStream (sealed : Bool) (id : Nat) : Clean (c.closeStream sealed id) := by
  unfold Client.closeStream
  dsimp only
  split
  · exact h
  split
  · exact h.abort id
  · exact (h.pushOne rfl).sendEnd _ _ _

theorem onEnd (id : Nat) (done : Bool) : Clean (c.onEnd id done) := by
  unfold Client.onEnd
  dsimp only
  split
  · exact h.abort id
  · exact h.flags rfl rfl

theorem onCredit (id increment : Nat) : Clean (c.onCredit id increment) := by
  unfold Client.onCredit
  dsimp only
  split
  · exact h.close
  refine Clean.startPump ?_ _ _
  exact h.flags rfl rfl

theorem control (sealed : Bool) : Clean (c.control sealed) := by
  unfold Client.control
  split
  · exact h
  split
  · exact h.queueCell
  · exact h.close

theorem handle {move : Move} (hmove : c.handle limits move = some c') : Clean c' := by
  cases move with
  | openStream sealed =>
    cases hmove
    exact h.openStream sealed
  | asyncWrite id data =>
    obtain ⟨hid, ⟨⟩⟩ := ite_none_right_eq_some.mp hmove
    exact h.asyncWrite id hid data
  | shutdownWrite id =>
    obtain ⟨-, ⟨⟩⟩ := ite_none_right_eq_some.mp hmove
    exact h.shutdownWrite id
  | closeStream sealed id =>
    obtain ⟨-, ⟨⟩⟩ := ite_none_right_eq_some.mp hmove
    exact h.closeStream sealed id
  | connected =>
    obtain ⟨-, ⟨⟩⟩ := ite_none_right_eq_some.mp hmove
    exact h.flags rfl rfl
  | ended id done =>
    obtain ⟨-, ⟨⟩⟩ := ite_none_right_eq_some.mp hmove
    exact h.onEnd id done
  | credit id increment =>
    obtain ⟨-, ⟨⟩⟩ := ite_none_right_eq_some.mp hmove
    exact h.onCredit id increment
  | control sealed =>
    cases hmove
    exact h.control sealed
  | close =>
    cases hmove
    exact h.close
  | run | back | written => cases hmove

end Clean

/-! ### Sending a cell -/

/-- A cell with a part of a stream's first write was handed on, and the offset
is about to move. -/
structure Sending (c : Client) (id write chunk : Nat) (below : List Task) : Prop where
  exact : Exact c fun other => if other = id then chunk else 0
  front : ∃ front rest, (c.streams id).writes = front :: rest ∧ front.write = write
  below : ∀ task ∈ below, task.isAdvance = false

/-- What the stack says about the streams: the offset of a write lags behind what
was sent only while the call that sent it is on top. -/
inductive Steady (c : Client) : Prop where
  | clean (clean : Clean c)
  | sending {id write chunk cells sent below} (sending : Sending c id write chunk below)
    (stack : c.stack = .advance id write chunk cells sent :: below ∨
      c.stack = .outside :: .advance id write chunk cells sent :: below)

theorem StreamOk.send {ledger : Ledger} {stream : ClientStream} (h : StreamOk ledger stream 0)
    (hqueue : stream.writes = front :: rest) (hchunk : chunk ≤ front.data.length - front.offset) :
    StreamOk { ledger with sent := ledger.sent ++ (front.data.drop front.offset).take chunk }
      stream chunk := by
  cases h with
  | live finished terminated accepted done failed sent behind bounded =>
    have hle := bounded front (by simp [hqueue])
    refine .live finished terminated accepted done failed ?_ behind ?_
    · simp only [sent, hqueue, PendingWrite.begun, Nat.add_zero, append_assoc]
      rw [← take_add]
    intro other hother
    obtain rfl : front = other := by simpa [hqueue] using hother
    omega
  | closed _ _ _ _ writes => cases hqueue.symm.trans writes

theorem StreamOk.advance {ledger : Ledger} {stream : ClientStream}
    (h : StreamOk ledger stream chunk)
    (hqueue : stream.writes = front :: rest) (hterminated : stream'.terminated = stream.terminated)
    (hwrites : stream'.writes = { front with offset := front.offset + chunk } :: rest) :
    StreamOk ledger stream' 0 := by
  cases h with
  | live finished terminated accepted done failed sent behind bounded =>
    have hle := bounded front (by simp [hqueue])
    refine .live finished (hterminated.trans terminated) ?_ done failed ?_ ?_ ?_
    · simpa [hqueue, hwrites] using accepted
    · simpa [hqueue, hwrites, PendingWrite.begun] using sent
    · simpa [hqueue, hwrites] using behind
    intro other hother
    obtain rfl : { front with offset := front.offset + chunk } = other := by
      simpa [hwrites] using hother
    simpa using hle
  | closed _ _ _ _ writes => cases hqueue.symm.trans writes

/-- The write whose last byte was sent is finished. -/
theorem StreamOk.finish {ledger : Ledger} {stream : ClientStream} (h : StreamOk ledger stream chunk)
    (hqueue : stream.writes = front :: rest) (hlast : front.offset + chunk = front.data.length)
    (hterminated : stream'.terminated = stream.terminated) (hwrites : stream'.writes = rest) :
    StreamOk { ledger with done := ledger.done ++ [front.write] } stream' 0 := by
  cases h with
  | live finished terminated accepted done failed sent behind bounded =>
    have hzero : ∀ write ∈ rest, write.offset = 0 := by simpa [hqueue] using behind
    refine .live (finished ++ [(front.write, front.data)]) (hterminated.trans terminated) ?_ ?_
      failed ?_ ?_ ?_
    · simpa [hqueue, hwrites] using accepted
    · simp [done]
    · rw [sent, hqueue, hwrites]
      cases rest with
      | nil => simp [PendingWrite.begun, hlast]
      | cons next rest => simp [PendingWrite.begun, hlast, hzero next]
    · intro write hmem
      exact hzero write (mem_of_mem_tail (hwrites ▸ hmem))
    intro next hnext
    have hmem : next ∈ rest := by
      rw [hwrites] at hnext
      exact mem_of_mem_head? hnext
    simp [hzero next hmem]
  | closed _ _ _ _ writes => cases hqueue.symm.trans writes

/-- Queueing a cell only adds to the stack a call of the entry. -/
theorem queueCell_eq (c : Client) : c.queueCell.streams = c.streams ∧ c.queueCell.log = c.log ∧
    c.queueCell.writes = c.writes ∧ c.queueCell.nextStream = c.nextStream ∧
      (c.queueCell.stack = c.stack ∨ c.queueCell.stack = .outside :: c.stack) := by
  unfold queueCell write
  split
  · exact ⟨rfl, rfl, rfl, rfl, .inl rfl⟩
  · exact ⟨rfl, rfl, rfl, rfl, .inr rfl⟩

/-- The part of the front write that a cell takes is sent, and not yet counted. -/
theorem Clean.sent (h : Clean c) (hqueue : (c.streams id).writes = front :: rest)
    (hchunk : chunk ≤ front.data.length - front.offset) :
    Exact (c.note (.sent id ((front.data.drop front.offset).take chunk)))
      fun other => if other = id then chunk else 0 := by
  have hopened : id < c.nextStream := h.exact.opened (by simp [hqueue])
  have hrecord := h.exact.record (fun other => if other = id then chunk else 0)
    (.sent id ((front.data.drop front.offset).take chunk)) (c.streams id) hopened nofun
    (fun _ => rfl) (fun other hother => if_neg hother)
  simp only [Event.stream, if_true, setStream_self] at hrecord
  exact hrecord ((h.exact.stream id).ok.send hqueue hchunk)

theorem steady_pump (h : Clean c) (sealed : Bool) (id : Nat) (cells : Option Nat) (sent : Nat) :
    Steady (c.pump limits sealed id cells sent) := by
  unfold pump
  dsimp only
  split
  · exact .clean (h.pumped sealed id sent)
  rename_i front rest hqueue
  split
  · exact .clean (h.frame rfl rfl rfl rfl rfl)
  split
  · generalize hchunk : min (front.data.length - front.offset)
      (min (c.streams id).sendWindow dataPerCell) = chunk
    have hle : chunk ≤ front.data.length - front.offset := by omega
    obtain ⟨hstreams, hlog, hwrites, hnext, hstack⟩ := queueCell_eq
      ((c.note (.sent id ((front.data.drop front.offset).take chunk))).push
        [.advance id front.write chunk cells sent])
    refine .sending ⟨(h.sent hqueue hle).frame hstreams hlog hwrites hnext, ?_, h.stack⟩ hstack
    rw [hstreams]
    exact ⟨front, rest, hqueue, rfl⟩
  · exact .clean (h.close.frame rfl rfl rfl rfl rfl)

/-- The offset and the window move, and everything sent is counted again. -/
theorem Sending.advance {write : Nat} {below : List Task} (h : Sending c id write chunk below)
    (cells : Option Nat) (sent : Nat) :
    Clean (Client.advance id write chunk cells sent { c with stack := below }) := by
  obtain ⟨front, rest, hqueue, rfl⟩ := h.front
  have hid := (h.exact.stream id).ok
  simp only [if_true] at hid
  unfold Client.advance
  simp only [hqueue, ne_eq, not_true_eq_false, if_false]
  split
  · rename_i hlast
    refine Clean.pushOne ?_ rfl
    have hopened : id < c.nextStream := h.exact.opened (by simp [hqueue])
    have hrecord := h.exact.record (fun _ => 0) (.completed id front.write true) { c.streams id with
        sendWindow := Client.lower (c.streams id).sendWindow chunk, writes := rest }
      hopened nofun (fun _ => rfl)
      (fun other hother => (if_neg hother).symm) (hid.finish hqueue hlast rfl rfl)
    exact ⟨hrecord.frame rfl rfl rfl rfl, h.below⟩
  refine Clean.pushOne ?_ rfl
  refine ⟨h.exact.set id (fun other hother => ⟨rfl, if_neg hother, (if_neg hother).symm⟩)
    (Nat.le_refl _) rfl h.exact.sound { h.exact.stream id with ok := ?_ }, h.below⟩
  simp only [Client.setStream, if_true]
  exact hid.advance hqueue rfl rfl

/-- The code at any point but the one that counts a sent cell. -/
theorem steady_exec (h : Clean c) {task : Task} (htask : task.isAdvance = false) (sealed : Bool) :
    Steady (c.exec limits sealed task) := by
  cases task with
  | outside => exact .clean h
  | pump id cells sent => exact steady_pump h sealed id cells sent
  | advance => cases htask
  | ended id =>
    simp only [exec]
    split
    · exact .clean (h.forget id)
    · exact .clean h
  | abort id => exact .clean (h.abort id)
  | resumeWriters => exact .clean h.resumeWriters
  | round waiting rest sent => exact .clean (h.round waiting rest sent)
  | resumed id waiting rest sent => exact .clean (h.resumed id waiting rest sent)

theorem Clean.step (h : Clean c) {move : Move} (hstep : step limits c move = some c') :
    Steady c' := by
  have hother : ∀ move, (if c.stack = [] then c.handle limits move else none) = some c' →
      Steady c' := by
    intro move hmove
    split at hmove
    · exact .clean (h.handle hmove)
    · cases hmove
  cases move with
  | run sealed =>
    simp only [CircuitClient.step] at hstep
    split at hstep
    · cases hstep
    · cases hstep
    rename_i task rest _ hstack
    cases hstep
    have htasks := h.stack
    rw [hstack] at htasks
    refine steady_exec ?_ (htasks task mem_cons_self) sealed
    exact ⟨h.exact.frame rfl rfl rfl rfl, fun other hmem =>
      htasks other (mem_cons_of_mem _ hmem)⟩
  | back =>
    simp only [CircuitClient.step] at hstep
    split at hstep
    · rename_i hstack
      cases hstep
      refine .clean ⟨h.exact.frame rfl rfl rfl rfl, fun other hmem => h.stack other ?_⟩
      rw [hstack]
      exact mem_cons_of_mem _ hmem
    · cases hstep
  | written ok =>
    simp only [CircuitClient.step] at hstep
    split at hstep
    · cases hstep
      exact .clean (h.onWritten ok)
    · cases hstep
  | _ => exact hother _ hstep

/-- One move keeps every stream's bytes exact, if the entry completes the writes
of cells only after the calls that started them. -/
theorem Steady.step (h : Steady c) {move : Move} (hdeferred : deferred c move = true)
    (hstep : step limits c move = some c') : Steady c' := by
  obtain hclean | ⟨hsending, hstack | hstack⟩ := h
  · exact hclean.step hstep
  · cases move with
    | run =>
      simp only [CircuitClient.step, hstack, some.injEq] at hstep
      rw [← hstep]
      exact .clean (hsending.advance _ _)
    | _ => simp [CircuitClient.step, hstack, free] at hstep
  cases move with
  | back =>
    simp only [CircuitClient.step, hstack, some.injEq] at hstep
    rw [← hstep]
    exact .sending ⟨hsending.exact.frame rfl rfl rfl rfl, hsending.front, hsending.below⟩ (.inl rfl)
  | written => simp [deferred, hstack] at hdeferred
  | _ => simp [CircuitClient.step, hstack] at hstep

theorem Steady.start : Steady start := by
  exact .clean ⟨⟨fun _ => ⟨.live [] rfl rfl rfl rfl rfl nofun nofun, nofun, nodup_nil,
    fun _ => rfl⟩, nofun⟩, nofun⟩

/-- Where a stream's writes are, whatever it is doing. -/
theorem StreamOk.split {ledger : Ledger} {stream : ClientStream} {extra : Nat}
    (h : StreamOk ledger stream extra) : ∃ finished left count,
      ledger.accepted = finished ++ left ∧ ledger.done = finished.map Prod.fst ∧
      ledger.failed = (if stream.terminated then left.map Prod.fst else []) ∧
      ledger.sent = finished.flatMap Prod.snd ++ (left.flatMap Prod.snd).take count ∧
      ∀ first ∈ left.head?, count ≤ first.2.length := by
  cases h with
  | live finished terminated accepted done failed sent behind bounded =>
    cases hqueue : stream.writes with
    | nil =>
      refine ⟨finished, [], 0, ?_, done, by simp [terminated, failed], ?_, nofun⟩
      · simpa [hqueue] using accepted
      · simpa [hqueue, PendingWrite.begun] using sent
    | cons front =>
      have hle := bounded front (by simp [hqueue])
      refine ⟨finished, stream.writes.map fun write => (write.write, write.data),
        front.offset + extra, accepted, done, by simp [terminated, failed], ?_, ?_⟩
      · rw [sent, hqueue]
        simp only [PendingWrite.begun, map_cons, flatMap_cons]
        rw [take_append_of_le_length hle]
      · simpa [hqueue] using hle
  | closed finished left count terminated writes accepted done failed sent bounded =>
    exact ⟨finished, left, count, accepted, done, by simp [terminated, failed], sent, bounded⟩

/-- In every run in which the entry completes a cell's write only after the call
that started it returned, the DATA a stream sends is exactly the buffers of its
accepted writes, in order and each byte once: the writes that completed, whole,
and a part of the next one.  A write succeeds once, when its last byte was sent;
when the stream ends, each write that is left fails once; and no write is used
after it was popped. -/
theorem stream_writes_exact
    (h : Reaches (step limits) (fun c move => deferred c move = true) start c) (id : Nat) :
    (∃ finished left count, (ledger id c.log).accepted = finished ++ left ∧
      (ledger id c.log).done = finished.map Prod.fst ∧
      (ledger id c.log).failed =
        (if (c.streams id).terminated then left.map Prod.fst else []) ∧
      (ledger id c.log).sent = finished.flatMap Prod.snd ++ (left.flatMap Prod.snd).take count ∧
      ∀ first ∈ left.head?, count ≤ first.2.length) ∧
    ((ledger id c.log).accepted.map Prod.fst).Nodup ∧
    ∀ id write, .dangling id write ∉ c.log := by
  have hsteady : Steady c :=
    h.invariant Steady.start fun _ _ _ _ hbefore hdeferred hstep => hbefore.step hdeferred hstep
  cases hsteady with
  | clean hclean =>
    exact ⟨(hclean.exact.stream id).ok.split, (hclean.exact.stream id).nodup, hclean.exact.sound⟩
  | sending hsending =>
    exact ⟨(hsending.exact.stream id).ok.split, (hsending.exact.stream id).nodup,
      hsending.exact.sound⟩

end

/-- A window of two bytes. -/
def narrowLimits : ClientLimits := ⟨2, 16⟩

/-- A stream whose window is two bytes writes four, and the entry completes the
first cell inside the call that sends it. -/
def inlineMoves : List Move :=
  [.openStream true, .back, .written true, .run true, .run true, .asyncWrite 1 [1, 2, 3, 4],
    .run true, .written true, .run true, .run true, .run true, .back, .run true, .run true,
    .run true, .run true, .run true, .run true, .run true, .run true, .back, .run true]

/-- The completion resumes the stream before its offset has moved: the first two
bytes are sent twice, the last two never, and the write succeeds. -/
theorem inline_completion_repeats_bytes :
    ∃ c, Reaches (step narrowLimits) (fun _ _ => True) start c ∧
      (ledger 1 c.log).accepted = [(0, [1, 2, 3, 4])] ∧ (ledger 1 c.log).sent = [1, 2, 1, 2] ∧
      (ledger 1 c.log).done = [0] := by
  have hrun : (runChecked (step narrowLimits) (fun _ _ => true) start inlineMoves).any
      (fun c => decide (ledger 1 c.log = ⟨[(0, [1, 2, 3, 4])], [1, 2, 1, 2], [0], []⟩)) = true := by
    decide
  obtain ⟨c, hreach, htest⟩ := Reaches.exists_of_runChecked (fun _ _ _ => trivial) _ _ hrun
  have hledger := of_decide_eq_true htest
  exact ⟨c, hreach, by simp [hledger], by simp [hledger], by simp [hledger]⟩

/-- The same write, with every completion after the call that started it. -/
def deferredMoves : List Move :=
  [.openStream true, .back, .written true, .run true, .run true, .asyncWrite 1 [1, 2, 3, 4],
    .run true, .back, .run true, .run true, .written true, .run true, .run true, .run true,
    .run true, .run true, .credit 1 2, .run true, .back, .run true]

theorem stream_writes_exact_sample :
    ∃ c : Client, (ledger 1 c.log).sent = [1, 2, 3, 4] ∧
      ((ledger 1 c.log).accepted.map Prod.fst).Nodup := by
  have hrun : (runChecked (step narrowLimits) deferred start deferredMoves).any
      (fun c => decide ((ledger 1 c.log).sent = [1, 2, 3, 4])) = true := by
    decide
  obtain ⟨c, hreach, htest⟩ :=
    Reaches.exists_of_runChecked (fun _ _ hdeferred => hdeferred) _ _ hrun
  exact ⟨c, of_decide_eq_true htest, (stream_writes_exact hreach 1).2.1⟩

end Yume.CircuitClient
