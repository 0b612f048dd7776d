/-
In each direction of a lane the window that the sender has left, the data and
the credit on their way and what the receiver holds add up to the receiver's
window, so neither end ever fails the circuit over a window.  The order of the
messages is one equation for each direction: those on their way take what the
receiver has seen of the sender to where the sender is.
-/
import Yume.CircuitClient.Windows

namespace Yume.CircuitClient.Windows

open Yume.Lib List Option
open Yume.CircuitNode (ExitLimits ExitMessage ExitStream maxDataPayload)
open Yume.Circuit (maxCreditIncrement)

/-- Limits under which the windows can agree: both ends start with the same
window, and no window outgrows what a credit message carries. -/
structure Matched (limits : Limits) : Prop where
  same : limits.client.streamWindow = limits.exit.streamWindow
  small : max limits.client.streamWindow limits.client.maxStreamWindow ≤ maxCreditIncrement

/-- The largest window that the client may grant. -/
def widest (limits : Limits) : Nat :=
  max limits.client.streamWindow limits.client.maxStreamWindow

/-! ### What messages carry -/

namespace ClientMessage

@[simp] def dataBytes : ClientMessage → Nat
  | .data payload => payload.length
  | _ => 0

@[simp] def creditBytes : ClientMessage → Nat
  | .credit increment => increment
  | _ => 0

@[simp] def isBegin : ClientMessage → Bool
  | .begin => true
  | _ => false

end ClientMessage

@[simp] def exitData : ExitMessage → Nat
  | .data _ payload => payload.length
  | _ => 0

@[simp] def exitCredit : ExitMessage → Nat
  | .credit _ increment => increment
  | _ => 0

/-- Whether the exit has seen the client's END, after a message that may come. -/
@[simp] def exitPhase (ended : Bool) : ClientMessage → Option Bool
  | .data payload => if ended = true ∨ payload = [] then none else some ended
  | .end _ => some true
  | _ => some ended

/-- Whether the client has seen CONNECTED and the exit's END. -/
@[simp] def clientPhase (phase : Bool × Bool) : ExitMessage → Option (Bool × Bool)
  | .connected _ => if phase.1 = true then none else some (true, phase.2)
  | .data _ payload =>
    if phase.1 = false ∨ phase.2 = true ∨ payload = [] then none else some phase
  | .end _ _ => some (phase.1, true)
  | .credit _ _ => some phase

/-- The bytes of a list of records. -/
def bytesOf (records : List Bytes) : Nat := weigh List.length records

namespace ClientStream

/-- The window without the cells that `pump` has sent. -/
def remaining (stream : ClientStream) : Nat := stream.sendWindow - stream.sending.sum

def phase (stream : ClientStream) : Bool × Bool := (stream.connected, stream.remoteDone)

end ClientStream

def farPhase (stream : ExitStream) : Bool × Bool := (stream.channel, stream.destinationDone)

/-! ### The invariant of a lane -/

/-- What holds of the client's end. -/
structure NearOk (limits : Limits) (stream : ClientStream) : Prop where
  sum : stream.receiveAllowed + bytesOf stream.received + bytesOf stream.lent +
    stream.consumed = stream.window
  window : stream.window ≤ widest limits
  received : ∀ record ∈ stream.received, record ≠ []
  lent : ∀ record ∈ stream.lent, record ≠ []
  sending : stream.sending.sum ≤ stream.sendWindow
  small : stream.sendWindow ≤ limits.exit.streamWindow

/-- What holds of the exit's end, or will once the BEGIN on its way arrives. -/
structure FarOk (limits : Limits) (stream : ExitStream) (asked : Nat) : Prop where
  budget : stream.budget = limits.exit.streamWindow
  reading : stream.reading = true → stream.channel = true ∧ stream.destinationDone = false ∧
    asked ≤ stream.sendWindow ∧ asked ≤ maxDataPayload .backward
  buffers : ∀ buffer ∈ stream.toDestination, buffer ≠ []
  writing : ∀ buffer, stream.writing = some buffer → buffer ≠ []

/-- What holds of both ends together. -/
structure BothOk (near : ClientStream) (far : ExitStream) (up : List ClientMessage)
    (down : List ExitMessage) : Prop where
  forward : near.remaining + weigh ClientMessage.dataBytes up + weigh exitCredit down =
    far.receiveAllowed
  backward : far.sendWindow + weigh exitData down + weigh ClientMessage.creditBytes up =
    near.receiveAllowed
  up : up.foldlM exitPhase far.clientDone = some near.endSent
  down : down.foldlM clientPhase near.phase = some (farPhase far)

/-- What the client's end may still receive, also from an exit whose end is gone. -/
structure NearLeft (limits : Limits) (near : ClientStream) (down : List ExitMessage) : Prop where
  forward : near.remaining + weigh exitCredit down ≤ limits.exit.streamWindow
  backward : weigh exitData down ≤ near.receiveAllowed
  down : ∃ phase, down.foldlM clientPhase near.phase = some phase

/-- What the exit's end may still receive, also from a client whose end is gone. -/
structure FarLeft (limits : Limits) (far : ExitStream) (up : List ClientMessage) : Prop where
  forward : weigh ClientMessage.dataBytes up ≤ far.receiveAllowed
  backward : far.sendWindow + weigh ClientMessage.creditBytes up ≤ widest limits
  up : ∃ ended, up.foldlM exitPhase far.clientDone = some ended

/-- What holds of the ends that there still are and of the messages on their way. -/
inductive Facts (limits : Limits) (up : List ClientMessage) (down : List ExitMessage)
    (asked : Nat) : Option ClientStream → Option ExitStream → Prop where
  | both {near : ClientStream} {far : ExitStream} (nearOk : NearOk limits near)
    (farOk : FarOk limits far asked) (bothOk : BothOk near far up down) :
    Facts limits up down asked (some near) (some far)
  | near {near : ClientStream} (nearOk : NearOk limits near)
    (left : NearLeft limits near down) : Facts limits up down asked (some near) none
  | far {far : ExitStream} (farOk : FarOk limits far asked) (left : FarLeft limits far up) :
    Facts limits up down asked none (some far)
  | neither : Facts limits up down asked none none

namespace Facts

variable {limits : Limits} {client : Option ClientStream} {near : ClientStream}
  {exit : Option ExitStream} {other : ExitStream} {up : List ClientMessage}
  {down : List ExitMessage} {asked : Nat}

theorem nearLeft (h : Facts limits up down asked (some near) exit) :
    NearOk limits near ∧ NearLeft limits near down := by
  cases h with
  | both nearOk farOk bothOk =>
    have hforward := bothOk.forward
    have hbackward := bothOk.backward
    have hbudget := farOk.budget
    unfold ExitStream.budget at hbudget
    exact ⟨nearOk, by omega, by omega, _, bothOk.down⟩
  | near nearOk left => exact ⟨nearOk, left⟩

theorem farLeft (h : Facts limits up down asked client (some other)) :
    FarOk limits other asked ∧ FarLeft limits other up := by
  cases h with
  | both nearOk farOk bothOk =>
    have hforward := bothOk.forward
    have hbackward := bothOk.backward
    have hsum := nearOk.sum
    have hwindow := nearOk.window
    exact ⟨farOk, by omega, by omega, _, bothOk.up⟩
  | far farOk left => exact ⟨farOk, left⟩

/-- The client's end goes. -/
theorem leave (h : Facts limits up down asked (some near) exit) :
    Facts limits up down asked none exit := by
  cases exit with
  | none => exact .neither
  | some => exact .far h.farLeft.1 h.farLeft.2

/-- The exit's end goes. -/
theorem lost (h : Facts limits up down asked client (some other)) :
    Facts limits up down asked client none := by
  cases client with
  | none => exact .neither
  | some => exact .near h.nearLeft.1 h.nearLeft.2

/-- A client without the stream sends an END. -/
theorem sendsEnd (h : Facts limits up down asked none exit) (reason : UInt8) :
    Facts limits (up ++ [.end reason]) down asked none exit := by
  cases h with
  | far farOk left =>
    obtain ⟨ended, hup⟩ := left.up
    refine .far farOk ⟨by simpa using left.forward, by simpa using left.backward, true, ?_⟩
    rw [foldlM_append, hup]
    rfl
  | neither => exact .neither

/-- An exit without the stream sends an END. -/
theorem emitsEnd (h : Facts limits up down asked client none) (id : Nat) (reason : UInt8) :
    Facts limits up (down ++ [.end id reason]) asked client none := by
  cases h with
  | near nearOk left =>
    obtain ⟨phase, hdown⟩ := left.down
    refine .near nearOk
      ⟨by simpa using left.forward, by simpa using left.backward, (phase.1, true), ?_⟩
    rw [foldlM_append, hdown]
    rfl
  | neither => exact .neither

/-- The client's end changes and sends. -/
theorem sends {stream : ClientStream} (sent : List ClientMessage)
    (h : Facts limits up down asked (some near) exit) (hok : NearOk limits stream)
    (hforward : stream.remaining + weigh ClientMessage.dataBytes sent = near.remaining)
    (hbackward : stream.receiveAllowed =
      near.receiveAllowed + weigh ClientMessage.creditBytes sent)
    (hup : sent.foldlM exitPhase near.endSent = some stream.endSent)
    (hdown : stream.phase = near.phase) :
    Facts limits (up ++ sent) down asked (some stream) exit := by
  cases h with
  | both nearOk farOk bothOk =>
    obtain ⟨hsum, hback, hbefore, hrest⟩ := bothOk
    refine .both hok farOk ⟨?_, ?_, ?_, hdown ▸ hrest⟩
    · rw [weigh_append]
      omega
    · rw [weigh_append]
      omega
    · rw [foldlM_append, hbefore]
      exact hup
  | near nearOk left =>
    obtain ⟨hsum, hback, hrest⟩ := left
    exact .near hok ⟨by omega, by omega, hdown ▸ hrest⟩

/-- The exit's end changes and sends. -/
theorem emits {stream : ExitStream} {later : Nat} (sent : List ExitMessage)
    (h : Facts limits up down asked client (some other)) (hok : FarOk limits stream later)
    (hforward : stream.receiveAllowed = other.receiveAllowed + weigh exitCredit sent)
    (hbackward : stream.sendWindow + weigh exitData sent = other.sendWindow)
    (hdown : sent.foldlM clientPhase (farPhase other) = some (farPhase stream))
    (hup : stream.clientDone = other.clientDone) :
    Facts limits up (down ++ sent) later client (some stream) := by
  cases h with
  | both nearOk farOk bothOk =>
    obtain ⟨hsum, hback, hrest, hbefore⟩ := bothOk
    refine .both nearOk hok ⟨?_, ?_, hup ▸ hrest, ?_⟩
    · rw [weigh_append]
      omega
    · rw [weigh_append]
      omega
    · rw [foldlM_append, hbefore]
      exact hdown
  | far farOk left =>
    obtain ⟨hsum, hback, hrest⟩ := left
    exact .far hok ⟨by omega, by omega, hup ▸ hrest⟩

/-- The exit's end changes in what the client does not see. -/
theorem keeps {stream : ExitStream} {later : Nat}
    (h : Facts limits up down asked client (some other)) (hok : FarOk limits stream later)
    (hforward : stream.receiveAllowed = other.receiveAllowed)
    (hbackward : stream.sendWindow = other.sendWindow) (hdown : farPhase stream = farPhase other)
    (hup : stream.clientDone = other.clientDone) :
    Facts limits up down later client (some stream) := by
  simpa using h.emits [] hok hforward hbackward (congrArg some hdown.symm) hup

section Receiving

variable {message : ExitMessage}

/-- The client expects the next message. -/
theorem expects (h : Facts limits up (message :: down) asked (some near) exit) :
    ∃ next, clientPhase near.phase message = some next := by
  obtain ⟨phase, hdown⟩ := h.nearLeft.2.down
  rw [foldlM_cons] at hdown
  obtain ⟨next, hnext, -⟩ := bind_eq_some_iff.mp hdown
  exact ⟨next, hnext⟩

/-- The client's end takes a message. -/
theorem taken {stream : ClientStream} (h : Facts limits up (message :: down) asked (some near) exit)
    (hok : NearOk limits stream) (hforward : stream.remaining = near.remaining + exitCredit message)
    (hbackward : stream.receiveAllowed + exitData message = near.receiveAllowed)
    (hup : stream.endSent = near.endSent)
    (hdown : clientPhase near.phase message = some stream.phase) :
    Facts limits up down asked (some stream) exit := by
  have hrest : (message :: down).foldlM clientPhase near.phase =
      down.foldlM clientPhase stream.phase := by
    rw [foldlM_cons, hdown]
    rfl
  cases h with
  | both nearOk farOk bothOk =>
    obtain ⟨hsum, hback, hsent, htaken⟩ := bothOk
    simp only [weigh_cons] at hsum hback
    exact .both hok farOk ⟨by omega, by omega, hup ▸ hsent, hrest ▸ htaken⟩
  | near nearOk left =>
    obtain ⟨hsum, hback, htaken⟩ := left
    simp only [weigh_cons] at hsum hback
    exact .near hok ⟨by omega, by omega, hrest ▸ htaken⟩

/-- A client that does not list the stream takes a message without looking. -/
theorem ignored (h : Facts limits up (message :: down) asked none exit) :
    Facts limits up down asked none exit := by
  cases h with
  | far farOk left => exact .far farOk left
  | neither => exact .neither

end Receiving

section Delivering

variable {message : ClientMessage}

/-- The exit expects the next message. -/
theorem awaits (h : Facts limits (message :: up) down asked client (some other)) :
    ∃ next, exitPhase other.clientDone message = some next := by
  obtain ⟨ended, hup⟩ := h.farLeft.2.up
  rw [foldlM_cons] at hup
  obtain ⟨next, hnext, -⟩ := bind_eq_some_iff.mp hup
  exact ⟨next, hnext⟩

/-- The exit's end takes a message. -/
theorem delivered {stream : ExitStream}
    (h : Facts limits (message :: up) down asked client (some other))
    (hok : FarOk limits stream asked)
    (hforward : stream.receiveAllowed + message.dataBytes = other.receiveAllowed)
    (hbackward : stream.sendWindow = other.sendWindow + message.creditBytes)
    (hup : exitPhase other.clientDone message = some stream.clientDone)
    (hdown : farPhase stream = farPhase other) :
    Facts limits up down asked client (some stream) := by
  have hrest : (message :: up).foldlM exitPhase other.clientDone =
      up.foldlM exitPhase stream.clientDone := by
    rw [foldlM_cons, hup]
    rfl
  cases h with
  | both nearOk farOk bothOk =>
    obtain ⟨hsum, hback, htaken, hsent⟩ := bothOk
    simp only [weigh_cons] at hsum hback
    exact .both nearOk hok ⟨by omega, by omega, hrest ▸ htaken, hdown ▸ hsent⟩
  | far farOk left =>
    obtain ⟨hsum, hback, htaken⟩ := left
    simp only [weigh_cons] at hsum hback
    exact .far hok ⟨by omega, by omega, hrest ▸ htaken⟩

/-- An exit without the stream takes a message without looking. -/
theorem unseen (h : Facts limits (message :: up) down asked client none) :
    Facts limits up down asked client none := by
  cases h with
  | near nearOk left => exact .near nearOk left
  | neither => exact .neither

end Delivering

end Facts

end Yume.CircuitClient.Windows
