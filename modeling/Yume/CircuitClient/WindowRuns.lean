/-
Runs of the streams of a circuit: every step of every lane keeps the agreement
of its windows, the client's windows stay within the circuit's, and neither end
fails the circuit.
-/
import Yume.CircuitClient.WindowAgreement

namespace Yume.CircuitClient.Windows

open Yume.Lib List Option
open Yume.Circuit (maxCreditIncrement)
open Yume.CircuitNode (Exit ExitLimits ExitMessage ExitStream maxDataPayload)

/-- The stream that a BEGIN makes. -/
def freshStream (limits : ExitLimits) (id : Nat) : ExitStream where
  key := 0
  id := id
  channel := false
  toDestination := []
  writing := none
  reading := false
  receiveAllowed := limits.streamWindow
  consumed := 0
  sendWindow := limits.streamWindow
  clientDone := false
  destinationDone := false
  shut := false

/-- What the exit has of a lane: the stream, the stream it will make of the BEGIN
on its way, or nothing any more. -/
inductive Ends (limits : Limits) (lane : Lane) : Option ExitStream → Prop where
  | begun (rest : List ClientMessage) (exit : lane.exit = .create)
    (up : lane.up = .begin :: rest) (once : ∀ message ∈ rest, message.isBegin = false) :
    Ends limits lane (some (freshStream limits.exit lane.id))
  | served (stream : ExitStream) (streams : lane.exit.streams = [stream])
    (key : stream.key = 0) (id : stream.id = lane.id)
    (once : ∀ message ∈ lane.up, message.isBegin = false) : Ends limits lane (some stream)
  | gone (streams : lane.exit.streams = [])
    (once : ∀ message ∈ lane.up, message.isBegin = false) : Ends limits lane none

/-- The invariant of a lane. -/
structure Agrees (limits : Limits) (lane : Lane) : Prop where
  ends : ∃ far, Ends limits lane far ∧
    Facts limits lane.up lane.exit.queue lane.asked lane.client far
  healthy : lane.failed = false
  «open» : lane.exit.closed = false

namespace Agrees

variable {limits : Limits} {lane : Lane}

section Single

variable {stream : ExitStream} {exit : Exit} {f : ExitStream → ExitStream}

variable (hstreams : exit.streams = [stream])
include hstreams

theorem findKey_single (hkey : stream.key = 0) :
    exit.findKey 0 = some stream := by simp [Exit.findKey, hstreams, hkey]

omit hstreams in
theorem findKey_nil (hstreams : exit.streams = []) : exit.findKey 0 = none := by
  simp [Exit.findKey, hstreams]

theorem find_single {id : Nat} (hid : stream.id = id) :
    exit.find id = some stream := by simp [Exit.find, hstreams, hid]

omit hstreams in
theorem find_nil {id : Nat} (hstreams : exit.streams = []) : exit.find id = none := by
  simp [Exit.find, hstreams]

theorem modify_single (hkey : stream.key = 0) :
    exit.modify 0 f = { exit with streams := [f stream] } := by
  simp [Exit.modify, hstreams, hkey]

omit hstreams in
theorem failStream_single {other : ExitStream} (hstreams : exit.streams = [other])
    (hkey : other.key = stream.key) (reason : UInt8) :
    exit.failStream stream reason =
      { exit with streams := [], queue := exit.queue ++ [.end stream.id reason] } := by
  simp [Exit.failStream, Exit.drop, Exit.send, hstreams, hkey]

theorem drop_single (hkey : stream.key = 0) : exit.drop 0 = { exit with streams := [] } := by
  simp [Exit.drop, hstreams, hkey]

end Single

variable (h : Agrees limits lane)
include h

theorem far_eq_some {stream : ExitStream} (hfar : lane.far = some stream) :
    lane.exit.streams = [stream] ∧ stream.key = 0 ∧ stream.id = lane.id ∧
      (∀ message ∈ lane.up, message.isBegin = false) ∧ FarOk limits stream lane.asked ∧
      Facts limits lane.up lane.exit.queue lane.asked lane.client (some stream) := by
  obtain ⟨far, hends, hfacts⟩ := h.ends
  cases hends with
  | begun rest exit =>
    rw [Lane.far, exit] at hfar
    cases hfar
  | served other streams key id once =>
    rw [Lane.far, findKey_single streams key] at hfar
    cases hfar
    exact ⟨streams, key, id, once, hfacts.farLeft.1, hfacts⟩
  | gone streams =>
    rw [Lane.far, findKey_nil streams] at hfar
    cases hfar

/-- An exit that has the stream changes it. -/
theorem serve {stream : ExitStream} {exit : Exit} {asked : Nat}
    (hstreams : exit.streams = [stream]) (hkey : stream.key = 0) (hid : stream.id = lane.id)
    (honce : ∀ message ∈ lane.up, message.isBegin = false) (hclosed : exit.closed = false)
    (hfacts : Facts limits lane.up exit.queue asked lane.client (some stream)) :
    Agrees limits { lane with exit := exit, asked := asked } :=
  ⟨⟨some stream, .served stream hstreams hkey hid honce, hfacts⟩, h.healthy, hclosed⟩

/-- An exit loses the stream. -/
theorem lose {exit : Exit} {asked : Nat} (hstreams : exit.streams = [])
    (honce : ∀ message ∈ lane.up, message.isBegin = false) (hclosed : exit.closed = false)
    (hfacts : Facts limits lane.up exit.queue asked lane.client none) :
    Agrees limits { lane with exit := exit, asked := asked } :=
  ⟨⟨none, .gone hstreams honce, hfacts⟩, h.healthy, hclosed⟩

section Client

variable {near : ClientStream} (hclient : lane.client = some near)
include hclient

theorem nearOk : NearOk limits near := by
  obtain ⟨far, -, hfacts⟩ := h.ends
  rw [hclient] at hfacts
  exact hfacts.nearLeft.1

/-- The client's end changes and sends messages, no BEGIN. -/
theorem change (client : Option ClientStream)
    (sent : List ClientMessage) (hsent : ∀ message ∈ sent, message.isBegin = false)
    (hfacts : ∀ far, Facts limits lane.up lane.exit.queue lane.asked (some near) far →
      Facts limits (lane.up ++ sent) lane.exit.queue lane.asked client far) :
    Agrees limits { lane with client := client, up := lane.up ++ sent } := by
  obtain ⟨far, hends, hold⟩ := h.ends
  rw [hclient] at hold
  refine ⟨⟨far, ?_, hfacts far hold⟩, h.healthy, h.open⟩
  cases hends with
  | begun rest exit up once =>
    exact .begun (rest ++ sent) exit (by simp [up]) (forall_mem_append.mpr ⟨once, hsent⟩)
  | served stream streams key id once =>
    exact .served stream streams key id (forall_mem_append.mpr ⟨once, hsent⟩)
  | gone streams once => exact .gone streams (forall_mem_append.mpr ⟨once, hsent⟩)

/-- The client's end changes in what the exit does not see. -/
theorem keep {stream : ClientStream} (hok : NearOk limits stream)
    (hforward : stream.remaining = near.remaining)
    (hbackward : stream.receiveAllowed = near.receiveAllowed)
    (hup : stream.endSent = near.endSent) (hdown : stream.phase = near.phase) :
    Agrees limits { lane with client := some stream } := by
  have hkept := h.change hclient (some stream) [] (forall_mem_nil _)
    fun far hfacts => hfacts.sends [] hok hforward hbackward (congrArg some hup.symm) hdown
  simpa using hkept

/-- The client's end goes without a message. -/
theorem leave : Agrees limits { lane with client := none } := by
  have hkept := h.change hclient none [] (forall_mem_nil _)
    fun far hfacts => by simpa using hfacts.leave
  simpa using hkept

/-- The client's end goes with an END. -/
theorem leaveEnd (reason : UInt8) :
    Agrees limits { lane with client := none, up := lane.up ++ [.end reason] } :=
  h.change hclient none _ (forall_mem_singleton.mpr rfl)
    fun _ hfacts => hfacts.leave.sendsEnd reason

end Client

/-- The client takes the first message of the exit. -/
theorem takes {message : ExitMessage} {rest : List ExitMessage}
    (client : Option ClientStream) (hqueue : lane.exit.queue = message :: rest)
    (hfacts : ∀ far, Facts limits lane.up (message :: rest) lane.asked lane.client far →
      Facts limits lane.up rest lane.asked client far) :
    Agrees limits { lane with client := client, exit := { lane.exit with queue := rest } } := by
  obtain ⟨far, hends, hold⟩ := h.ends
  rw [hqueue] at hold
  refine ⟨⟨far, ?_, hfacts far hold⟩, h.healthy, h.open⟩
  cases hends with
  | begun _ exit =>
    rw [exit] at hqueue
    cases hqueue
  | served stream streams key id once => exact .served stream streams key id once
  | gone streams once => exact .gone streams once

end Agrees

section Steps

open Agrees (drop_single failStream_single find_nil find_single findKey_single modify_single)

variable {limits : Limits} {lane after : Lane} {grow : Nat → Nat}

theorem receive_agrees (hmatched : Matched limits) (h : Agrees limits lane)
    (hidle : lane.busy = false) (hstep : lane.receive = some after) : Agrees limits after := by
  have hsmall := hmatched.small
  have hsame := hmatched.same
  unfold Lane.receive at hstep
  split at hstep
  · cases hstep
  rename_i message rest hqueue
  dsimp only at hstep
  split at hstep
  · rename_i hclient
    cases hstep
    refine h.takes lane.client hqueue fun far hfacts => ?_
    rw [hclient] at hfacts ⊢
    exact hfacts.ignored
  rename_i near hclient
  cases hstep
  obtain ⟨far, -, hfacts⟩ := h.ends
  rw [hclient, hqueue] at hfacts
  obtain ⟨hnear, hleft⟩ := hfacts.nearLeft
  obtain ⟨next, hnext⟩ := hfacts.expects
  have hforward := hleft.forward
  have hbackward := hleft.backward
  have hsum := hnear.sum
  have hempty : near.sending = [] := by simpa [Lane.busy, hclient] using hidle
  -- The messages before this one leave the check of each handler true.
  have htakes : ∀ stream : ClientStream, NearOk limits stream →
      stream.remaining = near.remaining + exitCredit message →
      stream.receiveAllowed + exitData message = near.receiveAllowed →
      stream.endSent = near.endSent → clientPhase near.phase message = some stream.phase →
      Agrees limits { lane with
        client := some stream, exit := { lane.exit with queue := rest } } := by
    intro stream hok h1 h2 h3 h4
    refine h.takes _ hqueue fun far hfacts => ?_
    rw [hclient] at hfacts
    exact hfacts.taken hok h1 h2 h3 h4
  have hgoes : Agrees limits { lane with
      client := none, exit := { lane.exit with queue := rest } } := by
    refine h.takes _ hqueue fun far hfacts => ?_
    rw [hclient] at hfacts
    exact hfacts.leave.ignored
  simp only [weigh_cons] at hforward hbackward
  cases message with
  | connected id =>
    obtain ⟨hclosed, -⟩ := ite_none_left_eq_some.mp hnext
    simp only [ClientStream.phase] at hclosed
    simp only [Lane.handle]
    rw [if_neg hclosed]
    exact htakes _ { hnear with } rfl rfl rfl (by simp [ClientStream.phase, hclosed])
  | data id payload =>
    obtain ⟨hopen, -⟩ := ite_none_left_eq_some.mp hnext
    simp only [ClientStream.phase, not_or, Bool.not_eq_true, Bool.not_eq_false] at hopen
    simp only [exitData] at hbackward
    simp only [Lane.handle]
    rw [if_neg (by simp [hopen]; omega)]
    refine htakes _ { hnear with sum := ?_, received := ?_ } rfl ?_ rfl
      (by simp [ClientStream.phase, hopen])
    · simp only [bytesOf, weigh_append, weigh_cons, weigh_nil] at hsum ⊢
      omega
    · exact forall_mem_append.mpr ⟨hnear.received, forall_mem_singleton.mpr hopen.2.2⟩
    · dsimp only [exitData]
      omega
  | «end» =>
    simp only [Lane.handle]
    split
    · exact hgoes
    split
    · exact hgoes
    exact htakes _ { hnear with } rfl rfl rfl rfl
  | credit id increment =>
    simp only [exitCredit, ClientStream.remaining, hempty, sum_nil, Nat.sub_zero] at hforward
    have hwindow : (near.sendWindow + increment) % 2 ^ 64 = near.sendWindow + increment := by
      unfold maxCreditIncrement at hsmall
      omega
    simp only [Lane.handle, hwindow]
    rw [if_neg (by omega)]
    refine htakes _ { hnear with sending := ?_, small := ?_ } ?_ rfl rfl rfl
    · simp [hempty]
    · dsimp only
      omega
    · simp [ClientStream.remaining, hempty]

theorem deliver_agrees (hmatched : Matched limits) {serves : Bool} (h : Agrees limits lane)
    (hstep : lane.deliver limits.exit serves = some after) : Agrees limits after := by
  have hsmall := hmatched.small
  unfold Lane.deliver at hstep
  split at hstep
  · cases hstep
  rename_i message rest hup
  cases hstep
  obtain ⟨far, hends, hfacts⟩ := h.ends
  have hhealthy := h.healthy
  have hopen := h.open
  rw [hup] at hfacts
  cases hends with
  | begun behind exit up once =>
    rw [hup] at up
    cases up
    have hkept := hfacts.delivered hfacts.farLeft.1 rfl rfl rfl rfl
    dsimp only
    rw [exit] at hkept ⊢
    unfold Exit.begin
    rw [if_neg (by simp), if_neg (by simp [Exit.create, Exit.find])]
    split
    · exact ⟨⟨none, .gone rfl once, hkept.lost.emitsEnd _ _⟩, hhealthy, rfl⟩
    split
    · exact ⟨⟨none, .gone rfl once, hkept.lost.emitsEnd _ _⟩, hhealthy, rfl⟩
    rw [if_neg (by simp)]
    exact ⟨⟨some _, .served _ rfl rfl rfl once, hkept⟩, hhealthy, rfl⟩
  | served stream streams key id once =>
    rw [hup] at once
    have hrest : ∀ message ∈ rest, message.isBegin = false :=
      fun other hmem => once other (mem_cons_of_mem _ hmem)
    have hfind := find_single streams id
    obtain ⟨hfar, hleft⟩ := hfacts.farLeft
    obtain ⟨next, hnext⟩ := hfacts.awaits
    have hbudget := hfar.budget
    have hforward := hleft.forward
    have hbackward := hleft.backward
    simp only [weigh_cons] at hforward hbackward
    cases message with
    | begin =>
      have hno := once _ mem_cons_self
      cases hno
    | data payload =>
      obtain ⟨hlive, -⟩ := ite_none_left_eq_some.mp hnext
      simp only [not_or, Bool.not_eq_true] at hlive
      simp only [ClientMessage.dataBytes] at hforward
      unfold Exit.data
      rw [hfind]
      dsimp only
      rw [if_neg (by simp [hlive]; omega), key, modify_single streams key]
      refine ⟨⟨some _, .served _ rfl key id hrest, hfacts.delivered
        { hfar with budget := ?_, buffers := ?_ } ?_ rfl (by simp [hlive]) rfl⟩, hhealthy, hopen⟩
      · simp only [ExitStream.budget, ExitStream.held, map_append, map_cons,
          map_nil, sum_append, sum_cons, sum_nil] at hbudget ⊢
        omega
      · exact forall_mem_append.mpr ⟨hfar.buffers, forall_mem_singleton.mpr hlive.2⟩
      · dsimp only [ClientMessage.dataBytes]
        omega
    | «end» =>
      have hkept : Facts limits rest lane.exit.queue lane.asked lane.client
          (some { stream with clientDone := true }) :=
        hfacts.delivered { hfar with } rfl rfl rfl rfl
      unfold Exit.end
      rw [hfind]
      dsimp only
      rw [key]
      split
      · rw [drop_single streams key]
        exact ⟨⟨none, .gone rfl hrest, hkept.lost⟩, hhealthy, hopen⟩
      rw [modify_single streams key]
      exact ⟨⟨some _, .served _ rfl key id hrest, hkept⟩, hhealthy, hopen⟩
    | credit increment =>
      simp only [ClientMessage.creditBytes, widest] at hbackward
      unfold Exit.credit
      rw [hfind]
      dsimp only
      rw [if_neg (by omega), key, modify_single streams key]
      refine ⟨⟨some _, .served _ rfl key id hrest, hfacts.delivered
        { hfar with reading := fun hreading => ?_ } rfl rfl rfl rfl⟩, hhealthy, hopen⟩
      obtain ⟨hchannel, hdone, hasked, hcell⟩ := hfar.reading hreading
      exact ⟨hchannel, hdone, Nat.le_add_right_of_le hasked, hcell⟩
  | gone streams once =>
    rw [hup] at once
    have hrest : ∀ message ∈ rest, message.isBegin = false :=
      fun other hmem => once other (mem_cons_of_mem _ hmem)
    have hfind : lane.exit.find lane.id = none := find_nil streams
    have hsame : ∀ exit, exit = lane.exit →
        Agrees limits { lane with up := rest, exit := exit } := by
      rintro exit rfl
      exact ⟨⟨none, .gone streams hrest, hfacts.unseen⟩, hhealthy, hopen⟩
    cases message with
    | begin =>
      have hno := once _ mem_cons_self
      cases hno
    | data => exact hsame _ (by simp [Exit.data, hfind])
    | «end» => exact hsame _ (by simp [Exit.end, hfind])
    | credit => exact hsame _ (by simp [Exit.credit, hfind])

variable {stream : ExitStream}

section

variable (h : Agrees limits lane)
include h

theorem exitOpen_agrees {failure : Option UInt8}
    (hfar : lane.far = some stream) (hshut : stream.channel = false) :
    Agrees limits { lane with exit := lane.exit.onExitOpen 0 failure } := by
  obtain ⟨streams, key, id, once, hok, hfacts⟩ := h.far_eq_some hfar
  unfold Exit.onExitOpen
  rw [findKey_single streams key]
  dsimp only
  split
  · rw [drop_single streams key]
    exact h.lose rfl once h.open (hfacts.lost.emitsEnd _ _)
  rw [modify_single streams key]
  refine h.serve rfl key id once h.open (hfacts.emits [_]
    { hok with reading := fun hreading => ⟨rfl, (hok.reading hreading).2⟩ } rfl rfl ?_ rfl)
  simp [farPhase, hshut]

theorem pumpWrite_agrees : Agrees limits { lane with exit := lane.exit.pumpWrite 0 } := by
  unfold Exit.pumpWrite
  cases hfar : lane.exit.findKey 0 with
  | none => exact h
  | some stream =>
    obtain ⟨streams, key, id, once, hok, hfacts⟩ := h.far_eq_some hfar
    have hbudget := hok.budget
    dsimp only
    split
    · exact h
    rename_i hidle
    simp only [not_or, Bool.not_eq_true, isSome_eq_false_iff, isNone_iff_eq_none] at hidle
    split
    · split
      · rw [modify_single streams key]
        exact h.serve rfl key id once h.open (hfacts.keeps { hok with } rfl rfl rfl rfl)
      · exact h
    rename_i buffer rest hqueue
    rw [modify_single streams key]
    refine h.serve rfl key id once h.open (hfacts.keeps
      { hok with budget := ?_, buffers := ?_, writing := ?_ } rfl rfl rfl rfl)
    · simp only [ExitStream.budget, ExitStream.held, hqueue, hidle.2, map_cons,
        sum_cons, map_none, getD_none, map_some,
        getD_some] at hbudget ⊢
      omega
    · intro other hmem
      exact hok.buffers other (hqueue ▸ mem_cons_of_mem _ hmem)
    · rintro _ ⟨⟩
      exact hok.buffers buffer (hqueue ▸ mem_cons_self)

omit h in
theorem written_agrees (hmatched : Matched limits) {ok : Bool}
    {buffer : Bytes} (h : Agrees limits lane) (hfar : lane.far = some stream)
    (hwriting : stream.writing = some buffer) :
    Agrees limits { lane with exit := lane.exit.onWritten limits.exit 0 ok buffer.length } := by
  obtain ⟨streams, key, id, once, hok, hfacts⟩ := h.far_eq_some hfar
  have hbudget := hok.budget
  have hsmall := hmatched.small
  have hsame := hmatched.same
  have hfull : 0 < buffer.length := length_pos_of_ne_nil (hok.writing buffer hwriting)
  simp only [ExitStream.budget, ExitStream.held, hwriting, map_some, getD_some] at hbudget
  unfold Exit.onWritten
  rw [findKey_single streams key]
  dsimp only
  split
  · have hother : ExitStream.key { stream with writing := none } = stream.key := rfl
    rw [modify_single streams key, failStream_single rfl hother]
    exact h.lose rfl once h.open (hfacts.lost.emitsEnd _ _)
  split
  · rw [modify_single streams key, Exit.sendCredit, if_neg (by omega)]
    refine h.serve rfl key id once h.open (hfacts.emits [_]
      { hok with budget := ?_, writing := fun _ hnone => by cases hnone } rfl rfl rfl rfl)
    simp only [ExitStream.budget, ExitStream.held, map_none, getD_none]
    omega
  rw [modify_single streams key]
  refine h.serve rfl key id once h.open (hfacts.keeps
    { hok with budget := ?_, writing := fun _ hnone => by cases hnone } rfl rfl rfl rfl)
  simp only [ExitStream.budget, ExitStream.held, map_none, getD_none]
  omega

theorem pumpRead_agrees (hfar : lane.far = some stream) :
    Agrees limits { lane with
        exit := lane.exit.pumpRead limits.exit 0
        asked := if stream.reading then lane.asked
          else min stream.sendWindow (maxDataPayload .backward) } := by
  obtain ⟨streams, key, id, once, hok, hfacts⟩ := h.far_eq_some hfar
  unfold Exit.pumpRead
  rw [findKey_single streams key]
  dsimp only
  split
  · -- Nothing starts; what was asked for matters only to a read under way.
    refine h.serve streams key id once h.open (hfacts.keeps
      { hok with reading := fun hreading => ?_ } rfl rfl rfl rfl)
    rw [if_pos hreading]
    exact hok.reading hreading
  rename_i hstart
  simp only [not_or, not_not] at hstart
  rw [modify_single streams key]
  refine h.serve rfl key id once h.open (hfacts.keeps
    { hok with reading := fun _ => ?_ } rfl rfl rfl rfl)
  rw [if_neg hstart.2.1]
  exact ⟨hstart.1, Bool.eq_false_iff.mpr hstart.2.2.1, Nat.min_le_left _ _, Nat.min_le_right _ _⟩

theorem read_agrees {result : Exit.ReadResult}
    (hfar : lane.far = some stream) (hreading : stream.reading = true)
    (hfits : lane.fits result = true) :
    Agrees limits { lane with exit := lane.exit.onRead 0 result } := by
  obtain ⟨streams, key, id, once, hok, hfacts⟩ := h.far_eq_some hfar
  obtain ⟨hchannel, hdone, hasked, hcell⟩ := hok.reading hreading
  unfold Exit.onRead
  rw [findKey_single streams key]
  dsimp only
  rw [modify_single streams key]
  have hother : ExitStream.key { stream with reading := false } = stream.key := rfl
  have hfail : ∀ reason, Agrees limits { lane with
      exit := Exit.failStream { lane.exit with streams := [{ stream with reading := false }] }
        stream reason } := by
    intro reason
    rw [failStream_single rfl hother]
    exact h.lose rfl once h.open (hfacts.lost.emitsEnd _ _)
  split
  · rw [modify_single rfl (hother.trans key)]
    exact h.serve rfl key id once h.open (hfacts.emits [_]
      { hok with reading := fun hfalse => by cases hfalse } rfl rfl rfl rfl)
  · exact hfail _
  rename_i payload
  simp only [Lane.fits, decide_eq_true_eq] at hfits
  split
  · exact hfail _
  rename_i hfull
  simp only [not_or, gt_iff_lt, Nat.not_lt] at hfull
  rw [if_neg (by omega), modify_single rfl (hother.trans key)]
  refine h.serve rfl key id once h.open (hfacts.emits [_]
    { hok with reading := fun hfalse => by cases hfalse } rfl ?_ ?_ rfl)
  · simp only [weigh_cons, weigh_nil, exitData]
    omega
  · simp [farPhase, hchannel, hdone, hfull.1]

theorem settle_agrees : Agrees limits { lane with exit := lane.exit.settle 0 } := by
  unfold Exit.settle
  cases hfar : lane.exit.findKey 0 with
  | none => exact h
  | some =>
    obtain ⟨streams, key, id, once, -, hfacts⟩ := h.far_eq_some hfar
    dsimp only
    split
    · rw [drop_single streams key]
      exact h.lose rfl once h.open hfacts.lost
    · exact h

end

/-- What the client may grow a window by. -/
def Grows (limits : Limits) (grow : Nat → Nat) : Prop :=
  ∀ window, window + grow window ≤ max window limits.client.maxStreamWindow

theorem consume_agrees (hmatched : Matched limits) (hgrow : Grows limits grow)
    {stream : ClientStream} {index : Nat} {record : Bytes} (h : Agrees limits lane)
    (hclient : lane.client = some stream) (hrecord : stream.lent[index]? = some record) :
    Agrees limits
      (lane.consume grow { stream with lent := stream.lent.eraseIdx index } record.length) := by
  have hsmall := hmatched.small
  have hok := h.nearOk hclient
  have hsum := hok.sum
  have hwindow := hok.window
  have hpositive := length_pos_of_ne_nil (hok.lent record (mem_of_getElem? hrecord))
  have hgrown := hgrow stream.window
  -- What was lent is now consumed.
  have herased : bytesOf (stream.lent.eraseIdx index) + record.length = bytesOf stream.lent := by
    obtain ⟨hlt, hget⟩ := List.getElem?_eq_some_iff.mp hrecord
    have hperm := getElem_cons_eraseIdx_perm hlt
    have hweigh := weigh_perm (f := List.length) hperm
    rw [hget, weigh_cons] at hweigh
    unfold bytesOf
    omega
  have hlent : ∀ other ∈ stream.lent.eraseIdx index, other ≠ [] :=
    fun other hmem => hok.lent other (mem_of_mem_eraseIdx hmem)
  unfold widest at hwindow
  unfold Lane.consume
  dsimp only
  split
  · exact h.keep hclient { hok with sum := by dsimp only; omega, lent := hlent } rfl rfl rfl rfl
  rw [if_neg (by omega)]
  refine h.change hclient _ _ (forall_mem_singleton.mpr rfl) fun far hfacts =>
    hfacts.sends _ { hok with sum := ?_, window := ?_, lent := hlent } rfl ?_ rfl rfl
  · dsimp only
    omega
  · unfold widest
    dsimp only
    omega
  · simp only [weigh_cons, weigh_nil, ClientMessage.creditBytes]
    omega

/-- `pump` sends a cell, while no other `pump` of the stream is sending. -/
theorem send_agrees {stream : ClientStream} {payload : Bytes} (h : Agrees limits lane)
    (hclient : lane.client = some stream) (hidle : stream.sending = [])
    (hlive : stream.endSent = false) (hfull : payload ≠ [])
    (hfits : payload.length ≤ stream.sendWindow) :
    Agrees limits { lane with
        client := some { stream with sending := payload.length :: stream.sending }
        up := lane.up ++ [.data payload] } := by
  have hok := h.nearOk hclient
  refine h.change hclient _ _ (forall_mem_singleton.mpr rfl)
    fun far hfacts => hfacts.sends _ { hok with sending := ?_ } ?_ rfl ?_ rfl
  · simpa [hidle] using hfits
  · simp [ClientStream.remaining, hidle]
    omega
  · simp [hlive, hfull]

/-- Every step of a lane keeps its agreement, unless a `pump` sends inside another. -/
theorem step_agrees (hmatched : Matched limits) (hgrow : Grows limits grow) {move : LaneMove}
    (h : Agrees limits lane) (hdeferred : ∀ payload, move = .send payload → lane.busy = false)
    (hstep : lane.step limits grow move = some after) : Agrees limits after := by
  have hsmall := hmatched.small
  have hsame := hmatched.same
  unfold maxCreditIncrement at hsmall
  cases move with
  | send payload =>
    obtain ⟨stream, hclient, hsome⟩ := bind_eq_some_iff.mp hstep
    split at hsome
    · cases hsome
    rename_i hfits
    simp only [not_or, Bool.not_eq_true, gt_iff_lt, Nat.not_lt] at hfits
    cases hsome
    exact send_agrees h hclient (by simpa [Lane.busy, hclient] using hdeferred payload rfl)
      hfits.1 hfits.2.1 hfits.2.2.1
  | sent =>
    obtain ⟨stream, hclient, hsome⟩ := bind_eq_some_iff.mp hstep
    split at hsome
    · cases hsome
    rename_i chunk rest hsending
    cases hsome
    have hok := h.nearOk hclient
    have hcells := hok.sending
    have hwindow := hok.small
    rw [hsending, sum_cons] at hcells
    have hlower : (stream.sendWindow + (2 ^ 64 - chunk)) % 2 ^ 64 = stream.sendWindow - chunk := by
      omega
    refine h.keep hclient { hok with sending := ?_, small := ?_ } ?_ rfl rfl rfl
    · dsimp only
      omega
    · dsimp only
      omega
    · simp only [ClientStream.remaining, hsending, sum_cons]
      omega
  | finish =>
    obtain ⟨stream, hclient, hsome⟩ := bind_eq_some_iff.mp hstep
    split at hsome
    · cases hsome
    cases hsome
    have hok := h.nearOk hclient
    split
    · exact h.leaveEnd hclient _
    exact h.change hclient _ _ (forall_mem_singleton.mpr rfl)
      fun far hfacts => hfacts.sends _ { hok with } rfl rfl rfl rfl
  | close =>
    obtain ⟨stream, hclient, hsome⟩ := map_eq_some_iff.mp hstep
    cases hsome
    split
    · exact h.leave hclient
    · exact h.leaveEnd hclient _
  | take =>
    obtain ⟨stream, hclient, hsome⟩ := bind_eq_some_iff.mp hstep
    split at hsome
    · cases hsome
    rename_i record rest hreceived
    cases hsome
    have hok := h.nearOk hclient
    have hsum := hok.sum
    have hfull := hreceived ▸ hok.received
    refine h.keep hclient { hok with sum := ?_, received := ?_, lent := ?_ } rfl rfl rfl rfl
    · simp only [bytesOf, hreceived, weigh_append, weigh_cons, weigh_nil] at hsum ⊢
      omega
    · exact (forall_mem_cons.mp hfull).2
    · exact forall_mem_append.mpr
        ⟨hok.lent, forall_mem_singleton.mpr (forall_mem_cons.mp hfull).1⟩
  | release =>
    obtain ⟨stream, hclient, hsome⟩ := bind_eq_some_iff.mp hstep
    obtain ⟨record, hrecord, hafter⟩ := map_eq_some_iff.mp hsome
    cases hafter
    exact consume_agrees hmatched hgrow h hclient hrecord
  | receive =>
    simp only [Lane.step] at hstep
    split at hstep
    · cases hstep
    rename_i hidle
    exact receive_agrees hmatched h (by simpa using hidle) hstep
  | deliver => exact deliver_agrees hmatched h hstep
  | exitOpen failure =>
    obtain ⟨stream, hfar, hsome⟩ := bind_eq_some_iff.mp hstep
    split at hsome
    · cases hsome
    rename_i hshut
    cases hsome
    exact exitOpen_agrees h hfar (by simpa using hshut)
  | pumpWrite =>
    cases hstep
    exact pumpWrite_agrees h
  | written =>
    obtain ⟨stream, hfar, hsome⟩ := bind_eq_some_iff.mp hstep
    obtain ⟨buffer, hwriting, hafter⟩ := map_eq_some_iff.mp hsome
    cases hafter
    exact written_agrees hmatched h hfar hwriting
  | pumpRead =>
    obtain ⟨stream, hfar, hsome⟩ := map_eq_some_iff.mp hstep
    cases hsome
    exact pumpRead_agrees h hfar
  | read result =>
    obtain ⟨stream, hfar, hsome⟩ := bind_eq_some_iff.mp hstep
    split at hsome
    · cases hsome
    rename_i hconforms
    simp only [not_or, not_not] at hconforms
    cases hsome
    exact read_agrees h hfar hconforms.1 hconforms.2
  | settle =>
    cases hstep
    exact settle_agrees h

end Steps

/-! ### All streams of a circuit -/

namespace Streams

variable {limits : Limits} {streams : Streams}

theorem open_agrees (hmatched : Matched limits) (id : Nat) :
    Agrees limits (.open limits.client id) := by
  have hsame := hmatched.same
  refine ⟨⟨some (freshStream limits.exit id), .begun [] rfl rfl
    (forall_mem_nil _), .both ?_ ?_ ?_⟩, rfl, rfl⟩
  · constructor <;> simp [bytesOf, widest, hsame]
  · constructor <;> simp [freshStream, ExitStream.budget, ExitStream.held]
  · constructor <;> simp [freshStream, farPhase, ClientStream.phase, ClientStream.remaining,
      Exit.create, Lane.open, hsame]

theorem windowGrowth_grows (limits : Limits) (streams : Streams) :
    Grows limits (streams.windowGrowth limits.client) := by
  intro window
  unfold windowGrowth
  split
  · exact Nat.le_max_left _ _
  dsimp only
  split
  · omega
  · exact Nat.le_max_left _ _

/-- A lane grows only by what the circuit has room for. -/
theorem width_step {grow : Nat → Nat} {lane after : Lane} {move : LaneMove}
    (hstep : lane.step limits grow move = some after) :
    width after ≤ width lane ∨
      ∃ stream, lane.client = some stream ∧ width after ≤ width lane + grow stream.window := by
  cases move with
  | send | sent | take =>
    obtain ⟨stream, hclient, hsome⟩ := bind_eq_some_iff.mp hstep
    split at hsome
    · cases hsome
    cases hsome
    exact .inl (by simp [width, hclient])
  | finish =>
    obtain ⟨stream, hclient, hsome⟩ := bind_eq_some_iff.mp hstep
    split at hsome
    · cases hsome
    cases hsome
    left
    simp only [width, hclient]
    split <;> simp
  | close =>
    obtain ⟨stream, hclient, hsome⟩ := map_eq_some_iff.mp hstep
    cases hsome
    exact .inl (Nat.zero_le _)
  | release =>
    obtain ⟨stream, hclient, hsome⟩ := bind_eq_some_iff.mp hstep
    obtain ⟨record, hrecord, hafter⟩ := map_eq_some_iff.mp hsome
    cases hafter
    right
    refine ⟨stream, hclient, ?_⟩
    unfold Lane.consume
    dsimp only
    split_ifs <;> simp [width, hclient]
  | receive =>
    left
    simp only [Lane.step] at hstep
    split at hstep
    · cases hstep
    unfold Lane.receive at hstep
    split at hstep
    · cases hstep
    rename_i message rest _
    dsimp only at hstep
    split at hstep
    · cases hstep
      exact Nat.le_refl _
    rename_i hclient
    cases hstep
    cases message <;> simp only [Lane.handle] <;> split_ifs <;> simp [width, hclient]
  | deliver serves =>
    left
    change lane.deliver limits.exit serves = some after at hstep
    unfold Lane.deliver at hstep
    split at hstep
    · cases hstep
    cases hstep
    exact Nat.le_refl _
  | exitOpen | read =>
    obtain ⟨stream, hfar, hsome⟩ := bind_eq_some_iff.mp hstep
    split at hsome
    · cases hsome
    cases hsome
    exact .inl (Nat.le_refl _)
  | pumpWrite | settle =>
    cases hstep
    exact .inl (Nat.le_refl _)
  | written =>
    obtain ⟨stream, hfar, hsome⟩ := bind_eq_some_iff.mp hstep
    obtain ⟨buffer, hwriting, hafter⟩ := map_eq_some_iff.mp hsome
    cases hafter
    exact .inl (Nat.le_refl _)
  | pumpRead =>
    obtain ⟨stream, hfar, hsome⟩ := map_eq_some_iff.mp hstep
    cases hsome
    exact .inl (Nat.le_refl _)

/-- The growth of a window fits in the circuit's. -/
theorem windowGrowth_fits (limits : ClientLimits) (streams : Streams) (window : Nat)
    (htotal : streams.total ≤ limits.circuitWindow) :
    streams.windowGrowth limits window + streams.total ≤ limits.circuitWindow := by
  unfold windowGrowth
  split
  · simpa using htotal
  dsimp only
  split
  · rename_i havailable
    simpa [windowAvailable] using havailable
  · simpa using htotal

/-- The invariant of a circuit's streams. -/
structure AllAgree (limits : Limits) (streams : Streams) : Prop where
  lanes : ∀ lane ∈ streams.lanes, Agrees limits lane
  total : streams.total ≤ limits.client.circuitWindow

theorem step_allAgree (hmatched : Matched limits) {move : StreamsMove} {after : Streams}
    (h : AllAgree limits streams) (hdeferred : streams.deferred move = true)
    (hstep : streams.step limits move = some after) : AllAgree limits after := by
  cases move with
  | «open» =>
    simp only [step] at hstep
    split at hstep
    · rename_i hroom
      cases hstep
      have havailable := hroom.2
      simp only [windowAvailable, decide_eq_true_eq] at havailable
      refine ⟨forall_mem_append.mpr
        ⟨h.lanes, forall_mem_singleton.mpr (open_agrees hmatched _)⟩, ?_⟩
      simp only [total, weigh_append, weigh_cons, weigh_nil, width, Lane.open,
        map_some, getD_some] at havailable ⊢
      omega
    · cases hstep
  | lane index move =>
    obtain ⟨lane, hlane, hsome⟩ := bind_eq_some_iff.mp hstep
    obtain ⟨changed, hchanged, hafter⟩ := map_eq_some_iff.mp hsome
    cases hafter
    have hmem : lane ∈ streams.lanes := mem_of_getElem? hlane
    refine ⟨fun other hother => ?_, ?_⟩
    · rcases mem_or_eq_of_mem_set hother with hold | hnew
      · exact h.lanes other hold
      rw [hnew]
      refine step_agrees hmatched (windowGrowth_grows limits streams) (h.lanes lane hmem) ?_ hchanged
      rintro payload rfl
      simpa [deferred, hlane] using hdeferred
    have hset := weigh_set hlane changed width
    have htotal := h.total
    rcases width_step hchanged with hless | ⟨stream, -, hgrown⟩
    · simp only [total] at htotal ⊢
      omega
    have hfits := windowGrowth_fits limits.client streams stream.window h.total
    simp only [total] at hfits ⊢
    omega

/-- What both windows of a lane add up to.  A cell that `pump` has sent and not
yet taken from the window counts as sent. -/
structure Conserved (limits : Limits) (lane : Lane) (near : ClientStream) (far : ExitStream) :
    Prop where
  forward : near.sendWindow + weigh ClientMessage.dataBytes lane.up + far.held + far.consumed +
    weigh exitCredit lane.exit.queue = limits.exit.streamWindow + near.sending.sum
  backward : far.sendWindow + weigh exitData lane.exit.queue +
    (bytesOf near.received + bytesOf near.lent) + near.consumed +
    weigh ClientMessage.creditBytes lane.up = near.window

/-- With one initial window for both ends, small enough for credit messages, and
an entry that completes no write inside the call, in every run: neither end
fails the circuit; the windows of both directions of every stream that both ends
have add up, also before the BEGIN has arrived; a window never exceeds the
larger of the initial and the maximal one, nor their sum the circuit's; an END
loses no credit, since what one end still sends fits what the other end, if it
still has the stream, allows; and the exit asks its destination for no more than
its window, the only other check of a window, whose failure would end the
stream. -/
theorem stream_windows_agree (hmatched : Matched limits)
    (h : Reaches (step limits) (fun streams move => streams.deferred move = true) start streams) :
    streams.total ≤ limits.client.circuitWindow ∧ ∀ lane ∈ streams.lanes,
      lane.failed = false ∧ lane.exit.closed = false ∧
      (∀ near, lane.client = some near → near.window ≤ widest limits ∧
        (.begin ∈ lane.up → near.sendWindow + weigh ClientMessage.dataBytes lane.up =
          limits.exit.streamWindow + near.sending.sum)) ∧
      (∀ near far, lane.client = some near → lane.exit.streams = [far] →
        Conserved limits lane near far) ∧
      (∀ far, lane.exit.streams = [far] →
        weigh ClientMessage.dataBytes lane.up ≤ far.receiveAllowed ∧
        far.sendWindow + weigh ClientMessage.creditBytes lane.up ≤ maxCreditIncrement ∧
        (far.reading = true → lane.asked ≤ far.sendWindow)) ∧
      ∀ near, lane.client = some near → weigh exitData lane.exit.queue ≤ near.receiveAllowed ∧
        near.sendWindow + weigh exitCredit lane.exit.queue ≤
          maxCreditIncrement + near.sending.sum := by
  have hinv : AllAgree limits streams :=
    h.invariant ⟨forall_mem_nil _, Nat.zero_le _⟩
      fun _ _ _ _ hbefore hdeferred hstep => step_allAgree hmatched hbefore hdeferred hstep
  have hsmall := hmatched.small
  have hsame := hmatched.same
  refine ⟨hinv.total, fun lane hmem => ?_⟩
  have hagrees := hinv.lanes lane hmem
  obtain ⟨far, hends, hfacts⟩ := hagrees.ends
  -- The exit's stream is the one that the invariant speaks of.
  have hfar : ∀ stream, lane.exit.streams = [stream] → far = some stream := by
    intro stream hstream
    cases hends with
    | begun rest exit =>
      rw [exit] at hstream
      cases hstream
    | served other streams =>
      rw [streams] at hstream
      cases hstream
      rfl
    | gone streams =>
      rw [streams] at hstream
      cases hstream
  refine ⟨hagrees.healthy, hagrees.open, fun near hnear => ⟨(hagrees.nearOk hnear).window, ?_⟩,
    fun near stream hnear hstream => ?_, fun stream hstream => ?_, fun near hnear => ?_⟩
  · intro hbegin
    cases hends with
    | begun rest exit up once =>
      rw [hnear, exit] at hfacts
      cases hfacts with
      | both nearOk farOk bothOk =>
        have hforward := bothOk.forward
        have hsending := nearOk.sending
        simp only [Exit.create, freshStream, weigh_nil, ClientStream.remaining] at hforward
        omega
    | served stream streams key id once =>
      have hno := once _ hbegin
      cases hno
    | gone streams once =>
      have hno := once _ hbegin
      cases hno
  · rw [hnear, hfar stream hstream] at hfacts
    cases hfacts with
    | both nearOk farOk bothOk =>
      have hforward := bothOk.forward
      have hbackward := bothOk.backward
      have hsum := nearOk.sum
      have hsending := nearOk.sending
      have hbudget := farOk.budget
      unfold ExitStream.budget at hbudget
      unfold ClientStream.remaining at hforward
      exact ⟨by omega, by omega⟩
  · rw [hfar stream hstream] at hfacts
    obtain ⟨farOk, left⟩ := hfacts.farLeft
    have hbackward := left.backward
    unfold widest at hbackward
    exact ⟨left.forward, by omega, fun hreading => (farOk.reading hreading).2.2.1⟩
  · rw [hnear] at hfacts
    obtain ⟨nearOk, left⟩ := hfacts.nearLeft
    have hforward := left.forward
    unfold ClientStream.remaining at hforward
    exact ⟨left.backward, by omega⟩

section Samples

/-- Both ends with a window of eight bytes. -/
def matchedLimits : Limits where
  client := { streamWindow := 8, maxStreamWindow := 16, circuitWindow := 32, streamsPerCircuit := 4 }
  exit := { streamsPerCircuit := 4, streamWindow := 8, circuitWindow := 32, backwardQueueCells := 4 }

/-- A client with a larger window than its exit's, and than its own maximum. -/
def unmatchedLimits : Limits where
  client := { streamWindow := 8, maxStreamWindow := 4, circuitWindow := 32, streamsPerCircuit := 4 }
  exit := { streamsPerCircuit := 4, streamWindow := 4, circuitWindow := 32, backwardQueueCells := 4 }

theorem matchedLimits_matched : Matched matchedLimits := ⟨rfl, by decide⟩

/-- Five bytes go to the destination and three come back, which the application
reads and releases while two more are being sent. -/
def exchangeMoves : List StreamsMove :=
  [.open, .lane 0 (.send [1, 2, 3, 4, 5]), .lane 0 (.deliver true), .lane 0 (.deliver true),
    .lane 0 .sent, .lane 0 (.exitOpen none), .lane 0 .pumpWrite, .lane 0 (.written true),
    .lane 0 .pumpRead, .lane 0 (.read (.data [6, 7, 8])), .lane 0 .receive, .lane 0 .receive,
    .lane 0 .receive, .lane 0 .take, .lane 0 (.send [9, 10]), .lane 0 (.release 0)]

theorem stream_windows_agree_sample : ∃ streams : Streams, ∃ lane ∈ streams.lanes,
    ∃ near far, lane.client = some near ∧ lane.exit.streams = [far] ∧ near.consumed = 3 ∧
      near.sending = [2] ∧ Conserved matchedLimits lane near far := by
  have hrun : (runChecked (step matchedLimits) deferred start exchangeMoves).any
      (fun streams => streams.lanes.any fun lane =>
        lane.client.any (fun near => near.consumed == 3 && near.sending == [2]) &&
          lane.exit.streams.length == 1) = true := by
    decide
  obtain ⟨streams, hreach, htest⟩ :=
    Reaches.exists_of_runChecked (fun _ _ hdeferred => hdeferred) _ _ hrun
  obtain ⟨lane, hmem, hlane⟩ := any_eq_true.mp htest
  simp only [Bool.and_eq_true, beq_iff_eq] at hlane
  obtain ⟨hclient, hexit⟩ := hlane
  obtain ⟨far, hfar⟩ := length_eq_one_iff.mp hexit
  obtain ⟨near, hnear, hvalues⟩ := (Option.any_eq_true _ _).mp hclient
  simp only [Bool.and_eq_true, beq_iff_eq] at hvalues
  have hagree := stream_windows_agree matchedLimits_matched hreach
  exact ⟨streams, lane, hmem, near, far, hnear, hfar, hvalues.1, hvalues.2,
    (hagree.2 lane hmem).2.2.2.1 near far hnear hfar⟩

/-- A client whose window is not its exit's sends what its own allows, and the
exit fails the circuit; its window starts above the maximum and stays there.
With equal windows the exit fails the circuit when a `pump` sends again inside
the call that takes its first cell. -/
theorem windows_disagree :
    (∃ streams, Reaches (step unmatchedLimits) (fun streams move => streams.deferred move = true)
        start streams ∧ ∃ lane ∈ streams.lanes, lane.exit.closed = true ∧
          ∃ near, lane.client = some near ∧
            near.window > unmatchedLimits.client.maxStreamWindow) ∧
      ∃ streams, Reaches (step matchedLimits) (fun _ _ => True) start streams ∧
        ∃ lane ∈ streams.lanes, lane.exit.closed = true := by
  have hdeferred : (runChecked (step unmatchedLimits) deferred start
      [.open, .lane 0 (.send [1, 2, 3, 4, 5]), .lane 0 .sent, .lane 0 (.deliver true),
        .lane 0 (.deliver true)]).any
      (fun streams => streams.lanes.any fun lane => lane.exit.closed &&
        lane.client.any fun near =>
          decide (near.window > unmatchedLimits.client.maxStreamWindow)) = true := by
    decide
  have hinline : (runChecked (step matchedLimits) (fun _ _ => true) start
      [.open, .lane 0 (.send [1, 2, 3, 4, 5]), .lane 0 (.send [1, 2, 3, 4, 5]), .lane 0 .sent,
        .lane 0 .sent, .lane 0 (.deliver true), .lane 0 (.deliver true),
        .lane 0 (.deliver true)]).any
      (fun streams => streams.lanes.any fun lane => lane.exit.closed) = true := by
    decide
  constructor
  · obtain ⟨streams, hreach, htest⟩ :=
      Reaches.exists_of_runChecked (fun _ _ hmove => hmove) _ _ hdeferred
    obtain ⟨lane, hmem, hlane⟩ := any_eq_true.mp htest
    simp only [Bool.and_eq_true] at hlane
    obtain ⟨near, hnear, hwide⟩ := (Option.any_eq_true _ _).mp hlane.2
    exact ⟨streams, hreach, lane, hmem, hlane.1, near, hnear, by simpa using hwide⟩
  · obtain ⟨streams, hreach, htest⟩ :=
      Reaches.exists_of_runChecked (fun _ _ _ => trivial) _ _ hinline
    exact ⟨streams, hreach, any_eq_true.mp htest⟩

end Samples

end Streams

end Yume.CircuitClient.Windows
