/-
What an exit holds for the streams of one circuit, whatever its client sends and
in whatever order its channels complete.
-/
import Mathlib.Data.List.Nodup
import Yume.CircuitNode.Exit
import Yume.Lib.Stacks

namespace Yume.CircuitNode

open Yume.Lib ExitStream List Function

/-! ### An exit's streams -/

namespace ExitStream

/-- The bytes held for the destination. -/
def held (stream : ExitStream) : Nat :=
  (stream.toDestination.map List.length).sum + (stream.writing.map List.length).getD 0

/-- What a stream's window is spent on. -/
def budget (stream : ExitStream) : Nat :=
  stream.receiveAllowed + stream.held + stream.consumed

def readers (stream : ExitStream) : Nat := if stream.reading then 1 else 0

end ExitStream

namespace ExitMessage

def dataBytes : ExitMessage → Nat
  | .data _ payload => payload.length
  | _ => 0

def dataCells : ExitMessage → Nat
  | .data _ _ => 1
  | _ => 0

end ExitMessage

namespace Exit

/-- The bytes held toward the destinations and toward the client. -/
def forwardHeld (exit : Exit) : Nat := weigh held exit.streams

def backwardHeld (exit : Exit) : Nat := weigh ExitMessage.dataBytes exit.queue

variable {limits : ExitLimits} {exit : Exit} {key : Nat} {found : ExitStream}
  {f : ExitStream → ExitStream}

/-- The invariant of an exit. -/
structure Bounded (limits : ExitLimits) (exit : Exit) : Prop where
  keys : (exit.streams.map ExitStream.key).Nodup
  fresh : ∀ stream ∈ exit.streams, stream.key < exit.nextKey
  budget : ∀ stream ∈ exit.streams, stream.budget ≤ limits.streamWindow
  count : exit.streams.length ≤ limits.streamsPerCircuit
  total : exit.streams.length * limits.streamWindow ≤ limits.circuitWindow
  cells : weigh ExitMessage.dataCells exit.queue + weigh ExitStream.readers exit.streams ≤
    limits.backwardQueueCells + limits.streamsPerCircuit
  payloads : ∀ message ∈ exit.queue, message.dataBytes ≤
    maxDataPayload .backward * message.dataCells

theorem create_bounded (limits : ExitLimits) : Bounded limits create := by
  constructor <;> simp [create]

theorem close_bounded (limits : ExitLimits) (exit : Exit) : Bounded limits exit.close := by
  constructor <;> simp [close]

theorem findKey_some (h : exit.findKey key = some found) : found ∈ exit.streams ∧ found.key = key :=
  ⟨mem_of_find?_eq_some h, by simpa using find?_some h⟩

theorem mem_of_find {id : Nat} (h : exit.find id = some found) : found ∈ exit.streams :=
  mem_of_find?_eq_some h

section

variable (h : Bounded limits exit)
include h

/-- Keys are identities. -/
theorem Bounded.eq_of_key {stream : ExitStream}
    (hstream : stream ∈ exit.streams) (hfound : found ∈ exit.streams)
    (hkey : stream.key = found.key) : stream = found :=
  inj_on_of_nodup_map h.keys hstream hfound hkey

omit h in
theorem modify_keys (hf : ∀ stream, (f stream).key = stream.key) :
    (exit.modify key f).streams.map ExitStream.key = exit.streams.map ExitStream.key := by
  simp only [modify, map_map]
  refine map_congr_left fun stream _ => ?_
  simp only [comp_apply]
  split <;> simp [hf]

/-- A changed stream: its window still covers what it holds, and it reads only
if it did before. -/
theorem Bounded.modify (hfound : found ∈ exit.streams)
    (hkey : found.key = key) (hf : ∀ stream, (f stream).key = stream.key)
    (hbudget : (f found).budget ≤ limits.streamWindow)
    (hreading : (f found).readers ≤ found.readers) : Bounded limits (exit.modify key f) := by
  have hcase : ∀ stream ∈ exit.streams, stream.key = key → stream = found :=
    fun stream hmem hsame => h.eq_of_key hmem hfound (hsame.trans hkey.symm)
  have hlength : (exit.modify key f).streams.length = exit.streams.length := by
    simp [Exit.modify]
  have hreaders : weigh ExitStream.readers (exit.modify key f).streams ≤
      weigh ExitStream.readers exit.streams := by
    simp only [Exit.modify, weigh, map_map]
    refine sum_le_sum fun stream hmem => ?_
    simp only [comp_apply]
    split
    · rename_i hsame
      rw [hcase stream hmem hsame]
      exact hreading
    · exact Nat.le_refl _
  have hcells := h.cells
  refine ⟨by rw [modify_keys hf]; exact h.keys, ?_, ?_, hlength ▸ h.count, hlength ▸ h.total,
    ?_, h.payloads⟩
  · intro stream hmem
    obtain ⟨old, hold, rfl⟩ := mem_map.mp hmem
    have hfresh := h.fresh old hold
    split
    · rw [hf]
      exact hfresh
    · exact hfresh
  · intro stream hmem
    obtain ⟨old, hold, rfl⟩ := mem_map.mp hmem
    split
    · rename_i hsame
      rw [hcase old hold hsame]
      exact hbudget
    · exact h.budget old hold
  · have hqueue : (exit.modify key f).queue = exit.queue := rfl
    rw [hqueue]
    omega

theorem Bounded.drop (key : Nat) : Bounded limits (exit.drop key) := by
  have hsub : (exit.drop key).streams.Sublist exit.streams := filter_sublist
  have hreaders := weigh_le_of_sublist (f := ExitStream.readers) hsub
  have hcells := h.cells
  have htotal := h.total
  have hlength := hsub.length_le
  refine ⟨h.keys.sublist (hsub.map _), fun stream hmem => h.fresh stream (hsub.subset hmem),
    fun stream hmem => h.budget stream (hsub.subset hmem), hlength.trans h.count,
    (Nat.mul_le_mul_right _ hlength).trans htotal, ?_, h.payloads⟩
  have hqueue : (exit.drop key).queue = exit.queue := rfl
  rw [hqueue]
  omega

theorem Bounded.send {message : ExitMessage}
    (hcontrol : message.dataCells = 0 ∧ message.dataBytes = 0) :
    Bounded limits (exit.send message) := by
  refine { h with cells := ?_, payloads := ?_ }
  · have hcells := h.cells
    simp only [Exit.send, weigh_append, weigh_cons, weigh_nil]
    omega
  exact forall_mem_append.mpr ⟨h.payloads, forall_mem_singleton.mpr (by omega)⟩

theorem Bounded.sendCredit (id increment : Nat) :
    Bounded limits (exit.sendCredit id increment) := by
  unfold Exit.sendCredit
  split
  · exact close_bounded _ _
  · exact h.send (by exact ⟨rfl, rfl⟩)

theorem Bounded.failStream (stream : ExitStream) (reason : UInt8) :
    Bounded limits (exit.failStream stream reason) :=
  (h.drop stream.key).send (by exact ⟨rfl, rfl⟩)

end

/-! Each function keeps the bounds. -/

section

variable (h : Bounded limits exit)
include h

theorem begin_bounded {id : Nat} {isOpen serves decodes : Bool} :
    Bounded limits (exit.begin limits id isOpen serves decodes) := by
  unfold begin
  split
  · exact close_bounded _ _
  split
  · exact close_bounded _ _
  split
  · exact h.send (by exact ⟨rfl, rfl⟩)
  split
  · exact h.send (by exact ⟨rfl, rfl⟩)
  rename_i hfull
  split
  · exact h.send (by exact ⟨rfl, rfl⟩)
  simp only [not_or, ge_iff_le, Nat.not_le, gt_iff_lt, Nat.not_lt] at hfull
  refine ⟨?_, ?_, ?_, ?_, ?_, ?_, h.payloads⟩
  · simp only [map_append, map_cons, map_nil]
    refine nodup_append.mpr ⟨h.keys, nodup_singleton _, ?_⟩
    intro a ha b hb hab
    obtain ⟨stream, hstream, rfl⟩ := mem_map.mp ha
    have hlt := h.fresh stream hstream
    rw [mem_singleton.mp hb] at hab
    omega
  · exact forall_mem_append.mpr ⟨fun stream hold => Nat.lt_succ_of_lt (h.fresh stream hold),
      forall_mem_singleton.mpr (Nat.lt_succ_self _)⟩
  · exact forall_mem_append.mpr ⟨h.budget, forall_mem_singleton.mpr
      (by simp [ExitStream.budget, ExitStream.held])⟩
  · simp only [length_append, length_cons, length_nil]
    omega
  · simpa using hfull.2
  · have hcells := h.cells
    simpa [ExitStream.readers] using hcells

theorem data_bounded {id : Nat} {payload : Bytes} : Bounded limits (exit.data id payload) := by
  unfold data
  split
  · exact h
  rename_i stream hfind
  have hmem := mem_of_find hfind
  have hbudget := h.budget stream hmem
  split
  · exact close_bounded _ _
  rename_i hwithin
  simp only [not_or, gt_iff_lt, Nat.not_lt] at hwithin
  refine h.modify hmem rfl (fun _ => rfl) ?_ (Nat.le_refl _)
  simp only [ExitStream.budget, ExitStream.held, map_append, map_cons,
    map_nil, sum_append, sum_cons, sum_nil] at hbudget ⊢
  omega

theorem end_bounded {id : Nat} {reason : UInt8} : Bounded limits (exit.end id reason) := by
  unfold «end»
  split
  · exact h
  rename_i stream hfind
  have hmem := mem_of_find hfind
  split
  · exact h.drop _
  · exact h.modify hmem rfl (fun _ => rfl) (h.budget stream hmem) (Nat.le_refl _)

theorem credit_bounded {id increment : Nat} : Bounded limits (exit.credit id increment) := by
  unfold credit
  split
  · exact h
  rename_i stream hfind
  have hmem := mem_of_find hfind
  split
  · exact close_bounded _ _
  · exact h.modify hmem rfl (fun _ => rfl) (h.budget stream hmem) (Nat.le_refl _)

theorem onExitOpen_bounded {failure : Option UInt8} :
    Bounded limits (exit.onExitOpen key failure) := by
  unfold onExitOpen
  split
  · exact h
  rename_i stream hfind
  obtain ⟨hmem, hkey⟩ := findKey_some hfind
  split
  · exact (h.drop key).send (by exact ⟨rfl, rfl⟩)
  refine Bounded.send ?_ ⟨rfl, rfl⟩
  exact h.modify hmem hkey (fun _ => rfl) (h.budget stream hmem) (Nat.le_refl _)

theorem pumpWrite_bounded : Bounded limits (exit.pumpWrite key) := by
  unfold pumpWrite
  split
  · exact h
  rename_i stream hfind
  obtain ⟨hmem, hkey⟩ := findKey_some hfind
  have hbudget := h.budget stream hmem
  split
  · exact h
  rename_i hidle
  simp only [not_or, Bool.not_eq_true, Option.isSome_eq_false_iff,
    Option.isNone_iff_eq_none] at hidle
  split
  · split
    · exact h.modify hmem hkey (fun _ => rfl) hbudget (Nat.le_refl _)
    · exact h
  rename_i buffer rest hqueue
  refine h.modify hmem hkey (fun _ => rfl) ?_ (Nat.le_refl _)
  simp only [ExitStream.budget, ExitStream.held, hqueue, hidle.2, map_cons,
    sum_cons, Option.map_none, Option.getD_none, Option.map_some,
    Option.getD_some] at hbudget ⊢
  omega

theorem onWritten_bounded {ok : Bool} {written : Nat}
    (hconforms : (exit.findKey key).all (fun stream =>
      stream.writing.any fun buffer => decide (written ≤ buffer.length)) = true) :
    Bounded limits (exit.onWritten limits key ok written) := by
  unfold onWritten
  split
  · exact h
  rename_i stream hfind
  obtain ⟨hmem, hkey⟩ := findKey_some hfind
  have hbudget := h.budget stream hmem
  rw [hfind] at hconforms
  obtain ⟨buffer, hwriting, hshort⟩ : ∃ buffer, stream.writing = some buffer ∧
      written ≤ buffer.length := by
    cases hwriting : stream.writing with
    | none => simp [hwriting] at hconforms
    | some buffer => exact ⟨buffer, rfl, by simpa [hwriting] using hconforms⟩
  have hdrained : ∀ receiveAllowed consumed, receiveAllowed + consumed ≤
      stream.receiveAllowed + stream.consumed + written →
      ExitStream.budget { stream with
        writing := none, receiveAllowed := receiveAllowed, consumed := consumed } ≤
        limits.streamWindow := by
    intro receiveAllowed consumed hle
    simp only [ExitStream.budget, ExitStream.held, hwriting, Option.map_none,
      Option.getD_none, Option.map_some, Option.getD_some] at hbudget ⊢
    omega
  split
  · refine Bounded.failStream ?_ _ _
    exact h.modify hmem hkey (fun _ => rfl)
      (hdrained stream.receiveAllowed stream.consumed (by omega)) (Nat.le_refl _)
  dsimp only
  split
  · refine Bounded.sendCredit ?_ _ _
    exact h.modify hmem hkey (fun _ => rfl)
      (hdrained (stream.receiveAllowed + (stream.consumed + written)) 0 (by omega))
      (Nat.le_refl _)
  exact h.modify hmem hkey (fun _ => rfl)
    (hdrained stream.receiveAllowed (stream.consumed + written) (by omega))
    (Nat.le_refl _)

end

theorem readers_le_length (streams : List ExitStream) : weigh readers streams ≤ streams.length := by
  induction streams with
  | nil => exact Nat.le_refl _
  | cons stream streams ih =>
    have hone : stream.readers ≤ 1 := by
      unfold readers
      split <;> omega
    simp only [weigh_cons, length_cons]
    omega

theorem dataCells_le_length (queue : List ExitMessage) :
    weigh ExitMessage.dataCells queue ≤ queue.length := by
  induction queue with
  | nil => exact Nat.le_refl _
  | cons message queue ih =>
    have hone : message.dataCells ≤ 1 := by
      cases message <;> simp [ExitMessage.dataCells]
    simp only [weigh_cons, length_cons]
    omega

variable (h : Bounded limits exit)
include h

theorem pumpRead_bounded : Bounded limits (exit.pumpRead limits key) := by
  unfold pumpRead
  split
  · exact h
  rename_i stream hfind
  obtain ⟨hmem, hkey⟩ := findKey_some hfind
  split
  · exact h
  rename_i hstart
  simp only [not_or, queueHasRoom, not_not, decide_eq_true_eq] at hstart
  -- The bounds of the other fields do not look at the reads.
  have hlength : (exit.modify key fun stream => { stream with reading := true }).streams.length
      = exit.streams.length := by simp [Exit.modify]
  refine ⟨?_, ?_, ?_, hlength ▸ h.count, hlength ▸ h.total, ?_, h.payloads⟩
  · rw [modify_keys]
    · exact h.keys
    · exact fun _ => rfl
  · intro other hother
    obtain ⟨old, hold, rfl⟩ := mem_map.mp hother
    have hfresh := h.fresh old hold
    split <;> exact hfresh
  · intro other hother
    obtain ⟨old, hold, rfl⟩ := mem_map.mp hother
    have hbudget := h.budget old hold
    split <;> exact hbudget
  have hreaders := readers_le_length
    (exit.modify key fun stream => { stream with reading := true }).streams
  have hqueue := dataCells_le_length exit.queue
  have hcount := h.count
  rw [hlength] at hreaders
  show weigh ExitMessage.dataCells exit.queue + _ ≤ _
  omega

omit h in
/-- A read that completes gives its place to one cell of data. -/
theorem readers_modify_lt (hfound : found ∈ exit.streams) (hkey : found.key = key)
    (hreading : found.reading = true) :
    weigh readers (exit.modify key fun stream => { stream with reading := false }).streams + 1 ≤
      weigh readers exit.streams := by
  obtain ⟨pre, post, hsplit⟩ := append_of_mem hfound
  have hless : ∀ streams : List ExitStream, weigh readers (streams.map fun stream =>
        if stream.key = key then { stream with reading := false } else stream) ≤
        weigh readers streams := by
    intro streams
    simp only [weigh, map_map]
    refine sum_le_sum fun stream _ => ?_
    simp only [comp_apply]
    split
    · exact Nat.zero_le _
    · exact Nat.le_refl _
  have hpre := hless pre
  have hpost := hless post
  simp only [Exit.modify, hsplit, map_append, map_cons, weigh_append, weigh_cons, if_pos hkey]
  have hone : found.readers = 1 := by simp [readers, hreading]
  have hzero : readers { found with reading := false } = 0 := rfl
  omega

theorem onRead_bounded {result : ReadResult}
    (hconforms : (exit.findKey key).all (fun stream => stream.reading) = true) :
    Bounded limits (exit.onRead key result) := by
  unfold onRead
  split
  · exact h
  rename_i stream hfind
  obtain ⟨hmem, hkey⟩ := findKey_some hfind
  rw [hfind] at hconforms
  have hreading : stream.reading = true := by simpa using hconforms
  have hbudget := h.budget stream hmem
  have hdone : Bounded limits (exit.modify key fun stream => { stream with reading := false }) :=
    h.modify hmem hkey (fun _ => rfl) hbudget (Nat.zero_le _)
  have hmem' : { stream with reading := false } ∈
      (exit.modify key fun stream => { stream with reading := false }).streams :=
    mem_map.mpr ⟨stream, hmem, if_pos hkey⟩
  dsimp only
  split
  · refine Bounded.send ?_ ⟨rfl, rfl⟩
    exact hdone.modify hmem' hkey (fun _ => rfl) hbudget (Nat.le_refl _)
  · exact hdone.failStream _ _
  rename_i payload
  split
  · exact hdone.failStream _ _
  split
  · exact close_bounded _ _
  rename_i hsmall
  have hspent := hdone.modify (f := fun stream =>
      { stream with sendWindow := stream.sendWindow - payload.length })
    hmem' hkey (fun _ => rfl) hbudget (Nat.le_refl _)
  refine { hspent with cells := ?_, payloads := ?_ }
  · have hcells := h.cells
    have hlt := readers_modify_lt hmem hkey hreading
    have hsame : weigh ExitStream.readers (((exit.modify key fun stream =>
        { stream with reading := false }).modify key fun stream =>
        { stream with sendWindow := stream.sendWindow - payload.length }).send
          (.data stream.id payload)).streams ≤
        weigh ExitStream.readers (exit.modify key fun stream =>
          { stream with reading := false }).streams := by
      simp only [Exit.send, Exit.modify, weigh, map_map]
      refine sum_le_sum fun other _ => ?_
      simp only [comp_apply]
      split_ifs <;> exact Nat.le_refl _
    have hqueue : weigh ExitMessage.dataCells (((exit.modify key fun stream =>
        { stream with reading := false }).modify key fun stream =>
        { stream with sendWindow := stream.sendWindow - payload.length }).send
          (.data stream.id payload)).queue =
        weigh ExitMessage.dataCells exit.queue + 1 := by
      simp [Exit.send, Exit.modify, ExitMessage.dataCells]
    omega
  · refine forall_mem_append.mpr ⟨h.payloads, forall_mem_singleton.mpr ?_⟩
    simp only [ExitMessage.dataBytes, ExitMessage.dataCells, Nat.mul_one]
    omega

theorem settle_bounded : Bounded limits (exit.settle key) := by
  unfold settle
  split
  · exact h
  split
  · exact h.drop _
  · exact h

theorem step_bounded {move : ExitMove} {after : Exit}
    (hstep : exit.step limits move = some after) : Bounded limits after := by
  cases move with
  | begin => cases hstep; exact begin_bounded h
  | data => cases hstep; exact data_bounded h
  | «end» => cases hstep; exact end_bounded h
  | credit => cases hstep; exact credit_bounded h
  | exitOpen => cases hstep; exact onExitOpen_bounded h
  | pumpWrite => cases hstep; exact pumpWrite_bounded h
  | written =>
    obtain ⟨hconforms, ⟨⟩⟩ := Option.ite_none_right_eq_some.mp hstep
    exact onWritten_bounded h hconforms
  | pumpRead => cases hstep; exact pumpRead_bounded h
  | read =>
    obtain ⟨hconforms, ⟨⟩⟩ := Option.ite_none_right_eq_some.mp hstep
    exact onRead_bounded h hconforms
  | settle => cases hstep; exact settle_bounded h
  | taken =>
    cases hstep
    have hsub : exit.queue.tail.Sublist exit.queue := tail_sublist _
    have hcells := h.cells
    have htail := weigh_le_of_sublist (f := ExitMessage.dataCells) hsub
    refine { h with
      cells := ?_, payloads := fun message hmem => h.payloads message (hsub.subset hmem) }
    dsimp only
    omega
  | close => cases hstep; exact close_bounded _ _

omit h in
/-- An exit closes only through `close`, which leaves nothing. -/
theorem step_closed {move : ExitMove} {after : Exit}
    (hstep : exit.step limits move = some after) (hopen : exit.closed = false)
    (hclosed : after.closed = true) : after.streams = [] ∧ after.queue = [] := by
  have hkept : after.closed = exit.closed ∨ after.streams = [] ∧ after.queue = [] := by
    cases move with
    | begin =>
      cases hstep
      unfold begin
      split_ifs <;> simp [close, send]
    | data =>
      cases hstep
      unfold data
      split
      · exact .inl rfl
      · split_ifs <;> simp [close, modify]
    | «end» =>
      cases hstep
      unfold «end»
      split
      · exact .inl rfl
      · split_ifs <;> simp [drop, modify]
    | credit =>
      cases hstep
      unfold credit
      split
      · exact .inl rfl
      · split_ifs <;> simp [close, modify]
    | exitOpen =>
      cases hstep
      unfold onExitOpen
      split
      · exact .inl rfl
      · split <;> simp [drop, modify, send]
    | pumpWrite =>
      cases hstep
      unfold pumpWrite
      split
      · exact .inl rfl
      split
      · exact .inl rfl
      split
      · split_ifs <;> simp [modify]
      · simp [modify]
    | written =>
      obtain ⟨-, ⟨⟩⟩ := Option.ite_none_right_eq_some.mp hstep
      unfold onWritten
      split
      · exact .inl rfl
      simp only [sendCredit]
      split_ifs <;> simp [modify, send, failStream, drop, close]
    | pumpRead =>
      cases hstep
      unfold pumpRead
      split
      · exact .inl rfl
      · split_ifs <;> simp [modify]
    | read =>
      obtain ⟨-, ⟨⟩⟩ := Option.ite_none_right_eq_some.mp hstep
      unfold onRead
      split
      · exact .inl rfl
      split
      · simp [modify, send]
      · simp [modify, send, failStream, drop]
      · split_ifs <;> simp [modify, send, failStream, drop, close]
    | settle =>
      cases hstep
      unfold settle
      split
      · exact .inl rfl
      · split_ifs <;> simp [drop]
    | taken =>
      cases hstep
      exact .inl rfl
    | close =>
      cases hstep
      exact .inr ⟨rfl, rfl⟩
  rcases hkept with hsame | hempty
  · rw [hopen, hclosed] at hsame
    cases hsame
  · exact hempty

/-- The bytes an exit holds, in each direction. -/
theorem Bounded.forwardHeld_le : exit.forwardHeld ≤ limits.circuitWindow := by
  have hsum : ∀ streams : List ExitStream,
      (∀ stream ∈ streams, stream.budget ≤ limits.streamWindow) →
        weigh ExitStream.held streams ≤ streams.length * limits.streamWindow := by
    intro streams hall
    induction streams with
    | nil => simp
    | cons stream streams ih =>
      have hfirst := hall stream mem_cons_self
      have hrest := ih fun other hmem => hall other (mem_cons_of_mem _ hmem)
      unfold ExitStream.budget at hfirst
      rw [weigh_cons, length_cons, Nat.succ_mul]
      omega
  exact (hsum _ h.budget).trans h.total

theorem Bounded.backwardHeld_le :
    exit.backwardHeld ≤ maxDataPayload .backward *
      (limits.backwardQueueCells + limits.streamsPerCircuit) := by
  have hsum : ∀ queue : List ExitMessage,
      (∀ message ∈ queue, message.dataBytes ≤ maxDataPayload .backward * message.dataCells) →
        weigh ExitMessage.dataBytes queue ≤
          maxDataPayload .backward * weigh ExitMessage.dataCells queue := by
    intro queue hall
    induction queue with
    | nil => simp
    | cons message queue ih =>
      have hfirst := hall message mem_cons_self
      have hrest := ih fun other hmem => hall other (mem_cons_of_mem _ hmem)
      rw [weigh_cons, weigh_cons, Nat.mul_add]
      omega
  have hcells := h.cells
  exact (hsum _ h.payloads).trans (Nat.mul_le_mul_left _ (by omega))

end Exit

end Yume.CircuitNode
