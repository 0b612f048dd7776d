/-
What a WebSocket byte stream means, and that the codec computes it however the
stream is cut.

A reading is what frame after frame adds up to, with no buffer, no limit on what
waits to be drained and no masking of replies.  As long as neither the unparsed
input nor what waits to be drained outgrows the codec's bounds, the codec and
everything taken from it agree with the reading of all bytes fed so far.
-/
import Yume.Stealth.WebSocketCodec

namespace Yume.Stealth

open Yume.Lib WebSocketCodec List Option

/-- All that a byte stream has said so far. -/
structure Reading where
  tunnel : Bytes := []
  fragment : Option Bytes := none
  replies : List (UInt8 × Bytes) := []
  consumable : Nat := 0
  closeSent : Bool := false
  closed : Bool := false
  error : Option String := none
deriving Repr, DecidableEq

open Reading

namespace Reading

/-- The bytes of an unfinished message. -/
def unfinished (r : Reading) : Nat := (r.fragment.getD []).length

def fail (r : Reading) (reason : String) : Reading := { r with error := some reason }

/-- What a continuation frame says. -/
def continuation (limit : Nat) (r : Reading) (fin : Bool) (payload : Bytes) : Reading :=
  match r.fragment with
  | none => r.fail "unexpected WebSocket continuation"
  | some start =>
    if payload.length > limit - start.length then
      r.fail "fragmented WebSocket binary message exceeds configured limit"
    else if fin then { r with tunnel := r.tunnel ++ (start ++ payload), fragment := none }
    else { r with fragment := some (start ++ payload) }

/-- What a binary frame says. -/
def binary (r : Reading) (fin : Bool) (payload : Bytes) : Reading :=
  match r.fragment with
  | some _ => r.fail "new WebSocket data frame during fragmentation"
  | none =>
    if fin then { r with tunnel := r.tunnel ++ payload }
    else { r with fragment := some payload }

def reply (r : Reading) (opcode : UInt8) (payload : Bytes) : Reading :=
  { r with replies := r.replies ++ [(opcode, payload)] }

/-- What a close frame says. -/
def close (r : Reading) (payload : Bytes) : Reading :=
  if payload.length = 1 then r.fail "invalid one-byte WebSocket close payload"
  else if r.closeSent then { r with closed := true }
  else { (r.reply 0x8 payload) with closed := true, closeSent := true }

/-- What one frame says. -/
def dispatch (limit : Nat) (r : Reading) (opcode : UInt8) (fin : Bool) (payload : Bytes) :
    Reading :=
  if opcode = 0x0 then r.continuation limit fin payload
  else if opcode = 0x2 then r.binary fin payload
  else if opcode = 0x8 then r.close payload
  else if opcode = 0x9 then r.reply 0xA payload
  else if opcode = 0xA then r
  else r.fail (if opcode = 0x1 then "WebSocket text messages are not a YUME carrier"
    else "unsupported WebSocket opcode")

def account (r : Reading) (consumable : Nat) : Reading :=
  if r.error.isSome then r else { r with consumable := r.consumable + consumable }

end Reading

/-- The payload of a complete frame at the front of the input. -/
def framePayload (header : FrameHeader) (input : Bytes) : Bytes :=
  let raw := (input.drop header.payloadAt).take header.payloadSize
  if header.masked then
    applyWebSocketMask raw (keyAt input header.offset) 0
  else raw

section Reader

variable (role : WebSocketRole) (limit : Nat)

/-- Reads one frame off the front of the input. -/
def readFrame (s : Reading × Bytes) : Option (Reading × Bytes) :=
  if s.1.error.isSome then none
  else
    match parseHeader role limit s.2 with
    | .error .waiting => none
    | .error (.failed reason) => some (s.1.fail reason, s.2)
    | .ok header =>
      if s.2.length < header.total then none
      else
        some ((s.1.dispatch limit header.opcode header.fin
            (framePayload header s.2)).account (consumableOf header),
          s.2.drop header.total)

variable {role limit} {s t : Reading × Bytes} {header : FrameHeader} {input : Bytes}

/-- What a step of the reader does. -/
theorem readFrame_cases (h : readFrame role limit s = some t) :
    s.1.error = none ∧
      ((∃ reason, parseHeader role limit s.2 = .error (.failed reason) ∧
          t = (s.1.fail reason, s.2)) ∨
        ∃ header, parseHeader role limit s.2 = .ok header ∧ header.total ≤ s.2.length ∧
          t = ((s.1.dispatch limit header.opcode header.fin (framePayload header s.2)).account
            (consumableOf header), s.2.drop header.total)) := by
  unfold readFrame at h
  split_ifs at h with herror
  refine ⟨by simpa using herror, ?_⟩
  split at h
  · cases h
  · rename_i reason hparse
    exact .inl ⟨reason, hparse, (some.inj h).symm⟩
  rename_i header hparse
  split_ifs at h with hlong
  exact .inr ⟨header, hparse, by omega, (some.inj h).symm⟩

theorem readFrame_of_failed {reason : String} (herror : s.1.error = none)
    (hparse : parseHeader role limit s.2 = .error (.failed reason)) :
    readFrame role limit s = some (s.1.fail reason, s.2) := by
  simp [readFrame, herror, hparse]

theorem readFrame_of_ok (herror : s.1.error = none)
    (hparse : parseHeader role limit s.2 = .ok header) (hlength : header.total ≤ s.2.length) :
    readFrame role limit s =
      some ((s.1.dispatch limit header.opcode header.fin (framePayload header s.2)).account
        (consumableOf header), s.2.drop header.total) := by
  simp [readFrame, herror, hparse, Nat.not_lt.mpr hlength]

theorem two_le_total (h : parseHeader role limit input = .ok header) : 2 ≤ header.total := by
  have hoffset := (parseHeader_ok h).1
  simp only [FrameHeader.total, FrameHeader.payloadAt]
  omega

variable (role limit) in
def reader : Loop (Reading × Bytes) where
  step := readFrame role limit
  measure s := (if s.1.error.isSome then 0 else 1) + s.2.length
  lowers := by
    intro s t h
    obtain ⟨herror, ⟨reason, -, rfl⟩ | ⟨header, hparse, hlength, rfl⟩⟩ := readFrame_cases h
    · simp [herror, Reading.fail]
    have hpositive := two_le_total hparse
    simp only [herror, Option.isSome_none, List.length_drop]
    split_ifs <;> omega

theorem keyAt_append {position : Nat} (h : position + 4 ≤ input.length) (more : Bytes) :
    keyAt (input ++ more) position = keyAt input position := by
  apply Subtype.ext
  dsimp only [keyAt]
  have htake : ((input.drop position ++ more).take 4) = (input.drop position).take 4 := by
    rw [take_append_of_le_length]
    rw [length_drop]
    omega
  rw [drop_append_of_le_length (by omega), htake]

theorem framePayload_append (h : header.total ≤ input.length) (more : Bytes) :
    framePayload header (input ++ more) = framePayload header input := by
  simp only [FrameHeader.total] at h
  have hraw : ((input ++ more).drop header.payloadAt).take header.payloadSize =
      (input.drop header.payloadAt).take header.payloadSize := by
    rw [drop_append_of_le_length (by omega), take_append_of_le_length]
    rw [length_drop]
    omega
  unfold framePayload
  rw [hraw]
  split
  · rename_i hmasked
    rw [keyAt_append]
    simp only [FrameHeader.payloadAt, FrameHeader.maskBytes, hmasked, if_true] at h
    omega
  · rfl

theorem framePayload_length (h : header.total ≤ input.length) : (framePayload header input).length =
      header.payloadSize := by
  simp only [FrameHeader.total] at h
  have hraw : ((input.drop header.payloadAt).take header.payloadSize).length =
      header.payloadSize := by
    rw [length_take, length_drop]
    omega
  unfold framePayload
  split
  · rw [applyWebSocketMask_length, hraw]
  · exact hraw

/-- A frame that can be read is read the same with more bytes behind it. -/
theorem readFrame_append (more : Bytes) (h : readFrame role limit s = some t) :
    readFrame role limit (s.1, s.2 ++ more) = some (t.1, t.2 ++ more) := by
  obtain ⟨herror, ⟨reason, hparse, rfl⟩ | ⟨header, hparse, hlength, rfl⟩⟩ := readFrame_cases h
  · have happend := parseHeader_append (by rw [hparse]; simp) more
    exact readFrame_of_failed herror (happend.trans hparse)
  have happend := parseHeader_append (by rw [hparse]; simp) more
  have hlong : header.total ≤ (s.2 ++ more).length := by
    rw [length_append]
    omega
  have hread := readFrame_of_ok (s := (s.1, s.2 ++ more)) herror (happend.trans hparse) hlong
  rw [hread, framePayload_append hlength, drop_append_of_le_length hlength]

variable (role limit) in
/-- The reading of a whole stream and the bytes behind its last complete frame. -/
def read (input : Bytes) : Reading × Bytes := (reader role limit).run ({}, input)

/-- A stream may be read in two parts. -/
theorem read_append (input more : Bytes) :
    read role limit (input ++ more) =
      (reader role limit).run ((read role limit input).1, (read role limit input).2 ++ more) := by
  have hcommutes : ∀ s t, (reader role limit).step s = some t →
      (reader role limit).step (s.1, s.2 ++ more) = some (t.1, t.2 ++ more) :=
    fun _ _ => readFrame_append more
  exact Loop.run_commute hcommutes ({}, input)

/-- A failure stays, whatever follows. -/
theorem read_failed (h : (read role limit input).1.error ≠ none)
    (more : Bytes) : (read role limit (input ++ more)).1 = (read role limit input).1 := by
  rw [read_append, Loop.run_of_none]
  simp [reader, readFrame, isSome_iff_ne_none, h]

end Reader

section Ledger

variable {role : WebSocketRole} {limit : Nat}

/-- No byte is more than one of consumable, decoded, part of an unfinished
message and not read yet, and each is one while nothing failed. -/
def Balanced (fed : Nat) (s : Reading × Bytes) : Prop :=
  s.1.consumable + s.1.tunnel.length + s.1.unfinished + s.2.length ≤ fed ∧
    (s.1.error = none → s.1.consumable + s.1.tunnel.length + s.1.unfinished + s.2.length = fed)

theorem consumableOf_add (header : FrameHeader) :
    consumableOf header + (if header.control then 0 else header.payloadSize) = header.total := by
  simp only [consumableOf, FrameHeader.total]
  split_ifs <;> omega

/-- The six cases of the switch. -/
theorem opcode_cases {motive : UInt8 → Prop} (continuation : motive 0x0) (binary : motive 0x2)
    (close : motive 0x8) (ping : motive 0x9) (pong : motive 0xA)
    (other : ∀ opcode, opcode ≠ 0x0 → opcode ≠ 0x2 → opcode ≠ 0x8 → opcode ≠ 0x9 →
      opcode ≠ 0xA → motive opcode) (opcode : UInt8) : motive opcode := by
  by_cases h0 : opcode = 0x0
  · exact h0 ▸ continuation
  by_cases h2 : opcode = 0x2
  · exact h2 ▸ binary
  by_cases h8 : opcode = 0x8
  · exact h8 ▸ close
  by_cases h9 : opcode = 0x9
  · exact h9 ▸ ping
  by_cases hA : opcode = 0xA
  · exact hA ▸ pong
  exact other opcode h0 h2 h8 h9 hA

theorem dispatch_consumable (r : Reading) (opcode : UInt8) (fin : Bool) (payload : Bytes) :
    (r.dispatch limit opcode fin payload).consumable = r.consumable := by
  unfold Reading.dispatch Reading.continuation Reading.binary Reading.close
  split_ifs <;> first | rfl | (split <;> first | rfl | (split <;> rfl))

/-- A reading says at most `bytes` more than another, and just that unless it failed. -/
@[mk_iff] structure Adds (r d : Reading) (bytes : Nat) : Prop where
  grows : r.tunnel.length ≤ d.tunnel.length
  most : d.tunnel.length + d.unfinished ≤ r.tunnel.length + r.unfinished + bytes
  all : d.error = none → d.tunnel.length + d.unfinished = r.tunnel.length + r.unfinished + bytes

theorem adds_fail {r : Reading} {reason : String} {bytes : Nat} : Adds r (r.fail reason) bytes :=
  ⟨Nat.le_refl _, Nat.le_add_right _ _, nofun⟩

variable (limit) in
/-- What a frame adds to the tunnel and the unfinished message. -/
theorem dispatch_adds (r : Reading) (opcode : UInt8) (fin : Bool) (payload : Bytes) :
    Adds r (r.dispatch limit opcode fin payload)
      (if decide (opcode &&& 0x08 ≠ 0) then 0 else payload.length) := by
  have hsame : ∀ d : Reading, d.tunnel = r.tunnel → d.fragment = r.fragment → Adds r d 0 := by
    intro d htunnel hfragment
    simp [adds_iff, Reading.unfinished, htunnel, hfragment]
  induction opcode using opcode_cases with
  | continuation =>
    change Adds r (r.continuation limit fin payload) payload.length
    unfold Reading.continuation
    cases hfragment : r.fragment with
    | none => exact adds_fail
    | some start =>
      dsimp only
      split_ifs
      · exact adds_fail
      · simp [adds_iff, Reading.unfinished, hfragment]
        omega
      · simp [adds_iff, Reading.unfinished, hfragment, Nat.add_assoc]
  | binary =>
    change Adds r (r.binary fin payload) payload.length
    unfold Reading.binary
    cases hfragment : r.fragment with
    | some => exact adds_fail
    | none =>
      split_ifs <;> simp [adds_iff, Reading.unfinished, hfragment]
  | close =>
    change Adds r (r.close payload) 0
    unfold Reading.close
    split_ifs
    · exact adds_fail
    · exact hsame _ rfl rfl
    · exact hsame _ rfl rfl
  | ping | pong => exact hsame _ rfl rfl
  | other opcode h0 h2 h8 h9 hA =>
    rw [Reading.dispatch, if_neg h0, if_neg h2, if_neg h8, if_neg h9, if_neg hA]
    exact adds_fail

theorem account_eq {r : Reading} (h : r.error = none) (consumable : Nat) :
    r.account consumable = { r with consumable := r.consumable + consumable } := by
  simp [Reading.account, h]

theorem account_tunnel (r : Reading) (consumable : Nat) :
    (r.account consumable).tunnel = r.tunnel ∧
      r.consumable ≤ (r.account consumable).consumable := by
  unfold Reading.account
  split
  · exact ⟨rfl, Nat.le_refl _⟩
  · exact ⟨rfl, Nat.le_add_right _ _⟩

/-- A step keeps the ledger. -/
theorem readFrame_balanced {fed : Nat} {s t : Reading × Bytes} (hs : Balanced fed s)
    (h : readFrame role limit s = some t) : Balanced fed t := by
  obtain ⟨herror, ⟨reason, -, rfl⟩ | ⟨header, hparse, hlength, rfl⟩⟩ := readFrame_cases h
  · exact ⟨hs.1, nofun⟩
  have hadds := dispatch_adds limit s.1 header.opcode header.fin (framePayload header s.2)
  have hbefore := hs.2 herror
  have htotal := consumableOf_add header
  have hcontrol : header.control = decide (header.opcode &&& 0x08 ≠ 0) := rfl
  rw [framePayload_length hlength, ← hcontrol] at hadds
  have hmost := hadds.most
  have hall := hadds.all
  cases hnone : (s.1.dispatch limit header.opcode header.fin (framePayload header s.2)).error with
  | none =>
    have hsum := hall hnone
    rw [account_eq hnone]
    simp only [Balanced, unfinished] at hsum hbefore ⊢
    simp only [dispatch_consumable, length_drop]
    omega
  | some reason =>
    have hkept : ∀ consumable, (s.1.dispatch limit header.opcode header.fin
        (framePayload header s.2)).account consumable =
          s.1.dispatch limit header.opcode header.fin (framePayload header s.2) := by
      simp [Reading.account, hnone]
    rw [hkept]
    refine ⟨?_, fun hfalse => by cases hnone.symm.trans hfalse⟩
    simp only [dispatch_consumable, length_drop]
    omega

theorem read_balanced (input : Bytes) : Balanced input.length (read role limit input) := by
  have hkept : ∀ s t, Balanced input.length s → (reader role limit).step s = some t →
      Balanced input.length t := fun _ _ => readFrame_balanced
  exact Loop.run_invariant hkept (by simp [Balanced, unfinished])

/-- What a codec that this much was taken from can hold of a reading. -/
def Fits (tunnel : Bytes) (consumable : Nat) (r : Reading) : Prop :=
  r.tunnel.length ≤ tunnel.length + maxPendingBytes ∧ r.consumable ≤ consumable + maxSize

/-- Reading on takes nothing back. -/
theorem Fits.of_run {tunnel : Bytes} {consumable : Nat} {s : Reading × Bytes}
    (h : Fits tunnel consumable ((reader role limit).run s).1) : Fits tunnel consumable s.1 := by
  have hkept : ∀ t u, s.1.tunnel.length ≤ t.1.tunnel.length ∧ s.1.consumable ≤ t.1.consumable →
      (reader role limit).step t = some u →
      s.1.tunnel.length ≤ u.1.tunnel.length ∧ s.1.consumable ≤ u.1.consumable := by
    intro t u hbefore hstep
    obtain ⟨-, ⟨reason, -, rfl⟩ | ⟨header, -, -, rfl⟩⟩ := readFrame_cases hstep
    · exact hbefore
    obtain ⟨htunnel, hmore⟩ := account_tunnel (t.1.dispatch limit header.opcode header.fin
      (framePayload header t.2)) (consumableOf header)
    have hgrows := (dispatch_adds limit t.1 header.opcode header.fin
      (framePayload header t.2)).grows
    rw [dispatch_consumable] at hmore
    exact ⟨hbefore.1.trans (htunnel ▸ hgrows), hbefore.2.trans hmore⟩
  obtain ⟨htunnel, hmore⟩ := Loop.run_invariant hkept ⟨Nat.le_refl _, Nat.le_refl _⟩
  exact ⟨htunnel.trans h.1, hmore.trans h.2⟩

end Ledger

section Simulation

/-- The replies as the codec sends them. -/
def replyWire (role : WebSocketRole) (keys : Nat → MaskingKey)
    (replies : List (UInt8 × Bytes)) : Bytes :=
  (replies.zipIdx.map fun x => frameWire role (keys x.2) x.1.1 x.1.2 true).flatten

theorem replyWire_snoc (role : WebSocketRole) (keys : Nat → MaskingKey)
    (replies : List (UInt8 × Bytes)) (opcode : UInt8) (payload : Bytes) :
    replyWire role keys (replies ++ [(opcode, payload)]) = replyWire role keys replies ++
        frameWire role (keys replies.length) opcode payload true := by
  simp [replyWire, zipIdx_append]

theorem frameWire_congr {role : WebSocketRole} {key key' : MaskingKey}
    (h : role.masks = true → key = key') (opcode : UInt8) (payload : Bytes) (final : Bool) :
    frameWire role key opcode payload final = frameWire role key' opcode payload final := by
  unfold frameWire
  split
  · rename_i hmasks
    rw [h hmasks]
  · rfl

variable {keys : Nat → MaskingKey}

/-- A codec, together with what was taken from it, agrees with a reading and the
bytes behind it. -/
structure Agrees (keys : Nat → MaskingKey) (tunnel : Bytes) (consumable : Nat) (replies : Bytes)
    (c : WebSocketCodec) (r : Reading) (pending : Bytes) : Prop where
  error : c.error = r.error
  tunnel : tunnel ++ c.decoded = r.tunnel
  consumable : consumable + c.immediatelyConsumable = r.consumable
  replies : replies ++ c.wireReplies = replyWire c.role keys r.replies
  drawn : c.role.masks = true → c.drawn = r.replies.length
  closeSent : c.closeSent = r.closeSent
  closed : c.closed = r.closed
  fragmented : r.error = none → c.fragmentedBinary = r.fragment.isSome ∧
    ∀ start, r.fragment = some start → c.fragmented = start
  input : r.error = none → c.retained = pending

namespace Agrees

variable {tunnel replies pending : Bytes} {consumable : Nat} {c : WebSocketCodec} {r : Reading}
  {payload : Bytes}

variable (h : Agrees keys tunnel consumable replies c r pending)
include h

section

variable (hlive : r.error = none)
include hlive

theorem fail (reason : String) (rest : Bytes) :
    Agrees keys tunnel consumable replies (c.fail reason) (r.fail reason) rest where
  error := by simp [WebSocketCodec.fail, Reading.fail, h.error, hlive]
  tunnel := h.tunnel
  consumable := h.consumable
  replies := h.replies
  drawn := h.drawn
  closeSent := h.closeSent
  closed := h.closed
  fragmented := nofun
  input := nofun

theorem continuation (fin : Bool)
    (hroom : (r.continuation c.limit.1 fin payload).tunnel.length ≤
      tunnel.length + maxPendingBytes) :
    Agrees keys tunnel consumable replies (c.continuation fin payload)
      (r.continuation c.limit.1 fin payload) pending := by
  obtain ⟨hbinary, hstart⟩ := h.fragmented hlive
  have hlength := congrArg length h.tunnel
  rw [length_append] at hlength
  unfold Reading.continuation at hroom
  unfold WebSocketCodec.continuation Reading.continuation
  cases hfragment : r.fragment with
  | none =>
    rw [hfragment] at hbinary
    rw [hbinary]
    exact h.fail hlive _ _
  | some start =>
    rw [hfragment] at hbinary
    simp only [hfragment] at hroom
    simp only [hbinary, hstart start hfragment, isSome_some, Bool.not_true,
      Bool.false_eq_true, if_false]
    by_cases hlong : payload.length > c.limit.1 - start.length
    · rw [if_pos hlong, if_pos hlong]
      exact h.fail hlive _ _
    rw [if_neg hlong] at hroom
    rw [if_neg hlong, if_neg hlong]
    cases fin with
    | false => exact { h with fragmented := fun _ => ⟨rfl, fun _ heq => some.inj heq⟩ }
    | true =>
      rw [if_pos rfl, length_append] at hroom
      have hfits : ¬ (start ++ payload).length > maxPendingBytes - c.decoded.length := by omega
      simp only [Bool.not_true, Bool.false_eq_true, if_false, if_true]
      rw [if_neg hfits]
      exact { h with
        tunnel := by rw [← h.tunnel, append_assoc]
        fragmented := fun _ => ⟨rfl, nofun⟩ }

theorem binary (fin : Bool)
    (hroom : (r.binary fin payload).tunnel.length ≤ tunnel.length + maxPendingBytes) :
    Agrees keys tunnel consumable replies (c.binary fin payload) (r.binary fin payload)
      pending := by
  obtain ⟨hbinary, -⟩ := h.fragmented hlive
  have hlength := congrArg length h.tunnel
  rw [length_append] at hlength
  unfold Reading.binary at hroom
  unfold WebSocketCodec.binary Reading.binary
  cases hfragment : r.fragment with
  | some =>
    rw [hfragment] at hbinary
    rw [hbinary]
    exact h.fail hlive _ _
  | none =>
    rw [hfragment] at hbinary hroom
    simp only [hbinary, isSome_none, Bool.false_eq_true, if_false]
    cases fin with
    | false => exact { h with fragmented := fun _ => ⟨rfl, fun _ heq => some.inj heq⟩ }
    | true =>
      simp only [if_true, length_append] at hroom
      have hfits : ¬ payload.length > maxPendingBytes - c.decoded.length := by omega
      simp only [Bool.not_true, Bool.false_eq_true, if_false, if_true]
      rw [if_neg hfits]
      exact { h with
        tunnel := by rw [← h.tunnel, append_assoc]
        fragmented := fun _ => ⟨rfl, nofun⟩ }

omit hlive in
theorem reply (opcode : UInt8) (hsize : payload.length ≤ maxMessageBytes) :
    Agrees keys tunnel consumable replies (c.reply keys opcode payload)
      (r.reply opcode payload) pending := by
  have hframe : c.encodeFrame keys opcode ⟨payload, []⟩ true =
      (.ok (frameWire c.role (keys c.drawn) opcode payload true),
        if c.role.masks then { c with drawn := c.drawn + 1 } else c) := by
    rw [WebSocketCodec.encodeFrame, if_neg (by simpa [WebSocketPayload.size] using hsize)]
    simp [WebSocketPayload.bytes]
  have hwire := frameWire_congr (fun hmasks => congrArg keys (h.drawn hmasks)) opcode payload true
  have hreplies : replies ++ (c.wireReplies ++
      frameWire c.role (keys c.drawn) opcode payload true) =
        replyWire c.role keys (r.replies ++ [(opcode, payload)]) := by
    rw [replyWire_snoc, hwire, ← h.replies, append_assoc]
  rw [WebSocketCodec.reply, hframe]
  cases hmasks : c.role.masks with
  | false =>
    exact { h with
      replies := hreplies
      drawn := fun hmasked => absurd (hmasks.symm.trans hmasked) Bool.false_ne_true }
  | true =>
    exact { h with
      replies := hreplies
      drawn := fun _ => by
        simp only [if_true, Reading.reply, length_append, length_singleton]
        rw [h.drawn hmasks] }

theorem close (hsize : payload.length ≤ maxMessageBytes) :
    Agrees keys tunnel consumable replies (c.close keys payload) (r.close payload) pending := by
  unfold WebSocketCodec.close Reading.close
  by_cases hone : payload.length = 1
  · rw [if_pos hone, if_pos hone]
    exact h.fail hlive _ _
  rw [if_neg hone, if_neg hone]
  have hclosed : Agrees keys tunnel consumable replies { c with closed := true }
      { r with closed := true } pending := { h with closed := rfl }
  by_cases hsent : r.closeSent = true
  · rw [if_pos (h.closeSent.trans hsent), if_pos hsent]
    exact hclosed
  rw [if_neg (h.closeSent ▸ hsent), if_neg hsent]
  exact { hclosed.reply 0x8 hsize with closeSent := rfl }

theorem dispatch (opcode : UInt8) (fin : Bool) (hsize : payload.length ≤ maxMessageBytes)
    (hroom : (r.dispatch c.limit.1 opcode fin payload).tunnel.length ≤
      tunnel.length + maxPendingBytes) :
    Agrees keys tunnel consumable replies (c.dispatch keys opcode fin payload)
      (r.dispatch c.limit.1 opcode fin payload) pending := by
  induction opcode using opcode_cases with
  | continuation => exact h.continuation hlive fin hroom
  | binary => exact h.binary hlive fin hroom
  | close => exact h.close hlive hsize
  | ping => exact h.reply 0xA hsize
  | pong => exact h
  | other opcode h0 h2 h8 h9 hA =>
    rw [WebSocketCodec.dispatch, Reading.dispatch, if_neg h0, if_neg h0, if_neg h2, if_neg h2,
      if_neg h8, if_neg h8, if_neg h9, if_neg h9, if_neg hA, if_neg hA]
    exact h.fail hlive _ _

end

theorem account {more : Nat} (hroom : (r.account more).consumable ≤ consumable + maxSize) :
    Agrees keys tunnel consumable replies (c.account more) (r.account more) pending := by
  have hsum := h.consumable
  unfold Reading.account at hroom
  unfold WebSocketCodec.account Reading.account WebSocketCodec.failed
  by_cases hfailed : r.error.isSome = true
  · rw [if_pos (h.error ▸ hfailed), if_pos hfailed]
    exact h
  simp only [if_neg hfailed] at hroom
  rw [if_neg (h.error ▸ hfailed), if_neg hfailed, if_neg (by omega)]
  exact { h with consumable := by simp only [← h.consumable, Nat.add_assoc] }

end Agrees

section Unmasking

variable {c : WebSocketCodec} {header : FrameHeader}

theorem keyAt_retained (position : Nat) :
    keyAt c.inbound (c.inboundOffset + position) = keyAt c.retained position := by
  apply Subtype.ext
  simp only [keyAt, retained, drop_drop]

theorem frame_inside (hpositive : 0 < header.total) (h : header.total ≤ c.retained.length) :
    c.inboundOffset + header.payloadAt + header.payloadSize ≤ c.inbound.length := by
  simp only [FrameHeader.total, retained, length_drop] at h hpositive
  omega

/-- The payload where it lies after unmasking is the payload of the frame. -/
theorem unmask_payload (hpositive : 0 < header.total) (h : header.total ≤ c.retained.length) :
    ((c.unmask header).inbound.drop (c.inboundOffset + header.payloadAt)).take
      header.payloadSize = framePayload header c.retained := by
  have hinside := frame_inside hpositive h
  have htake : (c.inbound.take (c.inboundOffset + header.payloadAt)).length =
      c.inboundOffset + header.payloadAt := length_take_of_le (by omega)
  have hraw : ((c.inbound.drop (c.inboundOffset + header.payloadAt)).take
      header.payloadSize).length = header.payloadSize := by
    rw [length_take, length_drop]
    omega
  unfold unmask framePayload
  rw [keyAt_retained, retained, drop_drop]
  split
  · dsimp only
    rw [drop_left' htake, take_left' (by rw [applyWebSocketMask_length, hraw])]
  · rfl

/-- The input behind the frame is untouched. -/
theorem unmask_rest (hpositive : 0 < header.total) (h : header.total ≤ c.retained.length) :
    (c.unmask header).inbound.drop (c.inboundOffset + header.total) =
      c.retained.drop header.total := by
  have hinside := frame_inside hpositive h
  have hend : c.inboundOffset + header.total =
      c.inboundOffset + header.payloadAt + header.payloadSize := by
    simp only [FrameHeader.total]
    omega
  unfold unmask
  rw [retained, drop_drop, hend]
  split
  · dsimp only
    rw [← append_assoc, drop_left']
    rw [length_append, applyWebSocketMask_length, length_take, length_take, length_drop]
    omega
  · rfl

end Unmasking

namespace Agrees

variable {tunnel replies pending : Bytes} {consumable : Nat} {c : WebSocketCodec} {r : Reading}
  {header : FrameHeader}

variable (h : Agrees keys tunnel consumable replies c r pending)
include h

/-- A frame that is complete is taken as the reading takes it. -/
theorem takeFrame (hlive : r.error = none)
    (hpositive : 0 < header.total) (hlength : header.total ≤ pending.length)
    (hsize : header.payloadSize ≤ maxMessageBytes)
    (hroom : Fits tunnel consumable ((r.dispatch c.limit.1 header.opcode header.fin
      (framePayload header pending)).account (consumableOf header))) :
    Agrees keys tunnel consumable replies (c.takeFrame keys header)
      ((r.dispatch c.limit.1 header.opcode header.fin (framePayload header pending)).account
        (consumableOf header)) (pending.drop header.total) := by
  obtain rfl := h.input hlive
  have hpayload := unmask_payload hpositive hlength
  have hrest := unmask_rest hpositive hlength
  have hframe := framePayload_length hlength
  obtain ⟨inbound, hunmask⟩ := unmask_fields (c := c) header
  rw [hunmask] at hpayload hrest
  have hadvanced : Agrees keys tunnel consumable replies
      { c with inbound := inbound, inboundOffset := c.inboundOffset + header.total } r
      (c.retained.drop header.total) := { h with input := fun _ => hrest }
  have htunnel := (account_tunnel (r.dispatch c.limit.1 header.opcode header.fin
    (framePayload header c.retained)) (consumableOf header)).1
  have hdispatched := hadvanced.dispatch hlive header.opcode header.fin (hframe.trans_le hsize)
    (htunnel ▸ hroom.1)
  unfold takeFrame
  simp only [hunmask, hpayload]
  exact hdispatched.account hroom.2

/-- The codec's rounds are the reader's steps. -/
theorem round (hroom : ∀ s, readFrame c.role c.limit.1 (r, pending) = some s →
      Fits tunnel consumable s.1) :
    (c.processFrame keys = none ∧ readFrame c.role c.limit.1 (r, pending) = none) ∨
      ∃ c' s, c.processFrame keys = some c' ∧
        readFrame c.role c.limit.1 (r, pending) = some s ∧
        Agrees keys tunnel consumable replies c' s.1 s.2 ∧ c'.role = c.role ∧
        c'.limit = c.limit := by
  by_cases hfailed : r.error.isSome = true
  · left
    simp [processFrame, readFrame, failed, h.error, hfailed]
  have hlive : r.error = none := by simpa using hfailed
  have hinput := h.input hlive
  have hcodec : ¬ c.failed = true := by rwa [failed, h.error]
  unfold readFrame at hroom
  rw [if_neg hfailed] at hroom
  unfold processFrame readFrame
  rw [if_neg hcodec, if_neg hfailed, hinput]
  cases hparse : parseHeader c.role c.limit.1 pending with
  | error halt =>
    cases halt with
    | waiting => exact .inl ⟨rfl, rfl⟩
    | failed => exact .inr ⟨_, _, rfl, rfl, h.fail hlive _ _, rfl, rfl⟩
  | ok header =>
    dsimp only
    by_cases hlong : pending.length < header.total
    · rw [if_pos hlong, if_pos hlong]
      exact .inl ⟨rfl, rfl⟩
    simp only [hparse, if_neg hlong] at hroom
    rw [if_neg hlong, if_neg hlong]
    have hpositive := two_le_total hparse
    have hsize : header.payloadSize ≤ maxMessageBytes :=
      (parseHeader_size hparse).trans (max_le c.limit.2.2 (by decide))
    exact .inr ⟨_, _, rfl, rfl, h.takeFrame hlive (by omega) (by omega) hsize (hroom _ rfl),
      takeFrame_role keys header⟩

/-- `Process` reads on where the reading stopped. -/
theorem process
    (hfits : Fits tunnel consumable ((reader c.role c.limit.1).run (r, pending)).1) :
    Agrees keys tunnel consumable replies (c.process keys)
        ((reader c.role c.limit.1).run (r, pending)).1
        ((reader c.role c.limit.1).run (r, pending)).2 ∧
      (c.process keys).role = c.role ∧ (c.process keys).limit = c.limit := by
  let R : WebSocketCodec → Reading × Bytes → Prop := fun d s =>
    Agrees keys tunnel consumable replies d s.1 s.2 ∧
      Fits tunnel consumable ((reader c.role c.limit.1).run s).1 ∧ d.role = c.role ∧
      d.limit = c.limit
  have hround : ∀ d s, R d s → (d.processFrame keys = none ∧ readFrame c.role c.limit.1 s = none) ∨
      ∃ d' t, d.processFrame keys = some d' ∧ readFrame c.role c.limit.1 s = some t ∧ R d' t := by
    rintro d s ⟨hagrees, hroom, hrole, hlimit⟩
    have hstep : ∀ t, readFrame c.role c.limit.1 s = some t →
        Fits tunnel consumable ((reader c.role c.limit.1).run t).1 := by
      intro t ht
      have hmoved : (reader c.role c.limit.1).step s = some t := ht
      rw [← Loop.run_of_some hmoved]
      exact hroom
    rw [← hrole, ← hlimit] at hstep ⊢
    obtain hdone | ⟨d', t, hd, ht, hagrees', hrole', hlimit'⟩ :=
      hagrees.round fun t ht => (hstep t ht).of_run
    · exact .inl hdone
    refine .inr ⟨d', t, hd, ht, hagrees', ?_, hrole'.trans hrole, hlimit'.trans hlimit⟩
    rw [← hrole, ← hlimit]
    exact hstep t ht
  have hrun : R ((processLoop keys).run c) ((reader c.role c.limit.1).run (r, pending)) := by
    refine Loop.run_related ?_ ?_ ⟨h, hfits, rfl, rfl⟩
    · intro d s hd hnone
      obtain ⟨-, hreader⟩ | ⟨d', t, hsome, -⟩ := hround d s hd
      · exact hreader
      · cases hnone.symm.trans hsome
    intro d d' s hd hsome
    obtain ⟨hnone, -⟩ | ⟨e, t, hstep, hreader, hkept⟩ := hround d s hd
    · cases hnone.symm.trans hsome
    cases hstep.symm.trans hsome
    exact ⟨t, hreader, hkept⟩
  exact ⟨hrun.1, hrun.2.2⟩

end Agrees

end Simulation

end Yume.Stealth
