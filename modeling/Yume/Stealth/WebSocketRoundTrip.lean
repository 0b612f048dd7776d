/-
Two WebSocket codecs talking: what one encodes, the other decodes, however the
bytes are cut into feeds and whenever the decoded bytes are drained.
-/
import Yume.Stealth.WebSocketStream

namespace Yume.Stealth

open Yume.Lib WebSocketCodec List

section Receiving

/-- A codec with what was fed to it and what was taken from it. -/
structure Receiver where
  codec : WebSocketCodec
  fed : Bytes := []
  tunnel : Bytes := []
  consumable : Nat := 0
  replies : Bytes := []

inductive Event
  | feed (chunk : Bytes)
  | takeDrain
  | takeWireReplies
deriving Repr, DecidableEq

/-- All bytes that the events feed. -/
def fedBytes : List Event → Bytes
  | [] => []
  | .feed chunk :: events => chunk ++ fedBytes events
  | .takeDrain :: events => fedBytes events
  | .takeWireReplies :: events => fedBytes events

namespace Receiver

variable (keys : Nat → MaskingKey)

def handle (receiver : Receiver) : Event → Receiver
  | .feed chunk =>
    { receiver with
      codec := receiver.codec.feed keys chunk
      fed := receiver.fed ++ chunk }
  | .takeDrain =>
    let (drain, codec) := receiver.codec.takeDrain
    { receiver with
      codec := codec
      tunnel := receiver.tunnel ++ drain.1
      consumable := receiver.consumable + drain.2 }
  | .takeWireReplies =>
    let (replies, codec) := receiver.codec.takeWireReplies
    { receiver with codec := codec, replies := receiver.replies ++ replies }

def run (receiver : Receiver) (events : List Event) : Receiver :=
  events.foldl (handle keys) receiver

/-- What the codec needs of a chunk: the input it has not parsed stays within 32
MiB, and what it has read and not handed over within its bounds. -/
def Room (receiver : Receiver) (chunk : Bytes) : Prop :=
  receiver.codec.failed = false →
    receiver.codec.retained.length + chunk.length ≤ maxPendingBytes ∧
    Fits receiver.tunnel receiver.consumable
      (read receiver.codec.role receiver.codec.limit.1 (receiver.fed ++ chunk)).1

/-- There is room for every feed. -/
def Paced : Receiver → List Event → Prop
  | _, [] => True
  | receiver, event :: events =>
    (∀ chunk, event = .feed chunk → receiver.Room chunk) ∧
    Paced (receiver.handle keys event) events

end Receiver

variable {keys : Nat → MaskingKey} {role : WebSocketRole} {limit : MessageLimit}

theorem Agrees.of_failed {tunnel replies pending other : Bytes} {consumable : Nat}
    {c : WebSocketCodec} {r : Reading} (h : Agrees keys tunnel consumable replies c r pending)
    (hfailed : r.error ≠ none) : Agrees keys tunnel consumable replies c r other :=
  { h with input := fun hlive => absurd hlive hfailed }

/-- `Feed` reads on with the new chunk. -/
theorem Agrees.feed {tunnel replies input : Bytes} {consumable : Nat} {c : WebSocketCodec}
    (h : Agrees keys tunnel consumable replies c (read c.role c.limit.1 input).1
      (read c.role c.limit.1 input).2) (chunk : Bytes)
    (hroom : c.failed = false → c.retained.length + chunk.length ≤ maxPendingBytes ∧
      Fits tunnel consumable (read c.role c.limit.1 (input ++ chunk)).1) :
    Agrees keys tunnel consumable replies (c.feed keys chunk)
        (read c.role c.limit.1 (input ++ chunk)).1 (read c.role c.limit.1 (input ++ chunk)).2 ∧
      (c.feed keys chunk).role = c.role ∧ (c.feed keys chunk).limit = c.limit := by
  unfold WebSocketCodec.feed
  by_cases hempty : chunk.length = 0
  · rw [if_pos (.inr hempty), eq_nil_of_length_eq_zero hempty, append_nil]
    exact ⟨h, rfl, rfl⟩
  by_cases hfailed : (read c.role c.limit.1 input).1.error ≠ none
  · have hcodec : c.failed = true := by
      rw [WebSocketCodec.failed, h.error, Option.isSome_iff_ne_none]
      exact hfailed
    rw [if_pos (.inl hcodec), read_failed hfailed]
    exact ⟨h.of_failed hfailed, rfl, rfl⟩
  have hlive := not_not.mp hfailed
  have hcodec : c.failed = false := by
    rw [WebSocketCodec.failed, h.error, hlive]
    rfl
  have hinput := h.input hlive
  obtain ⟨hlength, hfits⟩ := hroom hcodec
  rw [WebSocketCodec.retained, length_drop] at hlength
  rw [read_append] at hfits
  rw [if_neg (by simp [hcodec, hempty]), if_neg (by omega)]
  have happended : Agrees keys tunnel consumable replies
      { c with inbound := c.inbound.drop c.inboundOffset ++ chunk, inboundOffset := 0 }
      (read c.role c.limit.1 input).1 ((read c.role c.limit.1 input).2 ++ chunk) :=
    { h with input := fun _ => congrArg (· ++ chunk) hinput }
  obtain ⟨hprocessed, hrole, hlimit⟩ := happended.process hfits
  rw [read_append]
  dsimp only at hprocessed hrole hlimit ⊢
  split
  · rename_i hdone
    refine ⟨{ hprocessed with input := fun hnone => ?_ }, hrole, hlimit⟩
    rw [← hprocessed.input hnone, WebSocketCodec.retained, WebSocketCodec.retained, hdone]
    simp
  · exact ⟨hprocessed, hrole, hlimit⟩

/-- A receiver that has read all that was fed to it. -/
structure Follows (keys : Nat → MaskingKey) (role : WebSocketRole) (limit : MessageLimit)
    (receiver : Receiver) (input : Bytes) : Prop where
  hasRole : receiver.codec.role = role
  hasLimit : receiver.codec.limit = limit
  fed : receiver.fed = input
  agrees : Agrees keys receiver.tunnel receiver.consumable receiver.replies receiver.codec
    (read role limit.1 input).1 (read role limit.1 input).2

/-- A codec that has not been used. -/
def freshReceiver (role : WebSocketRole) (limit : MessageLimit) : Receiver :=
  { codec := { role := role, limit := limit } }

variable (keys role limit) in
theorem follows_start : Follows keys role limit (freshReceiver role limit) [] := by
  have hread : read role limit.1 [] = ({}, []) := Loop.run_of_none rfl
  refine ⟨rfl, rfl, rfl, ?_⟩
  rw [hread]
  exact ⟨rfl, rfl, rfl, rfl, fun _ => rfl, rfl, rfl, fun _ => ⟨rfl, nofun⟩, fun _ => rfl⟩

/-- A feed keeps the agreement. -/
theorem Follows.feed {receiver : Receiver} {input chunk : Bytes}
    (h : Follows keys role limit receiver input) (hroom : receiver.Room chunk) :
    Follows keys role limit (receiver.handle keys (.feed chunk)) (input ++ chunk) := by
  obtain ⟨hrole, hlimit, hfed, hagrees⟩ := h
  subst hrole hlimit hfed
  obtain ⟨hfeed, hrole, hlimit⟩ := hagrees.feed chunk hroom
  exact ⟨hrole, hlimit, rfl, hfeed⟩

/-- Taking what the codec has read keeps it too. -/
theorem Follows.takes {receiver : Receiver} {input : Bytes}
    (h : Follows keys role limit receiver input) :
    Follows keys role limit (receiver.handle keys .takeDrain) input ∧
      Follows keys role limit (receiver.handle keys .takeWireReplies) input := by
  refine ⟨⟨h.hasRole, h.hasLimit, h.fed, { h.agrees with tunnel := ?_, consumable := ?_ }⟩,
    h.hasRole, h.hasLimit, h.fed, { h.agrees with replies := ?_ }⟩
  · simpa [Receiver.handle, takeDrain] using h.agrees.tunnel
  · simpa [Receiver.handle, takeDrain] using h.agrees.consumable
  · simpa [Receiver.handle, takeWireReplies] using h.agrees.replies

/-- Events keep the agreement. -/
theorem Follows.run {receiver : Receiver} {input : Bytes}
    (h : Follows keys role limit receiver input) {events : List Event}
    (hpaced : receiver.Paced keys events) :
    Follows keys role limit (receiver.run keys events) (input ++ fedBytes events) := by
  induction events generalizing receiver input with
  | nil => simpa [Receiver.run, fedBytes] using h
  | cons event events ih =>
    obtain ⟨hroom, hpaced⟩ := hpaced
    cases event with
    | feed chunk =>
      rw [fedBytes, ← append_assoc]
      exact ih (h.feed (hroom chunk rfl)) hpaced
    | takeDrain => exact ih h.takes.1 hpaced
    | takeWireReplies => exact ih h.takes.2 hpaced

/-- Short streams need no pacing. -/
theorem Follows.paced {receiver : Receiver} {input : Bytes} {events : List Event}
    (h : Follows keys role limit receiver input)
    (hshort : (input ++ fedBytes events).length ≤ maxPendingBytes) :
    receiver.Paced keys events := by
  induction events generalizing receiver input with
  | nil => trivial
  | cons event events ih =>
    cases event with
    | feed chunk =>
      have hroom : receiver.Room chunk := by
        intro hlive
        have hretained := h.agrees.input (by simpa [failed, h.agrees.error] using hlive)
        have hbefore : Balanced _ (read role limit.1 input) := read_balanced _
        have hafter : Balanced _ (read role limit.1 (input ++ chunk)) := read_balanced _
        have hleast := hbefore.1
        have hmost := hafter.1
        have hsize : maxPendingBytes ≤ maxSize := by decide
        simp only [fedBytes, length_append] at hshort hmost
        rw [h.hasRole, h.hasLimit, h.fed, hretained]
        exact ⟨by omega, by omega, by omega⟩
      refine ⟨fun _ heq => (by cases heq; exact hroom), ih (h.feed hroom) ?_⟩
      rwa [append_assoc]
    | takeDrain => exact ⟨fun _ heq => (by cases heq), ih h.takes.1 hshort⟩
    | takeWireReplies => exact ⟨fun _ heq => (by cases heq), ih h.takes.2 hshort⟩

end Receiving

section Sending

/-- A call of one of the encoders. -/
inductive Call
  | binary (payload : WebSocketPayload)
  | binaryFragmented (payload : WebSocketPayload) (firstFragmentBytes : Nat)
  | ping (data : Bytes)
  | close (code : UInt16) (reason : Bytes)
deriving Repr, DecidableEq

/-- The binary payload of a call. -/
def Call.payload : Call → Bytes
  | .binary payload => payload.bytes
  | .binaryFragmented payload _ => payload.bytes
  | .ping _ => []
  | .close _ _ => []

def WebSocketCodec.call (keys : Nat → MaskingKey) (c : WebSocketCodec) :
    Call → Except String Bytes × WebSocketCodec
  | .binary payload => c.encodeBinary keys payload
  | .binaryFragmented payload split => c.encodeBinaryFragmented keys payload split
  | .ping data => c.encodePing keys data
  | .close code reason => c.encodeClose keys code reason

/-- The bytes that a series of calls produces, and the binary payloads in them.
A call that throws leaves the output as it was. -/
def transmit (keys : Nat → MaskingKey) : WebSocketCodec → List Call → Bytes × Bytes
  | _, [] => ([], [])
  | c, call :: calls =>
    match c.call keys call with
    | (.ok bytes, c) =>
      (bytes ++ (transmit keys c calls).1, call.payload ++ (transmit keys c calls).2)
    | (.error _, c) => transmit keys c calls

variable {keys : Nat → MaskingKey} {role : WebSocketRole} {limit : Nat} {opcode : UInt8}
  {final : Bool} {payload : Bytes}

theorem frameWire_length (key : MaskingKey) (opcode : UInt8) (payload : Bytes) (final : Bool) :
    (frameWire role key opcode payload final).length =
      headerBytes payload.length role.masks + payload.length := by
  have hkey := key.2
  unfold frameWire
  rw [headerBytes_eq, length_append, encodeHeader_length]
  split_ifs
  · rw [length_append, applyWebSocketMask_length, hkey]
    omega
  · omega

theorem writtenHeader_payloadAt (opcode : UInt8) (final mask : Bool) (size : Nat) :
    (writtenHeader opcode final mask size).payloadAt = headerBytes size mask := by
  rw [headerBytes_eq]
  rfl

/-- The payload of a written frame is read back. -/
theorem framePayload_written (key : MaskingKey) (opcode : UInt8) (payload rest : Bytes)
    (final : Bool) :
    framePayload (writtenHeader opcode final role.masks payload.length)
      (frameWire role key opcode payload final ++ rest) = payload := by
  have hheader := encodeHeader_length opcode final role.masks payload.length
  unfold framePayload frameWire
  cases hmasks : role.masks with
  | false =>
    rw [hmasks] at hheader
    dsimp only [writtenHeader, FrameHeader.payloadAt, FrameHeader.maskBytes]
    simp only [Bool.false_eq_true, if_false, Nat.add_zero]
    rw [append_assoc, drop_left' hheader, take_left' rfl]
  | true =>
    rw [hmasks] at hheader
    have hkey := key.2
    dsimp only [writtenHeader, FrameHeader.payloadAt, FrameHeader.maskBytes]
    simp only [if_true]
    have hdrop : (encodeHeader opcode final true payload.length ++
        (key.1 ++ applyWebSocketMask payload key 0 ++ rest)).drop
        (2 + (lengthBytes payload.length).length) =
          key.1 ++ applyWebSocketMask payload key 0 ++ rest := drop_left' hheader
    have hread : keyAt (encodeHeader opcode final true payload.length ++
        (key.1 ++ applyWebSocketMask payload key 0) ++ rest)
        (2 + (lengthBytes payload.length).length) = key := by
      apply Subtype.ext
      dsimp only [keyAt]
      rw [append_assoc (encodeHeader _ _ _ _), hdrop, append_assoc,
        take_left' hkey, take_left' hkey]
    rw [hread, append_assoc (encodeHeader _ _ _ _), ← drop_drop, hdrop,
      append_assoc, drop_left' hkey,
      take_left' (applyWebSocketMask_length payload key 0), applyWebSocketMask_twice]

/-- A frame that the other role accepts. -/
structure Acceptable (limit : Nat) (opcode : UInt8) (final : Bool) (payload : Bytes) : Prop where
  nibble : opcode.toNat < 16
  size : payload.length ≤ maxMessageBytes
  data : decide (opcode &&& 0x08 ≠ 0) = false → payload.length ≤ limit
  control : decide (opcode &&& 0x08 ≠ 0) = true → final = true ∧ payload.length ≤ 125

theorem checkHeader_written (h : Acceptable limit opcode final payload) (mask : Bool) :
    checkHeader limit (writtenHeader opcode final mask payload.length) =
      .ok (writtenHeader opcode final mask payload.length) := by
  have hsmall : (lengthBytes payload.length).length ≤ 8 := by
    unfold lengthBytes
    split_ifs <;> simp
  have hmask : (writtenHeader opcode final mask payload.length).maskBytes ≤ 4 := by
    unfold FrameHeader.maskBytes
    split_ifs <;> simp
  have hsize := h.size
  have hoverflow : ¬ (writtenHeader opcode final mask payload.length).payloadSize >
      maxSize - (writtenHeader opcode final mask payload.length).offset -
        (writtenHeader opcode final mask payload.length).maskBytes := by
    simp only [maxMessageBytes, maxSize] at hsize ⊢
    dsimp only [writtenHeader] at hmask ⊢
    omega
  unfold checkHeader
  rw [if_neg, if_neg, if_neg hoverflow]
  · rintro ⟨hcontrol, hbad⟩
    obtain ⟨rfl, hshort⟩ := h.control hcontrol
    rcases hbad with hfin | hlong
    · cases hfin
    · exact absurd hshort (Nat.not_le.mpr hlong)
  rintro ⟨hcontrol, hlong⟩
  rw [Bool.not_eq_true'] at hcontrol
  exact absurd (h.data hcontrol) (Nat.not_le.mpr hlong)

/-- A written frame is read by the other role. -/
theorem readFrame_written {r : Reading}
    (hlive : r.error = none) (h : Acceptable limit opcode final payload) (key : MaskingKey)
    (rest : Bytes) :
    readFrame role limit (r, frameWire role.peer key opcode payload final ++ rest) =
      some ((r.dispatch limit opcode final payload).account (consumableOf
        (writtenHeader opcode final role.peer.masks payload.length)), rest) := by
  have hsize : payload.length < 2 ^ 63 := h.size.trans_lt (by decide)
  have hparse : parseHeader role limit (frameWire role.peer key opcode payload final ++ rest) =
      .ok (writtenHeader opcode final role.peer.masks payload.length) := by
    rw [frameWire, append_assoc]
    exact parseHeader_written h.nibble hsize (checkHeader_written h _) _
  have htotal : (writtenHeader opcode final role.peer.masks payload.length).total =
      (frameWire role.peer key opcode payload final).length := by
    rw [frameWire_length, FrameHeader.total, writtenHeader_payloadAt]
    rfl
  have hread := readFrame_of_ok (s := (r, frameWire role.peer key opcode payload final ++ rest))
    hlive hparse (by rw [htotal, length_append]; omega)
  rw [framePayload_written] at hread
  rw [hread, htotal, drop_left' rfl]
  rfl

/-- A reading that stands between two messages. -/
structure Between (r : Reading) : Prop where
  live : r.error = none
  whole : r.fragment = none

theorem encodeFrame_ok {c c' : WebSocketCodec} {payload : WebSocketPayload} {bytes : Bytes}
    (h : c.encodeFrame keys opcode payload final = (.ok bytes, c')) :
    payload.size ≤ maxMessageBytes ∧
      ∃ key, bytes = frameWire c.role key opcode payload.bytes final := by
  unfold encodeFrame at h
  split_ifs at h with hlong hmasks <;> cases h
  · exact ⟨by omega, _, rfl⟩
  · exact ⟨by omega, _, rfl⟩

/-- The reader takes a written frame and goes on behind it. -/
theorem run_written (role : WebSocketRole) (limit : Nat) {r : Reading}
    (hlive : r.error = none) (h : Acceptable limit opcode final payload)
    (hnone : (r.dispatch limit opcode final payload).error = none) (key : MaskingKey) :
    ∃ consumable, ∀ rest,
      (reader role limit).run (r, frameWire role.peer key opcode payload final ++ rest) =
        (reader role limit).run
          ({ r.dispatch limit opcode final payload with consumable := consumable }, rest) := by
  refine ⟨(r.dispatch limit opcode final payload).consumable + consumableOf
    (writtenHeader opcode final role.peer.masks payload.length), fun rest => ?_⟩
  have hstep : (reader role limit).step _ = _ := readFrame_written hlive h key rest
  rw [account_eq hnone] at hstep
  exact Loop.run_of_some hstep

theorem binary_acceptable (hsize : payload.length ≤ maxMessageBytes)
    (hlimit : payload.length ≤ limit) (final : Bool) : Acceptable limit 0x2 final payload :=
  ⟨by decide, hsize, fun _ => hlimit, fun h => absurd h (by decide)⟩

theorem continuation_acceptable (hsize : payload.length ≤ maxMessageBytes)
    (hlimit : payload.length ≤ limit) (final : Bool) : Acceptable limit 0x0 final payload :=
  ⟨by decide, hsize, fun _ => hlimit, fun h => absurd h (by decide)⟩

theorem control_acceptable (hopcode : opcode.toNat < 16)
    (hcontrol : decide (opcode &&& 0x08 ≠ 0) = true) (hshort : payload.length ≤ 125) :
    Acceptable limit opcode true payload :=
  ⟨hopcode, hshort.trans (by decide), fun h => absurd (hcontrol.symm.trans h) (by decide),
    fun _ => ⟨rfl, hshort⟩⟩

/-- What the bytes of a call leave behind: a reading at the next message boundary. -/
def Conveys (role : WebSocketRole) (limit : Nat) (r : Reading) (bytes payload : Bytes) : Prop :=
  ∃ r', Between r' ∧ r'.tunnel = r.tunnel ++ payload ∧
    ∀ rest, (reader role limit).run (r, bytes ++ rest) = (reader role limit).run (r', rest)

section Calls

variable {c c' : WebSocketCodec} {bytes : Bytes} {r : Reading}

/-- A frame that the reader takes from one boundary to the next. -/
theorem conveys_frame {r₁ : Reading} {sent : Bytes} (hr : Between r)
    (h : Acceptable limit opcode final payload)
    (hread : r.dispatch limit opcode final payload = r₁) (hr₁ : Between r₁)
    (htunnel : r₁.tunnel = r.tunnel ++ sent) (key : MaskingKey) :
    Conveys role limit r (frameWire role.peer key opcode payload final) sent := by
  subst hread
  obtain ⟨consumable, hrun⟩ := run_written role limit hr.live h hr₁.live key
  exact ⟨{ r.dispatch limit opcode final payload with consumable := consumable },
    ⟨hr₁.live, hr₁.whole⟩, htunnel, hrun⟩

theorem encodeBinary_conveys {payload : WebSocketPayload}
    (h : c.encodeBinary keys payload = (.ok bytes, c')) (hrole : c.role = role.peer)
    (hsize : payload.bytes.length ≤ limit) (hr : Between r) :
    Conveys role limit r bytes payload.bytes := by
  unfold encodeBinary at h
  split_ifs at h
  · cases h
  obtain ⟨hmax, key, rfl⟩ := encodeFrame_ok h
  have hread : r.dispatch limit 0x2 true payload.bytes =
      { r with tunnel := r.tunnel ++ payload.bytes } := by
    simp [Reading.dispatch, Reading.binary, hr.whole]
  rw [hrole]
  exact conveys_frame hr (binary_acceptable (payload.bytes_length ▸ hmax) hsize true) hread
    ⟨hr.live, hr.whole⟩ rfl key

variable (keys) in
theorem encodeFrame_role (c : WebSocketCodec) (opcode : UInt8) (payload : WebSocketPayload)
    (final : Bool) : (c.encodeFrame keys opcode payload final).2.role = c.role :=
  (encodeFrame_sameInput keys opcode payload final).role

theorem encodeBinaryFragmented_conveys {payload : WebSocketPayload} {split : Nat}
    (h : c.encodeBinaryFragmented keys payload split = (.ok bytes, c'))
    (hrole : c.role = role.peer) (hsize : payload.bytes.length ≤ limit) (hr : Between r) :
    Conveys role limit r bytes payload.bytes := by
  have hsame := encodeFrame_role keys c 0x2 (payload.part 0 split) false
  unfold encodeBinaryFragmented at h
  split_ifs at h with hclosed hsplit
  · cases h
  · cases h
  split at h
  · cases h
  rename_i start c₁ hfirst
  split at h
  · cases h
  rename_i rest c₂ hsecond
  cases h
  rw [hfirst] at hsame
  obtain ⟨hmax, key, rfl⟩ := encodeFrame_ok hfirst
  obtain ⟨hmax', key', rfl⟩ := encodeFrame_ok hsecond
  have hbytes := payload.bytes_length
  have hstart : (payload.part 0 split).bytes = payload.bytes.take split := by
    rw [payload.part_bytes, drop_zero]
  have hrest : (payload.part split (payload.size - split)).bytes = payload.bytes.drop split := by
    rw [payload.part_bytes, take_of_length_le]
    rw [length_drop]
    omega
  rw [← WebSocketPayload.bytes_length, hstart] at hmax
  rw [← WebSocketPayload.bytes_length, hrest] at hmax'
  rw [hstart, hrest, hsame, hrole]
  have hjoin := take_append_drop split payload.bytes
  have hlengths : (payload.bytes.take split).length + (payload.bytes.drop split).length =
      payload.bytes.length := by
    rw [← length_append, hjoin]
  have hopen : r.dispatch limit 0x2 false (payload.bytes.take split) =
      { r with fragment := some (payload.bytes.take split) } := by
    simp [Reading.dispatch, Reading.binary, hr.whole]
  obtain ⟨consumable, hrun⟩ := run_written role limit hr.live
    (binary_acceptable hmax (by omega) false) (by rw [hopen]; exact hr.live) key
  rw [hopen] at hrun
  let r₁ : Reading :=
    { r with fragment := some (payload.bytes.take split), consumable := consumable }
  have hfinish : r₁.dispatch limit 0x0 true (payload.bytes.drop split) =
      { r₁ with tunnel := r.tunnel ++ payload.bytes, fragment := none } := by
    have hfits : ¬ (payload.bytes.drop split).length >
        limit - (payload.bytes.take split).length := by omega
    change r₁.continuation limit true _ = _
    simp only [Reading.continuation, r₁]
    rw [if_neg hfits, hjoin]
    rfl
  obtain ⟨consumable', hrun'⟩ := run_written role limit (r := r₁) hr.live
    (continuation_acceptable hmax' (by omega) true) (by rw [hfinish]; exact hr.live) key'
  rw [hfinish] at hrun'
  refine ⟨{ r₁ with
    tunnel := r.tunnel ++ payload.bytes, fragment := none, consumable := consumable' },
    ⟨hr.live, rfl⟩, rfl, fun rest => ?_⟩
  rw [append_assoc, hrun, hrun']

theorem encodePing_conveys {data : Bytes} (h : c.encodePing keys data = (.ok bytes, c'))
    (hrole : c.role = role.peer) (hr : Between r) :
    Conveys role limit r bytes [] := by
  unfold encodePing at h
  split_ifs at h with hclosed hlong
  · cases h
  · cases h
  obtain ⟨-, key, rfl⟩ := encodeFrame_ok h
  have hbytes : (WebSocketPayload.mk data []).bytes = data := append_nil data
  have hping : Acceptable limit 0x9 true data :=
    control_acceptable (by decide) (by decide) (by omega)
  rw [hrole, hbytes]
  exact conveys_frame hr hping rfl ⟨hr.live, hr.whole⟩ (append_nil _).symm key

theorem encodeClose_conveys {code : UInt16} {reason : Bytes}
    (h : c.encodeClose keys code reason = (.ok bytes, c')) (hrole : c.role = role.peer)
    (hr : Between r) : Conveys role limit r bytes [] := by
  unfold encodeClose at h
  split_ifs at h with hlong
  · cases h
  split at h
  · cases h
  rename_i wire c₁ hframe
  cases h
  obtain ⟨-, key, rfl⟩ := encodeFrame_ok hframe
  have hbytes : (WebSocketPayload.mk (beBytes 2 code.toNat ++ reason) []).bytes =
      beBytes 2 code.toNat ++ reason := append_nil _
  have hlength : (beBytes 2 code.toNat ++ reason).length = 2 + reason.length := by simp
  have hclose : Acceptable limit 0x8 true (beBytes 2 code.toNat ++ reason) :=
    control_acceptable (by decide) (by decide) (by omega)
  have hread : ∃ sent replies, r.dispatch limit 0x8 true (beBytes 2 code.toNat ++ reason) =
      { r with closed := true, closeSent := sent, replies := replies } := by
    have hdispatch : r.dispatch limit 0x8 true (beBytes 2 code.toNat ++ reason) =
        r.close (beBytes 2 code.toNat ++ reason) := rfl
    rw [hdispatch, Reading.close, if_neg (by omega)]
    split
    · exact ⟨r.closeSent, r.replies, rfl⟩
    · exact ⟨true, r.replies ++ [(0x8, _)], rfl⟩
  obtain ⟨sent, replies, hread⟩ := hread
  rw [hrole, hbytes]
  exact conveys_frame hr hclose hread ⟨hr.live, hr.whole⟩ (append_nil _).symm key

/-- A call's bytes take a reading from one message boundary to the next. -/
theorem call_conveys {call : Call} (h : c.call keys call = (.ok bytes, c'))
    (hrole : c.role = role.peer) (hsize : call.payload.length ≤ limit) (hr : Between r) :
    Conveys role limit r bytes call.payload := by
  cases call with
  | binary => exact encodeBinary_conveys h hrole hsize hr
  | binaryFragmented => exact encodeBinaryFragmented_conveys h hrole hsize hr
  | ping => exact encodePing_conveys h hrole hr
  | close => exact encodeClose_conveys h hrole hr

variable (keys) in
theorem call_role (c : WebSocketCodec) (call : Call) : (c.call keys call).2.role = c.role := by
  cases call with
  | binary =>
    simp only [call, encodeBinary]
    split_ifs
    · rfl
    · exact encodeFrame_role keys c _ _ _
  | ping =>
    simp only [call, encodePing]
    split_ifs
    · rfl
    · rfl
    · exact encodeFrame_role keys c _ _ _
  | binaryFragmented payload split =>
    simp only [call, encodeBinaryFragmented]
    split_ifs
    · rfl
    · rfl
    have hfirst := encodeFrame_role keys c 0x2 (payload.part 0 split) false
    split <;> rename_i heq <;> rw [heq] at hfirst
    · exact hfirst
    rename_i start c₁
    have hsecond := encodeFrame_role keys c₁ 0x0 (payload.part split (payload.size - split)) true
    split <;> rename_i heq' <;> rw [heq'] at hsecond <;> exact hsecond.trans hfirst
  | close code reason =>
    simp only [call, encodeClose]
    split_ifs
    · rfl
    have hframe := encodeFrame_role keys c 0x8 ⟨beBytes 2 code.toNat ++ reason, []⟩ true
    split <;> rename_i heq <;> rw [heq] at hframe <;> exact hframe

/-- So do the bytes of all calls together. -/
theorem transmit_conveys {calls : List Call} (hrole : c.role = role.peer)
    (hsize : ∀ call ∈ calls, call.payload.length ≤ limit) (hr : Between r) :
    Conveys role limit r (transmit keys c calls).1 (transmit keys c calls).2 := by
  induction calls generalizing c r with
  | nil => exact ⟨r, hr, (append_nil _).symm, fun _ => rfl⟩
  | cons call calls ih =>
    have hrest : ∀ next ∈ calls, next.payload.length ≤ limit :=
      fun next hnext => hsize next (mem_cons_of_mem _ hnext)
    have hkept := call_role keys c call
    unfold transmit
    split <;> rename_i hcall <;> rw [hcall] at hkept
    · obtain ⟨r₁, hr₁, htunnel, hrun⟩ := call_conveys hcall hrole (hsize call mem_cons_self) hr
      obtain ⟨r₂, hr₂, htunnel', hrun'⟩ := ih (hkept.trans hrole) hrest hr₁
      refine ⟨r₂, hr₂, ?_, fun rest => ?_⟩
      · rw [htunnel', htunnel, append_assoc]
      · rw [append_assoc, hrun, hrun']
    · exact ih (hkept.trans hrole) hrest hr

end Calls

end Sending

section RoundTrip

theorem peer_peer (role : WebSocketRole) : role.peer.peer = role := by cases role <;> rfl

variable {keys : Nat → MaskingKey} {limit : MessageLimit}

/-- What the reader makes of the bytes that a codec of the other role produced. -/
theorem read_transmit (keys : Nat → MaskingKey) (sender : WebSocketCodec) {calls : List Call}
    (hsize : ∀ call ∈ calls, call.payload.length ≤ limit.1) :
    (read sender.role.peer limit.1 (transmit keys sender calls).1).1.error = none ∧
      (read sender.role.peer limit.1 (transmit keys sender calls).1).1.tunnel =
        (transmit keys sender calls).2 ∧
      (read sender.role.peer limit.1 (transmit keys sender calls).1).1.consumable +
        (transmit keys sender calls).2.length = (transmit keys sender calls).1.length := by
  obtain ⟨r, hr, htunnel, hrun⟩ : Conveys sender.role.peer limit.1 {}
      (transmit keys sender calls).1 (transmit keys sender calls).2 :=
    transmit_conveys (peer_peer sender.role).symm hsize ⟨rfl, rfl⟩
  have hstop : (reader sender.role.peer limit.1).run (r, []) = (r, []) := by
    apply Loop.run_of_none
    simp [reader, readFrame, parseHeader]
  have hread : read sender.role.peer limit.1 (transmit keys sender calls).1 = (r, []) := by
    have hwhole := hrun []
    rw [append_nil, hstop] at hwhole
    exact hwhole
  have hledger : Balanced _ (read sender.role.peer limit.1 (transmit keys sender calls).1) :=
    read_balanced _
  rw [hread] at hledger ⊢
  have hsum := hledger.2 hr.live
  rw [htunnel, nil_append] at hsum
  simp only [Reading.unfinished, hr.whole, Option.getD_none, length_nil] at hsum
  exact ⟨hr.live, htunnel, by omega⟩

/-- No prefix of a stream fails unless the stream does. -/
theorem read_initial {role : WebSocketRole} {input whole : Bytes} (hpart : input <+: whole)
    (h : (read role limit.1 whole).1.error = none) : (read role limit.1 input).1.error = none := by
  obtain ⟨rest, rfl⟩ := hpart
  by_contra hfailed
  rw [read_failed hfailed] at h
  exact hfailed h

/-- Feeding chunk after chunk. -/
def feedAll (keys : Nat → MaskingKey) (c : WebSocketCodec) (chunks : List Bytes) :
    WebSocketCodec :=
  chunks.foldl (feed keys) c

variable (keys) in
theorem run_feeds (receiver : Receiver) (chunks : List Bytes) :
    (receiver.run keys (chunks.map .feed)).codec = feedAll keys receiver.codec chunks ∧
      (receiver.run keys (chunks.map .feed)).tunnel = receiver.tunnel ∧
      (receiver.run keys (chunks.map .feed)).replies = receiver.replies := by
  induction chunks generalizing receiver with
  | nil => exact ⟨rfl, rfl, rfl⟩
  | cons chunk chunks ih => exact ih (receiver.handle keys (.feed chunk))

theorem fedBytes_feeds (chunks : List Bytes) : fedBytes (chunks.map .feed) = chunks.flatten := by
  induction chunks with
  | nil => rfl
  | cons chunk chunks ih => simp [fedBytes, ih]

/-- A codec reads a short stream, however it is cut. -/
theorem feedAll_agrees (keys : Nat → MaskingKey) (role : WebSocketRole) (limit : MessageLimit)
    (chunks : List Bytes) (hshort : chunks.flatten.length ≤ maxPendingBytes) :
    (feedAll keys { role := role, limit := limit } chunks).role = role ∧
      ∃ consumable, Agrees keys [] consumable [] (feedAll keys { role := role, limit := limit } chunks)
        (read role limit.1 chunks.flatten).1 (read role limit.1 chunks.flatten).2 := by
  have hpaced : (freshReceiver role limit).Paced keys (chunks.map .feed) :=
    (follows_start keys role limit).paced (by simpa [fedBytes_feeds] using hshort)
  have hfollows := (follows_start keys role limit).run hpaced
  obtain ⟨hcodec, htunnel, hreplies⟩ := run_feeds keys (freshReceiver role limit) chunks
  rw [nil_append, fedBytes_feeds] at hfollows
  have hagrees := hfollows.agrees
  rw [hcodec, htunnel, hreplies] at hagrees
  exact ⟨hcodec ▸ hfollows.hasRole, _, hagrees⟩

/-- Chunking changes nothing: a paced receiver of the other role never fails, hands
over the payloads and accounts for every byte, and a stream of at most 32 MiB means
the same however it is cut. -/
theorem websocket_codec_exact :
    (∀ (senderKeys keys : Nat → MaskingKey) (sender : WebSocketCodec) (calls : List Call)
        (limit : MessageLimit) (events : List Event),
      (∀ call ∈ calls, call.payload.length ≤ limit.1) →
      fedBytes events <+: (transmit senderKeys sender calls).1 →
      (freshReceiver sender.role.peer limit).Paced keys events →
      ((freshReceiver sender.role.peer limit).run keys events).codec.error = none ∧
        (fedBytes events = (transmit senderKeys sender calls).1 →
          ((freshReceiver sender.role.peer limit).run keys (events ++ [.takeDrain])).tunnel =
              (transmit senderKeys sender calls).2 ∧
            ((freshReceiver sender.role.peer limit).run keys
                (events ++ [.takeDrain])).consumable +
              ((freshReceiver sender.role.peer limit).run keys
                (events ++ [.takeDrain])).tunnel.length =
              (transmit senderKeys sender calls).1.length)) ∧
    (∀ (role : WebSocketRole) (limit : MessageLimit) (input : Bytes),
      input.length ≤ maxPendingBytes →
      ∃ tunnel replies closed error, ∀ (keys : Nat → MaskingKey) (chunks : List Bytes),
        chunks.flatten = input →
        (feedAll keys { role := role, limit := limit } chunks).decoded = tunnel ∧
          (feedAll keys { role := role, limit := limit } chunks).wireReplies =
            replyWire role keys replies ∧
          (feedAll keys { role := role, limit := limit } chunks).closed = closed ∧
          (feedAll keys { role := role, limit := limit } chunks).error = error) := by
  constructor
  · intro senderKeys keys sender calls limit events hsize hpart hpaced
    obtain ⟨hlive, htunnel, hbalance⟩ := read_transmit senderKeys sender hsize
    have hfollows := (follows_start keys sender.role.peer limit).run hpaced
    rw [nil_append] at hfollows
    refine ⟨hfollows.agrees.error.trans (read_initial hpart hlive), fun hwhole => ?_⟩
    rw [hwhole] at hfollows
    have htaken := hfollows.agrees.tunnel
    have hconsumable := hfollows.agrees.consumable
    rw [htunnel] at htaken
    have hlast : (freshReceiver sender.role.peer limit).run keys (events ++ [.takeDrain]) =
        ((freshReceiver sender.role.peer limit).run keys events).handle keys .takeDrain := by
      simp [Receiver.run]
    rw [hlast]
    simp only [Receiver.handle, takeDrain]
    rw [htaken, hconsumable]
    exact ⟨rfl, hbalance⟩
  intro role limit input hshort
  refine ⟨(read role limit.1 input).1.tunnel, (read role limit.1 input).1.replies,
    (read role limit.1 input).1.closed, (read role limit.1 input).1.error, ?_⟩
  rintro keys chunks rfl
  obtain ⟨hrole, _, hagrees⟩ := feedAll_agrees keys role limit chunks hshort
  have hreplies := hagrees.replies
  rw [hrole] at hreplies
  exact ⟨hagrees.tunnel, hreplies, hagrees.closed, hagrees.error⟩

def sampleKeys (_draw : Nat) : MaskingKey := ⟨[1, 2, 3, 4], rfl⟩

def sampleLimit : MessageLimit := ⟨maxMessageBytes, by decide⟩

/-- A message in two fragments, then a close. -/
def sampleCalls : List Call := [.binaryFragmented ⟨[5, 6], [7]⟩ 1, .close 1000 []]

def sampleSender : WebSocketCodec := { role := .client, limit := sampleLimit }

def sampleWire : Bytes := (transmit sampleKeys sampleSender sampleCalls).1

def sampleEvents : List Event := [.feed (sampleWire.take 9), .takeDrain, .feed (sampleWire.drop 9)]

theorem sampleEvents_paced : (freshReceiver .server sampleLimit).Paced sampleKeys sampleEvents :=
  (follows_start _ _ _).paced (by decide)

theorem websocket_codec_exact_sample :
    ((freshReceiver .server sampleLimit).run sampleKeys
        (sampleEvents ++ [.takeDrain])).tunnel = [5, 6, 7] ∧
      (feedAll sampleKeys { role := .client, limit := sampleLimit } [[0x82, 1], [9]]).decoded =
        (feedAll sampleKeys { role := .client, limit := sampleLimit } [[0x82, 1, 9]]).decoded := by
  obtain ⟨hround, hchunks⟩ := websocket_codec_exact
  have hfed : fedBytes sampleEvents = sampleWire := by decide
  refine ⟨?_, ?_⟩
  · exact ((hround sampleKeys sampleKeys sampleSender sampleCalls sampleLimit sampleEvents
      (by decide) (hfed ▸ prefix_rfl) sampleEvents_paced).2 hfed).1
  obtain ⟨tunnel, _, _, _, hall⟩ := hchunks .client sampleLimit [0x82, 1, 9] (by decide)
  exact (hall sampleKeys [[0x82, 1], [9]] rfl).1.trans (hall sampleKeys [[0x82, 1, 9]] rfl).1.symm

/-- Open codecs encode every message that is short enough. -/
theorem transmit_binaries {payload : WebSocketPayload} (hsize : payload.size ≤ maxMessageBytes)
    (count : Nat) {c : WebSocketCodec} (hopen : c.closed = false) :
    count * payload.size ≤ (transmit keys c (List.replicate count (.binary payload))).1.length := by
  induction count generalizing c with
  | zero => simp
  | succ count ih =>
    have hcall : c.call keys (.binary payload) =
        (.ok (frameWire c.role (keys c.drawn) 0x2 payload.bytes true),
          if c.role.masks then { c with drawn := c.drawn + 1 } else c) := by
      simp [call, encodeBinary, encodeFrame, hopen, Nat.not_lt.mpr hsize]
    have hstill : (if c.role.masks then { c with drawn := c.drawn + 1 } else c).closed =
        false := by
      split <;> exact hopen
    have hrest := ih hstill
    rw [replicate_succ, transmit, hcall]
    dsimp only
    rw [length_append, frameWire_length, payload.bytes_length, Nat.succ_mul]
    omega

/-- A feed above the bound fails at once. -/
theorem feed_too_long {c : WebSocketCodec} (hlive : c.error = none) {data : Bytes}
    (hlong : maxPendingBytes < data.length) :
    (c.feed keys data).error = some "WebSocket input buffer limit exceeded" := by
  have hfailed : ¬ (c.failed = true ∨ data.length = 0) := by
    rw [failed, hlive]
    rintro (hsome | hempty)
    · cases hsome
    · omega
  rw [feed, if_neg hfailed, if_pos (by omega), fail, hlive]
  rfl

/-- Three messages of the largest size are too much for one feed, although each
is within the receiver's limit. -/
theorem large_feed_fails_of {payload : WebSocketPayload} (hsize : payload.size = maxMessageBytes)
    {limit : MessageLimit} (hlimit : limit.1 = maxMessageBytes) :
    (∀ call ∈ List.replicate 3 (Call.binary payload), call.payload.length ≤ limit.1) ∧
      ((freshReceiver .client limit).run keys
        [.feed (transmit keys { role := .server, limit := limit }
          (List.replicate 3 (.binary payload))).1]).codec.error =
            some "WebSocket input buffer limit exceeded" := by
  refine ⟨?_, feed_too_long rfl (Nat.lt_of_lt_of_le ?_ (transmit_binaries hsize.le 3 rfl))⟩
  · intro call hcall
    obtain rfl := eq_of_mem_replicate hcall
    rw [Call.payload, WebSocketPayload.bytes_length, hsize, hlimit]
  rw [hsize]
  decide

theorem zeros_size (count : Nat) :
    (WebSocketPayload.mk (List.replicate count 0) []).size = count := by
  simp [WebSocketPayload.size]

theorem large_feed_fails :
    (∀ call ∈ List.replicate 3 (Call.binary ⟨List.replicate maxMessageBytes 0, []⟩),
      call.payload.length ≤ sampleLimit.1) ∧
      ((freshReceiver .client sampleLimit).run sampleKeys
        [.feed (transmit sampleKeys { role := .server, limit := sampleLimit }
          (List.replicate 3 (.binary ⟨List.replicate maxMessageBytes 0, []⟩))).1]).codec.error =
            some "WebSocket input buffer limit exceeded" :=
  large_feed_fails_of (zeros_size maxMessageBytes) rfl

end RoundTrip

end Yume.Stealth
