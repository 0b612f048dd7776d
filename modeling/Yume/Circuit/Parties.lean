/-
The cell paths of the two parties of a circuit: what a client seals, queues and
opens, and what a node opens, passes on, seals and queues.  What the streams of
a circuit make of a message is an answer of the surroundings.
-/
import Yume.Circuit.Layer

namespace Yume.Circuit

open Yume.Lib

variable {Key : Type}

/-- What a finished exchange gives both of its sides. -/
structure LayerKeys (Key : Type) where
  forwardKey : Key
  forwardIv : Block layerIvBytes
  backwardKey : Key
  backwardIv : Block layerIvBytes

/-- A hop's layer as one party holds it. -/
structure Layer (Key : Type) where
  forward : LayerCipher Key
  backward : LayerCipher Key

namespace CircuitReason

def unreachable : UInt8 := 1
def protocol : UInt8 := 4
def refused : UInt8 := 5

end CircuitReason

/-! ### The client -/

inductive ClientPhase where
  | building
  | ready
  | closed
deriving Repr, DecidableEq

/-- `ClientCircuit::State` from `start_build` on. -/
structure Client (Key : Type) where
  /-- `route.size()`. -/
  route : Nat
  phase : ClientPhase
  layers : List (Layer Key)
  /-- `forward_queue`. -/
  queue : List Bytes
  /-- History: the messages handled and the hops they were attributed to. -/
  handled : List (Nat × RelayMessage)

/-- What the surroundings of a client decide in one of its steps. -/
structure ClientOutside (Key : Type) where
  /-- Whether the library seals for the layer at an index. -/
  works : Nat → Bool
  /-- `ClientExchange::finish`, for the hop that answers. -/
  finish : Option (LayerKeys Key)
  /-- `ClientExchange::start` and the EXTEND payload made of it. -/
  start : Option Bytes
  /-- Whether the streams take the message. -/
  accepts : Bool

namespace Client

/-- `start_build`, without the CREATE cell. -/
def create (route : Nat) : Client Key where
  route := route
  phase := .building
  layers := []
  queue := []
  handled := []

/-- `fail` and `close`. -/
def close (client : Client Key) : Client Key :=
  { client with phase := .closed, queue := [] }

/-- The layer that a hop's keys make for the client. -/
def layerOf (keys : LayerKeys Key) : Layer Key where
  forward := .create .seal .forward keys.forwardKey keys.forwardIv
  backward := .create .open .backward keys.backwardKey keys.backwardIv

/-- The loop of `send_message`: every layer from the target back to the entry,
the target's innermost.  The layers keep what was counted before a failure. -/
def sealLayers (aead : Aead Key) (bucket : Nat) :
    (Nat → Bool) → List (Layer Key) → Nat → Bytes → List (Layer Key) × Option Bytes
  | _, layers, 0, body => (layers, some body)
  -- The target was checked against the layers.
  | _, [], _ + 1, _ => ([], none)
  | works, layer :: rest, target + 1, body =>
    match sealLayers aead bucket (fun index => works (index + 1)) rest target body with
    | (rest, none) => (layer :: rest, none)
    | (rest, some inner) =>
      match layer.forward.sealCell aead (works 0) bucket inner
          (inner.length + layerTagBytes) with
      | (forward, .error _) => ({ layer with forward } :: rest, none)
      | (forward, .ok text) => ({ layer with forward } :: rest, some text)

/-- The loop of `on_cell`, from the entry outwards. -/
def openLayers (aead : Aead Key) (bucket : Nat) :
    List (Layer Key) → Nat → Bytes → List (Layer Key) × Option Bytes
  | layers, 0, body => (layers, some body)
  -- The count was checked against the layers.
  | [], _ + 1, _ => ([], none)
  | layer :: rest, count + 1, body =>
    match layer.backward.openCell aead bucket body (body.length - layerTagBytes) with
    | (backward, .error _) => ({ layer with backward } :: rest, none)
    | (backward, .ok inner) =>
      let (rest, opened) := openLayers aead bucket rest count inner
      ({ layer with backward } :: rest, opened)

/-- `send_message`, and whether it returned: it throws where it did not. -/
def sendMessage (aead : Aead Key) (works : Nat → Bool) (client : Client Key) (target : Nat)
    (message : RelayMessage) : Client Key × Bool :=
  match padMessage .forward message with
  | none => (client, false)
  | some (bucket, plaintext) =>
    if target = 0 ∨ target > client.layers.length then (client, false)
    else
      match sealLayers aead bucket works client.layers target plaintext with
      | (layers, none) => ({ client with layers }, false)
      | (layers, some body) =>
        match encodeCell .forward .relay bucket body with
        | .error _ => ({ client with layers }, false)
        | .ok cell => ({ client with layers, queue := client.queue ++ [cell] }, true)

/-- A caller of `send_message`: each closes the circuit when it throws. -/
def sendOrClose (aead : Aead Key) (works : Nat → Bool) (client : Client Key) (target : Nat)
    (message : RelayMessage) : Client Key :=
  match client.sendMessage aead works target message with
  | (client, true) => client
  | (client, false) => client.close

/-- `extend`. -/
def extend (aead : Aead Key) (outside : ClientOutside Key) (client : Client Key) : Client Key :=
  match outside.start with
  | none => client.close
  | some payload =>
    client.sendOrClose aead outside.works client.layers.length ⟨.extend, 0, payload⟩

/-- `add_layer`. -/
def addLayer (aead : Aead Key) (outside : ClientOutside Key) (client : Client Key) : Client Key :=
  match outside.finish with
  | none => client.close
  | some keys =>
    let client := { client with layers := client.layers ++ [layerOf keys] }
    if client.layers.length = client.route then { client with phase := .ready }
    else client.extend aead outside

/-- `handle`. -/
def handle (aead : Aead Key) (outside : ClientOutside Key) (client : Client Key) (hop : Nat)
    (message : RelayMessage) : Client Key :=
  let client := { client with handled := client.handled ++ [(hop, message)] }
  if message.type = .circuitFailed then client.close
  else if client.phase = .building then
    if hop ≠ client.layers.length then client.close
    else if message.type = .extended then client.addLayer aead outside
    else client.close
  else if client.phase ≠ .ready ∨ hop ≠ client.route then client.close
  else if message.type = .connected ∨ message.type = .data ∨ message.type = .«end» ∨
      message.type = .streamCredit then
    if outside.accepts then client else client.close
  else client.close

/-- `on_cell`: none is a failed read. -/
def onCell (aead : Aead Key) (outside : ClientOutside Key) (client : Client Key)
    (result : Option Bytes) : Client Key :=
  if client.phase = .closed then client
  else
    match result with
    | none => client.close
    | some cell =>
      match decodeCell .backward cell with
      | .error _ => client.close
      | .ok view =>
        if client.layers = [] then
          if view.command ≠ .created then client.close
          else client.addLayer aead outside
        else if view.command ≠ .relay ∨ view.layers > client.layers.length then
          client.close
        else
          match openLayers aead view.bucket client.layers view.layers view.body with
          | (layers, none) => ({ client with layers } : Client Key).close
          | (layers, some body) =>
            let client := { client with layers }
            match decodeRelayMessage .backward body with
            | .error _ => client.close
            | .ok message => client.handle aead outside view.layers message

end Client

inductive ClientMove (Key : Type) where
  /-- The entry completes a read. -/
  | cell (result : Option Bytes) (outside : ClientOutside Key)
  /-- A stream sends a message to the last hop. -/
  | stream (message : RelayMessage) (works : Nat → Bool)
  /-- The entry takes the first queued cell. -/
  | taken
  | close

namespace Client

def step (aead : Aead Key) (client : Client Key) : ClientMove Key → Option (Client Key)
  | .cell result outside => some (client.onCell aead outside result)
  | .stream message works =>
    if client.phase = .ready then some (client.sendOrClose aead works client.route message)
    else none
  | .taken => some { client with queue := client.queue.tail }
  | .close => some client.close

end Client

/-! ### A node -/

inductive NodePhase where
  | awaitCreate
  | «open»
  | extending
  | extended
deriving Repr, DecidableEq

/-- A node's `Circuit`, its exit streams left out. -/
structure NodeCircuit (Key : Type) where
  self : Bytes
  predecessor : Bytes
  fromPeer : Bool
  phase : NodePhase
  depth : UInt8
  /-- `forward_` and `backward_`. -/
  layer : Option (Layer Key)
  createBody : Bytes
  terminal : Bool
  closing : Bool
  closed : Bool
  /-- `backward_queue_`. -/
  queue : List Bytes
  /-- The cells written to the next hop and not yet taken. -/
  next : List Bytes
  /-- History: the messages recognised as this hop's own. -/
  handled : List RelayMessage

/-- What the surroundings of a node decide in one of its steps. -/
structure NodeOutside (Key : Type) where
  /-- Whether the library seals. -/
  works : Bool
  /-- The handshake budget. -/
  admits : Bool
  /-- `answer`: the layer's keys and the reply. -/
  answer : Option (LayerKeys Key × Bytes)
  /-- Whether the exit's streams take the message. -/
  accepts : Bool

namespace NodeCircuit

def create (self predecessor : Bytes) (fromPeer : Bool) : NodeCircuit Key where
  self := self
  predecessor := predecessor
  fromPeer := fromPeer
  phase := .awaitCreate
  depth := 0
  layer := none
  createBody := []
  terminal := false
  closing := false
  closed := false
  queue := []
  next := []
  handled := []

def close (node : NodeCircuit Key) : NodeCircuit Key :=
  { node with closed := true, queue := [], next := [] }

/-- The layer that a hop's keys make for the hop. -/
def layerOf (keys : LayerKeys Key) : Layer Key where
  forward := .create .open .forward keys.forwardKey keys.forwardIv
  backward := .create .seal .backward keys.backwardKey keys.backwardIv

/-- Seals a body under the backward layer and queues the cell: the last part of
`send` and of `on_next`. -/
def sealBackward (aead : Aead Key) (works : Bool) (node : NodeCircuit Key) (bucket : Nat)
    (body : Bytes) : NodeCircuit Key × Bool :=
  match node.layer with
  -- Only a node that awaits its CREATE has no layer, and it sends nothing.
  | none => (node, false)
  | some layer =>
    match layer.backward.sealCell aead works bucket body (body.length + layerTagBytes) with
    | (backward, .error _) => ({ node with layer := some { layer with backward } }, false)
    | (backward, .ok text) =>
      let node := { node with layer := some { layer with backward } }
      match encodeCell .backward .relay bucket text with
      | .error _ => (node, false)
      | .ok cell => ({ node with queue := node.queue ++ [cell] }, true)

/-- `send`, and whether it returned: it throws where it did not. -/
def send (aead : Aead Key) (works : Bool) (node : NodeCircuit Key) (message : RelayMessage) :
    NodeCircuit Key × Bool :=
  match padMessage .backward message with
  | none => (node, false)
  | some (bucket, plaintext) => node.sealBackward aead works bucket plaintext

/-- The callers close the circuit where `send` throws. -/
def orClose : NodeCircuit Key × Bool → NodeCircuit Key
  | (node, true) => node
  | (node, false) => node.close

/-- A client's circuit starts at depth 1, a peer's further on. -/
def depthFits (node : NodeCircuit Key) (depth : UInt8) : Bool :=
  if node.fromPeer then decide (depth ≥ 2) else depth == 1

/-- `handle_create`. -/
def handleCreate (outside : NodeOutside Key) (node : NodeCircuit Key) (body : Bytes) :
    NodeCircuit Key :=
  match decodeCreate body with
  | .error _ => node.close
  | .ok view =>
    if ¬ node.depthFits view.depth then node.close
    else if ¬ outside.admits then node.close
    else
      match outside.answer with
      | none => node.close
      | some (keys, reply) =>
        let node := { node with layer := some (layerOf keys), depth := view.depth }
        match encodeCell .backward .created createdBucket reply with
        | .error _ => node.close
        | .ok cell => { node with phase := .open, queue := node.queue ++ [cell] }

/-- `extend`. -/
def extend (aead : Aead Key) (outside : NodeOutside Key) (node : NodeCircuit Key)
    (payload : Bytes) : NodeCircuit Key :=
  match decodeExtendPayload payload with
  | .error _ => node.close
  | .ok request =>
    if node.phase ≠ .open ∨ node.terminal ∨ node.depth.toNat ≥ maxHops then node.close
    else if request.nextIdentity = node.self ∨
        (node.fromPeer ∧ request.nextIdentity = node.predecessor) then
      orClose (node.send aead outside.works ⟨.extendFailed, 0, [CircuitReason.refused]⟩)
    else
      { node with phase := .extending, createBody := payload.drop fingerprintBytes }

/-- `handle_message`, with the streams' part an answer of the surroundings. -/
def handleMessage (aead : Aead Key) (outside : NodeOutside Key) (node : NodeCircuit Key)
    (message : RelayMessage) : NodeCircuit Key :=
  let node := { node with handled := node.handled ++ [message] }
  if message.type = .extend then node.extend aead outside message.payload
  else if message.type = .begin then
    if node.phase ≠ .open then node.close
    else
      let node := { node with terminal := true }
      if outside.accepts then node else node.close
  else if message.type = .data ∨ message.type = .«end» ∨ message.type = .streamCredit then
    if outside.accepts then node else node.close
  else node.close

/-- `forward`. -/
def forward (node : NodeCircuit Key) (bucket : Nat) (body : Bytes) : NodeCircuit Key :=
  match encodeCell .forward .relay bucket body with
  | .error _ => node.close
  | .ok cell => { node with next := node.next ++ [cell] }

/-- `handle_relay`. -/
def handleRelay (aead : Aead Key) (outside : NodeOutside Key) (node : NodeCircuit Key)
    (view : CellView) : NodeCircuit Key :=
  match node.layer with
  -- A node past its CREATE has its layer.
  | none => node.close
  | some layer =>
    match layer.forward.openCell aead view.bucket view.body
        (view.body.length - layerTagBytes) with
    | (forward, .error _) =>
      ({ node with layer := some { layer with forward } } : NodeCircuit Key).close
    | (forward, .ok plaintext) =>
      let node := { node with layer := some { layer with forward } }
      if view.layers > 1 then
        if node.phase ≠ .extended then node.close
        else node.forward view.bucket plaintext
      else
        match decodeRelayMessage .forward plaintext with
        | .error _ => node.close
        | .ok message => node.handleMessage aead outside message

/-- `on_inbound`: none is a read that failed or ended. -/
def onInbound (aead : Aead Key) (outside : NodeOutside Key) (node : NodeCircuit Key)
    (result : Option Bytes) : NodeCircuit Key :=
  if node.closed then node
  else
    match result with
    | none => node.close
    | some cell =>
      -- A closing circuit reads on without taking work.
      if node.closing then node
      else match decodeCell .forward cell with
      | .error _ => node.close
      | .ok view =>
        if node.phase = .awaitCreate then
          if view.command ≠ .create then node.close
          else node.handleCreate outside view.body
        else if view.command ≠ .relay then node.close
        else node.handleRelay aead outside view

/-- `abandon_extension`. -/
def abandonExtension (aead : Aead Key) (works : Bool) (node : NodeCircuit Key)
    (reason : UInt8) : NodeCircuit Key :=
  if node.closed ∨ node.phase ≠ .extending then node
  else
    let node := { node with phase := .open, createBody := [], next := [] }
    orClose (node.send aead works ⟨.extendFailed, 0, [reason]⟩)

/-- `on_next_open`: the reason, if the next hop could not be opened. -/
def onNextOpen (aead : Aead Key) (works : Bool) (node : NodeCircuit Key) :
    Option UInt8 → NodeCircuit Key
  | some reason => node.abandonExtension aead works reason
  | none =>
    if node.closed ∨ node.phase ≠ .extending then node
    else if h : node.createBody.length = clientHandshakeBytes then
      match encodeCreate (node.depth + 1) ⟨node.createBody, h⟩ with
      | .error _ => node.abandonExtension aead works CircuitReason.protocol
      | .ok body =>
        match encodeCell .forward .create createBucket body with
        | .error _ => node.abandonExtension aead works CircuitReason.protocol
        | .ok cell => { node with next := node.next ++ [cell] }
    else node.abandonExtension aead works CircuitReason.protocol

/-- `on_created`: none is a failed read. -/
def onCreated (aead : Aead Key) (works : Bool) (node : NodeCircuit Key) :
    Option Bytes → NodeCircuit Key
  | none => node.abandonExtension aead works CircuitReason.unreachable
  | some cell =>
    if node.closed ∨ node.phase ≠ .extending then node
    else
      match decodeCell .backward cell with
      | .error _ => node.abandonExtension aead works CircuitReason.protocol
      | .ok view =>
        if view.command ≠ .created then
          node.abandonExtension aead works CircuitReason.protocol
        else
          let node := { node with phase := .extended, createBody := [] }
          orClose (node.send aead works ⟨.extended, 0, view.body⟩)

/-- `on_next`: none is a read that failed or ended, which `next_ended` reports. -/
def onNext (aead : Aead Key) (works : Bool) (node : NodeCircuit Key)
    (result : Option Bytes) : NodeCircuit Key :=
  if node.closed ∨ node.closing then node
  else
    match result with
    | none =>
      let node := { node with closing := true }
      orClose (node.send aead works ⟨.circuitFailed, 0, [CircuitReason.unreachable]⟩)
    | some cell =>
      match decodeCell .backward cell with
      | .error _ => node.close
      | .ok view =>
        if view.command ≠ .relay ∨ view.layers ≥ maxHops then node.close
        else orClose (node.sealBackward aead works view.bucket view.body)

end NodeCircuit

inductive NodeMove (Key : Type) where
  /-- The previous hop completes a read. -/
  | inbound (result : Option Bytes) (outside : NodeOutside Key)
  /-- The open of the next hop completes. -/
  | opened (failure : Option UInt8) (works : Bool)
  /-- The next hop answers the CREATE. -/
  | created (result : Option Bytes) (works : Bool)
  /-- The next hop completes a read. -/
  | next (result : Option Bytes) (works : Bool)
  /-- An extension takes too long. -/
  | expired (reason : UInt8) (works : Bool)
  /-- An exit stream sends a message. -/
  | exit (message : RelayMessage) (works : Bool)
  /-- The previous hop takes the first queued cell. -/
  | taken
  /-- The next hop takes the first cell written to it. -/
  | passed
  | close

namespace NodeCircuit

def step (aead : Aead Key) (node : NodeCircuit Key) : NodeMove Key → Option (NodeCircuit Key)
  | .inbound result outside => some (node.onInbound aead outside result)
  | .opened failure works => some (node.onNextOpen aead works failure)
  | .created result works => some (node.onCreated aead works result)
  | .next result works =>
    if node.phase = .extended then some (node.onNext aead works result) else none
  | .expired reason works => some (node.abandonExtension aead works reason)
  | .exit message works =>
    if node.closed then none else some (orClose (node.send aead works message))
  | .taken => some { node with queue := node.queue.tail }
  | .passed => some { node with next := node.next.tail }
  | .close => some node.close

end NodeCircuit

end Yume.Circuit
