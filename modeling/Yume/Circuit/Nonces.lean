/-
No nonce is used twice: whatever cells reach a client or a node and whatever its
streams send, each of its layers seals under the nonces of its counter, in order
and below the limit, and a circuit with a layer that refused to seal has failed.
-/
import Yume.Circuit.Parties
import Yume.Lib.Runs

namespace Yume.Circuit

open Yume.Lib List
open LayerCipher

variable {Key : Type} {aead : Aead Key}

/-- Both directions of a layer keep their counter's history, and in a circuit that is
`live` no call of them was refused. -/
structure Layer.Ok (aead : Aead Key) (outward inward : LayerMode) (live : Bool)
    (layer : Layer Key) : Prop where
  forward : LayerCipher.Counted aead outward layer.forward
  backward : LayerCipher.Counted aead inward layer.backward
  willing : live = true → layer.forward.refused = false ∧ layer.backward.refused = false

theorem Layer.Ok.lapse {outward inward : LayerMode} {live : Bool} {layer : Layer Key}
    (h : layer.Ok aead outward inward live) : layer.Ok aead outward inward false :=
  { h with willing := nofun }

/-! ### The client -/

namespace Client

variable {client : Client Key} {outside : ClientOutside Key} {layers : List (Layer Key)}

/-- The layers of a client, which seals forward. -/
def LayersOk (aead : Aead Key) (live : Bool) (layers : List (Layer Key)) : Prop :=
  ∀ layer ∈ layers, layer.Ok aead .seal .open live

/-- A client none of whose layers refused a call, or one that has failed. -/
inductive Sound (aead : Aead Key) (client : Client Key) : Prop where
  | live (layers : LayersOk aead true client.layers)
  | failed (closed : client.phase = .closed) (queue : client.queue = [])
    (layers : LayersOk aead false client.layers)

theorem LayersOk.lapse {live : Bool} (h : LayersOk aead live layers) : LayersOk aead false layers :=
  fun layer hmem => (h layer hmem).lapse

theorem close_sound {live : Bool} (h : LayersOk aead live client.layers) :
    Sound aead client.close := .failed rfl rfl h.lapse

theorem Sound.alive (h : Sound aead client) (hopen : client.phase ≠ .closed) :
    LayersOk aead true client.layers := by
  cases h with
  | live layers => exact layers
  | failed closed => exact absurd closed hopen

section

variable (h : LayersOk aead true layers)
include h

theorem sealLayers_ok (bucket : Nat) (works : Nat → Bool) (target : Nat) (body : Bytes) :
    LayersOk aead (sealLayers aead bucket works layers target body).2.isSome
      (sealLayers aead bucket works layers target body).1 := by
  induction layers generalizing works target body with
  | nil =>
    cases target with
    | zero => exact h
    | succ => exact fun _ hmem => absurd hmem not_mem_nil
  | cons first rest ih =>
    cases target with
    | zero => exact h
    | succ target =>
      have hfirst := h first mem_cons_self
      have hrest := ih (fun layer hmem => h layer (mem_cons_of_mem _ hmem))
        (fun index => works (index + 1)) target body
      rw [sealLayers]
      rcases hinner : sealLayers aead bucket (fun index => works (index + 1)) rest target
        body with ⟨rest', _ | inner⟩
      · rw [hinner] at hrest
        exact forall_mem_cons.mpr ⟨hfirst.lapse, hrest⟩
      rw [hinner] at hrest
      have hforward := sealCell_counted hfirst.forward (works 0) bucket inner
        (inner.length + layerTagBytes)
      dsimp only
      split
      · rename_i hsealed
        rw [hsealed] at hforward
        exact forall_mem_cons.mpr ⟨⟨hforward, hfirst.backward, nofun⟩, LayersOk.lapse hrest⟩
      rename_i hsealed
      rw [hsealed] at hforward
      obtain ⟨-, -, hafter⟩ := sealCell_ok hsealed
      refine forall_mem_cons.mpr ⟨⟨hforward, hfirst.backward, fun _ => ?_⟩, hrest⟩
      rw [hafter]
      exact hfirst.willing rfl

theorem openLayers_ok (bucket count : Nat) (body : Bytes) :
    LayersOk aead (openLayers aead bucket layers count body).2.isSome
      (openLayers aead bucket layers count body).1 := by
  induction layers generalizing count body with
  | nil =>
    cases count with
    | zero => exact h
    | succ => exact fun _ hmem => absurd hmem not_mem_nil
  | cons first rest ih =>
    cases count with
    | zero => exact h
    | succ count =>
      have hfirst := h first mem_cons_self
      have hbehind : LayersOk aead true rest := fun layer hmem => h layer (mem_cons_of_mem _ hmem)
      have hbackward := openCell_counted hfirst.backward bucket body (body.length - layerTagBytes)
      rw [openLayers]
      split
      · rename_i hopened
        rw [hopened] at hbackward
        exact forall_mem_cons.mpr ⟨⟨hfirst.forward, hbackward, nofun⟩, hbehind.lapse⟩
      rename_i hopened
      rw [hopened] at hbackward
      obtain ⟨-, hafter⟩ := openCell_ok hopened
      refine forall_mem_cons.mpr ⟨⟨hfirst.forward, hbackward, fun _ => ?_⟩, ih hbehind _ _⟩
      rw [hafter]
      exact hfirst.willing rfl

end

section

variable (h : LayersOk aead true client.layers)
include h

theorem sendMessage_ok (works : Nat → Bool) (target : Nat) (message : RelayMessage) :
    LayersOk aead (client.sendMessage aead works target message).2
      (client.sendMessage aead works target message).1.layers := by
  unfold sendMessage
  split
  · exact h.lapse
  rename_i bucket plaintext _
  split
  · exact h.lapse
  have hlayers := sealLayers_ok h bucket works target plaintext
  split
  · rename_i hsealed
    rw [hsealed] at hlayers
    exact hlayers
  rename_i hsealed
  rw [hsealed] at hlayers
  split
  · exact LayersOk.lapse hlayers
  · exact hlayers

theorem sendOrClose_sound (works : Nat → Bool) (target : Nat) (message : RelayMessage) :
    Sound aead (client.sendOrClose aead works target message) := by
  have hsent := sendMessage_ok h works target message
  unfold sendOrClose
  split
  · rename_i hresult
    rw [hresult] at hsent
    exact .live hsent
  rename_i hresult
  rw [hresult] at hsent
  exact close_sound hsent

theorem addLayer_sound : Sound aead (client.addLayer aead outside) := by
  unfold addLayer
  split
  · exact close_sound h
  rename_i keys _
  have hadded : LayersOk aead true (client.layers ++ [layerOf keys]) :=
    forall_mem_append.mpr ⟨h, forall_mem_singleton.mpr
      ⟨create_counted _ _ _ _ _, create_counted _ _ _ _ _, fun _ => ⟨rfl, rfl⟩⟩⟩
  dsimp only
  split
  · exact .live hadded
  unfold extend
  split
  · exact close_sound hadded
  · exact sendOrClose_sound hadded _ _ _

theorem handle_sound {hop : Nat} {message : RelayMessage} :
    Sound aead (client.handle aead outside hop message) := by
  unfold handle
  dsimp only
  split_ifs <;> first | exact close_sound h | exact addLayer_sound h | exact .live h

end

section

variable (h : Sound aead client)
include h

theorem onCell_sound {result : Option Bytes} : Sound aead (client.onCell aead outside result) := by
  unfold onCell
  split
  · exact h
  rename_i hopen
  have hlive := h.alive hopen
  split
  · exact close_sound hlive
  split
  · exact close_sound hlive
  rename_i view _
  split_ifs
  · exact close_sound hlive
  · exact addLayer_sound hlive
  · exact close_sound hlive
  have hlayers := openLayers_ok hlive view.bucket view.layers view.body
  split
  · rename_i hopened
    rw [hopened] at hlayers
    exact close_sound hlayers
  rename_i hopened
  rw [hopened] at hlayers
  split
  · exact close_sound hlayers
  · exact handle_sound hlayers

theorem step_sound {move : ClientMove Key} {after : Client Key}
    (hstep : client.step aead move = some after) : Sound aead after := by
  cases move with
  | cell =>
    cases hstep
    exact onCell_sound h
  | stream message works =>
    simp only [step] at hstep
    split at hstep
    · rename_i hready
      cases hstep
      exact sendOrClose_sound (h.alive (by simp [hready])) _ _ _
    · cases hstep
  | taken =>
    cases hstep
    cases h with
    | live layers => exact .live layers
    | failed closed queue layers => exact .failed closed (by simp [queue]) layers
  | close =>
    cases hstep
    cases h with
    | live layers => exact close_sound layers
    | failed _ _ layers => exact close_sound layers

end

theorem reached_sound {route : Nat}
    (h : Reaches (step aead) (fun _ _ => True) (create route) client) : Sound aead client :=
  h.invariant (.live fun _ hmem => absurd hmem not_mem_nil) fun _ _ _ _ hsound _ hstep =>
    step_sound hsound hstep

end Client

/-! ### A node -/

namespace NodeCircuit

variable {node : NodeCircuit Key} {outside : NodeOutside Key} {works : Bool}
  {message : RelayMessage} {result : Option Bytes} {after : NodeCircuit Key}

/-- The layer of a node, which seals backward. -/
def LayerOk (aead : Aead Key) (live : Bool) (layer : Option (Layer Key)) : Prop :=
  ∀ own, layer = some own → own.Ok aead .open .seal live

/-- A node whose layer refused no call, or one that has failed. -/
inductive Sound (aead : Aead Key) (node : NodeCircuit Key) : Prop where
  | live (layer : LayerOk aead true node.layer)
  | failed (closed : node.closed = true) (queue : node.queue = [])
    (layer : LayerOk aead false node.layer)

theorem LayerOk.lapse {live : Bool} {layer : Option (Layer Key)} (h : LayerOk aead live layer) :
    LayerOk aead false layer := fun own hown => (h own hown).lapse

theorem close_sound {live : Bool} (h : LayerOk aead live node.layer) : Sound aead node.close :=
  .failed rfl rfl h.lapse

theorem Sound.alive (h : Sound aead node) (hopen : ¬ node.closed = true) :
    LayerOk aead true node.layer := by
  cases h with
  | live layer => exact layer
  | failed closed => exact absurd closed hopen

section

variable (h : LayerOk aead true node.layer)
include h

theorem sealBackward_ok (works : Bool) (bucket : Nat) (body : Bytes) :
    LayerOk aead (node.sealBackward aead works bucket body).2
      (node.sealBackward aead works bucket body).1.layer := by
  unfold sealBackward
  split
  · exact h.lapse
  rename_i layer hlayer
  have hkept := h layer hlayer
  have hbackward := sealCell_counted hkept.backward works bucket body (body.length + layerTagBytes)
  split
  · rename_i hsealed
    rw [hsealed] at hbackward
    rintro _ ⟨⟩
    exact ⟨hkept.forward, hbackward, nofun⟩
  rename_i backward _ hsealed
  rw [hsealed] at hbackward
  obtain ⟨-, -, hafter⟩ := sealCell_ok hsealed
  have hnode : LayerOk aead true (some { layer with backward }) := by
    rintro _ ⟨⟩
    exact ⟨hkept.forward, hbackward, fun _ => by rw [hafter]; exact hkept.willing rfl⟩
  split
  · exact hnode.lapse
  · exact hnode

omit h in
theorem orClose_sound {result : NodeCircuit Key × Bool} (h : LayerOk aead result.2 result.1.layer) :
    Sound aead (orClose result) := by
  obtain ⟨node, _ | _⟩ := result
  · exact close_sound h
  · exact .live h

theorem send_sound : Sound aead (orClose (node.send aead works message)) := by
  refine orClose_sound ?_
  unfold send
  split
  · exact h.lapse
  · exact sealBackward_ok h _ _ _

theorem handleCreate_sound {body : Bytes} : Sound aead (node.handleCreate outside body) := by
  unfold handleCreate
  split
  · exact close_sound h
  split
  · exact close_sound h
  split
  · exact close_sound h
  split
  · exact close_sound h
  rename_i keys reply _
  have hfresh : LayerOk aead true (some (layerOf keys)) := by
    rintro _ ⟨⟩
    exact ⟨create_counted _ _ _ _ _, create_counted _ _ _ _ _, fun _ => ⟨rfl, rfl⟩⟩
  split
  · exact close_sound hfresh
  · exact .live hfresh

theorem handleMessage_sound : Sound aead (node.handleMessage aead outside message) := by
  unfold handleMessage
  dsimp only
  split
  · unfold extend
    split
    · exact close_sound h
    split
    · exact close_sound h
    split
    · exact send_sound h
    · exact .live h
  · split_ifs <;> first | exact close_sound h | exact .live h

theorem handleRelay_sound {view : CellView} : Sound aead (node.handleRelay aead outside view) := by
  unfold handleRelay
  split
  · exact close_sound h
  rename_i layer hlayer
  have hkept := h layer hlayer
  have hforward := openCell_counted hkept.forward view.bucket view.body
    (view.body.length - layerTagBytes)
  split
  · rename_i hopened
    rw [hopened] at hforward
    refine @close_sound _ _ _ false ?_
    rintro _ ⟨⟩
    exact ⟨hforward, hkept.backward, nofun⟩
  rename_i forward plaintext hopened
  rw [hopened] at hforward
  obtain ⟨-, hafter⟩ := openCell_ok hopened
  have hnode : LayerOk aead true (some { layer with forward }) := by
    rintro _ ⟨⟩
    exact ⟨hforward, hkept.backward, fun _ => by rw [hafter]; exact hkept.willing rfl⟩
  dsimp only
  split
  · split
    · exact close_sound hnode
    unfold NodeCircuit.forward
    split
    · exact close_sound hnode
    · exact .live hnode
  split
  · exact close_sound hnode
  · exact handleMessage_sound hnode

end

section

variable (h : Sound aead node)
include h

theorem onInbound_sound : Sound aead (node.onInbound aead outside result) := by
  unfold onInbound
  split
  · exact h
  rename_i hopen
  have hlive := h.alive hopen
  split
  · exact close_sound hlive
  split
  · exact h
  split
  · exact close_sound hlive
  split
  · split
    · exact close_sound hlive
    · exact handleCreate_sound hlive
  split
  · exact close_sound hlive
  · exact handleRelay_sound hlive

theorem abandonExtension_sound {reason : UInt8} :
    Sound aead (node.abandonExtension aead works reason) := by
  unfold abandonExtension
  split
  · exact h
  rename_i hopen
  have hlive := h.alive (not_or.mp hopen).1
  exact send_sound hlive

theorem onNextOpen_sound {failure : Option UInt8} :
    Sound aead (node.onNextOpen aead works failure) := by
  unfold onNextOpen
  split
  · exact abandonExtension_sound h
  split
  · exact h
  rename_i hopen
  have hlive := h.alive (not_or.mp hopen).1
  split
  · split
    · exact abandonExtension_sound h
    split
    · exact abandonExtension_sound h
    · exact .live hlive
  · exact abandonExtension_sound h

theorem onCreated_sound : Sound aead (node.onCreated aead works result) := by
  unfold onCreated
  split
  · exact abandonExtension_sound h
  split
  · exact h
  rename_i hopen
  have hlive := h.alive (not_or.mp hopen).1
  split
  · exact abandonExtension_sound h
  split
  · exact abandonExtension_sound h
  · exact send_sound hlive

theorem onNext_sound : Sound aead (node.onNext aead works result) := by
  unfold onNext
  split
  · exact h
  rename_i hopen
  have hlive := h.alive (not_or.mp hopen).1
  split
  · exact send_sound hlive
  split
  · exact close_sound hlive
  split
  · exact close_sound hlive
  · exact orClose_sound (sealBackward_ok hlive _ _ _)

theorem step_sound {move : NodeMove Key} (hstep : node.step aead move = some after) :
    Sound aead after := by
  cases move with
  | inbound =>
    cases hstep
    exact onInbound_sound h
  | opened =>
    cases hstep
    exact onNextOpen_sound h
  | created =>
    cases hstep
    exact onCreated_sound h
  | next =>
    simp only [step] at hstep
    split at hstep
    · cases hstep
      exact onNext_sound h
    · cases hstep
  | expired =>
    cases hstep
    exact abandonExtension_sound h
  | exit message works =>
    simp only [step] at hstep
    split at hstep
    · cases hstep
    rename_i hopen
    cases hstep
    exact send_sound (h.alive hopen)
  | taken | passed =>
    cases hstep
    cases h with
    | live layer => exact .live layer
    | failed closed queue layer => exact .failed closed (by simp [queue]) layer
  | close =>
    cases hstep
    cases h with
    | live layer => exact close_sound layer
    | failed _ _ layer => exact close_sound layer

end

theorem reached_sound {self predecessor : Bytes} {fromPeer : Bool}
    (h : Reaches (step aead) (fun _ _ => True) (create self predecessor fromPeer) node) :
    Sound aead node :=
  h.invariant (.live fun _ hnone => by cases hnone) fun _ _ _ _ hsound _ hstep =>
    step_sound hsound hstep

end NodeCircuit

/-! ### Both parties -/

/-- A layer whose nonces are its own: no two calls of the AEAD share one, also
not a call that failed, the counter stays within the limit, and the texts are what
the AEAD makes of those nonces under the key of the layer. -/
structure SealsOnce (aead : Aead Key) (cipher : LayerCipher Key) : Prop where
  distinct : cipher.nonces.Nodup
  used : cipher.uses.map LayerUse.nonce <+: cipher.nonces
  counter : cipher.uses.length = cipher.cells
  limit : cipher.cells ≤ maxLayerCells
  made : ∀ use ∈ cipher.uses, use.text = aead.encrypt cipher.key use.nonce use.aad use.plain

theorem SealsOnce.of_counted {cipher : LayerCipher Key}
    (h : LayerCipher.Counted aead .seal cipher) : SealsOnce aead cipher := by
  have hbound := h.bound
  refine ⟨?_, ?_, ?_, by omega, h.made⟩
  · rw [h.nonces]
    exact firstNonces_nodup hbound
  · rw [h.uses, h.nonces, firstNonces, firstNonces, range_add, map_append]
    exact prefix_append _ _
  have hlength := congrArg List.length h.uses
  simpa [firstNonces] using hlength

/-- The opener's cells are bound, one by one, to what its peer bound them to. -/
def PeersAgree (sealer opener : LayerCipher Key) : Prop :=
  ∀ (k : Nat) (use : LayerUse), opener.uses[k]? = some use →
    ∃ peer : LayerUse, sealer.uses[k]? = some peer ∧ peer.nonce = use.nonce ∧ peer.aad = use.aad

/-- The AEAD let nothing in that the peer did not seal. -/
def Genuine (sealer opener : LayerCipher Key) : Prop :=
  ∀ use ∈ opener.uses, ∃ peer ∈ sealer.uses, peer.nonce = use.nonce ∧
    peer.aad = use.aad ∧ peer.text = use.text

/-- The clients and nodes of all runs: any cells, any messages of the streams,
any failures of the library and of the handshakes. -/
def ClientReached (aead : Aead Key) (client : Client Key) : Prop :=
  ∃ route, Reaches (Client.step aead) (fun _ _ => True) (.create route) client

def NodeReached (aead : Aead Key) (node : NodeCircuit Key) : Prop :=
  ∃ self predecessor fromPeer, Reaches (NodeCircuit.step aead) (fun _ _ => True)
    (.create self predecessor fromPeer) node

theorem ClientReached.layer {client : Client Key} (h : ClientReached aead client)
    {layer : Layer Key} (hmem : layer ∈ client.layers) : ∃ live : Bool,
      layer.Ok aead .seal .open live ∧
        (live = true ∨ client.phase = .closed ∧ client.queue = []) := by
  obtain ⟨route, hreach⟩ := h
  cases Client.reached_sound hreach with
  | live layers => exact ⟨true, layers layer hmem, .inl rfl⟩
  | failed closed queue layers => exact ⟨false, layers layer hmem, .inr ⟨closed, queue⟩⟩

theorem NodeReached.layer {node : NodeCircuit Key} (h : NodeReached aead node)
    {layer : Layer Key} (hlayer : node.layer = some layer) : ∃ live : Bool,
      layer.Ok aead .open .seal live ∧
        (live = true ∨ node.closed = true ∧ node.queue = []) := by
  obtain ⟨self, predecessor, fromPeer, hreach⟩ := h
  cases NodeCircuit.reached_sound hreach with
  | live own => exact ⟨true, own layer hlayer, .inl rfl⟩
  | failed closed queue own => exact ⟨false, own layer hlayer, .inr ⟨closed, queue⟩⟩

structure NoncesUnique (aead : Aead Key) : Prop where
  /-- Only below the limit a cell is sealed, by the AEAD with the nonce of its number,
  which is recorded with it. -/
  sealed : ∀ (cipher after : LayerCipher Key) works bucket input size text,
    cipher.sealCell aead works bucket input size = (after, .ok text) →
      cipher.cells < maxLayerCells ∧
        text = aead.encrypt cipher.key (layerNonce cipher.iv cipher.cells)
          (layerAad cipher.direction bucket) input ∧
        after = cipher.counted ⟨layerNonce cipher.iv cipher.cells,
          layerAad cipher.direction bucket, input, text⟩
  refused : ∀ (cipher after : LayerCipher Key) works bucket input size error,
    cipher.sealCell aead works bucket input size = (after, .error error) → after.refused = true
  client : ∀ client, ClientReached aead client → ∀ layer ∈ client.layers,
    SealsOnce aead layer.forward
  node : ∀ node, NodeReached aead node → ∀ layer, node.layer = some layer →
    SealsOnce aead layer.backward
  forward : ∀ client node, ClientReached aead client → NodeReached aead node →
    ∀ sealing ∈ client.layers, ∀ opening, node.layer = some opening →
      sealing.forward.iv = opening.forward.iv → Genuine sealing.forward opening.forward →
      PeersAgree sealing.forward opening.forward
  backward : ∀ client node, ClientReached aead client → NodeReached aead node →
    ∀ opening ∈ client.layers, ∀ sealing, node.layer = some sealing →
      sealing.backward.iv = opening.backward.iv →
      Genuine sealing.backward opening.backward →
      PeersAgree sealing.backward opening.backward
  clientFails : ∀ client, ClientReached aead client → ∀ layer ∈ client.layers,
    layer.forward.refused = true → client.phase = .closed ∧ client.queue = []
  nodeFails : ∀ node, NodeReached aead node → ∀ layer, node.layer = some layer →
    layer.backward.refused = true → node.closed = true ∧ node.queue = []

/-- In every run of a client or a node the nonces that each layer seals with are
pairwise distinct and at most 2^32 cells are sealed; the opener uses for its k-th cell
what the sealer used for its k-th; at the limit a call to seal is refused, and a circuit
with a layer that refused a call has failed. -/
theorem circuit_nonces_unique (aead : Aead Key) : NoncesUnique aead where
  sealed := fun _ _ _ _ _ _ _ => sealCell_ok
  refused := fun _ _ _ _ _ _ _ => sealCell_error
  client := by
    intro client hreach layer hmem
    obtain ⟨_, hok, -⟩ := hreach.layer hmem
    exact .of_counted hok.forward
  node := by
    intro node hreach layer hlayer
    obtain ⟨_, hok, -⟩ := hreach.layer hlayer
    exact .of_counted hok.backward
  forward := by
    intro client node hclient hnode sealing hmem opening hlayer hiv hgenuine k use huse
    obtain ⟨_, hsealing, -⟩ := hclient.layer hmem
    obtain ⟨_, hopening, -⟩ := hnode.layer hlayer
    exact uses_agree hsealing.forward hopening.forward hiv hgenuine huse
  backward := by
    intro client node hclient hnode opening hmem sealing hlayer hiv hgenuine k use huse
    obtain ⟨_, hopening, -⟩ := hclient.layer hmem
    obtain ⟨_, hsealing, -⟩ := hnode.layer hlayer
    exact uses_agree hsealing.backward hopening.backward hiv hgenuine huse
  clientFails := by
    intro client hreach layer hmem hrefused
    obtain ⟨live, hok, hstate⟩ := hreach.layer hmem
    refine hstate.resolve_left fun hlive => ?_
    rw [(hok.willing hlive).1] at hrefused
    cases hrefused
  nodeFails := by
    intro node hreach layer hlayer hrefused
    obtain ⟨live, hok, hstate⟩ := hreach.layer hlayer
    refine hstate.resolve_left fun hlive => ?_
    rw [(hok.willing hlive).2] at hrefused
    cases hrefused

/-- A cipher that leaves the text as it is, with the nonce in its tag. -/
def plainAead : Aead Unit where
  encrypt _ nonce _ plain := plain ++ (nonce ++ [0, 0, 0, 0])
  decrypt _ nonce _ text :=
    if text.drop (text.length - layerTagBytes) = nonce ++ [0, 0, 0, 0] then
      some (text.take (text.length - layerTagBytes))
    else none

def sampleKeys : LayerKeys Unit where
  forwardKey := ()
  forwardIv := ⟨List.replicate layerIvBytes 7, rfl⟩
  backwardKey := ()
  backwardIv := ⟨List.replicate layerIvBytes 9, rfl⟩

def sampleReply : Bytes := List.replicate hopHandshakeBytes 0

def sampleBody : Bytes := [1, 0, handshakeSchema, 0, 0, 0] ++ List.replicate (32 + 32 + 1568) 0

theorem sampleReply_valid : CellValid .backward .created createdBucket sampleReply :=
  ⟨by decide, by decide, by rw [sampleReply, length_replicate]; decide⟩

theorem sampleBody_valid : CellValid .forward .create createBucket sampleBody :=
  ⟨by decide, by decide, by rw [sampleBody, length_append, length_replicate]; decide⟩

theorem sampleBody_decoded : decodeCreate sampleBody = .ok ⟨1, sampleBody.drop 2⟩ := by
  decide +kernel

/-- A client of one hop that was answered. -/
def readyClient : Client Unit := ⟨1, .ready, [Client.layerOf sampleKeys], [], []⟩

theorem readyClient_reached {cell : Bytes} {view : CellView}
    (hcell : decodeCell .backward cell = .ok view) (hview : view.command = .created) :
    Reaches (Client.step plainAead) (fun _ _ => True) (.create 1) readyClient := by
  refine @Reaches.tail _ _ _ _ _ _ _
    (.cell (some cell) ⟨fun _ => true, some sampleKeys, none, true⟩) .refl trivial ?_
  simp [Client.step, Client.onCell, Client.create, hcell, hview, Client.addLayer, readyClient]

/-- The node that answered it. -/
def openNode : NodeCircuit Unit :=
  { (NodeCircuit.create [1] [] false : NodeCircuit Unit) with
    phase := .open, depth := 1, layer := some (NodeCircuit.layerOf sampleKeys) }

theorem openNode_reached {cell reply answer : Bytes} {view : CellView} {create : CreateView}
    (hcell : decodeCell .forward cell = .ok view) (hview : view.command = .create)
    (hcreate : decodeCreate view.body = .ok create) (hdepth : create.depth = 1)
    (hreply : encodeCell .backward .created createdBucket reply = .ok answer) :
    Reaches (NodeCircuit.step plainAead) (fun _ _ => True) (.create [1] [] false) openNode := by
  refine @Reaches.tail _ _ _ _ _ { openNode with queue := [answer] } _ .taken
    (@Reaches.tail _ _ _ _ _ _ _ (.inbound (some cell) ⟨true, true, some (sampleKeys, reply), true⟩)
      .refl trivial ?_) trivial rfl
  simp [NodeCircuit.step, NodeCircuit.onInbound, NodeCircuit.create, hcell, hview,
    NodeCircuit.handleCreate, hcreate, hdepth, NodeCircuit.depthFits, hreply, openNode]

/-- Two cells are sealed under two nonces, and the node opens both under the same. -/
theorem circuit_nonces_unique_exchange : ∃ sealing opening : LayerCipher Unit,
    sealing.cells = 2 ∧ opening.cells = 2 ∧ SealsOnce plainAead sealing ∧
      PeersAgree sealing opening := by
  have hrun : (runChecked (Client.step plainAead) (fun _ _ => true) readyClient
      [.stream ⟨.data, 1, [1, 2]⟩ fun _ => true, .stream ⟨.data, 1, [3]⟩ fun _ => true]).any
      (fun client => (runChecked (NodeCircuit.step plainAead) (fun _ _ => true) openNode
        (client.queue.map fun cell => .inbound (some cell) ⟨true, true, none, true⟩)).any fun node =>
          client.layers.any fun sealing => node.layer.any fun opening =>
            sealing.forward.cells == 2 && opening.forward.cells == 2 &&
              decide (sealing.forward.iv = opening.forward.iv) &&
              opening.forward.uses.all fun use => sealing.forward.uses.any fun peer =>
                decide (peer.nonce = use.nonce ∧ peer.aad = use.aad ∧ peer.text = use.text)) =
      true := by decide +kernel
  obtain ⟨client, hclient, hrun⟩ := Reaches.exists_of_runChecked (fun _ _ _ => trivial) _ _ hrun
  obtain ⟨node, hnode, hrun⟩ := Reaches.exists_of_runChecked (fun _ _ _ => trivial) _ _ hrun
  obtain ⟨sealing, hsealing, hrun⟩ := any_eq_true.mp hrun
  obtain ⟨opening, hopening, hrun⟩ := (Option.any_eq_true _ _).mp hrun
  simp only [Bool.and_eq_true, beq_iff_eq, decide_eq_true_eq, all_eq_true, any_eq_true] at hrun
  obtain ⟨⟨⟨hsealed, hopened⟩, hiv⟩, hgenuine⟩ := hrun
  have hclient : ClientReached plainAead client :=
    ⟨1, (readyClient_reached sampleReply_valid.decode_eq rfl).trans hclient⟩
  have hnode : NodeReached plainAead node := ⟨_, _, _, (openNode_reached
    sampleBody_valid.decode_eq rfl sampleBody_decoded rfl
    (encodeCell_eq_ok_iff.mpr ⟨sampleReply_valid, rfl⟩)).trans hnode⟩
  have hunique := circuit_nonces_unique plainAead
  exact ⟨sealing.forward, opening.forward, hsealed, hopened,
    hunique.client client hclient sealing hsealing,
    hunique.forward client node hclient hnode sealing hsealing opening hopening hiv hgenuine⟩

end Yume.Circuit
