/-
One hop's layer in one direction: the nonce and the associated data of a cell,
and `LayerCipher`, which counts the cells it sealed or opened.  The AEAD itself
is a parameter.
-/
import Mathlib.Data.List.Nodup
import Yume.Circuit.Relay

namespace Yume.Circuit

open Yume.Lib List

def layerIvBytes : Nat := 12

/-- `kMaxLayerCells`. -/
def maxLayerCells : Nat := 2 ^ 32

/-- `INT_MAX`. -/
def intMax : Nat := 2 ^ 31 - 1

/-- `kLayerAadLabel`. -/
def layerAadLabel : Bytes :=
  "yume/circuit/1/layer-aad/v1".toList.map fun letter => UInt8.ofNat letter.toNat

/-- AES-256-GCM as a layer uses it: nonce, associated data and text, with the
tag behind the text. -/
structure Aead (Key : Type) where
  encrypt : Key → Bytes → Bytes → Bytes → Bytes
  decrypt : Key → Bytes → Bytes → Bytes → Option Bytes

/-- `layer_nonce`: the counter's eight bytes over the end of the IV. -/
def layerNonce (iv : Block layerIvBytes) (counter : Nat) : Bytes :=
  iv.1.take (layerIvBytes - 8) ++
    List.zipWith (· ^^^ ·) (iv.1.drop (layerIvBytes - 8)) (beBytes 8 counter)

/-- `aad_bytes`. -/
def layerAad (direction : Direction) (bucket : Nat) : Bytes :=
  lengthPrefixed layerAadLabel ++ lengthPrefixed [direction.wire] ++
    lengthPrefixed (beBytes 2 bucket)

inductive LayerMode where
  | seal
  | «open»
deriving Repr, DecidableEq

inductive LayerError where
  | failedPrecondition
  | invalidArgument
  | resourceExhausted
  | internal
  | permissionDenied
deriving Repr, DecidableEq

/-- A call of the AEAD that sealed or accepted a text: what it was given and what came
out of it. -/
structure LayerUse where
  nonce : Bytes
  aad : Bytes
  plain : Bytes
  text : Bytes
deriving Repr, DecidableEq

structure LayerCipher (Key : Type) where
  mode : LayerMode
  direction : Direction
  key : Key
  iv : Block layerIvBytes
  cells : Nat
  failed : Bool
  /-- History: the nonces handed to the AEAD, oldest first. -/
  nonces : List Bytes
  /-- History: the texts sealed or accepted, oldest first. -/
  uses : List LayerUse
  /-- History: a call of the layer was refused or failed. -/
  refused : Bool

namespace LayerCipher

variable {Key : Type}

def create (mode : LayerMode) (direction : Direction) (key : Key)
    (iv : Block layerIvBytes) : LayerCipher Key where
  mode := mode
  direction := direction
  key := key
  iv := iv
  cells := 0
  failed := false
  nonces := []
  uses := []
  refused := false

/-- A call of the AEAD that passed. -/
def counted (cipher : LayerCipher Key) (use : LayerUse) : LayerCipher Key :=
  { cipher with
    cells := cipher.cells + 1
    nonces := cipher.nonces ++ [use.nonce]
    uses := cipher.uses ++ [use] }

/-- A call of the AEAD that failed. -/
def broken (cipher : LayerCipher Key) (nonce : Bytes) : LayerCipher Key :=
  { cipher with failed := true, nonces := cipher.nonces ++ [nonce], refused := true }

/-- A call that never came to the AEAD. -/
def refuse (cipher : LayerCipher Key) : LayerCipher Key := { cipher with refused := true }

/-- `LayerCipher::seal` into an output of `size` bytes.  `works` says whether
the library calls succeed. -/
def sealCell (aead : Aead Key) (works : Bool) (cipher : LayerCipher Key) (bucket : Nat)
    (plaintext : Bytes) (size : Nat) : LayerCipher Key × Except LayerError Bytes :=
  if cipher.failed = true ∨ cipher.mode ≠ .seal then (cipher.refuse, .error .failedPrecondition)
  else if ¬ isBucket cipher.direction bucket ∨ plaintext.length > intMax ∨
      size ≠ plaintext.length + layerTagBytes then (cipher.refuse, .error .invalidArgument)
  else if cipher.cells ≥ maxLayerCells then (cipher.refuse, .error .resourceExhausted)
  else
    let nonce := layerNonce cipher.iv cipher.cells
    let aad := layerAad cipher.direction bucket
    let text := aead.encrypt cipher.key nonce aad plaintext
    if works then (cipher.counted ⟨nonce, aad, plaintext, text⟩, .ok text)
    else (cipher.broken nonce, .error .internal)

/-- `LayerCipher::open` into an output of `size` bytes. -/
def openCell (aead : Aead Key) (cipher : LayerCipher Key) (bucket : Nat)
    (ciphertext : Bytes) (size : Nat) : LayerCipher Key × Except LayerError Bytes :=
  if cipher.failed = true ∨ cipher.mode ≠ .open then (cipher.refuse, .error .failedPrecondition)
  else if ¬ isBucket cipher.direction bucket ∨ ciphertext.length < layerTagBytes ∨
      ciphertext.length > intMax ∨ size ≠ ciphertext.length - layerTagBytes then
    (cipher.refuse, .error .invalidArgument)
  else if cipher.cells ≥ maxLayerCells then (cipher.refuse, .error .resourceExhausted)
  else
    let nonce := layerNonce cipher.iv cipher.cells
    let aad := layerAad cipher.direction bucket
    match aead.decrypt cipher.key nonce aad ciphertext with
    | some plaintext => (cipher.counted ⟨nonce, aad, plaintext, ciphertext⟩, .ok plaintext)
    | none => (cipher.broken nonce, .error .permissionDenied)

end LayerCipher

section Nonces

variable {iv : Block layerIvBytes} {m n : Nat}

theorem zipWith_xor_right_injective {mask left right : Bytes}
    (hleft : mask.length = left.length) (hright : mask.length = right.length)
    (h : List.zipWith (· ^^^ ·) mask left = List.zipWith (· ^^^ ·) mask right) :
    left = right := by
  induction mask generalizing left right with
  | nil =>
    rw [eq_nil_of_length_eq_zero hleft.symm, eq_nil_of_length_eq_zero hright.symm]
  | cons byte mask ih =>
    cases left with
    | nil => cases hleft
    | cons x left =>
      cases right with
      | nil => cases hright
      | cons y right =>
        simp only [zipWith_cons_cons, List.cons.injEq] at h
        simp only [length_cons, Nat.succ.injEq] at hleft hright
        have hhead : x = y := by simpa using h.1
        rw [hhead, ih hleft hright h.2]

/-- Two counters below 2^64 give two nonces. -/
theorem layerNonce_inj (hm : m < 256 ^ 8) (hn : n < 256 ^ 8)
    (h : layerNonce iv m = layerNonce iv n) : m = n := by
  have htail := append_cancel_left h
  have hlength : (iv.1.drop (layerIvBytes - 8)).length = 8 := by
    rw [length_drop, iv.2]
    rfl
  exact beBytes_inj hm hn (zipWith_xor_right_injective
    (hlength.trans (beBytes_length 8 m).symm) (hlength.trans (beBytes_length 8 n).symm) htail)

theorem maxLayerCells_lt : maxLayerCells < 256 ^ 8 := by
  decide

/-- The nonces of the first cells of a layer. -/
def firstNonces (iv : Block layerIvBytes) (count : Nat) : List Bytes :=
  (List.range count).map (layerNonce iv)

theorem firstNonces_succ (iv : Block layerIvBytes) (count : Nat) :
    firstNonces iv (count + 1) = firstNonces iv count ++ [layerNonce iv count] := by
  simp [firstNonces, range_succ]

theorem firstNonces_nodup (hn : n ≤ maxLayerCells) : (firstNonces iv n).Nodup := by
  have hmax := maxLayerCells_lt
  refine Nodup.map_on ?_ nodup_range
  intro a ha b hb hab
  rw [mem_range] at ha hb
  exact layerNonce_inj (by omega) (by omega) hab

theorem firstNonces_getElem? {k : Nat} :
    (firstNonces iv n)[k]? = if k < n then some (layerNonce iv k) else none := by
  unfold firstNonces
  rw [getElem?_map]
  split
  · rename_i hk
    rw [getElem?_range hk]
    rfl
  rename_i hk
  rw [getElem?_eq_none (by simpa using hk)]
  rfl

end Nonces

namespace LayerCipher

variable {Key : Type} {aead : Aead Key} {mode : LayerMode} {cipher : LayerCipher Key}

/-- The text of a use is the AEAD's, under the key of the layer. -/
def Made (aead : Aead Key) (key : Key) (use : LayerUse) : LayerMode → Prop
  | .seal => use.text = aead.encrypt key use.nonce use.aad use.plain
  | .open => aead.decrypt key use.nonce use.aad use.text = some use.plain

/-- The history of a layer is its counter's: the nonces of the cells so far, in
order, and one more only if the layer then failed for good. -/
structure Counted (aead : Aead Key) (mode : LayerMode) (cipher : LayerCipher Key) : Prop where
  role : cipher.mode = mode
  nonces : cipher.nonces = firstNonces cipher.iv (cipher.cells + cipher.failed.toNat)
  uses : cipher.uses.map LayerUse.nonce = firstNonces cipher.iv cipher.cells
  bound : cipher.cells + cipher.failed.toNat ≤ maxLayerCells
  made : ∀ use ∈ cipher.uses, Made aead cipher.key use mode

theorem create_counted (aead : Aead Key) (mode : LayerMode) (direction : Direction) (key : Key)
    (iv : Block layerIvBytes) : Counted aead mode (create mode direction key iv) :=
  ⟨rfl, rfl, rfl, Nat.zero_le _, nofun⟩

section Calls

variable (h : Counted aead mode cipher)
include h

theorem Counted.refuse : Counted aead mode cipher.refuse := { h with }

theorem Counted.counted {use : LayerUse} (hfailed : cipher.failed = false)
    (hcells : ¬ cipher.cells ≥ maxLayerCells) (hnonce : use.nonce = layerNonce cipher.iv cipher.cells)
    (hmade : Made aead cipher.key use mode) : Counted aead mode (cipher.counted use) := by
  have hnonces := h.nonces
  rw [hfailed] at hnonces
  refine ⟨h.role, ?_, ?_, ?_, ?_⟩
  · simp only [LayerCipher.counted, hnonces, hnonce, hfailed, Bool.toNat_false, Nat.add_zero,
      firstNonces_succ]
  · simp only [LayerCipher.counted, map_append, h.uses, map_cons, map_nil, hnonce,
      firstNonces_succ]
  · simp only [LayerCipher.counted, hfailed, Bool.toNat_false, Nat.add_zero]
    omega
  · exact forall_mem_append.mpr ⟨h.made, forall_mem_singleton.mpr hmade⟩

theorem Counted.broken (hfailed : cipher.failed = false)
    (hcells : ¬ cipher.cells ≥ maxLayerCells) :
    Counted aead mode (cipher.broken (layerNonce cipher.iv cipher.cells)) := by
  have hnonces := h.nonces
  rw [hfailed] at hnonces
  refine ⟨h.role, ?_, h.uses, ?_, h.made⟩
  · simp only [LayerCipher.broken, hnonces, Bool.toNat_false, Nat.add_zero, Bool.toNat_true,
      firstNonces_succ]
  simp only [LayerCipher.broken, Bool.toNat_true]
  omega

/-- Every call keeps the history the counter's. -/
theorem sealCell_counted (works : Bool) (bucket : Nat) (input : Bytes) (size : Nat) :
    Counted aead mode (cipher.sealCell aead works bucket input size).1 := by
  unfold sealCell
  dsimp only
  split_ifs with hrefused _ hcells hworks
  · exact h.refuse
  · exact h.refuse
  · exact h.refuse
  · simp only [not_or, not_not] at hrefused
    obtain rfl : mode = .seal := h.role.symm.trans hrefused.2
    exact h.counted (Bool.eq_false_iff.mpr hrefused.1) hcells rfl rfl
  · simp only [not_or, Bool.not_eq_true] at hrefused
    exact h.broken hrefused.1 hcells

theorem openCell_counted (bucket : Nat) (input : Bytes) (size : Nat) :
    Counted aead mode (cipher.openCell aead bucket input size).1 := by
  unfold openCell
  dsimp only
  split_ifs with hrefused _ hcells
  · exact h.refuse
  · exact h.refuse
  · exact h.refuse
  simp only [not_or, not_not] at hrefused
  have hfailed := Bool.eq_false_iff.mpr hrefused.1
  split
  · rename_i hopened
    obtain rfl : mode = .open := h.role.symm.trans hrefused.2
    exact h.counted hfailed hcells rfl hopened
  · exact h.broken hfailed hcells

end Calls

/-- A cell that is sealed below the limit, with the nonce of its number: the text is the
AEAD's and is recorded with what it was made of. -/
theorem sealCell_ok {works : Bool} {bucket size : Nat} {input text : Bytes}
    {after : LayerCipher Key} (h : cipher.sealCell aead works bucket input size = (after, .ok text)) :
    cipher.cells < maxLayerCells ∧
      text = aead.encrypt cipher.key (layerNonce cipher.iv cipher.cells)
        (layerAad cipher.direction bucket) input ∧
      after = cipher.counted ⟨layerNonce cipher.iv cipher.cells,
        layerAad cipher.direction bucket, input, text⟩ := by
  unfold sealCell at h
  dsimp only at h
  split_ifs at h with _ _ hcells
  · cases h
  · cases h
  · cases h
  · cases h
    exact ⟨Nat.lt_of_not_le hcells, rfl, rfl⟩
  · cases h

theorem openCell_ok {bucket size : Nat} {input plain : Bytes} {after : LayerCipher Key}
    (h : cipher.openCell aead bucket input size = (after, .ok plain)) :
    aead.decrypt cipher.key (layerNonce cipher.iv cipher.cells)
        (layerAad cipher.direction bucket) input = some plain ∧
      after = cipher.counted ⟨layerNonce cipher.iv cipher.cells,
        layerAad cipher.direction bucket, plain, input⟩ := by
  unfold openCell at h
  dsimp only at h
  split_ifs at h
  · cases h
  · cases h
  · cases h
  split at h
  · rename_i hopened
    cases h
    exact ⟨hopened, rfl⟩
  · cases h

/-- Any other call is recorded as refused. -/
theorem sealCell_error {works : Bool} {bucket size : Nat} {input : Bytes} {error : LayerError}
    {after : LayerCipher Key}
    (h : cipher.sealCell aead works bucket input size = (after, .error error)) :
    after.refused = true := by
  unfold sealCell at h
  split_ifs at h <;> cases h <;> rfl

/-- An opener that accepts only what its peer sealed binds its cells, one by
one, to what the peer bound them to. -/
theorem uses_agree {sealer opener : LayerCipher Key} {sealing opening : LayerMode}
    (hsealer : Counted aead sealing sealer) (hopener : Counted aead opening opener)
    (hiv : sealer.iv = opener.iv)
    (hgenuine : ∀ use ∈ opener.uses, ∃ peer ∈ sealer.uses, peer.nonce = use.nonce ∧
      peer.aad = use.aad ∧ peer.text = use.text) {k : Nat} {use : LayerUse}
    (hk : opener.uses[k]? = some use) :
    ∃ peer, sealer.uses[k]? = some peer ∧ peer.nonce = use.nonce ∧ peer.aad = use.aad := by
  have hmax := maxLayerCells_lt
  -- Positions and counters are the same, on both sides.
  have hposition : ∀ {mode : LayerMode} {cipher : LayerCipher Key} {j : Nat} {use : LayerUse},
      Counted aead mode cipher → cipher.uses[j]? = some use →
      j < cipher.cells ∧ use.nonce = layerNonce cipher.iv j := by
    intro mode cipher j use hcounted hj
    have hnonce : (cipher.uses.map LayerUse.nonce)[j]? = some use.nonce := by
      rw [getElem?_map, hj]
      rfl
    rw [hcounted.uses, firstNonces_getElem?] at hnonce
    split at hnonce
    · rename_i hlt
      exact ⟨hlt, (Option.some.inj hnonce).symm⟩
    · cases hnonce
  obtain ⟨peer, hpeer, hnonce, haad, -⟩ := hgenuine use (mem_of_getElem? hk)
  obtain ⟨j, hj⟩ := getElem?_of_mem hpeer
  obtain ⟨hklt, hknonce⟩ := hposition hopener hk
  obtain ⟨hjlt, hjnonce⟩ := hposition hsealer hj
  have hkbound := hopener.bound
  have hjbound := hsealer.bound
  have hjk : j = k := by
    have hsame : layerNonce opener.iv j = layerNonce opener.iv k := by
      rw [← hknonce, ← hiv, ← hjnonce, hnonce]
    exact layerNonce_inj (by omega) (by omega) hsame
  exact ⟨peer, hjk ▸ hj, hnonce, haad⟩

end LayerCipher

end Yume.Circuit
