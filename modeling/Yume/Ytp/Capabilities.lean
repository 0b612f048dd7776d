/-
The capability manifest: its canonical entry order, `EncodeCapabilityManifest`,
the two decoders and the exactness of the codec.
-/
import Mathlib.Data.UInt
import Yume.Ytp.Protocol

namespace Yume.Ytp

open Yume.Lib List

def capabilityManifestSchema : UInt8 := 2
def capabilityPrefixSize : Nat := 8
def capabilityEntryPrefixSize : Nat := 8
def maxCapabilities : Nat := 256
def maxCapabilityManifestSize : Nat := 65536
def maxCapabilityConcurrentStreams : Nat := 2 ^ 20

structure Capability where
  serviceName : Bytes
  serviceKind : ServiceKind := .byteStream
  maxConcurrentStreams : UInt32 := 1
deriving Repr, DecidableEq

structure CapabilityManifest where
  entries : List Capability
  maxEpochBytes : UInt32 := 2 ^ 20
deriving Repr, DecidableEq

/-- `IsValidEpochPayloadBytes`: a power of two from 1 MiB through 64 MiB. -/
def isValidEpochPayloadBytes (bytes : UInt32) : Bool :=
  decide (2 ^ 20 ≤ bytes) && decide (bytes ≤ 2 ^ 26) && bytes &&& (bytes - 1) == 0

/-- The byte loop of `CompareCapabilityKeys`, then the comparison of lengths. -/
def compareNames : Bytes → Bytes → Ordering
  | [], [] => .eq
  | [], _ :: _ => .lt
  | _ :: _, [] => .gt
  | left :: lefts, right :: rights =>
    if left < right then .lt
    else if left > right then .gt
    else compareNames lefts rights

/-- `CompareCapabilityKeys`. -/
def compareCapabilityKeys (left right : Capability) : Ordering :=
  match compareNames left.serviceName right.serviceName with
  | .eq =>
    if left.serviceKind.wire < right.serviceKind.wire then .lt
    else if left.serviceKind.wire > right.serviceKind.wire then .gt
    else .eq
  | order => order

/-- The entry checks of the encoder. -/
def checkCapability (entry : Capability) : Result Unit :=
  if ¬ entry.serviceKind.isKnown then .error ⟨.invalidEnum, 0⟩
  else if ¬ isValidServiceName entry.serviceName then .error ⟨.invalidServiceName, 0⟩
  else if entry.maxConcurrentStreams = 0 ∨
      entry.maxConcurrentStreams.toNat > maxCapabilityConcurrentStreams then
    .error ⟨.invalidField, 0⟩
  else .ok ()

/-- The first entry that fails its checks decides the error. -/
def checkCapabilities : List Capability → Result Unit
  | [] => .ok ()
  | entry :: rest =>
    match checkCapability entry with
    | .error failure => .error failure
    | .ok () => checkCapabilities rest

/-- `std::sort` by the key order.  Entries with equal keys may come out in any
order: the encoder then refuses the manifest. -/
def sortCapabilities (entries : List Capability) : List Capability :=
  entries.mergeSort fun left right => (compareCapabilityKeys left right).isLE

/-- Do two neighbours have the same key? -/
def hasDuplicate : List Capability → Bool
  | first :: second :: rest =>
    compareCapabilityKeys first second == .eq || hasDuplicate (second :: rest)
  | _ => false

/-- The encoder's running total, or none when it would exceed the bound. -/
def manifestSize : List Capability → Nat → Option Nat
  | [], total => some total
  | entry :: rest, total =>
    if total > maxCapabilityManifestSize - capabilityEntryPrefixSize ∨
        entry.serviceName.length >
          maxCapabilityManifestSize - total - capabilityEntryPrefixSize then
      none
    else
      manifestSize rest (total + (capabilityEntryPrefixSize + entry.serviceName.length))

def encodeCapability (entry : Capability) : Bytes :=
  [entry.serviceKind.wire, 0] ++ beBytes 2 entry.serviceName.length ++
    beBytes 4 entry.maxConcurrentStreams.toNat ++ entry.serviceName

/-- The bytes of a manifest whose entries are in order. -/
def manifestPayload (entries : List Capability) (maxEpochBytes : UInt32) : Bytes :=
  [capabilityManifestSchema, 0] ++ beBytes 2 entries.length ++
    beBytes 4 maxEpochBytes.toNat ++ entries.flatMap encodeCapability

/-- `EncodeCapabilityManifest`. -/
def encodeCapabilityManifest (manifest : CapabilityManifest) : Result Bytes :=
  if manifest.entries.length > maxCapabilities then .error ⟨.tooManyFields, 0⟩
  else if ¬ isValidEpochPayloadBytes manifest.maxEpochBytes then
    .error ⟨.invalidField, 0⟩
  else
    match checkCapabilities manifest.entries with
    | .error failure => .error failure
    | .ok () =>
      let entries := sortCapabilities manifest.entries
      if hasDuplicate entries then .error ⟨.duplicateField, 0⟩
      else
        match manifestSize entries capabilityPrefixSize with
        | none => .error ⟨.payloadTooLarge, 0⟩
        | some _ => .ok (manifestPayload entries manifest.maxEpochBytes)

/-- The entry loop of `ValidateCapabilityManifestEncoding`, over the bytes that
are left at `offset` and the previous entry. -/
def validateEntries : Nat → Bytes → Nat → Option Capability → Result Unit
  | 0, rest, offset, _ =>
    if rest.length ≠ 0 then .error ⟨.trailingData, offset⟩ else .ok ()
  | count + 1, kind :: flags :: l1 :: l0 :: m3 :: m2 :: m1 :: m0 :: rest, offset, previous =>
    let nameLength := beNat [l1, l0]
    let maxStreams := beNat [m3, m2, m1, m0]
    let body := offset + capabilityEntryPrefixSize
    let entry : Capability :=
      ⟨rest.take nameLength, ⟨kind⟩, UInt32.ofNat maxStreams⟩
    if ¬ ServiceKind.isKnown ⟨kind⟩ then .error ⟨.invalidEnum, offset⟩
    else if flags ≠ 0 then .error ⟨.invalidFlags, offset + 1⟩
    else if nameLength = 0 ∨ nameLength > maxServiceNameBytes then
      .error ⟨.invalidServiceName, body - 6⟩
    else if nameLength > rest.length then .error ⟨.truncated, body⟩
    else if maxStreams = 0 ∨ maxStreams > maxCapabilityConcurrentStreams then
      .error ⟨.invalidField, body - 4⟩
    else if ¬ isValidServiceName entry.serviceName then .error ⟨.invalidUtf8, body⟩
    else
      match previous.map (compareCapabilityKeys · entry) with
      | some .eq => .error ⟨.duplicateField, body⟩
      | some .gt => .error ⟨.outOfOrderField, body⟩
      | _ => validateEntries count (rest.drop nameLength) (body + nameLength) (some entry)
  | _ + 1, _, offset, _ => .error ⟨.truncated, offset⟩

/-- `ValidateCapabilityManifestEncoding`. -/
def validateCapabilityManifestEncoding (payload : Bytes) : Result Unit :=
  if payload.length > maxCapabilityManifestSize then .error ⟨.payloadTooLarge, 0⟩
  else
    match payload with
    | schema :: flags :: c1 :: c0 :: e3 :: e2 :: e1 :: e0 :: rest =>
      if schema ≠ capabilityManifestSchema then .error ⟨.unsupportedVersion, 0⟩
      else if flags ≠ 0 then .error ⟨.invalidFlags, 1⟩
      else if beNat [c1, c0] > maxCapabilities then .error ⟨.tooManyFields, 2⟩
      else if ¬ isValidEpochPayloadBytes (UInt32.ofNat (beNat [e3, e2, e1, e0])) then
        .error ⟨.invalidField, 4⟩
      else validateEntries (beNat [c1, c0]) rest capabilityPrefixSize none
    | short => .error ⟨.truncated, short.length⟩

/-- The entry loop of `DecodeCapabilityManifest`.  It runs only on a payload
that was validated. -/
def decodeEntries : Nat → Bytes → List Capability
  | count + 1, kind :: _ :: l1 :: l0 :: m3 :: m2 :: m1 :: m0 :: rest =>
    ⟨rest.take (beNat [l1, l0]), ⟨kind⟩, UInt32.ofNat (beNat [m3, m2, m1, m0])⟩ ::
      decodeEntries count (rest.drop (beNat [l1, l0]))
  | _, _ => []

/-- `DecodeCapabilityManifest`. -/
def decodeCapabilityManifest (payload : Bytes) : Result CapabilityManifest :=
  match validateCapabilityManifestEncoding payload, payload with
  | .error failure, _ => .error failure
  | .ok (), _ :: _ :: c1 :: c0 :: e3 :: e2 :: e1 :: e0 :: rest =>
    .ok ⟨decodeEntries (beNat [c1, c0]) rest, UInt32.ofNat (beNat [e3, e2, e1, e0])⟩
  | .ok (), short => .error ⟨.truncated, short.length⟩

section Order

variable {left right : Capability} {entries : List Capability}

/-- Two bytes compared as the source compares them. -/
theorem compare_byte (left right : UInt8) :
    compare left right =
      if left < right then .lt else if left > right then .gt else .eq := by
  have hord : compare left right = compareOfLessAndEq left right := rfl
  rw [hord, compareOfLessAndEq]
  split_ifs with hlt heq hgt hgt
  · rfl
  · exact absurd (heq ▸ hgt) (UInt8.lt_irrefl _)
  · rfl
  · rfl
  · exact absurd (UInt8.le_antisymm (UInt8.not_lt.mp hgt) (UInt8.not_lt.mp hlt)) heq

/-- The byte loop is the lexicographic comparison. -/
theorem compareNames_eq (left right : Bytes) : compareNames left right = compare left right := by
  induction left generalizing right with
  | nil => cases right <;> rfl
  | cons byte rest ih =>
    cases right with
    | nil => rfl
    | cons other others =>
      have hcons : compare (byte :: rest) (other :: others) =
          (compare byte other).then (compare rest others) :=
        List.compareLex_cons_cons
      rw [compareNames, hcons, ih, compare_byte]
      split_ifs <;> rfl

/-- The key comparison is the lexicographic one on names, then kinds. -/
theorem compareCapabilityKeys_eq :
    compareCapabilityKeys = compareLex (compareOn Capability.serviceName)
      (compareOn fun entry : Capability => entry.serviceKind.wire) := by
  funext left right
  rw [compareCapabilityKeys, compareNames_eq, compareLex, compareOn, compareOn, compare_byte]
  cases compare left.serviceName right.serviceName <;> rfl

instance : Std.TransCmp compareCapabilityKeys := by
  rw [compareCapabilityKeys_eq]
  infer_instance

/-- The canonical order: by unsigned name bytes, then by kind. -/
def Capability.Before (left right : Capability) : Prop :=
  left.serviceName < right.serviceName ∨
    (left.serviceName = right.serviceName ∧ left.serviceKind.wire < right.serviceKind.wire)

/-- What distinguishes two entries of one manifest. -/
def Capability.key (entry : Capability) : Bytes × ServiceKind :=
  (entry.serviceName, entry.serviceKind)

/-- A byte string is less exactly when the loop says so. -/
theorem compareNames_lt_iff (left right : Bytes) :
    compareNames left right = .lt ↔ left < right := by
  induction left generalizing right with
  | nil => cases right <;> simp [compareNames]
  | cons byte rest ih =>
    cases right with
    | nil => simp [compareNames]
    | cons other =>
      rw [compareNames, cons_lt_cons_iff, ← ih]
      split_ifs with hlt hgt
      · simp [hlt]
      · have hne : byte ≠ other := fun heq => UInt8.lt_irrefl _ (heq ▸ hgt)
        simp [hlt, hne]
      have heq := UInt8.le_antisymm (UInt8.not_lt.mp hgt) (UInt8.not_lt.mp hlt)
      simp [heq]

theorem compareCapabilityKeys_eq_iff :
    compareCapabilityKeys left right = .eq ↔ left.key = right.key := by
  rw [compareCapabilityKeys_eq, compareLex_eq_eq, compareOn, compareOn,
    Std.LawfulEqOrd.compare_eq_iff_eq, Std.LawfulEqOrd.compare_eq_iff_eq,
    Capability.key, Capability.key, Prod.mk.injEq, ServiceKind.mk.injEq]

theorem compareCapabilityKeys_lt_iff :
    compareCapabilityKeys left right = .lt ↔ left.Before right := by
  have hname : compareNames left.serviceName right.serviceName = .eq ↔
      left.serviceName = right.serviceName := by
    rw [compareNames_eq, Std.LawfulEqOrd.compare_eq_iff_eq]
  rw [Capability.Before, ← compareNames_lt_iff, ← hname, compareCapabilityKeys]
  cases compareNames left.serviceName right.serviceName with
  | lt | gt => simp
  | eq =>
    split_ifs <;> simp [*]

theorem compareCapabilityKeys_gt_iff :
    compareCapabilityKeys left right = .gt ↔ right.Before left := by
  rw [← compareCapabilityKeys_lt_iff, Std.OrientedCmp.gt_iff_lt]

theorem Capability.Before.trans {other : Capability} (h : left.Before right)
    (hnext : right.Before other) : left.Before other := by
  rw [← compareCapabilityKeys_lt_iff] at *
  exact Std.TransCmp.lt_trans h hnext

theorem Capability.Before.key_ne (h : left.Before right) : left.key ≠ right.key := by
  rw [← compareCapabilityKeys_lt_iff] at h
  rw [ne_eq, ← compareCapabilityKeys_eq_iff, h]
  decide

theorem Capability.Before.asymm (h : left.Before right) : ¬ right.Before left := by
  rw [← compareCapabilityKeys_gt_iff, compareCapabilityKeys_lt_iff.mpr h]
  decide

/-- Not after and with another key is before. -/
theorem Capability.before_of_isLE (h : (compareCapabilityKeys left right).isLE = true)
    (hkey : left.key ≠ right.key) : left.Before right := by
  rw [← compareCapabilityKeys_lt_iff]
  rw [ne_eq, ← compareCapabilityKeys_eq_iff] at hkey
  cases horder : compareCapabilityKeys left right with
  | lt => rfl
  | eq => exact absurd horder hkey
  | gt => rw [horder] at h; cases h

/-- The entries are in the canonical order, without duplicates. -/
def Canonical (entries : List Capability) : Prop := entries.Pairwise Capability.Before

theorem Canonical.keys_nodup (h : Canonical entries) : (entries.map Capability.key).Nodup :=
  pairwise_map.mpr (h.imp fun hbefore => hbefore.key_ne)

theorem sortCapabilities_perm (entries : List Capability) :
    (sortCapabilities entries).Perm entries := mergeSort_perm _ _

theorem sortCapabilities_sorted (entries : List Capability) :
    (sortCapabilities entries).Pairwise fun left right =>
      (compareCapabilityKeys left right).isLE = true := by
  refine pairwise_mergeSort (fun _ _ _ => Std.TransCmp.isLE_trans) ?_ entries
  intro left right
  have hswap : compareCapabilityKeys right left =
      (compareCapabilityKeys left right).swap := Std.OrientedCmp.eq_swap
  rw [hswap]
  cases compareCapabilityKeys left right <;> rfl

instance : Trans Capability.Before Capability.Before Capability.Before := ⟨.trans⟩

/-- The neighbour check finds every duplicate of a sorted list. -/
theorem hasDuplicate_eq_false_iff (hsorted : entries.Pairwise fun left right =>
      (compareCapabilityKeys left right).isLE = true) :
    hasDuplicate entries = false ↔ Canonical entries := by
  rw [Canonical, ← isChain_iff_pairwise]
  induction entries with
  | nil => simp [hasDuplicate]
  | cons first rest ih =>
    have hrest := ih hsorted.of_cons
    cases rest with
    | nil => simp [hasDuplicate]
    | cons =>
      have hle := rel_of_pairwise_cons hsorted mem_cons_self
      rw [hasDuplicate, Bool.or_eq_false_iff, beq_eq_false_iff_ne, ne_eq,
        compareCapabilityKeys_eq_iff, hrest, isChain_cons_cons]
      exact and_congr_left' ⟨Capability.before_of_isLE hle, Capability.Before.key_ne⟩

/-- A manifest sorts to a canonical list exactly when its keys are distinct. -/
theorem sortCapabilities_canonical_iff :
    Canonical (sortCapabilities entries) ↔ (entries.map Capability.key).Nodup := by
  have hperm := (sortCapabilities_perm entries).map Capability.key
  constructor
  · intro h
    exact hperm.nodup_iff.mp h.keys_nodup
  intro h
  have hkeys := pairwise_map.mp (hperm.nodup_iff.mpr h)
  exact ((sortCapabilities_sorted entries).and hkeys).imp
    fun hboth => Capability.before_of_isLE hboth.1 hboth.2

/-- Sorting undoes any permutation of a canonical list. -/
theorem Canonical.sort_perm {others : List Capability} (h : Canonical entries)
    (hperm : others.Perm entries) : sortCapabilities others = entries := by
  have hsorted : Canonical (sortCapabilities others) :=
    sortCapabilities_canonical_iff.mpr ((hperm.map _).nodup_iff.mpr h.keys_nodup)
  exact ((sortCapabilities_perm others).trans hperm).eq_of_pairwise
    (fun _ _ _ _ hab hba => absurd hba hab.asymm) hsorted h

end Order

section Codec

variable {entry : Capability} {entries : List Capability}

/-- The conditions under which an entry can be encoded. -/
structure Capability.Valid (entry : Capability) : Prop where
  kind : entry.serviceKind.isKnown = true
  name : isValidServiceName entry.serviceName = true
  streams : entry.maxConcurrentStreams ≠ 0 ∧
    entry.maxConcurrentStreams.toNat ≤ maxCapabilityConcurrentStreams

theorem checkCapability_eq_ok_iff : checkCapability entry = .ok () ↔ entry.Valid := by
  unfold checkCapability
  split_ifs with hkind hname hstreams
  · rcases hstreams with hzero | hlarge
    · exact ⟨nofun, fun h => absurd hzero h.streams.1⟩
    · exact ⟨nofun, fun h => absurd h.streams.2 (Nat.not_le.mpr hlarge)⟩
  · rw [not_or, Nat.not_lt] at hstreams
    exact ⟨fun _ => ⟨hkind, hname, hstreams⟩, fun _ => rfl⟩
  · exact ⟨nofun, fun h => absurd h.name hname⟩
  · exact ⟨nofun, fun h => absurd h.kind hkind⟩

theorem checkCapabilities_eq_ok_iff :
    checkCapabilities entries = .ok () ↔ ∀ entry ∈ entries, entry.Valid := by
  induction entries with
  | nil => simp [checkCapabilities]
  | cons entry rest ih =>
    rw [forall_mem_cons, ← checkCapability_eq_ok_iff, ← ih, checkCapabilities]
    cases checkCapability entry with
    | error => simp
    | ok => simp

theorem encodeCapability_length (entry : Capability) :
    (encodeCapability entry).length = capabilityEntryPrefixSize + entry.serviceName.length := by
  simp [encodeCapability, capabilityEntryPrefixSize]
  omega

/-- The running total is the number of bytes that are written. -/
theorem manifestSize_eq (total : Nat)
    (h : total + (entries.flatMap encodeCapability).length ≤ maxCapabilityManifestSize) :
    manifestSize entries total = some (total + (entries.flatMap encodeCapability).length) := by
  induction entries generalizing total with
  | nil => rfl
  | cons entry rest ih =>
    rw [flatMap_cons, length_append, encodeCapability_length] at h ⊢
    rw [manifestSize, if_neg, ih]
    · congr 1
      omega
    · omega
    simp only [maxCapabilityManifestSize, capabilityEntryPrefixSize] at h ⊢
    omega

/-- Valid entries take at most 136 bytes each. -/
theorem flatMap_encode_length_le (h : ∀ entry ∈ entries, entry.Valid) :
    (entries.flatMap encodeCapability).length ≤
      entries.length * (capabilityEntryPrefixSize + maxServiceNameBytes) := by
  induction entries with
  | nil => simp
  | cons entry rest ih =>
    have hname := (isValidServiceName_length (h entry mem_cons_self).name).2
    have hrest := ih fun other hother => h other (mem_cons_of_mem _ hother)
    rw [flatMap_cons, length_append, encodeCapability_length, length_cons, Nat.succ_mul]
    omega

theorem manifestPayload_length (entries : List Capability) (maxEpochBytes : UInt32) :
    (manifestPayload entries maxEpochBytes).length =
      capabilityPrefixSize + (entries.flatMap encodeCapability).length := by
  simp [manifestPayload, capabilityPrefixSize]
  omega

theorem manifestPayload_length_le (hcount : entries.length ≤ maxCapabilities)
    (h : ∀ entry ∈ entries, entry.Valid) (maxEpochBytes : UInt32) :
    (manifestPayload entries maxEpochBytes).length ≤ maxCapabilityManifestSize := by
  have hlength := flatMap_encode_length_le h
  rw [manifestPayload_length]
  simp only [maxCapabilities, maxCapabilityManifestSize, capabilityPrefixSize,
    capabilityEntryPrefixSize, maxServiceNameBytes] at *
  omega

/-- The conditions under which a manifest can be encoded. -/
structure CapabilityManifest.Valid (manifest : CapabilityManifest) : Prop where
  count : manifest.entries.length ≤ maxCapabilities
  epoch : isValidEpochPayloadBytes manifest.maxEpochBytes = true
  entries : ∀ entry ∈ manifest.entries, entry.Valid
  keys : (manifest.entries.map Capability.key).Nodup

variable {manifest : CapabilityManifest} {payload : Bytes}

/-- The encoder's size check never fails. -/
theorem encodeCapabilityManifest_eq_ok (h : manifest.Valid) :
    encodeCapabilityManifest manifest =
      .ok (manifestPayload (sortCapabilities manifest.entries) manifest.maxEpochBytes) := by
  have hperm := sortCapabilities_perm manifest.entries
  have hvalid : ∀ entry ∈ sortCapabilities manifest.entries, entry.Valid :=
    fun entry hentry => h.entries entry (hperm.mem_iff.mp hentry)
  have hsize := manifestPayload_length_le (hperm.length_eq ▸ h.count) hvalid manifest.maxEpochBytes
  rw [manifestPayload_length] at hsize
  have hduplicate := (hasDuplicate_eq_false_iff (sortCapabilities_sorted _)).mpr
    (sortCapabilities_canonical_iff.mpr h.keys)
  unfold encodeCapabilityManifest
  rw [if_neg (Nat.not_lt.mpr h.count), if_neg (not_not.mpr h.epoch),
    checkCapabilities_eq_ok_iff.mpr h.entries]
  rw [if_neg (by rw [hduplicate]; decide), manifestSize_eq _ hsize]

theorem encodeCapabilityManifest_valid
    (h : encodeCapabilityManifest manifest = .ok payload) : manifest.Valid := by
  unfold encodeCapabilityManifest at h
  split_ifs at h with hcount hepoch
  split at h
  · cases h
  rename_i hentries
  dsimp only at h
  split_ifs at h with hduplicate
  rw [Bool.not_eq_true, hasDuplicate_eq_false_iff (sortCapabilities_sorted _)] at hduplicate
  exact ⟨Nat.not_lt.mp hcount, hepoch, checkCapabilities_eq_ok_iff.mp hentries,
    sortCapabilities_canonical_iff.mp hduplicate⟩

/-- An encoded entry as the decoders read it. -/
theorem Capability.Valid.encode_eq (h : entry.Valid) :
    ∃ l1 l0 m3 m2 m1 m0, encodeCapability entry =
        entry.serviceKind.wire :: 0 :: l1 :: l0 :: m3 :: m2 :: m1 :: m0 :: entry.serviceName ∧
      beNat [l1, l0] = entry.serviceName.length ∧
      beNat [m3, m2, m1, m0] = entry.maxConcurrentStreams.toNat := by
  have hname := (isValidServiceName_length h.name).2
  simp only [maxServiceNameBytes] at hname
  obtain ⟨l1, l0, hlength, hl⟩ :=
    two_bytes_roundtrip (n := entry.serviceName.length) (by omega)
  obtain ⟨m3, m2, m1, m0, hstreams, hm⟩ := four_bytes_roundtrip entry.maxConcurrentStreams
  refine ⟨l1, l0, m3, m2, m1, m0, ?_, hl, hm⟩
  simp [encodeCapability, hlength, hstreams]

/-- The second decoder reads one entry back. -/
theorem Capability.Valid.decode_cons (h : entry.Valid) (count : Nat) (tail : Bytes) :
    decodeEntries (count + 1) (encodeCapability entry ++ tail) =
      entry :: decodeEntries count tail := by
  obtain ⟨l1, l0, m3, m2, m1, m0, hencode, hlength, hstreams⟩ := h.encode_eq
  rw [hencode]
  simp only [cons_append, decodeEntries]
  rw [hlength, hstreams, take_left, drop_left, UInt32.ofNat_toNat]

/-- The first decoder steps over one entry that comes after the previous one. -/
theorem Capability.Valid.validate_cons (h : entry.Valid) (count : Nat) (tail : Bytes)
    (offset : Nat) (previous : Option Capability)
    (hbefore : ∀ prior ∈ previous, Capability.Before prior entry) :
    validateEntries (count + 1) (encodeCapability entry ++ tail) offset previous =
      validateEntries count tail
        (offset + capabilityEntryPrefixSize + entry.serviceName.length) (some entry) := by
  obtain ⟨hnonempty, hshort⟩ := isValidServiceName_length h.name
  obtain ⟨l1, l0, m3, m2, m1, m0, hencode, hlength, hstreams⟩ := h.encode_eq
  have hpositive : entry.maxConcurrentStreams.toNat ≠ 0 := fun hzero =>
    h.streams.1 (UInt32.toNat_inj.mp hzero)
  have hlarge := h.streams.2
  rw [hencode]
  simp only [cons_append, validateEntries]
  rw [hlength, hstreams, take_left, drop_left, UInt32.ofNat_toNat,
    if_neg (not_not.mpr h.kind), if_neg (not_not.mpr rfl), if_neg (by omega),
    if_neg (by simp), if_neg (by omega), if_neg (not_not.mpr h.name)]
  cases previous with
  | none => rfl
  | some prior =>
    simp only [Option.map_some, compareCapabilityKeys_lt_iff.mpr (hbefore prior rfl)]

/-- An entry the first decoder accepts is valid, comes after the previous one
and stands encoded at the front of the input. -/
theorem validateEntries_succ_ok {count : Nat} {rest : Bytes} {offset : Nat}
    {previous : Option Capability}
    (h : validateEntries (count + 1) rest offset previous = .ok ()) :
    ∃ (entry : Capability) (tail : Bytes), entry.Valid ∧
      (∀ prior ∈ previous, Capability.Before prior entry) ∧
      rest = encodeCapability entry ++ tail := by
  unfold validateEntries at h
  split at h
  · rename_i heq
    cases heq
  · rename_i kind flags l1 l0 m3 m2 m1 m0 body hcount
    dsimp only at h
    split_ifs at h with hkind hflags hlength hlong hstreams hname
    simp only [not_or, not_not, Nat.not_lt] at hflags hlength hlong hstreams
    have htake : (body.take (beNat [l1, l0])).length = beNat [l1, l0] :=
      length_take_of_le hlong
    have hvalue := toNat_ofNat_beNat m3 m2 m1 m0
    refine ⟨⟨body.take (beNat [l1, l0]), ⟨kind⟩, UInt32.ofNat (beNat [m3, m2, m1, m0])⟩,
      body.drop (beNat [l1, l0]), ⟨hkind, hname, fun hzero => hstreams.1 ?_, ?_⟩, ?_, ?_⟩
    · rw [← hvalue]
      exact congrArg UInt32.toNat hzero
    · rw [hvalue]
      exact hstreams.2
    · rintro prior rfl
      rw [← compareCapabilityKeys_lt_iff]
      rw [Option.map_some] at h
      split at h
      · cases h
      · cases h
      rename_i heq hgt
      rw [Option.some.injEq] at heq hgt
      generalize compareCapabilityKeys prior _ = order at heq hgt
      cases order
      · rfl
      · exact absurd rfl heq
      · exact absurd rfl hgt
    · have hl : beBytes 2 (beNat [l1, l0]) = [l1, l0] := beBytes_beNat [l1, l0]
      have hm : beBytes 4 (beNat [m3, m2, m1, m0]) = [m3, m2, m1, m0] :=
        beBytes_beNat [m3, m2, m1, m0]
      simp only [encodeCapability, hvalue, htake, hl, hm, hflags, cons_append,
        nil_append, take_append_drop]
  · cases h

/-- The second decoder reads the entries back. -/
theorem decodeEntries_encode (h : ∀ entry ∈ entries, entry.Valid) :
    decodeEntries entries.length (entries.flatMap encodeCapability) = entries := by
  induction entries with
  | nil => rfl
  | cons entry rest ih =>
    rw [flatMap_cons, length_cons, (h entry mem_cons_self).decode_cons,
      ih fun other hother => h other (mem_cons_of_mem _ hother)]

/-- The first decoder accepts canonical entries. -/
theorem validateEntries_encode (h : ∀ entry ∈ entries, entry.Valid) (offset : Nat)
    (previous : Option Capability)
    (hcanonical : Canonical (previous.toList ++ entries)) :
    validateEntries entries.length (entries.flatMap encodeCapability) offset previous = .ok () := by
  induction entries generalizing offset previous with
  | nil => rfl
  | cons entry rest ih =>
    have hbefore : ∀ prior ∈ previous, Capability.Before prior entry := by
      rintro prior rfl
      exact rel_of_pairwise_cons hcanonical mem_cons_self
    rw [flatMap_cons, length_cons, (h entry mem_cons_self).validate_cons _ _ _ _ hbefore]
    exact ih (fun other hother => h other (mem_cons_of_mem _ hother)) _ _
      (hcanonical.sublist (sublist_append_right _ _))

/-- What the first decoder accepts, the second decodes to valid canonical
entries that are encoded to the same bytes. -/
theorem validateEntries_ok {count : Nat} {rest : Bytes} {offset : Nat}
    {previous : Option Capability}
    (h : validateEntries count rest offset previous = .ok ()) :
    (decodeEntries count rest).length = count ∧
      (decodeEntries count rest).flatMap encodeCapability = rest ∧
      (∀ entry ∈ decodeEntries count rest, entry.Valid) ∧
      Canonical (previous.toList ++ decodeEntries count rest) := by
  induction count generalizing rest offset previous with
  | zero =>
    rw [validateEntries] at h
    split_ifs at h with hrest
    rw [not_not, length_eq_zero_iff] at hrest
    subst hrest
    refine ⟨rfl, rfl, nofun, ?_⟩
    cases previous <;> simp [decodeEntries, Canonical]
  | succ count ih =>
    obtain ⟨entry, tail, hvalid, hbefore, rfl⟩ := validateEntries_succ_ok h
    rw [hvalid.validate_cons _ _ _ _ hbefore] at h
    obtain ⟨hcount, hflat, hrest, hcanonical⟩ := ih h
    rw [hvalid.decode_cons]
    refine ⟨by rw [length_cons, hcount], by rw [flatMap_cons, hflat],
      forall_mem_cons.mpr ⟨hvalid, hrest⟩, ?_⟩
    cases previous with
    | none => exact hcanonical
    | some prior =>
      rw [Canonical, ← isChain_iff_pairwise] at hcanonical ⊢
      exact .cons_cons (hbefore prior rfl) hcanonical

/-- A canonical payload passes the validation and decodes to its manifest. -/
theorem decodeCapabilityManifest_payload (h : manifest.Valid)
    (hcanonical : Canonical manifest.entries) :
    decodeCapabilityManifest (manifestPayload manifest.entries manifest.maxEpochBytes) =
      .ok manifest := by
  have hcount := h.count
  simp only [maxCapabilities] at hcount
  have hsize := manifestPayload_length_le h.count h.entries manifest.maxEpochBytes
  obtain ⟨c1, c0, hc, hcounted⟩ :=
    two_bytes_roundtrip (n := manifest.entries.length) (by omega)
  obtain ⟨e3, e2, e1, e0, he, hepoch⟩ := four_bytes_roundtrip manifest.maxEpochBytes
  have hpayload : manifestPayload manifest.entries manifest.maxEpochBytes =
      capabilityManifestSchema :: 0 :: c1 :: c0 :: e3 :: e2 :: e1 :: e0 ::
        manifest.entries.flatMap encodeCapability := by
    simp [manifestPayload, hc, he]
  rw [hpayload] at hsize ⊢
  have hvalidate : validateCapabilityManifestEncoding
      (capabilityManifestSchema :: 0 :: c1 :: c0 :: e3 :: e2 :: e1 :: e0 ::
        manifest.entries.flatMap encodeCapability) = .ok () := by
    unfold validateCapabilityManifestEncoding
    rw [if_neg (Nat.not_lt.mpr hsize)]
    dsimp only
    rw [if_neg (by simp), if_neg (by simp), hcounted, if_neg (Nat.not_lt.mpr h.count),
      hepoch, UInt32.ofNat_toNat, if_neg (not_not.mpr h.epoch)]
    exact validateEntries_encode h.entries _ none hcanonical
  simp only [decodeCapabilityManifest, hvalidate]
  rw [hcounted, hepoch, UInt32.ofNat_toNat, decodeEntries_encode h.entries]

/-- A payload that passes the validation is that of a canonical manifest. -/
theorem validateCapabilityManifestEncoding_ok
    (h : validateCapabilityManifestEncoding payload = .ok ()) :
    ∃ manifest : CapabilityManifest, manifest.Valid ∧ Canonical manifest.entries ∧
      payload = manifestPayload manifest.entries manifest.maxEpochBytes := by
  unfold validateCapabilityManifestEncoding at h
  split at h
  · cases h
  split at h
  · rename_i c1 c0 e3 e2 e1 e0 rest hsize
    split_ifs at h with hschema hflags hcount hepoch
    obtain ⟨hlength, hflat, hvalid, hcanonical⟩ := validateEntries_ok h
    refine ⟨⟨decodeEntries (beNat [c1, c0]) rest, UInt32.ofNat (beNat [e3, e2, e1, e0])⟩,
      ⟨?_, hepoch, hvalid, Canonical.keys_nodup hcanonical⟩, hcanonical, ?_⟩
    · rw [hlength]
      exact Nat.not_lt.mp hcount
    have hc : beBytes 2 (beNat [c1, c0]) = [c1, c0] := beBytes_beNat [c1, c0]
    have he : beBytes 4 (beNat [e3, e2, e1, e0]) = [e3, e2, e1, e0] :=
      beBytes_beNat [e3, e2, e1, e0]
    rw [not_not] at hschema hflags
    simp only [manifestPayload, hlength, hflat, toNat_ofNat_beNat, hc, he, hschema, hflags,
      cons_append, nil_append]
  · cases h

theorem validate_of_decode (h : decodeCapabilityManifest payload = .ok manifest) :
    validateCapabilityManifestEncoding payload = .ok () := by
  unfold decodeCapabilityManifest at h
  split at h
  · cases h
  · rename_i hvalidate
    exact hvalidate
  · cases h

/-- Reordering the entries keeps a manifest valid. -/
theorem CapabilityManifest.Valid.perm (h : manifest.Valid) (hperm : entries.Perm manifest.entries) :
    CapabilityManifest.Valid { manifest with entries } :=
  ⟨hperm.length_eq ▸ h.count, h.epoch,
    fun entry hentry => h.entries entry (hperm.mem_iff.mp hentry),
    (hperm.map _).nodup_iff.mpr h.keys⟩

end Codec

/-- The encoder accepts exactly the valid manifests, its output depends only on
the set of entries, and the two decoders accept exactly its image. -/
theorem capability_manifest_codec_exact :
    (∀ manifest : CapabilityManifest,
      (∃ payload, encodeCapabilityManifest manifest = .ok payload) ↔
        (manifest.entries.length ≤ 256 ∧
          isValidEpochPayloadBytes manifest.maxEpochBytes = true ∧
          (∀ entry ∈ manifest.entries, isValidServiceName entry.serviceName = true ∧
            entry.serviceKind.isKnown = true ∧ entry.maxConcurrentStreams ≠ 0 ∧
            entry.maxConcurrentStreams.toNat ≤ maxCapabilityConcurrentStreams) ∧
          manifest.entries.Pairwise fun left right =>
            (left.serviceName, left.serviceKind) ≠
              (right.serviceName, right.serviceKind))) ∧
    (∀ manifest payload, encodeCapabilityManifest manifest = .ok payload →
      (∀ entries : List Capability, entries.Perm manifest.entries →
        encodeCapabilityManifest { manifest with entries } = .ok payload) ∧
      payload.length ≤ maxCapabilityManifestSize ∧
      ∃ entries : List Capability, entries.Perm manifest.entries ∧
        entries.Pairwise Capability.Before ∧
        decodeCapabilityManifest payload = .ok { manifest with entries }) ∧
    (∀ payload, validateCapabilityManifestEncoding payload = .ok () ↔
      ∃ manifest, decodeCapabilityManifest payload = .ok manifest) ∧
    (∀ payload manifest, decodeCapabilityManifest payload = .ok manifest →
      encodeCapabilityManifest manifest = .ok payload) := by
  refine ⟨fun manifest => ⟨?_, ?_⟩, ?_, fun payload => ⟨?_, ?_⟩, ?_⟩
  · rintro ⟨payload, hencode⟩
    have hvalid := encodeCapabilityManifest_valid hencode
    exact ⟨hvalid.count, hvalid.epoch,
      fun entry hentry => ⟨(hvalid.entries entry hentry).name,
        (hvalid.entries entry hentry).kind, (hvalid.entries entry hentry).streams⟩,
      pairwise_map.mp hvalid.keys⟩
  · rintro ⟨hcount, hepoch, hentries, hkeys⟩
    refine ⟨_, encodeCapabilityManifest_eq_ok ⟨hcount, hepoch, fun entry hentry => ?_,
      pairwise_map.mpr hkeys⟩⟩
    obtain ⟨hname, hkind, hstreams⟩ := hentries entry hentry
    exact ⟨hkind, hname, hstreams⟩
  · intro manifest payload hencode
    have hvalid := encodeCapabilityManifest_valid hencode
    rw [encodeCapabilityManifest_eq_ok hvalid] at hencode
    cases hencode
    have hperm := sortCapabilities_perm manifest.entries
    have hcanonical := sortCapabilities_canonical_iff.mpr hvalid.keys
    have hsorted := hvalid.perm hperm
    have hlength := manifestPayload_length_le hsorted.count hsorted.entries manifest.maxEpochBytes
    have hdecode := decodeCapabilityManifest_payload hsorted hcanonical
    refine ⟨fun entries hother => ?_, hlength, _, hperm, hcanonical, hdecode⟩
    rw [encodeCapabilityManifest_eq_ok (hvalid.perm hother),
      hcanonical.sort_perm (hother.trans hperm.symm)]
  · intro hvalidate
    obtain ⟨manifest, hvalid, hcanonical, rfl⟩ :=
      validateCapabilityManifestEncoding_ok hvalidate
    exact ⟨manifest, decodeCapabilityManifest_payload hvalid hcanonical⟩
  · rintro ⟨manifest, hdecode⟩
    exact validate_of_decode hdecode
  · intro payload manifest hdecode
    obtain ⟨source, hvalid, hcanonical, rfl⟩ :=
      validateCapabilityManifestEncoding_ok (validate_of_decode hdecode)
    rw [decodeCapabilityManifest_payload hvalid hcanonical] at hdecode
    cases hdecode
    rw [encodeCapabilityManifest_eq_ok hvalid, hcanonical.sort_perm (List.Perm.refl _)]

/-- Two services, listed out of order. -/
def sampleManifest : CapabilityManifest where
  entries := [⟨[98], .byteStream, 4⟩, ⟨[97], .packet, 1⟩]

theorem capability_manifest_codec_exact_sample :
    ∃ payload, encodeCapabilityManifest sampleManifest = .ok payload ∧
      encodeCapabilityManifest { sampleManifest with
        entries := [⟨[97], .packet, 1⟩, ⟨[98], .byteStream, 4⟩] } = .ok payload := by
  obtain ⟨payload, hencode⟩ :=
    (capability_manifest_codec_exact.1 sampleManifest).mpr (by decide +kernel)
  exact ⟨payload, hencode, (capability_manifest_codec_exact.2.1 _ _ hencode).1 _
    (Perm.swap _ _ _)⟩

end Yume.Ytp
