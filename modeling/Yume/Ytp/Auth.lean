/-
The AUTH record: the checks of its fields, `EncodeAuthRecord`,
`DecodeAuthRecord` and the exactness of the codec.
-/
import Yume.Ytp.Capabilities
import Yume.Crypto.Canonical

namespace Yume.Ytp

open Yume.Lib List
open Yume.Crypto (requiredSecurityParameters x25519PublicKeySize
  mlKem1024CiphertextSize)

def authPrefixSize : Nat := 8
def authFieldPrefixSize : Nat := 8
def authSchema : UInt8 := 1
def mandatoryAuthFieldCount : Nat := 3
def maxAuthFields : Nat := 32
def maxAuthRecordSize : Nat := 65536
def transcriptHashSize : Nat := 32
def maxCompositeIdentitySize : Nat := 16384
def compositeSignatureSize : Nat := 64 + 4627
def mlKem1024PublicKeySize : Nat := 1568
def authFieldFlagCritical : UInt16 := 0x0001

/-- `AuthMessageType`: an enumeration over one byte that a cast can fill with
any value. -/
structure AuthMessageType where
  wire : UInt8
deriving Repr, DecidableEq

namespace AuthMessageType

def challenge : AuthMessageType := ⟨1⟩
def response : AuthMessageType := ⟨2⟩
def accepted : AuthMessageType := ⟨3⟩
def rekeyInit : AuthMessageType := ⟨4⟩
def rekeyAck : AuthMessageType := ⟨5⟩

def isKnown (type : AuthMessageType) : Bool :=
  type == challenge || type == response || type == accepted || type == rekeyInit ||
    type == rekeyAck

end AuthMessageType

/-- `EndpointRole`, also over one byte. -/
structure EndpointRole where
  wire : UInt8
deriving Repr, DecidableEq

namespace EndpointRole

def client : EndpointRole := ⟨1⟩
def server : EndpointRole := ⟨2⟩

def isKnown (role : EndpointRole) : Bool := role == client || role == server

end EndpointRole

namespace AuthFieldId

def suiteId : UInt16 := 1
def securityParameters : UInt16 := 2
def senderRole : UInt16 := 3
def transcriptHash : UInt16 := 4
def identity : UInt16 := 5
def compositeSignature : UInt16 := 6
def mlKemPublicKey : UInt16 := 7
def mlKemCiphertext : UInt16 := 8
def x25519PublicKey : UInt16 := 9
def capabilityManifest : UInt16 := 10
def nonce : UInt16 := 11
def pskAuthenticator : UInt16 := 12
def keyConfirmation : UInt16 := 13

end AuthFieldId

open AuthFieldId

structure AuthField where
  id : UInt16
  critical : Bool
  value : Bytes
deriving Repr, DecidableEq

structure AuthRecord where
  type : AuthMessageType
  senderRole : EndpointRole
  fields : List AuthField
deriving Repr, DecidableEq

def isKnownAuthField (id : UInt16) : Bool :=
  decide (suiteId ≤ id) && decide (id ≤ keyConfirmation)

/-- The `required_length` that the switch of `ValidateAdditionalAuthField`
assigns, for the fields that have one length. -/
def requiredLength (id : UInt16) : Option Nat :=
  if id = transcriptHash then some transcriptHashSize
  else if id = compositeSignature then some compositeSignatureSize
  else if id = mlKemPublicKey then some mlKem1024PublicKeySize
  else if id = mlKemCiphertext then some mlKem1024CiphertextSize
  else if id = x25519PublicKey then some x25519PublicKeySize
  else if id = nonce ∨ id = pskAuthenticator ∨ id = keyConfirmation then some 32
  else none

/-- `ValidateAdditionalAuthField`. -/
def validateAdditionalAuthField (id : UInt16) (critical : Bool) (value : Bytes)
    (offset : Nat) : Result Unit :=
  if id ≤ senderRole then .error ⟨.invalidField, offset⟩
  else if ¬ isKnownAuthField id then
    if critical then .error ⟨.unknownCriticalField, offset⟩ else .ok ()
  else if ¬ critical then .error ⟨.invalidField, offset⟩
  else if id = identity then
    if value.length = 0 ∨ value.length > maxCompositeIdentitySize then
      .error ⟨.invalidLength, offset⟩
    else .ok ()
  else if id = capabilityManifest then
    match validateCapabilityManifestEncoding value with
    | .error failure => .error ⟨failure.code, offset + failure.offset⟩
    | .ok () => .ok ()
  else
    match requiredLength id with
    | some length =>
      if value.length ≠ length then .error ⟨.invalidLength, offset⟩ else .ok ()
    | none => .error ⟨.invalidField, offset⟩

/-- The first field that fails its checks decides the error. -/
def checkAuthFields : List AuthField → Result Unit
  | [] => .ok ()
  | field :: rest =>
    match validateAdditionalAuthField field.id field.critical field.value 0 with
    | .error failure => .error failure
    | .ok () => checkAuthFields rest

/-- `std::sort` by tag.  Fields with one tag may come out in any order: the
encoder then refuses the record. -/
def sortAuthFields (fields : List AuthField) : List AuthField :=
  fields.mergeSort fun left right => decide (left.id ≤ right.id)

/-- Do two neighbours have the same tag? -/
def hasDuplicateId : List AuthField → Bool
  | first :: second :: rest => first.id == second.id || hasDuplicateId (second :: rest)
  | _ => false

/-- The two loops of the encoder that add up the record's size. -/
def authRecordSize (fields : List AuthField) : Option Nat :=
  boundedTotal maxAuthRecordSize authFieldPrefixSize (fields.map AuthField.value) authPrefixSize

/-- `WriteAuthField`. -/
def writeAuthField (field : AuthField) : Bytes :=
  beBytes 2 field.id.toNat ++
    beBytes 2 (if field.critical then authFieldFlagCritical else 0).toNat ++
    beBytes 4 field.value.length ++ field.value

/-- The fields that the encoder inserts. -/
def mandatoryFields (role : EndpointRole) : List AuthField :=
  [⟨suiteId, true, Crypto.suiteId⟩, ⟨securityParameters, true, requiredSecurityParameters⟩,
    ⟨senderRole, true, [role.wire]⟩]

/-- The bytes of a record with these fields, the mandatory ones among them. -/
def authPayload (type : AuthMessageType) (fields : List AuthField) : Bytes :=
  [authSchema, type.wire] ++ beBytes 2 fields.length ++
    beBytes 4 (fields.flatMap writeAuthField).length ++ fields.flatMap writeAuthField

/-- `EncodeAuthRecord`. -/
def encodeAuthRecord (record : AuthRecord) : Result Bytes :=
  if ¬ record.type.isKnown ∨ ¬ record.senderRole.isKnown then .error ⟨.invalidEnum, 0⟩
  else if record.fields.length > maxAuthFields - mandatoryAuthFieldCount then
    .error ⟨.tooManyFields, 0⟩
  else
    match checkAuthFields record.fields with
    | .error failure => .error failure
    | .ok () =>
      let fields := sortAuthFields record.fields
      if hasDuplicateId fields then .error ⟨.duplicateField, 0⟩
      else
        match authRecordSize (mandatoryFields record.senderRole ++ fields) with
        | none => .error ⟨.payloadTooLarge, 0⟩
        | some _ =>
          .ok (authPayload record.type (mandatoryFields record.senderRole ++ fields))

/-- The local variables of the field loop of `DecodeAuthRecord`. -/
structure AuthScan where
  haveSuite : Bool := false
  haveSecurityParameters : Bool := false
  haveRole : Bool := false
  senderRole : EndpointRole := .client
  previousId : UInt16 := 0
  fields : List AuthField := []
deriving Repr, DecidableEq

/-- The checks of a field's tag and flags. -/
def checkAuthFieldPrefix (previousId id flags : UInt16) (offset : Nat) : Result Unit :=
  if id = 0 then .error ⟨.invalidField, offset⟩
  else if id = previousId then .error ⟨.duplicateField, offset⟩
  else if id < previousId then .error ⟨.outOfOrderField, offset⟩
  else if flags &&& ~~~authFieldFlagCritical ≠ 0 then .error ⟨.invalidFlags, offset + 2⟩
  else .ok ()

/-- The switch of the field loop. -/
def scanAuthField (scan : AuthScan) (field : AuthField) (offset : Nat) : Result AuthScan :=
  if field.id = suiteId then
    if ¬ field.critical ∨ field.value ≠ Crypto.suiteId then .error ⟨.invalidField, offset⟩
    else .ok { scan with haveSuite := true, previousId := field.id }
  else if field.id = securityParameters then
    if ¬ field.critical ∨ field.value ≠ requiredSecurityParameters then
      .error ⟨.invalidField, offset⟩
    else .ok { scan with haveSecurityParameters := true, previousId := field.id }
  else if field.id = senderRole then
    match field.critical, field.value with
    | true, [byte] =>
      if ¬ EndpointRole.isKnown ⟨byte⟩ then .error ⟨.invalidEnum, offset⟩
      else .ok { scan with haveRole := true, senderRole := ⟨byte⟩, previousId := field.id }
    | _, _ => .error ⟨.invalidField, offset⟩
  else
    match validateAdditionalAuthField field.id field.critical field.value offset with
    | .error failure => .error failure
    | .ok () => .ok { scan with fields := scan.fields ++ [field], previousId := field.id }

/-- The field loop of `DecodeAuthRecord`, over the bytes that are left at
`offset`, and the checks behind it. -/
def decodeAuthFields (type : AuthMessageType) : Nat → Bytes → Nat → AuthScan → Result AuthRecord
  | 0, rest, offset, scan =>
    if rest.length ≠ 0 then .error ⟨.trailingData, offset⟩
    else if ¬ scan.haveSuite ∨ ¬ scan.haveSecurityParameters ∨ ¬ scan.haveRole then
      .error ⟨.missingField, offset⟩
    else .ok ⟨type, scan.senderRole, scan.fields⟩
  | count + 1, i1 :: i0 :: f1 :: f0 :: l3 :: l2 :: l1 :: l0 :: rest, offset, scan =>
    let id := UInt16.ofNat (beNat [i1, i0])
    let flags := UInt16.ofNat (beNat [f1, f0])
    let length := beNat [l3, l2, l1, l0]
    let body := offset + authFieldPrefixSize
    match checkAuthFieldPrefix scan.previousId id flags offset with
    | .error failure => .error failure
    | .ok () =>
      if length > rest.length then .error ⟨.truncated, body⟩
      else
        let critical := flags &&& authFieldFlagCritical != 0
        match scanAuthField scan ⟨id, critical, rest.take length⟩ body with
        | .error failure => .error failure
        | .ok scan =>
          decodeAuthFields type count (rest.drop length) (body + length) scan
  | _ + 1, _, offset, _ => .error ⟨.truncated, offset⟩

/-- `DecodeAuthRecord`. -/
def decodeAuthRecord (encoded : Bytes) : Result AuthRecord :=
  if encoded.length > maxAuthRecordSize then .error ⟨.payloadTooLarge, 0⟩
  else
    match encoded with
    | schema :: type :: c1 :: c0 :: b3 :: b2 :: b1 :: b0 :: rest =>
      let fieldCount := beNat [c1, c0]
      let bodyLength := beNat [b3, b2, b1, b0]
      if schema ≠ authSchema then .error ⟨.unsupportedVersion, 0⟩
      else if ¬ AuthMessageType.isKnown ⟨type⟩ then .error ⟨.invalidEnum, 1⟩
      else if fieldCount > maxAuthFields then .error ⟨.tooManyFields, 2⟩
      else if fieldCount < mandatoryAuthFieldCount then .error ⟨.missingField, 2⟩
      else if bodyLength > rest.length then .error ⟨.truncated, encoded.length⟩
      else if bodyLength < rest.length then
        .error ⟨.trailingData, authPrefixSize + bodyLength⟩
      else decodeAuthFields ⟨type⟩ fieldCount rest authPrefixSize {}
    | short => .error ⟨.truncated, short.length⟩

section Order

variable {fields : List AuthField}

/-- The tags increase strictly. -/
def Ascending (fields : List AuthField) : Prop :=
  fields.Pairwise fun left right => left.id < right.id

theorem sortAuthFields_perm (fields : List AuthField) :
    (sortAuthFields fields).Perm fields := mergeSort_perm _ _

theorem sortAuthFields_sorted (fields : List AuthField) :
    (sortAuthFields fields).Pairwise fun left right => left.id ≤ right.id := by
  have htrans : ∀ a b c : AuthField, decide (a.id ≤ b.id) = true →
      decide (b.id ≤ c.id) = true → decide (a.id ≤ c.id) = true := by
    intro a b c hab hbc
    rw [decide_eq_true_eq] at *
    exact UInt16.le_trans hab hbc
  have htotal : ∀ a b : AuthField, (decide (a.id ≤ b.id) || decide (b.id ≤ a.id)) = true :=
    fun a b => by simpa using UInt16.le_total a.id b.id
  exact (pairwise_mergeSort htrans htotal fields).imp of_decide_eq_true

instance : IsTrans AuthField fun left right => left.id < right.id :=
  ⟨fun _ _ _ => UInt16.lt_trans⟩

/-- The neighbour check finds every duplicate of a sorted list. -/
theorem hasDuplicateId_eq_false_iff
    (hsorted : fields.Pairwise fun left right => left.id ≤ right.id) :
    hasDuplicateId fields = false ↔ Ascending fields := by
  rw [Ascending, ← isChain_iff_pairwise]
  induction fields with
  | nil => simp [hasDuplicateId]
  | cons first rest ih =>
    have hrest := ih hsorted.of_cons
    cases rest with
    | nil => simp [hasDuplicateId]
    | cons second =>
      have hle : first.id ≤ second.id := rel_of_pairwise_cons hsorted mem_cons_self
      rw [hasDuplicateId, Bool.or_eq_false_iff, beq_eq_false_iff_ne, hrest, isChain_cons_cons]
      exact and_congr_left' ⟨UInt16.lt_of_le_of_ne hle, UInt16.ne_of_lt⟩

/-- Sorting leaves ascending fields as they are. -/
theorem Ascending.sort_eq (h : Ascending fields) : sortAuthFields fields = fields :=
  mergeSort_of_pairwise (h.imp fun hlt => decide_eq_true (UInt16.le_of_lt hlt))

theorem Ascending.ids_nodup (h : Ascending fields) : (fields.map AuthField.id).Nodup := by
  have hne : ∀ left right : AuthField, left.id < right.id → left.id ≠ right.id :=
    fun left right hlt heq => UInt16.lt_irrefl _ (heq ▸ hlt)
  exact pairwise_map.mpr (Pairwise.imp (hne _ _) h)

end Order

/-- A field as it stands on the wire, whatever its tag and flags. -/
structure RawField where
  id : UInt16
  flags : UInt16
  value : Bytes
deriving Repr, DecidableEq

def RawField.bytes (raw : RawField) : Bytes :=
  beBytes 2 raw.id.toNat ++ beBytes 2 raw.flags.toNat ++ beBytes 4 raw.value.length ++ raw.value

def AuthField.raw (field : AuthField) : RawField :=
  ⟨field.id, if field.critical then authFieldFlagCritical else 0, field.value⟩

theorem AuthField.raw_bytes (field : AuthField) : field.raw.bytes = writeAuthField field :=
  rfl

section Wire

variable {raw other : RawField} {field : AuthField} {tail rest : Bytes}

/-- A 16-bit number survives the wire. -/
theorem beNat_beBytes_toNat (n : UInt16) : beNat (beBytes 2 n.toNat) = n.toNat :=
  beNat_beBytes 2 n.toNat_lt

theorem toNat_ofNat_beNat_two (high low : UInt8) :
    (UInt16.ofNat (beNat [high, low])).toNat = beNat [high, low] := by
  have hlt : beNat [high, low] < 256 ^ 2 := beNat_lt [high, low]
  exact UInt16.toNat_ofNat_of_lt' (Nat.lt_of_lt_of_le hlt (by decide))

/-- A field on the wire as the decoder reads it. -/
theorem RawField.bytes_eq (raw : RawField) (h : Fits raw.value) :
    ∃ i1 i0 f1 f0 l3 l2 l1 l0,
      raw.bytes = i1 :: i0 :: f1 :: f0 :: l3 :: l2 :: l1 :: l0 :: raw.value ∧
      UInt16.ofNat (beNat [i1, i0]) = raw.id ∧
      UInt16.ofNat (beNat [f1, f0]) = raw.flags ∧
      beNat [l3, l2, l1, l0] = raw.value.length := by
  refine ⟨_, _, _, _, _, _, _, _, rfl, ?_, ?_, beNat_beBytes 4 h⟩
  · exact UInt16.toNat_inj.mp ((toNat_ofNat_beNat_two _ _).trans (beNat_beBytes_toNat raw.id))
  · exact UInt16.toNat_inj.mp ((toNat_ofNat_beNat_two _ _).trans (beNat_beBytes_toNat raw.flags))

theorem RawField.bytes_length (raw : RawField) :
    raw.bytes.length = authFieldPrefixSize + raw.value.length := by
  simp [RawField.bytes, authFieldPrefixSize]
  omega

/-- A field on the wire can be read in one way only. -/
theorem RawField.bytes_inj (h : Fits raw.value) (hother : Fits other.value)
    (heq : raw.bytes ++ rest = other.bytes ++ tail) : raw = other ∧ rest = tail := by
  simp only [RawField.bytes, append_assoc] at heq
  obtain ⟨hid, heq⟩ := append_inj heq (by simp)
  obtain ⟨hflags, heq⟩ := append_inj heq (by simp)
  obtain ⟨hlength, heq⟩ := append_inj heq (by simp)
  obtain ⟨hvalue, htail⟩ := append_inj heq (beBytes_inj h hother hlength)
  have hids := beBytes_inj raw.id.toNat_lt other.id.toNat_lt hid
  have hflagss := beBytes_inj raw.flags.toNat_lt other.flags.toNat_lt hflags
  refine ⟨?_, htail⟩
  cases raw
  cases other
  simp only [RawField.mk.injEq]
  exact ⟨UInt16.toNat_inj.mp hids, UInt16.toNat_inj.mp hflagss, hvalue⟩

/-- Two sequences of as many fields that start one string are the same. -/
theorem flatMap_bytes_inj {raws others : List RawField}
    (h : ∀ raw ∈ raws, Fits raw.value) (hothers : ∀ raw ∈ others, Fits raw.value)
    (hcount : raws.length = others.length)
    (heq : raws.flatMap RawField.bytes ++ rest = others.flatMap RawField.bytes ++ tail) :
    raws = others ∧ rest = tail := by
  induction raws generalizing others with
  | nil =>
    rw [length_nil, eq_comm, length_eq_zero_iff] at hcount
    subst hcount
    exact ⟨rfl, heq⟩
  | cons raw raws ih =>
    cases others with
    | nil => cases hcount
    | cons =>
      rw [flatMap_cons, flatMap_cons, append_assoc, append_assoc] at heq
      obtain ⟨hhead, hrest⟩ := RawField.bytes_inj (h _ mem_cons_self) (hothers _ mem_cons_self) heq
      obtain ⟨hraws, htail⟩ := ih (fun r hr => h r (mem_cons_of_mem _ hr))
        (fun r hr => hothers r (mem_cons_of_mem _ hr)) (Nat.succ.inj hcount) hrest
      exact ⟨by rw [hhead, hraws], htail⟩

/-- Without reserved bits only the critical bit is left. -/
theorem and_critical_eq {flags : UInt16} (h : flags &&& ~~~authFieldFlagCritical = 0) :
    flags &&& authFieldFlagCritical = flags := by
  have hmask : (1#16 ||| ~~~1#16) = BitVec.allOnes 16 := by decide
  have hbits : flags.toBitVec &&& ~~~1#16 = 0#16 := congrArg UInt16.toBitVec h
  apply UInt16.toBitVec_inj.mp
  calc flags.toBitVec &&& 1#16
      = (flags.toBitVec &&& 1#16) ||| (flags.toBitVec &&& ~~~1#16) := by
        rw [hbits, BitVec.or_zero]
    _ = flags.toBitVec := by rw [← BitVec.and_or_distrib_left, hmask, BitVec.and_allOnes]

/-- With the reserved bits zero, the flags say whether the field is critical. -/
theorem flags_eq {flags : UInt16} (h : flags &&& ~~~authFieldFlagCritical = 0) :
    (if flags &&& authFieldFlagCritical != 0 then authFieldFlagCritical else 0) = flags := by
  have hlow := and_critical_eq h
  have hbit : flags.toNat % 2 = flags.toNat := by
    rw [← Nat.and_one_is_mod]
    exact congrArg UInt16.toNat hlow
  rw [hlow]
  rcases Nat.mod_two_eq_zero_or_one flags.toNat with hzero | hone
  · have hflags : flags = 0 := UInt16.toNat_inj.mp (hbit.symm.trans hzero)
    subst hflags
    rfl
  have hflags : flags = 1 := UInt16.toNat_inj.mp (hbit.symm.trans hone)
  subst hflags
  rfl

theorem AuthField.raw_critical (field : AuthField) :
    (field.raw.flags &&& authFieldFlagCritical != 0) = field.critical := by
  dsimp only [AuthField.raw]
  cases field.critical <;> decide

theorem AuthField.raw_reserved (field : AuthField) :
    field.raw.flags &&& ~~~authFieldFlagCritical = 0 := by
  dsimp only [AuthField.raw]
  cases field.critical <;> decide

end Wire

section Fields

variable {field : AuthField} {fields : List AuthField} {scan next : AuthScan}
  {type : AuthMessageType} {record : AuthRecord} {count offset : Nat} {rest : Bytes}

/-- A field that a record may carry besides the mandatory ones. -/
def AuthField.Additional (field : AuthField) : Prop :=
  validateAdditionalAuthField field.id field.critical field.value 0 = .ok ()

/-- The offset shows in the error only. -/
theorem validateAdditionalAuthField_eq_ok_iff (field : AuthField) (offset : Nat) :
    validateAdditionalAuthField field.id field.critical field.value offset = .ok () ↔
      field.Additional := by
  unfold AuthField.Additional validateAdditionalAuthField
  split_ifs
  all_goals first | rfl | simp
  · cases validateCapabilityManifestEncoding field.value <;> simp
  cases requiredLength field.id with
  | none => simp
  | some =>
    dsimp only
    split_ifs <;> simp

theorem AuthField.Additional.id_gt (h : field.Additional) : senderRole < field.id := by
  unfold AuthField.Additional validateAdditionalAuthField at h
  split_ifs at h with hid
  all_goals exact UInt16.not_le.mp hid

theorem AuthField.Additional.not_critical (h : field.Additional)
    (hid : keyConfirmation < field.id) : field.critical = false := by
  have hunknown : isKnownAuthField field.id = false := by
    simp [isKnownAuthField, hid]
  have hsmall : ¬ field.id ≤ senderRole := UInt16.not_le.mpr h.id_gt
  unfold AuthField.Additional validateAdditionalAuthField at h
  rw [if_neg hsmall, hunknown, if_pos (by decide)] at h
  split_ifs at h with hcritical
  exact Bool.eq_false_of_not_eq_true hcritical

/-- Only known additional fields have one length. -/
theorem requiredLength_eq_some {id : UInt16} {length : Nat} (h : requiredLength id = some length) :
    senderRole < id ∧ isKnownAuthField id = true ∧ id ≠ identity ∧ id ≠ capabilityManifest := by
  unfold requiredLength at h
  split_ifs at h with htranscript hsignature hpublic hciphertext hx25519 hshort
  · subst htranscript
    decide
  · subst hsignature
    decide
  · subst hpublic
    decide
  · subst hciphertext
    decide
  · subst hx25519
    decide
  · rcases hshort with rfl | rfl | rfl <;> decide

theorem AuthField.Additional.length_eq (h : field.Additional) {length : Nat}
    (hlength : requiredLength field.id = some length) : field.value.length = length := by
  have hid : ¬ field.id ≤ senderRole := UInt16.not_le.mpr h.id_gt
  obtain ⟨-, hknown, hidentity, hmanifest⟩ := requiredLength_eq_some hlength
  unfold AuthField.Additional validateAdditionalAuthField at h
  rw [if_neg hid, if_neg (not_not.mpr hknown), if_neg hidentity, if_neg hmanifest, hlength] at h
  dsimp only at h
  split_ifs at h with hcritical hdifferent
  exact not_not.mp hdifferent

theorem checkAuthFields_eq_ok_iff :
    checkAuthFields fields = .ok () ↔ ∀ field ∈ fields, field.Additional := by
  induction fields with
  | nil => simp [checkAuthFields]
  | cons field rest ih =>
    rw [forall_mem_cons, ← ih, AuthField.Additional, checkAuthFields]
    cases validateAdditionalAuthField field.id field.critical field.value 0 with
    | error => simp
    | ok => simp

/-- What one pass of the field loop can do. -/
theorem scanAuthField_cases (h : scanAuthField scan field offset = .ok next) :
    (field = ⟨suiteId, true, Crypto.suiteId⟩ ∧
      next = { scan with haveSuite := true, previousId := field.id }) ∨
    (field = ⟨securityParameters, true, requiredSecurityParameters⟩ ∧
      next = { scan with haveSecurityParameters := true, previousId := field.id }) ∨
    (∃ role : EndpointRole, role.isKnown = true ∧
      field = ⟨senderRole, true, [role.wire]⟩ ∧
      next = { scan with haveRole := true, senderRole := role, previousId := field.id }) ∨
    (field.Additional ∧
      next = { scan with fields := scan.fields ++ [field], previousId := field.id }) := by
  obtain ⟨id, critical, value⟩ := field
  unfold scanAuthField at h
  dsimp only at h
  split_ifs at h with hsuite hbad hparameters hbad hrole
  · cases h
    simp only [not_or, not_not] at hbad
    obtain ⟨rfl, rfl⟩ := hbad
    subst hsuite
    exact .inl ⟨rfl, rfl⟩
  · cases h
    simp only [not_or, not_not] at hbad
    obtain ⟨rfl, rfl⟩ := hbad
    subst hparameters
    exact .inr (.inl ⟨rfl, rfl⟩)
  · split at h
    · split_ifs at h with hknown
      cases h
      subst hrole
      exact .inr (.inr (.inl ⟨_, hknown, rfl, rfl⟩))
    · cases h
  · split at h
    · cases h
    rename_i hvalid
    cases h
    exact .inr (.inr (.inr
      ⟨(validateAdditionalAuthField_eq_ok_iff ⟨id, critical, value⟩ offset).mp hvalid,
        rfl⟩))

theorem scanAuthField_previousId (h : scanAuthField scan field offset = .ok next) :
    next.previousId = field.id := by
  rcases scanAuthField_cases h with ⟨-, rfl⟩ | ⟨-, rfl⟩ | ⟨_, -, -, rfl⟩ | ⟨-, rfl⟩ <;> rfl

theorem AuthField.Additional.scan_eq (h : field.Additional) (scan : AuthScan) (offset : Nat) :
    scanAuthField scan field offset =
      .ok { scan with fields := scan.fields ++ [field], previousId := field.id } := by
  have hid := h.id_gt
  have hsuite : field.id ≠ suiteId := by
    rintro heq
    rw [heq] at hid
    revert hid
    decide
  have hparameters : field.id ≠ securityParameters := by
    rintro heq
    rw [heq] at hid
    revert hid
    decide
  have hrole : field.id ≠ senderRole := fun heq =>
    UInt16.lt_irrefl _ (heq ▸ hid)
  rw [scanAuthField, if_neg hsuite, if_neg hparameters, if_neg hrole,
    (validateAdditionalAuthField_eq_ok_iff field offset).mpr h]

/-- The loop reads one field that follows the previous one. -/
theorem decodeAuthFields_write {tail : Bytes} (hfits : Fits field.value)
    (hlt : scan.previousId < field.id)
    (hscan : scanAuthField scan field (offset + authFieldPrefixSize) = .ok next) :
    decodeAuthFields type (count + 1) (writeAuthField field ++ tail) offset scan =
      decodeAuthFields type count tail
        (offset + authFieldPrefixSize + field.value.length) next := by
  obtain ⟨i1, i0, f1, f0, l3, l2, l1, l0, hbytes, hid, hflags, hlength⟩ :=
    field.raw.bytes_eq hfits
  have hleading : checkAuthFieldPrefix scan.previousId field.id field.raw.flags offset =
      .ok () := by
    have hpositive : field.id ≠ 0 := fun hzero =>
      UInt16.not_lt.mpr UInt16.zero_le (hzero ▸ hlt)
    have hne : field.id ≠ scan.previousId := fun heq => UInt16.lt_irrefl _ (heq ▸ hlt)
    rw [checkAuthFieldPrefix, field.raw_reserved, if_neg hpositive, if_neg hne,
      if_neg (UInt16.not_lt.mpr (UInt16.le_of_lt hlt)), if_neg (by simp)]
  rw [← field.raw_bytes, hbytes]
  simp only [cons_append, decodeAuthFields]
  have hfield : field.raw.id = field.id := rfl
  rw [hid, hflags, hlength, hfield, hleading]
  rw [if_neg (by simp), field.raw_critical]
  have htake : ((field.raw.value ++ tail).take field.raw.value.length) = field.value :=
    take_left
  have hdrop : ((field.raw.value ++ tail).drop field.raw.value.length) = tail :=
    drop_left
  rw [htake, hdrop]
  rw [hscan]
  rfl

/-- A field that the loop accepts stands at the front of the input and follows
the previous one. -/
theorem decodeAuthFields_succ_ok
    (h : decodeAuthFields type (count + 1) rest offset scan = .ok record) :
    ∃ (field : AuthField) (next : AuthScan) (tail : Bytes), Fits field.value ∧
      scan.previousId < field.id ∧ rest = writeAuthField field ++ tail ∧
      scanAuthField scan field (offset + authFieldPrefixSize) = .ok next ∧
      decodeAuthFields type count tail
        (offset + authFieldPrefixSize + field.value.length) next = .ok record := by
  unfold decodeAuthFields at h
  split at h
  · rename_i heq
    cases heq
  · rename_i i1 i0 f1 f0 l3 l2 l1 l0 body hcount
    cases hcount
    dsimp only at h
    split at h
    · cases h
    rename_i hleading
    split_ifs at h with hlong
    split at h
    · cases h
    rename_i next hscan
    rw [Nat.not_lt] at hlong
    unfold checkAuthFieldPrefix at hleading
    split_ifs at hleading with hzero hsame hless hflags
    rw [not_not] at hflags
    have htake : (body.take (beNat [l3, l2, l1, l0])).length = beNat [l3, l2, l1, l0] :=
      length_take_of_le hlong
    have hbound : beNat [l3, l2, l1, l0] < 256 ^ 4 := beNat_lt [l3, l2, l1, l0]
    refine ⟨_, next, body.drop (beNat [l3, l2, l1, l0]), ?_, ?_, ?_, hscan, ?_⟩
    · rw [Fits, htake]
      exact hbound
    · exact UInt16.lt_of_le_of_ne (UInt16.not_lt.mp hless) (Ne.symm hsame)
    · have hi : beBytes 2 (beNat [i1, i0]) = [i1, i0] := beBytes_beNat [i1, i0]
      have hf : beBytes 2 (beNat [f1, f0]) = [f1, f0] := beBytes_beNat [f1, f0]
      have hl : beBytes 4 (beNat [l3, l2, l1, l0]) = [l3, l2, l1, l0] :=
        beBytes_beNat [l3, l2, l1, l0]
      dsimp only [writeAuthField]
      rw [flags_eq hflags, toNat_ofNat_beNat_two, toNat_ofNat_beNat_two, htake, hi, hf, hl,
        append_assoc, take_append_drop]
      rfl
    · rw [htake]
      exact h
  · cases h

/-- Each flag is set by the field with its tag only. -/
theorem scanAuthField_sets (h : scanAuthField scan field offset = .ok next) :
    (next.haveSuite = true → scan.haveSuite = true ∨ field.id = suiteId) ∧
      (next.haveSecurityParameters = true →
        scan.haveSecurityParameters = true ∨ field.id = securityParameters) ∧
      (next.haveRole = true → scan.haveRole = true ∨ field.id = senderRole) := by
  rcases scanAuthField_cases h with ⟨rfl, rfl⟩ | ⟨rfl, rfl⟩ | ⟨_, -, rfl, rfl⟩ | ⟨-, rfl⟩
  · exact ⟨fun _ => .inr rfl, .inl, .inl⟩
  · exact ⟨.inl, fun _ => .inr rfl, .inl⟩
  · exact ⟨.inl, .inl, fun _ => .inr rfl⟩
  · exact ⟨.inl, .inl, .inl⟩

/-- Behind the last field nothing may follow and no mandatory one be missing. -/
theorem decodeAuthFields_zero_ok (h : decodeAuthFields type 0 rest offset scan = .ok record) :
    rest = [] ∧ (scan.haveSuite = true ∧ scan.haveSecurityParameters = true ∧
      scan.haveRole = true) ∧ record = ⟨type, scan.senderRole, scan.fields⟩ := by
  rw [decodeAuthFields] at h
  split_ifs at h with hrest hmissing
  cases h
  simp only [not_or, not_not] at hmissing
  rw [not_not, length_eq_zero_iff] at hrest
  exact ⟨hrest, hmissing, rfl⟩

/-- Once a mandatory tag is passed, its field must have been read. -/
theorem decodeAuthFields_mandatory (h : decodeAuthFields type count rest offset scan = .ok record) :
    (suiteId ≤ scan.previousId → scan.haveSuite = true) ∧
      (securityParameters ≤ scan.previousId → scan.haveSecurityParameters = true) ∧
      (senderRole ≤ scan.previousId → scan.haveRole = true) := by
  induction count generalizing rest offset scan with
  | zero =>
    obtain ⟨-, ⟨hsuite, hparameters, hrole⟩, -⟩ := decodeAuthFields_zero_ok h
    exact ⟨fun _ => hsuite, fun _ => hparameters, fun _ => hrole⟩
  | succ count ih =>
    obtain ⟨field, next, tail, -, hlt, -, hscan, hdecode⟩ := decodeAuthFields_succ_ok h
    obtain ⟨hsuite, hparameters, hrole⟩ := ih hdecode
    obtain ⟨hsetSuite, hsetParameters, hsetRole⟩ := scanAuthField_sets hscan
    rw [scanAuthField_previousId hscan] at hsuite hparameters hrole
    -- A tag that was passed before this field is passed by it too, and is not its tag.
    have hpassed : ∀ tag, tag ≤ scan.previousId → tag ≤ field.id ∧ field.id ≠ tag := by
      intro tag hle
      refine ⟨UInt16.le_trans hle (UInt16.le_of_lt hlt), fun heq => ?_⟩
      exact UInt16.not_lt.mpr hle (heq ▸ hlt)
    exact ⟨fun hle => (hsetSuite (hsuite (hpassed _ hle).1)).resolve_right (hpassed _ hle).2,
      fun hle => (hsetParameters (hparameters (hpassed _ hle).1)).resolve_right (hpassed _ hle).2,
      fun hle => (hsetRole (hrole (hpassed _ hle).1)).resolve_right (hpassed _ hle).2⟩

/-- Behind the mandatory tags the loop collects additional fields. -/
theorem decodeAuthFields_ok (h : decodeAuthFields type count rest offset scan = .ok record)
    (hpassed : senderRole ≤ scan.previousId) :
    ∃ fields : List AuthField, fields.length = count ∧
      rest = fields.flatMap writeAuthField ∧
      record = ⟨type, scan.senderRole, scan.fields ++ fields⟩ ∧
      (∀ field ∈ fields, field.Additional ∧ Fits field.value ∧ scan.previousId < field.id) ∧
      Ascending fields := by
  induction count generalizing rest offset scan with
  | zero =>
    obtain ⟨hrest, -, hrecord⟩ := decodeAuthFields_zero_ok h
    exact ⟨[], rfl, hrest, by rw [hrecord, append_nil], nofun, Pairwise.nil⟩
  | succ count ih =>
    obtain ⟨field, next, tail, hfits, hlt, rfl, hscan, hdecode⟩ :=
      decodeAuthFields_succ_ok h
    have hid : senderRole < field.id := UInt16.lt_of_le_of_lt hpassed hlt
    obtain ⟨hadditional, rfl⟩ : field.Additional ∧
        next = { scan with fields := scan.fields ++ [field], previousId := field.id } := by
      rcases scanAuthField_cases hscan with ⟨rfl, -⟩ | ⟨rfl, -⟩ | ⟨_, -, rfl, -⟩ | hboth
      · exact absurd hid (by decide)
      · exact absurd hid (by decide)
      · exact absurd hid (UInt16.lt_irrefl _)
      · exact hboth
    obtain ⟨fields, rfl, rfl, rfl, hfields, hascending⟩ :=
      ih hdecode (UInt16.le_of_lt hid)
    refine ⟨field :: fields, rfl, rfl, by rw [append_assoc]; rfl, ?_,
      List.Pairwise.cons (fun other hother => (hfields other hother).2.2) hascending⟩
    refine forall_mem_cons.mpr ⟨⟨hadditional, hfits, hlt⟩, fun other hother => ?_⟩
    obtain ⟨hother, hothers, hless⟩ := hfields other hother
    exact ⟨hother, hothers, UInt16.lt_trans hlt hless⟩

/-- The loop reads additional fields back. -/
theorem decodeAuthFields_encode (scan : AuthScan) (offset : Nat)
    (hread : scan.haveSuite = true ∧ scan.haveSecurityParameters = true ∧ scan.haveRole = true)
    (hfields : ∀ field ∈ fields, field.Additional ∧ Fits field.value ∧ scan.previousId < field.id)
    (hascending : Ascending fields) :
    decodeAuthFields type fields.length (fields.flatMap writeAuthField) offset scan =
      .ok ⟨type, scan.senderRole, scan.fields ++ fields⟩ := by
  induction fields generalizing scan offset with
  | nil =>
    rw [length_nil, List.flatMap_nil, decodeAuthFields, if_neg (by simp),
      if_neg (by simp [hread]), append_nil]
  | cons field fields ih =>
    obtain ⟨hadditional, hfits, hlt⟩ := hfields field mem_cons_self
    have hrest : ∀ other ∈ fields,
        other.Additional ∧ Fits other.value ∧ field.id < other.id := fun other hother =>
      have hfield := hfields other (mem_cons_of_mem _ hother)
      ⟨hfield.1, hfield.2.1, rel_of_pairwise_cons hascending hother⟩
    rw [length_cons, flatMap_cons, decodeAuthFields_write hfits hlt (hadditional.scan_eq scan _)]
    have hdecode := ih { scan with fields := scan.fields ++ [field], previousId := field.id }
      (offset + authFieldPrefixSize + field.value.length) hread hrest
      (Pairwise.of_cons hascending)
    rw [hdecode, append_assoc]
    rfl

/-- The loop's state behind the mandatory fields. -/
def AuthScan.started (role : EndpointRole) : AuthScan where
  haveSuite := true
  haveSecurityParameters := true
  haveRole := true
  senderRole := role
  previousId := AuthFieldId.senderRole

theorem mandatoryFields_fit (role : EndpointRole) :
    ∀ field ∈ mandatoryFields role, Fits field.value := by
  simp only [mandatoryFields, forall_mem_cons, Fits]
  exact ⟨by decide, by decide, Nat.lt_of_lt_of_le Nat.one_lt_two (by decide), forall_mem_nil _⟩

/-- The loop starts with the mandatory fields. -/
theorem decodeAuthFields_start (type : AuthMessageType) (count : Nat)
    {role : EndpointRole} (hrole : role.isKnown = true) (tail : Bytes) (offset : Nat) :
    ∃ body, decodeAuthFields type (count + 3)
        ((mandatoryFields role).flatMap writeAuthField ++ tail) offset {} =
      decodeAuthFields type count tail body (.started role) := by
  have hfits := mandatoryFields_fit role
  simp only [mandatoryFields, forall_mem_cons] at hfits
  obtain ⟨hsuite, hparameters, hbyte, -⟩ := hfits
  have hfirst : ∀ body, scanAuthField {} ⟨AuthFieldId.suiteId, true, Crypto.suiteId⟩ body =
      .ok { haveSuite := true, previousId := AuthFieldId.suiteId } := fun _ => rfl
  have hsecond : ∀ body, scanAuthField { haveSuite := true, previousId := AuthFieldId.suiteId }
        ⟨AuthFieldId.securityParameters, true, requiredSecurityParameters⟩ body =
      .ok { haveSuite := true, haveSecurityParameters := true
            previousId := AuthFieldId.securityParameters } := fun _ => rfl
  have hthird : ∀ body, scanAuthField
        { haveSuite := true, haveSecurityParameters := true
          previousId := AuthFieldId.securityParameters }
        ⟨AuthFieldId.senderRole, true, [role.wire]⟩ body = .ok (.started role) := by
    intro body
    dsimp only [scanAuthField]
    rw [if_neg (by decide), if_neg (by decide), if_pos rfl, if_neg (not_not.mpr hrole)]
    rfl
  have hlast : AuthFieldId.securityParameters < AuthFieldId.senderRole := by decide
  simp only [mandatoryFields, flatMap_cons, List.flatMap_nil, append_nil, append_assoc]
  exact ⟨_, by
    rw [decodeAuthFields_write hsuite (by decide) (hfirst _),
      decodeAuthFields_write hparameters (by decide) (hsecond _),
      decodeAuthFields_write hbyte hlast (hthird _)]⟩

/-- An accepted record starts with the mandatory fields: a tag behind them
would pass one that was not read. -/
theorem decodeAuthFields_start_ok (h : decodeAuthFields type count rest offset {} = .ok record) :
    ∃ (role : EndpointRole) (extra : Nat) (tail : Bytes) (body : Nat),
      role.isKnown = true ∧ count = extra + 3 ∧
      rest = (mandatoryFields role).flatMap writeAuthField ++ tail ∧
      decodeAuthFields type extra tail body (.started role) = .ok record := by
  have hgt : ∀ {field : AuthField} {tag : UInt16}, field.Additional →
      tag ≤ AuthFieldId.senderRole → tag ≤ field.id := fun hadditional htag =>
    UInt16.le_trans htag (UInt16.le_of_lt hadditional.id_gt)
  have hfirst : AuthFieldId.suiteId ≤ AuthFieldId.senderRole := by decide
  have hsecond : AuthFieldId.securityParameters ≤ AuthFieldId.senderRole := by decide
  -- the suite
  rcases count with _ | count
  · exact absurd (decodeAuthFields_zero_ok h).2.1.1 (by decide)
  obtain ⟨suite, next, tail, -, -, rfl, hscan, h⟩ := decodeAuthFields_succ_ok h
  have hmandatory := decodeAuthFields_mandatory h
  rcases scanAuthField_cases hscan with ⟨rfl, rfl⟩ | ⟨rfl, rfl⟩ | ⟨_, -, rfl, rfl⟩ |
    ⟨hadditional, rfl⟩
  rotate_left
  · exact absurd (hmandatory.1 (by decide)) Bool.false_ne_true
  · exact absurd (hmandatory.1 hfirst) Bool.false_ne_true
  · exact absurd (hmandatory.1 (hgt hadditional hfirst)) Bool.false_ne_true
  -- the security parameters
  rcases count with _ | count
  · exact absurd (decodeAuthFields_zero_ok h).2.1.2.1 (by decide)
  obtain ⟨parameters, next, tail, -, hlt, rfl, hscan, h⟩ := decodeAuthFields_succ_ok h
  have hmandatory := decodeAuthFields_mandatory h
  rcases scanAuthField_cases hscan with ⟨rfl, rfl⟩ | ⟨rfl, rfl⟩ | ⟨_, -, rfl, rfl⟩ |
    ⟨hadditional, rfl⟩
  · exact absurd hlt (UInt16.lt_irrefl _)
  rotate_left
  · exact absurd (hmandatory.2.1 hsecond) Bool.false_ne_true
  · exact absurd (hmandatory.2.1 (hgt hadditional hsecond)) Bool.false_ne_true
  -- the role
  rcases count with _ | count
  · exact absurd (decodeAuthFields_zero_ok h).2.1.2.2 (by decide)
  obtain ⟨parameters, next, tail, -, hlt, rfl, hscan, h⟩ := decodeAuthFields_succ_ok h
  have hmandatory := decodeAuthFields_mandatory h
  rcases scanAuthField_cases hscan with ⟨rfl, rfl⟩ | ⟨rfl, rfl⟩ | ⟨role, hrole, rfl, rfl⟩ |
    ⟨hadditional, rfl⟩
  · exact absurd hlt (by decide)
  · exact absurd hlt (UInt16.lt_irrefl _)
  · refine ⟨role, count, tail, _, hrole, rfl, ?_, h⟩
    simp only [mandatoryFields, flatMap_cons, List.flatMap_nil, append_nil, append_assoc]
  · exact absurd (hmandatory.2.2 (hgt hadditional UInt16.le_rfl)) Bool.false_ne_true


end Fields

section Records

variable {fields : List AuthField} {record : AuthRecord} {payload : Bytes}

theorem writeAuthField_length (field : AuthField) :
    (writeAuthField field).length = authFieldPrefixSize + field.value.length :=
  field.raw.bytes_length

/-- The running total is the number of bytes that are written, if they fit. -/
theorem authRecordSize_eq (fields : List AuthField) :
    authRecordSize fields =
      if authPrefixSize + (fields.flatMap writeAuthField).length ≤ maxAuthRecordSize then
        some (authPrefixSize + (fields.flatMap writeAuthField).length)
      else none := by
  have hsum : ((fields.map AuthField.value).map fun value =>
      authFieldPrefixSize + value.length).sum = (fields.flatMap writeAuthField).length := by
    rw [map_map, length_flatMap]
    exact congrArg List.sum (map_congr_left fun field _ => (writeAuthField_length field).symm)
  rw [authRecordSize, boundedTotal_eq _ (by decide) (by decide), hsum]

/-- A record sorts to ascending fields exactly when its tags are distinct. -/
theorem sortAuthFields_ascending_iff :
    Ascending (sortAuthFields fields) ↔ (fields.map AuthField.id).Nodup := by
  have hperm := (sortAuthFields_perm fields).map AuthField.id
  constructor
  · intro h
    exact hperm.nodup_iff.mp h.ids_nodup
  intro h
  have hids := pairwise_map.mp (hperm.nodup_iff.mpr h)
  exact ((sortAuthFields_sorted fields).and hids).imp
    fun hboth => UInt16.lt_of_le_of_ne hboth.1 hboth.2

/-- The conditions under which a record can be encoded. -/
structure AuthRecord.Valid (record : AuthRecord) : Prop where
  type : record.type.isKnown = true
  role : record.senderRole.isKnown = true
  count : record.fields.length ≤ maxAuthFields - mandatoryAuthFieldCount
  fields : ∀ field ∈ record.fields, field.Additional
  ids : (record.fields.map AuthField.id).Nodup
  size : authPrefixSize +
    ((mandatoryFields record.senderRole ++ record.fields).flatMap writeAuthField).length ≤
      maxAuthRecordSize

theorem AuthRecord.Valid.perm (h : record.Valid) (hperm : fields.Perm record.fields) :
    AuthRecord.Valid { record with fields } where
  type := h.type
  role := h.role
  count := hperm.length_eq ▸ h.count
  fields := fun field hfield => h.fields field (hperm.mem_iff.mp hfield)
  ids := (hperm.map _).nodup_iff.mpr h.ids
  size := by
    have hlength := ((hperm.append_left (mandatoryFields record.senderRole)).flatMap_right
      writeAuthField).length_eq
    have hsize := h.size
    rw [← hlength] at hsize
    exact hsize

theorem AuthRecord.Valid.fits (h : record.Valid) : ∀ field ∈ record.fields, Fits field.value := by
  intro field hfield
  have hsize := h.size
  have hmem : field ∈ mandatoryFields record.senderRole ++ record.fields :=
    mem_append_right _ hfield
  have hle := (sublist_flatten_of_mem (mem_map_of_mem (f := writeAuthField) hmem)).length_le
  rw [← flatMap_def, writeAuthField_length] at hle
  simp only [Fits, maxAuthRecordSize] at *
  omega

theorem encodeAuthRecord_eq_ok (h : record.Valid) :
    encodeAuthRecord record = .ok (authPayload record.type
      (mandatoryFields record.senderRole ++ sortAuthFields record.fields)) := by
  have hduplicate := (hasDuplicateId_eq_false_iff (sortAuthFields_sorted _)).mpr
    (sortAuthFields_ascending_iff.mpr h.ids)
  have hsize := (h.perm (sortAuthFields_perm record.fields)).size
  have htype := h.type
  have hrole := h.role
  unfold encodeAuthRecord
  rw [if_neg (by simp [htype, hrole]), if_neg (Nat.not_lt.mpr h.count),
    checkAuthFields_eq_ok_iff.mpr h.fields]
  rw [if_neg (by rw [hduplicate]; decide), authRecordSize_eq, if_pos hsize]

theorem encodeAuthRecord_valid (h : encodeAuthRecord record = .ok payload) : record.Valid := by
  unfold encodeAuthRecord at h
  split_ifs at h with hknown hcount
  split at h
  · cases h
  rename_i hfields
  dsimp only at h
  split_ifs at h with hduplicate
  rw [authRecordSize_eq] at h
  split_ifs at h with hsize
  rw [Bool.not_eq_true, hasDuplicateId_eq_false_iff (sortAuthFields_sorted _),
    sortAuthFields_ascending_iff] at hduplicate
  simp only [not_or, not_not] at hknown
  have hperm := sortAuthFields_perm record.fields
  have hsorted : AuthRecord.Valid { record with fields := sortAuthFields record.fields } :=
    ⟨hknown.1, hknown.2, hperm.length_eq ▸ Nat.not_lt.mp hcount,
      fun field hfield => checkAuthFields_eq_ok_iff.mp hfields field (hperm.mem_iff.mp hfield),
      (hperm.map _).nodup_iff.mpr hduplicate, hsize⟩
  exact hsorted.perm hperm.symm

theorem authPayload_length (type : AuthMessageType) (fields : List AuthField) :
    (authPayload type fields).length = authPrefixSize + (fields.flatMap writeAuthField).length := by
  simp [authPayload, authPrefixSize]
  omega

/-- A payload with ascending fields decodes to its record. -/
theorem decodeAuthRecord_payload (h : record.Valid) (hascending : Ascending record.fields) :
    decodeAuthRecord (authPayload record.type
      (mandatoryFields record.senderRole ++ record.fields)) = .ok record := by
  have hsize := h.size
  have hcount := h.count
  have hpayload := authPayload_length record.type
    (mandatoryFields record.senderRole ++ record.fields)
  generalize hall : mandatoryFields record.senderRole ++ record.fields = all at hsize hpayload
  have hlength : all.length = record.fields.length + 3 := by
    rw [← hall, length_append, Nat.add_comm]
    rfl
  simp only [maxAuthFields, mandatoryAuthFieldCount] at hcount
  obtain ⟨c1, c0, hc, hcounted⟩ := two_bytes_roundtrip (n := all.length) (by omega)
  have hbody : (all.flatMap writeAuthField).length < 256 ^ 4 := by
    simp only [authPrefixSize, maxAuthRecordSize] at hsize
    omega
  obtain ⟨b3, b2, b1, b0, hb, hbodied⟩ : ∃ b3 b2 b1 b0,
      beBytes 4 (all.flatMap writeAuthField).length = [b3, b2, b1, b0] ∧
        beNat [b3, b2, b1, b0] = (all.flatMap writeAuthField).length :=
    ⟨_, _, _, _, rfl, beNat_beBytes 4 hbody⟩
  have hbytes : authPayload record.type all =
      authSchema :: record.type.wire :: c1 :: c0 :: b3 :: b2 :: b1 :: b0 ::
        all.flatMap writeAuthField := by
    rw [authPayload, hc, hb]
    rfl
  unfold decodeAuthRecord
  rw [if_neg (by rw [hpayload]; exact Nat.not_lt.mpr hsize), hbytes]
  dsimp only
  rw [if_neg (by simp), if_neg (not_not.mpr h.type), hcounted, hbodied, hlength,
    if_neg (by simp only [maxAuthFields]; omega),
    if_neg (by simp only [mandatoryAuthFieldCount]; omega), if_neg (Nat.lt_irrefl _),
    if_neg (Nat.lt_irrefl _), ← hall, flatMap_append]
  obtain ⟨body, hstart⟩ := decodeAuthFields_start record.type record.fields.length h.role
    (record.fields.flatMap writeAuthField) authPrefixSize
  rw [hstart, decodeAuthFields_encode _ _ ⟨rfl, rfl, rfl⟩ (fun field hfield =>
    ⟨h.fields field hfield, h.fits field hfield, (h.fields field hfield).id_gt⟩) hascending]
  rfl

/-- An accepted string is the payload of a record with ascending fields. -/
theorem decodeAuthRecord_ok (h : decodeAuthRecord payload = .ok record) :
    record.Valid ∧ Ascending record.fields ∧
      payload = authPayload record.type (mandatoryFields record.senderRole ++ record.fields) := by
  unfold decodeAuthRecord at h
  split at h
  · cases h
  rename_i hsize
  split at h
  · rename_i schema type c1 c0 b3 b2 b1 b0 rest
    dsimp only at h
    split_ifs at h with hschema htype hmany hfew hlong hshort
    obtain ⟨role, extra, tail, body, hrole, hcount, rfl, hdecode⟩ :=
      decodeAuthFields_start_ok h
    obtain ⟨fields, rfl, rfl, rfl, hfields, hascending⟩ :=
      decodeAuthFields_ok hdecode UInt16.le_rfl
    have hlength : beNat [b3, b2, b1, b0] =
        ((mandatoryFields role ++ fields).flatMap writeAuthField).length := by
      rw [flatMap_append]
      omega
    have hc : beBytes 2 (beNat [c1, c0]) = [c1, c0] := beBytes_beNat [c1, c0]
    have hb : beBytes 4 (beNat [b3, b2, b1, b0]) = [b3, b2, b1, b0] :=
      beBytes_beNat [b3, b2, b1, b0]
    have hall : (mandatoryFields role ++ fields).length = beNat [c1, c0] := by
      rw [hcount, length_append, Nat.add_comm]
      rfl
    have hpayload : schema :: type :: c1 :: c0 :: b3 :: b2 :: b1 :: b0 ::
        ((mandatoryFields role).flatMap writeAuthField ++ fields.flatMap writeAuthField) =
          authPayload ⟨type⟩ (mandatoryFields role ++ fields) := by
      rw [authPayload, hall, ← hlength, hc, hb, flatMap_append, not_not.mp hschema]
      rfl
    have hbound : authPrefixSize +
        ((mandatoryFields role ++ fields).flatMap writeAuthField).length ≤
          maxAuthRecordSize := by
      rw [← authPayload_length ⟨type⟩, ← hpayload]
      exact Nat.not_lt.mp hsize
    have hextra := Nat.not_lt.mp hmany
    rw [hcount] at hextra
    exact ⟨⟨htype, hrole, Nat.le_sub_of_add_le hextra, fun field hfield => (hfields field hfield).1,
      hascending.ids_nodup, hbound⟩, hascending, hpayload⟩
  · cases h

theorem flatMap_bytes_length_ge (raws : List RawField) :
    raws.length * authFieldPrefixSize ≤ (raws.flatMap RawField.bytes).length := by
  induction raws with
  | nil => simp
  | cons raw rest ih =>
    rw [flatMap_cons, length_append, RawField.bytes_length, length_cons, Nat.succ_mul]
    omega

/-- The string with this header, these fields and these bytes behind them. -/
def rawRecord (schema type : UInt8) (bodyLength : Nat) (raws : List RawField)
    (trailing : Bytes) : Bytes :=
  [schema, type] ++ beBytes 2 raws.length ++ beBytes 4 bodyLength ++
    raws.flatMap RawField.bytes ++ trailing

/-- Where a string is accepted, the fields it spells are the mandatory ones and
the record's own, and nothing follows. -/
theorem decodeAuthRecord_raws {schema type : UInt8} {bodyLength : Nat}
    {raws : List RawField} {trailing : Bytes} (hfits : ∀ raw ∈ raws, Fits raw.value)
    (h : decodeAuthRecord (rawRecord schema type bodyLength raws trailing) = .ok record) :
    raws = (mandatoryFields record.senderRole ++ record.fields).map AuthField.raw ∧
      trailing = [] := by
  obtain ⟨hvalid, -, hpayload⟩ := decodeAuthRecord_ok h
  have hsize := hvalid.size
  have hcount := hvalid.count
  have hmandatory : (mandatoryFields record.senderRole).length = mandatoryAuthFieldCount :=
    rfl
  have hall : ∀ field ∈ mandatoryFields record.senderRole ++ record.fields, Fits field.value :=
    forall_mem_append.mpr ⟨mandatoryFields_fit _, hvalid.fits⟩
  have hfew : (mandatoryFields record.senderRole ++ record.fields).length < 256 ^ 2 := by
    simp only [maxAuthFields, mandatoryAuthFieldCount] at hcount hmandatory
    rw [length_append]
    omega
  rw [← authPayload_length record.type, ← hpayload] at hsize
  have hlong : raws.length < 256 ^ 2 := by
    have hbytes := flatMap_bytes_length_ge raws
    simp only [rawRecord, length_append, maxAuthRecordSize, authFieldPrefixSize]
      at hsize hbytes
    omega
  simp only [rawRecord, authPayload, append_assoc] at hpayload
  obtain ⟨-, hpayload⟩ := append_inj hpayload (by simp)
  obtain ⟨hnumber, hpayload⟩ := append_inj hpayload (by simp)
  obtain ⟨-, hpayload⟩ := append_inj hpayload (by simp)
  have hlength := beBytes_inj hlong hfew hnumber
  have hwire : (mandatoryFields record.senderRole ++ record.fields).flatMap writeAuthField =
      ((mandatoryFields record.senderRole ++ record.fields).map AuthField.raw).flatMap
        RawField.bytes ++ [] := by
    rw [flatMap_map, append_nil]
    rfl
  rw [hwire] at hpayload
  refine flatMap_bytes_inj hfits (fun raw hraw => ?_) (by rw [length_map, hlength]) hpayload
  obtain ⟨field, hfield, rfl⟩ := mem_map.mp hraw
  exact hall field hfield

theorem mandatoryFields_length_eq {role : EndpointRole} {field : AuthField}
    (h : field ∈ mandatoryFields .client) :
    ∃ other ∈ mandatoryFields role, other.id = field.id ∧
      other.value.length = field.value.length := by
  simp only [mandatoryFields, mem_cons, not_mem_nil, or_false] at h ⊢
  rcases h with rfl | rfl | rfl
  · exact ⟨_, .inl rfl, rfl, rfl⟩
  · exact ⟨_, .inr (.inl rfl), rfl, rfl⟩
  · exact ⟨_, .inr (.inr rfl), rfl, rfl⟩

theorem mandatoryFields_id_le {role : EndpointRole} {field : AuthField}
    (h : field ∈ mandatoryFields role) : field.id ≤ senderRole := by
  simp only [mandatoryFields, mem_cons, not_mem_nil, or_false] at h
  rcases h with rfl | rfl | rfl
  · exact (by decide : suiteId ≤ senderRole)
  · exact (by decide : securityParameters ≤ senderRole)
  · exact UInt16.le_rfl

/-- A field behind the mandatory tags is one of the record's own. -/
theorem AuthRecord.Valid.additional (h : record.Valid) {field : AuthField}
    (hfield : field ∈ mandatoryFields record.senderRole ++ record.fields)
    (hid : AuthFieldId.senderRole < field.id) : field.Additional := by
  rcases mem_append.mp hfield with hmandatory | hfield
  · exact absurd hid (UInt16.not_lt.mpr (mandatoryFields_id_le hmandatory))
  · exact h.fields field hfield

/-- The fields of an accepted record, mandatory ones included, ascend. -/
theorem AuthRecord.Valid.ascending (h : record.Valid) (hascending : Ascending record.fields) :
    Ascending (mandatoryFields record.senderRole ++ record.fields) := by
  refine pairwise_append.mpr ⟨?_, hascending, fun left hleft right hright => ?_⟩
  · simp only [mandatoryFields, pairwise_cons, forall_mem_cons]
    refine ⟨⟨?_, ?_, nofun⟩, ⟨?_, nofun⟩, nofun, Pairwise.nil⟩ <;> decide
  · exact UInt16.lt_of_le_of_lt (mandatoryFields_id_le hleft) (h.fields right hright).id_gt

end Records

/-- The encoder keeps the record up to the order of its fields, the decoder
accepts the encoder's image only, and a string whose fields are not ascending,
complete, known where critical, of their sizes, few enough and last is refused. -/
theorem auth_record_codec_exact :
    (∀ record payload, encodeAuthRecord record = .ok payload →
      ∃ fields : List AuthField, fields.Perm record.fields ∧
        fields.Pairwise (fun left right => left.id < right.id) ∧
        decodeAuthRecord payload = .ok { record with fields } ∧
        (record.fields.Pairwise (fun left right => left.id < right.id) →
          decodeAuthRecord payload = .ok record)) ∧
    (∀ payload record, decodeAuthRecord payload = .ok record →
      encodeAuthRecord record = .ok payload) ∧
    (∀ (schema type : UInt8) (bodyLength : Nat) (raws : List RawField) (trailing : Bytes),
      (∀ raw ∈ raws, raw.value.length < 2 ^ 32) →
      (¬ raws.Pairwise (fun left right => left.id < right.id) ∨
        (∃ field ∈ mandatoryFields .client, ∀ raw ∈ raws, raw.id = field.id →
          raw.value.length ≠ field.value.length) ∨
        (∃ raw ∈ raws, ∃ length, requiredLength raw.id = some length ∧
          raw.value.length ≠ length) ∨
        (∃ raw ∈ raws, keyConfirmation < raw.id ∧
          raw.flags &&& authFieldFlagCritical ≠ 0) ∨
        raws.length > maxAuthFields ∨ trailing ≠ []) →
      ∃ failure,
        decodeAuthRecord (rawRecord schema type bodyLength raws trailing) =
          .error failure) := by
  refine ⟨fun record payload hencode => ?_, fun payload record hdecode => ?_,
    fun schema type bodyLength raws trailing hfits hbad => ?_⟩
  · have hvalid := encodeAuthRecord_valid hencode
    rw [encodeAuthRecord_eq_ok hvalid] at hencode
    cases hencode
    have hperm := sortAuthFields_perm record.fields
    have hascending := sortAuthFields_ascending_iff.mpr hvalid.ids
    have hdecode := decodeAuthRecord_payload (hvalid.perm hperm) hascending
    refine ⟨_, hperm, hascending, hdecode, fun hsorted => ?_⟩
    rw [Ascending.sort_eq hsorted] at hdecode ⊢
    exact hdecode
  · obtain ⟨hvalid, hascending, rfl⟩ := decodeAuthRecord_ok hdecode
    rw [encodeAuthRecord_eq_ok hvalid, hascending.sort_eq]
  cases hdecode : decodeAuthRecord (rawRecord schema type bodyLength raws trailing) with
  | error failure => exact ⟨failure, rfl⟩
  | ok record =>
    obtain ⟨hvalid, hascending, -⟩ := decodeAuthRecord_ok hdecode
    have hcount := hvalid.count
    obtain ⟨rfl, rfl⟩ := decodeAuthRecord_raws hfits hdecode
    rcases hbad with hbad | ⟨field, hfield, hbad⟩ | ⟨raw, hraw, length, hlength, hbad⟩ |
      ⟨raw, hraw, hunknown, hcritical⟩ | hbad | hbad
    · exact absurd (hvalid.ascending hascending) fun hall =>
        hbad (pairwise_map.mpr hall)
    · obtain ⟨other, hother, hid, hsame⟩ := mandatoryFields_length_eq hfield
      exact absurd hsame
        (hbad other.raw (mem_map_of_mem (mem_append_left _ hother)) hid)
    · obtain ⟨field, hfield, rfl⟩ := mem_map.mp hraw
      have hadditional := hvalid.additional hfield (requiredLength_eq_some hlength).1
      exact absurd (hadditional.length_eq hlength) hbad
    · obtain ⟨field, hfield, rfl⟩ := mem_map.mp hraw
      have hid : senderRole < keyConfirmation := by decide
      have hadditional := hvalid.additional hfield (UInt16.lt_trans hid hunknown)
      have hflags : field.raw.flags = 0 := by
        rw [AuthField.raw, hadditional.not_critical hunknown]
        rfl
      rw [hflags] at hcritical
      exact absurd rfl hcritical
    · rw [length_map, length_append] at hbad
      simp only [maxAuthFields, mandatoryAuthFieldCount] at hcount hbad
      have hmandatory : (mandatoryFields record.senderRole).length = 3 := rfl
      omega
    · exact absurd rfl hbad

/-- A record whose fields are not in the order of their tags. -/
def unorderedRecord : AuthRecord :=
  ⟨.challenge, .server, [⟨21, false, []⟩, ⟨20, false, [7]⟩]⟩

theorem unorderedRecord_valid : unorderedRecord.Valid where
  type := by decide
  role := by decide
  count := by decide
  fields := by
    simp only [unorderedRecord, forall_mem_cons, AuthField.Additional]
    exact ⟨by decide, by decide, nofun⟩
  ids := by decide
  size := by decide +kernel

theorem auth_record_codec_exact_unordered :
    ∃ payload, encodeAuthRecord unorderedRecord = .ok payload ∧
      ∃ fields : List AuthField, fields.Perm unorderedRecord.fields ∧
        decodeAuthRecord payload = .ok { unorderedRecord with fields } := by
  have hencode := encodeAuthRecord_eq_ok unorderedRecord_valid
  obtain ⟨fields, hperm, -, hdecode, -⟩ := auth_record_codec_exact.1 _ _ hencode
  exact ⟨_, hencode, fields, hperm, hdecode⟩

/-- Decoding what the encoder accepted need not give the same record back: the
fields come back in the order of their tags. -/
theorem decode_encode_reorders :
    ∃ record payload, encodeAuthRecord record = .ok payload ∧
      decodeAuthRecord payload ≠ .ok record := by
  refine ⟨unorderedRecord, _, encodeAuthRecord_eq_ok unorderedRecord_valid, fun hdecode => ?_⟩
  have hascending := (decodeAuthRecord_ok hdecode).2.1
  have hunordered : ¬ Ascending unorderedRecord.fields := by
    simp only [unorderedRecord, Ascending]
    decide
  exact hunordered hascending

end Yume.Ytp
