/-
The destination policy of a direct adapter: networks as text, the class of an
address, and the decision on a destination.

An IPv4-mapped IPv6 destination is evaluated as the IPv4 address it spells.  A
listed network stays in the family it was written in.
-/
import Yume.Egress.LongestMatch

namespace Yume.Egress

open Yume.Lib List

/-! ### Network text -/

def maxIpNetworkTextBytes : Nat := 43

/-- A decimal digit's value. -/
def decimalDigit (ch : Char) : Option Nat :=
  if '0' ≤ ch ∧ ch ≤ '9' then some (ch.toNat - '0'.toNat) else none

/-- The loop of `parse_ip_decimal`. -/
def readDecimal : List Char → Nat → Option Nat
  | [], value => some value
  | ch :: rest, value => do
    let digit ← decimalDigit ch
    readDecimal rest (value * 10 + digit)

/-- `parse_ip_decimal`: no sign, no leading zeros, at most three digits. -/
def parseIpDecimal (text : List Char) (maximum : Nat) : Option Nat :=
  if text.isEmpty ∨ 3 < text.length ∨ (1 < text.length ∧ text.head? = some '0') then none
  else do
    let value ← readDecimal text 0
    if maximum < value then none else some value

/-- `parse_ipv4`: a number of octets with a dot after each but the last. -/
def parseOctets : Nat → List Char → Option Bytes
  | 0, _ => none
  | 1, text => do
    if '.' ∈ text then none
    else
      let value ← parseIpDecimal text 255
      some [UInt8.ofNat value]
  | octets + 2, text => do
    if '.' ∉ text then none
    else
      let value ← parseIpDecimal (text.takeWhile (· ≠ '.')) 255
      let rest ← parseOctets (octets + 1) ((text.dropWhile (· ≠ '.')).drop 1)
      some (UInt8.ofNat value :: rest)

def parseIpv4 (text : List Char) : Option Bytes := parseOctets 4 text

/-- `ip_hex_digit`: lower case only. -/
def ipHexDigit (ch : Char) : Option Nat :=
  if '0' ≤ ch ∧ ch ≤ '9' then some (ch.toNat - '0'.toNat)
  else if 'a' ≤ ch ∧ ch ≤ 'f' then some (ch.toNat - 'a'.toNat + 10)
  else none

/-- A group of at most four digits: its value, how many there are, and the rest. -/
def readGroup : List Char → Nat → Nat → Option (Nat × Nat × List Char)
  | [], value, digits => some (value, digits, [])
  | ch :: rest, value, digits =>
    match ipHexDigit ch with
    | none => some (value, digits, ch :: rest)
    | some digit => if digits = 4 then none else readGroup rest (value * 16 + digit) (digits + 1)

/-- The loop of `parse_ipv6` over the groups.  Every round reads a character. -/
def readGroups : Nat → List Char → List Nat → Option Nat → Option (List Nat × Option Nat)
  | _, [], groups, gap => some (groups, gap)
  | 0, _ :: _, _, _ => none
  | fuel + 1, text, groups, gap => do
    let (value, digits, rest) ← readGroup text 0 0
    if digits = 0 ∨ groups.length = 8 then none
    else
      let groups := groups ++ [value]
      match rest with
      | [] => some (groups, gap)
      | ch :: rest =>
        if ch ≠ ':' then none
        else
          match rest with
          | [] => none
          | next :: later =>
            if next = ':' then
              if gap.isSome then none
              else readGroups fuel later groups (some groups.length)
            else readGroups fuel (next :: later) groups gap

/-- The eight groups, with the gap filled by zeros. -/
def fillGap (groups : List Nat) : Option Nat → Option (List Nat)
  | none => if groups.length = 8 then some groups else none
  | some gap =>
    if 7 < groups.length then none
    else some (groups.take gap ++ List.replicate (8 - groups.length) 0 ++ groups.drop gap)

def parseIpv6 (text : List Char) : Option Bytes := do
  let (groups, gap) ←
    match text with
    | ':' :: ':' :: rest => readGroups rest.length rest [] (some 0)
    | ':' :: _ => none
    | _ => readGroups text.length text [] none
  let filled ← fillGap groups gap
  some (filled.flatMap (beBytes 2))

/-- Upper-case hexadecimal digits in lower case. -/
def foldCase (ch : Char) : Char :=
  if 'A' ≤ ch ∧ ch ≤ 'F' then Char.ofNat (ch.toNat - 'A'.toNat + 'a'.toNat) else ch

/-- `ip_host_bits_zero` and the network it is true of.  The parsers give as many
bytes as the family has. -/
def toNetwork (family : IpFamily) (address : Bytes) (prefixLength : Nat) : Option Network :=
  if h : address.length = family.addressBytes ∧ prefixLength ≤ family.addressBits ∧
      2 ^ (family.addressBits - prefixLength) ∣ beNat address then
    some ⟨family, beNat address, prefixLength, by
      have hlt := beNat_lt address
      rw [h.1] at hlt
      have hpow : 256 ^ family.addressBytes = 2 ^ family.addressBits := by
        cases family <;> decide
      rw [hpow] at hlt
      exact Nat.le_sub_one_of_lt hlt, h.2.1, h.2.2⟩
  else none

/-- `parse_ip_network`. -/
def parseIpNetwork (text : List Char) : Option Network :=
  if text.isEmpty ∨ maxIpNetworkTextBytes < text.length then none
  else
    let lower := text.map foldCase
    let address := lower.takeWhile (· ≠ '/')
    let family := if ':' ∈ address then IpFamily.v6 else .v4
    do
      let bytes ← if ':' ∈ address then parseIpv6 address else parseIpv4 address
      let prefixLength ←
        if '/' ∈ lower then parseIpDecimal ((lower.dropWhile (· ≠ '/')).drop 1) family.addressBits
        else some family.addressBits
      toNetwork family bytes prefixLength

/-! ### Addresses -/

/-- `ip_network_contains`: the leading bits of an address against a network's. -/
def ipNetworkContains (network : Network) (family : IpFamily) (address : Bytes) : Bool :=
  decide (family = network.family ∧ address.length = family.addressBytes ∧
    beNat address / 2 ^ (family.addressBits - network.prefixLength) =
      network.address / 2 ^ (family.addressBits - network.prefixLength))

/-- `kIpv4MappedNetwork`. -/
def ipv4MappedNetwork : Network := ⟨.v6, 0xffff * 2 ^ 32, 96, by decide, by decide, by decide⟩

/-- An address in the form that policy evaluates. -/
structure EgressAddress where
  family : IpFamily
  bytes : Bytes
  length_eq : bytes.length = family.addressBytes
deriving DecidableEq

/-- `EgressAddress::from_bytes`. -/
def EgressAddress.fromBytes (family : IpFamily) (bytes : Bytes) : Option EgressAddress :=
  if h : bytes.length = family.addressBytes then
    if hmapped : family = .v6 ∧ ipNetworkContains ipv4MappedNetwork family bytes = true then
      some ⟨.v4, bytes.drop 12, by
        rw [List.length_drop, h, hmapped.1]
        rfl⟩
    else some ⟨family, bytes, h⟩
  else none

inductive EgressAddressClass where
  | neverAllowed
  | explicitOnly
  | publicSpace
deriving DecidableEq, Repr

/-- A network of four leading IPv4 octets. -/
def ipv4Network (a b c d prefixLength : Nat) : Option Network :=
  toNetwork .v4 [UInt8.ofNat a, UInt8.ofNat b, UInt8.ofNat c, UInt8.ofNat d] prefixLength

/-- A network of leading IPv6 bytes, the rest of them zero. -/
def ipv6Network (leading : Bytes) (prefixLength : Nat) : Option Network :=
  toNetwork .v6 (leading ++ List.replicate (16 - leading.length) 0) prefixLength

def neverAllowedNetworks : List Network :=
  [ipv4Network 0 0 0 0 8, ipv4Network 224 0 0 0 3, ipv6Network [] 128,
    ipv6Network [0xff] 8].reduceOption

def explicitOnlyIpv4 : List Network :=
  [ipv4Network 10 0 0 0 8, ipv4Network 100 64 0 0 10, ipv4Network 127 0 0 0 8,
    ipv4Network 169 254 0 0 16, ipv4Network 172 16 0 0 12, ipv4Network 192 0 0 0 24,
    ipv4Network 192 0 2 0 24, ipv4Network 192 88 99 0 24, ipv4Network 192 168 0 0 16,
    ipv4Network 198 18 0 0 15, ipv4Network 198 51 100 0 24,
    ipv4Network 203 0 113 0 24].reduceOption

def ipv6GlobalUnicast : List Network := [ipv6Network [0x20] 3].reduceOption

def explicitOnlyIpv6Global : List Network :=
  [ipv6Network [0x20, 0x01] 23, ipv6Network [0x20, 0x01, 0x0d, 0xb8] 32,
    ipv6Network [0x20, 0x02] 16, ipv6Network [0x3f, 0xff] 20].reduceOption

-- Every table entry is a network, so that none is left out above.
example : neverAllowedNetworks.length = 4 ∧ explicitOnlyIpv4.length = 12 ∧
    ipv6GlobalUnicast.length = 1 ∧ explicitOnlyIpv6Global.length = 4 := by decide

def containedInAny (table : List Network) (family : IpFamily) (bytes : Bytes) : Bool :=
  table.any fun network => ipNetworkContains network family bytes

/-- `classify_egress_address`. -/
def classifyEgressAddress (address : EgressAddress) : EgressAddressClass :=
  if containedInAny neverAllowedNetworks address.family address.bytes then .neverAllowed
  else
    match address.family with
    | .v4 =>
      if containedInAny explicitOnlyIpv4 .v4 address.bytes then .explicitOnly else .publicSpace
    | .v6 =>
      if !containedInAny ipv6GlobalUnicast .v6 address.bytes ||
          containedInAny explicitOnlyIpv6Global .v6 address.bytes then .explicitOnly
      else .publicSpace

/-! ### Decisions -/

inductive RouteAddressKind where
  | ipv4
  | ipv6
  | dnsName
deriving DecidableEq, Repr

structure RouteDestination where
  addressKind : RouteAddressKind
  addressBytes : Bytes
deriving DecidableEq

/-- A rule of the policy, with the lists of its adapter if it has any. -/
structure PolicyRule where
  publicAddresses : Bool
  networks : List Network
  lists : Option EgressListRules

/-- `NativeEgressPolicy::evaluate`: nothing, or why the destination is refused. -/
def evaluate (rule : PolicyRule) (destination : RouteDestination) : Except String Unit :=
  if destination.addressKind = .dnsName then
    .error "destination policy requires a numeric address"
  else
    let family := if destination.addressKind = .ipv4 then IpFamily.v4 else .v6
    match EgressAddress.fromBytes family destination.addressBytes with
    | none => .error "malformed destination address"
    | some address =>
      if classifyEgressAddress address = .neverAllowed then
        .error "destination address is never reachable"
      else if !((classifyEgressAddress address = .publicSpace && rule.publicAddresses) ||
          rule.networks.any fun network =>
            ipNetworkContains network address.family address.bytes) then
        .error "destination is outside the service's permitted destinations"
      else if (rule.lists.bind fun lists => lists.lookup address.family address.bytes) =
          some .deny then
        .error "an egress list refuses the destination"
      else .ok ()

/-- The "ips" of a list file, if every entry is a network. -/
def listAdditions (entries : List (List Char)) (action : EgressListAction) :
    Option (List Addition) :=
  entries.mapM fun text => (parseIpNetwork text).map (Addition.network · action)

/-! ### Networks as they are read -/

/-- A network inside ::ffff:0:0/96, which spells an IPv4 network. -/
def Network.InsideMapped (network : Network) : Prop :=
  network.family = .v6 ∧ 96 ≤ network.prefixLength ∧ network.address / 2 ^ 32 = 0xffff

instance (network : Network) : Decidable network.InsideMapped :=
  inferInstanceAs (Decidable (_ ∧ _ ∧ _))

/-- The addition with a network inside ::ffff:0:0/96 read as the IPv4 network it
spells: whether it holds an address. -/
def Addition.ReadHolds (addition : Addition) (family : IpFamily) (x : Nat) : Prop :=
  match addition with
  | .network listed _ =>
    if listed.InsideMapped then
      family = .v4 ∧ x / 2 ^ (128 - listed.prefixLength) =
        listed.address % 2 ^ 32 / 2 ^ (128 - listed.prefixLength)
    else addition.Holds family x
  | _ => addition.Holds family x

/-- How specific an addition is when it is read so. -/
def Addition.readSpecificity (addition : Addition) : Nat :=
  match addition with
  | .network listed _ =>
    if listed.InsideMapped then listed.prefixLength - 96 else addition.specificity
  | _ => addition.specificity

section Read

variable {family : IpFamily} {bytes : Bytes} {address : EgressAddress}

variable (h : EgressAddress.fromBytes family bytes = some address)
include h

/-- An address that policy evaluates is outside ::ffff:0:0/96, so that no network
inside it holds the address. -/
theorem not_holds_of_insideMapped {listed : Network} (hinside : listed.InsideMapped)
    (action : EgressListAction) :
    ¬ (Addition.network listed action).Holds address.family (beNat address.bytes) := by
  rintro ⟨hfamily, hsame⟩
  obtain ⟨hv6, hlength, hmapped⟩ := hinside
  have haddress : address.family = .v6 := hfamily.symm.trans hv6
  unfold EgressAddress.fromBytes at h
  split at h
  · split at h
    · cases h
      cases haddress
    rename_i hbytes hout
    cases h
    obtain rfl : family = .v6 := haddress
    refine hout ⟨rfl, decide_eq_true ⟨rfl, hbytes, ?_⟩⟩
    have hbits : (2 : Nat) ^ 32 = 2 ^ (128 - listed.prefixLength) * 2 ^ (listed.prefixLength - 96) := by
      have hle := listed.prefix_le
      rw [hv6] at hle
      rw [← pow_add]
      congr 1
      change listed.prefixLength ≤ 128 at hle
      omega
    change beNat bytes / 2 ^ 32 = 0xffff * 2 ^ 32 / 2 ^ 32
    have hshift : beNat bytes / 2 ^ (128 - listed.prefixLength) =
        listed.address / 2 ^ (128 - listed.prefixLength) := hsame
    rw [Nat.mul_div_cancel _ (by decide), ← hmapped, hbits, ← Nat.div_div_eq_div_mul, hshift,
      Nat.div_div_eq_div_mul]
  · cases h

/-- For an addition that holds such an address, the reading changes nothing. -/
theorem readHolds_of_holds {addition : Addition}
    (hholds : addition.Holds address.family (beNat address.bytes)) :
    addition.ReadHolds address.family (beNat address.bytes) ∧
      addition.readSpecificity = addition.specificity := by
  cases addition with
  | network listed action =>
    have hinside : ¬ listed.InsideMapped := fun hinside =>
      not_holds_of_insideMapped h hinside action hholds
    simp only [Addition.ReadHolds, Addition.readSpecificity, if_neg hinside, and_true]
    exact hholds
  | span | country => exact ⟨hholds, rfl⟩

end Read

/-- A deny that holds an address decides it unless a more specific allow does. -/
theorem lookup_deny {files : List (List Addition)} {builder : EgressListBuilder}
    (h : EgressListBuilder.empty.addFiles files = some builder) {address : EgressAddress}
    {denied : Addition} (hmem : denied ∈ files.flatten) (hdeny : denied.action = .deny)
    (hholds : denied.Holds address.family (beNat address.bytes))
    (hallow : ∀ other ∈ files.flatten, other.action = .allow →
      other.Holds address.family (beNat address.bytes) →
      other.specificity ≤ denied.specificity) :
    builder.build.lookup address.family address.bytes = some .deny := by
  rw [lookup_eq_deny_iff h address.length_eq]
  obtain ⟨most, hmost⟩ := exists_mostSpecific hmem hholds
  cases haction : most.action with
  | deny => exact ⟨most, hmost, haction⟩
  | allow =>
    -- The allow is no more specific, so the deny is as specific as any.
    have hle := hallow most hmost.1.1 haction hmost.1.2
    refine ⟨denied, ⟨⟨hmem, hholds⟩, fun other hother hotherHolds => ?_⟩, hdeny⟩
    exact le_trans (hmost.2 other hother hotherHolds) hle

/-- A destination's family, from its kind. -/
def RouteAddressKind.family : RouteAddressKind → IpFamily
  | .ipv4 => .v4
  | _ => .v6

section Evaluate

variable {rule : PolicyRule} {lists : EgressListRules} {destination : RouteDestination}
  {address : EgressAddress}

variable (haddress : EgressAddress.fromBytes destination.addressKind.family
  destination.addressBytes = some address)
include haddress

/-- A destination whose address is never reachable or which a list denies is refused. -/
theorem evaluate_refuses (h : classifyEgressAddress address = .neverAllowed ∨
    (rule.lists.bind fun lists => lists.lookup address.family address.bytes) = some .deny) :
    ∃ refusal, evaluate rule destination = .error refusal := by
  unfold evaluate
  split
  · exact ⟨_, rfl⟩
  have hfamily : (if destination.addressKind = .ipv4 then IpFamily.v4 else .v6) =
      destination.addressKind.family := by
    cases hcase : destination.addressKind <;> rfl
  simp only [hfamily, haddress]
  split
  · exact ⟨_, rfl⟩
  rename_i hclass
  rw [if_pos (h.resolve_left hclass)]
  split <;> exact ⟨_, rfl⟩

end Evaluate

/-- The IPv4-mapped spelling of an IPv4 address. -/
def mapped (address : Bytes) : Bytes := List.replicate 10 0 ++ [0xff, 0xff] ++ address

theorem fromBytes_mapped {address : Bytes} (h : address.length = 4) :
    EgressAddress.fromBytes .v6 (mapped address) = EgressAddress.fromBytes .v4 address := by
  have hlength : (mapped address).length = IpFamily.addressBytes .v6 := by
    simp [mapped, h, IpFamily.addressBytes]
  have hmapped : ipNetworkContains ipv4MappedNetwork .v6 (mapped address) = true := by
    have hlt := beNat_lt address
    rw [h] at hlt
    have hvalue : beNat (mapped address) = 0xffff * 2 ^ 32 + beNat address := by
      simp only [mapped, List.replicate, cons_append, nil_append, beNat, length_cons, h]
      simp
      omega
    refine decide_eq_true ⟨rfl, hlength, ?_⟩
    rw [hvalue]
    simp only [ipv4MappedNetwork, IpFamily.addressBits, IpFamily.addressBytes]
    omega
  unfold EgressAddress.fromBytes
  rw [dif_pos hlength, dif_pos ⟨rfl, hmapped⟩, dif_pos (by simpa [IpFamily.addressBytes] using h),
    dif_neg (by simp)]
  simp [mapped]

/-- A list with one denied network inside ::ffff:0:0/96 permits the addresses that it
spells. -/
theorem insideMapped_permits {network : Network} (hinside : network.InsideMapped)
    {address : EgressAddress} (hfamily : address.family = .v4)
    (hclass : classifyEgressAddress address ≠ .neverAllowed) :
    ∃ (builder : EgressListBuilder) (rule : PolicyRule),
      EgressListBuilder.empty.addFiles [[.network network .deny]] = some builder ∧
      rule.lists = some builder.build ∧
      EgressAddress.fromBytes .v4 address.bytes = some address ∧
      evaluate rule ⟨.ipv4, address.bytes⟩ = .ok () := by
  obtain ⟨family, bytes, hlength⟩ := address
  obtain rfl : family = .v4 := hfamily
  have haddress : EgressAddress.fromBytes .v4 bytes = some ⟨.v4, bytes, hlength⟩ := by
    simp [EgressAddress.fromBytes, hlength]
  obtain ⟨builder, hbuilder⟩ : ∃ builder,
      EgressListBuilder.empty.addFiles [[.network network .deny]] = some builder := by
    simp [EgressListBuilder.addFiles, EgressListBuilder.add, EgressListBuilder.empty,
      maxEgressListRanges, Addition.Valid]
  let every : Network := ⟨.v4, 0, 0, by decide, by decide, by decide⟩
  have hcontains : ipNetworkContains every .v4 bytes = true := by
    have hlt := beNat_lt bytes
    rw [hlength] at hlt
    refine decide_eq_true ⟨rfl, hlength, ?_⟩
    change beNat bytes < 2 ^ 32 at hlt
    change beNat bytes / 2 ^ 32 = 0 / 2 ^ 32
    rw [Nat.div_eq_of_lt hlt, Nat.zero_div]
  have hlookup : builder.build.lookup .v4 bytes ≠ some .deny := by
    rw [Ne, lookup_eq_deny_iff hbuilder hlength]
    rintro ⟨addition, ⟨⟨hmem, hholds⟩, -⟩, -⟩
    obtain rfl : addition = .network network .deny := by simpa using hmem
    exact not_holds_of_insideMapped haddress hinside .deny hholds
  refine ⟨builder, ⟨true, [every], some builder.build⟩, hbuilder, rfl, haddress, ?_⟩
  simp [evaluate, haddress, hclass, hcontains, hlookup]

/-- A denied network refuses every destination that lies in it and in no more specific
allowed range, whatever else is listed, exactly when it is not inside ::ffff:0:0/96 or
spells only addresses that are never reachable.  An IPv4 address and its mapped
spelling always get the same decision. -/
theorem deny_effective (network : Network) :
    ((∀ (rule : PolicyRule) (files : List (List Addition)) (builder : EgressListBuilder)
        (destination : RouteDestination) (address : EgressAddress),
      EgressListBuilder.empty.addFiles files = some builder →
      rule.lists = some builder.build →
      EgressAddress.fromBytes destination.addressKind.family destination.addressBytes =
        some address →
      Addition.network network .deny ∈ files.flatten →
      (Addition.network network .deny).ReadHolds address.family (beNat address.bytes) →
      (∀ other ∈ files.flatten, other.action = .allow →
        other.ReadHolds address.family (beNat address.bytes) →
        other.readSpecificity ≤ (Addition.network network .deny).readSpecificity) →
      ∃ refusal, evaluate rule destination = .error refusal) ↔
      (¬ network.InsideMapped ∨ ∀ address : EgressAddress,
        (Addition.network network .deny).ReadHolds address.family (beNat address.bytes) →
          classifyEgressAddress address = .neverAllowed)) ∧
    ∀ (rule : PolicyRule) (address : Bytes), address.length = 4 →
      evaluate rule ⟨.ipv6, mapped address⟩ = evaluate rule ⟨.ipv4, address⟩ := by
  refine ⟨⟨fun heffective => ?_, ?_⟩, fun rule address hlength => ?_⟩
  · rw [or_iff_not_imp_left, not_not]
    intro hinside address hread
    by_contra hclass
    have hfamily : address.family = .v4 := by
      simp only [Addition.ReadHolds, if_pos hinside] at hread
      exact hread.1
    obtain ⟨builder, rule, hbuilder, hlists, haddress, hpermitted⟩ :=
      insideMapped_permits hinside hfamily hclass
    obtain ⟨refusal, hrefused⟩ := heffective rule _ builder ⟨.ipv4, address.bytes⟩ address hbuilder
      hlists haddress (by simp) hread fun other hother haction => by
        obtain rfl : other = .network network .deny := by simpa using hother
        cases haction
    rw [hpermitted] at hrefused
    cases hrefused
  · rintro (hout | hnever) rule files builder destination address hbuilder hlists haddress hmem
      hread hallow
    · simp only [Addition.ReadHolds, Addition.readSpecificity, if_neg hout] at hread hallow
      refine evaluate_refuses haddress (.inr ?_)
      rw [hlists, Option.bind_some]
      refine lookup_deny hbuilder hmem rfl hread fun other hother haction hholds => ?_
      obtain ⟨hotherRead, hsame⟩ := readHolds_of_holds haddress hholds
      rw [← hsame]
      exact hallow other hother haction hotherRead
    · exact evaluate_refuses haddress (.inl (hnever address hread))
  · unfold evaluate
    simp only [reduceCtorEq, if_false, if_true, fromBytes_mapped hlength]

/-- Public addresses, narrowed by lists. -/
def sampleRule (lists : Option EgressListRules) : PolicyRule := ⟨true, [], lists⟩

theorem half_le_v4 : 16 ≤ IpFamily.v4.addressBits := by decide

def sampleDenied : Network := ⟨.v4, 0x01020000, 16, by decide, half_le_v4, by decide⟩

/-- "::ffff:102:300/120", which spells 1.2.3.0/24. -/
def mappedText : List Char :=
  [':', ':', 'f', 'f', 'f', 'f', ':', '1', '0', '2', ':', '3', '0', '0', '/', '1', '2', '0']

def sampleMapped : Network := ⟨.v6, 0xffff01020300, 120, by decide, by decide, by decide⟩

/-- With 1.2.0.0/16 denied and 1.2.3.0/24 allowed by its mapped spelling, 1.2.4.5 is
refused, by its own mapped spelling too. -/
theorem deny_effective_sample :
    ∃ builder, EgressListBuilder.empty.addFiles
        [[.network sampleDenied .deny, .network sampleMapped .allow]] = some builder ∧
      (∃ refusal, evaluate (sampleRule builder.build) ⟨.ipv4, [1, 2, 4, 5]⟩ = .error refusal) ∧
      evaluate (sampleRule builder.build) ⟨.ipv6, mapped [1, 2, 4, 5]⟩ =
        evaluate (sampleRule builder.build) ⟨.ipv4, [1, 2, 4, 5]⟩ := by
  obtain ⟨builder, hbuilder⟩ := Option.isSome_iff_exists.mp
    (show (EgressListBuilder.empty.addFiles
      [[.network sampleDenied .deny, .network sampleMapped .allow]]).isSome from by decide)
  obtain ⟨heffective, hsame⟩ := deny_effective sampleDenied
  refine ⟨builder, hbuilder, ?_, hsame _ [1, 2, 4, 5] rfl⟩
  refine heffective.mpr (.inl (by decide)) (sampleRule builder.build) _ builder
    ⟨.ipv4, [1, 2, 4, 5]⟩ ⟨.v4, [1, 2, 4, 5], rfl⟩ hbuilder rfl (by decide) (by decide)
    ⟨rfl, by decide⟩ fun other hother haction hholds => ?_
  simp only [flatten_cons, flatten_nil, append_nil, mem_cons, not_mem_nil, or_false] at hother
  rcases hother with rfl | rfl
  · cases haction
  · simp only [Addition.ReadHolds, if_pos (show sampleMapped.InsideMapped by decide)] at hholds
    exact absurd hholds.2 (by decide)

/-- A list that denies ::ffff:102:300/120 is accepted, and the address 1.2.3.4 of
the network that it spells is permitted. -/
theorem mapped_deny_without_effect :
    ∃ builder, listAdditions [mappedText] .deny = some [.network sampleMapped .deny] ∧
      EgressListBuilder.empty.addFiles [[.network sampleMapped .deny]] = some builder ∧
      EgressAddress.fromBytes .v4 [1, 2, 3, 4] = some ⟨.v4, [1, 2, 3, 4], rfl⟩ ∧
      (Addition.network sampleMapped .deny).ReadHolds .v4 (beNat [1, 2, 3, 4]) ∧
      evaluate (sampleRule builder.build) ⟨.ipv4, [1, 2, 3, 4]⟩ = .ok () := by
  have haddress : EgressAddress.fromBytes .v4 [1, 2, 3, 4] =
      some ⟨.v4, [1, 2, 3, 4], rfl⟩ := by decide
  have hclass : classifyEgressAddress ⟨.v4, [1, 2, 3, 4], rfl⟩ = .publicSpace := by decide
  refine ⟨⟨[], [(Addition.network sampleMapped .deny).range]⟩, by decide, by decide, haddress,
    ?_, ?_⟩
  · simp only [Addition.ReadHolds, if_pos (show sampleMapped.InsideMapped by decide)]
    decide
  -- The range is in the table for IPv6, and the table for IPv4 is empty.
  have hlookup : (EgressListBuilder.build
      ⟨[], [(Addition.network sampleMapped .deny).range]⟩).lookup .v4 [1, 2, 3, 4] = none := by
    decide
  simp only [evaluate, sampleRule, reduceCtorEq, if_false, if_true, haddress, hclass,
    Option.bind_some, hlookup]
  rfl

end Yume.Egress
