/-
The DNS grammar that OPEN destinations, routes and TLS server names share, and
the conversions between an OPEN destination and a route destination.
-/
import Mathlib.Data.List.TakeWhile
import Yume.Ytp.Open
import Yume.Session.Limits

namespace Yume.Ytp

open Yume.Lib List
open Yume.Session (Status)

/-- A label: one to 63 lower-case letters, digits and hyphens, with no hyphen at
either end. -/
structure DnsLabel (label : Bytes) : Prop where
  nonempty : label ≠ []
  length : label.length ≤ maxDnsLabelBytes
  letters : ∀ byte ∈ label, isLowerAlphanumeric byte = true ∨ byte = hyphen
  first : label.head? ≠ some hyphen
  last : label.getLast? ≠ some hyphen

/-- The grammar: labels joined by dots, 253 bytes in all. -/
def DnsName (name : Bytes) : Prop :=
  name.length ≤ maxDnsNameBytes ∧ ∃ labels : List Bytes, labels ≠ [] ∧
    (∀ label ∈ labels, DnsLabel label) ∧ name = [dot].intercalate labels

/-- `valid_dns_name` on one label. -/
def validLabel (label : Bytes) : Bool :=
  !label.isEmpty && decide (label.length ≤ 63) &&
    label.head?.all isLowerAlphanumeric && label.getLast?.all isLowerAlphanumeric &&
    label.all fun byte => isLowerAlphanumeric byte || byte == hyphen

/-- The loop of `valid_dns_name` from one label on. -/
def validLabels (rest : Bytes) : Bool :=
  if validLabel (rest.takeWhile (· != dot)) then
    match _hafter : rest.dropWhile (· != dot) with
    | [] => true
    | _ :: tail => validLabels tail
  else false
termination_by rest.length
decreasing_by
  have hle := (List.dropWhile_sublist (· != dot) (l := rest)).length_le
  rw [_hafter, List.length_cons] at hle
  omega

def maxRouteDnsNameBytes : Nat := 253

/-- `valid_dns_name`. -/
def validDnsName (name : Bytes) : Bool :=
  !name.isEmpty && decide (name.length ≤ maxRouteDnsNameBytes) && validLabels name

section Grammar

variable {name label rest : Bytes}

theorem DnsLabel.no_dot (h : DnsLabel label) : dot ∉ label := fun hmem =>
  absurd (h.letters dot hmem) (by decide)

/-- A name is in the grammar when each of its pieces between dots is a label. -/
theorem dnsName_iff : DnsName name ↔ name.length ≤ maxDnsNameBytes ∧
    ∀ label ∈ name.splitOn dot, DnsLabel label := by
  refine and_congr_right fun _ => ⟨?_, fun hlabels => ?_⟩
  · rintro ⟨labels, hne, hlabels, rfl⟩
    rwa [splitOn_intercalate dot (fun label hmem => (hlabels label hmem).no_dot) hne]
  · exact ⟨name.splitOn dot, splitOnP_ne_nil _ _, hlabels, (intercalate_splitOn dot).symm⟩

theorem DnsName.ne_nil (h : DnsName name) : name ≠ [] := by
  rintro rfl
  exact ((dnsName_iff.mp h).2 [] (by simp)).nonempty rfl

/-- The pieces between dots, from the first dot on. -/
theorem splitOn_dot (rest : Bytes) : rest.splitOn dot =
    rest.takeWhile (· != dot) :: match rest.dropWhile (· != dot) with
      | [] => []
      | _ :: tail => tail.splitOn dot := by
  have hbefore : dot ∉ rest.takeWhile (· != dot) := fun hmem => by
    simpa using mem_takeWhile_imp hmem
  conv_lhs => rw [← takeWhile_append_dropWhile (p := (· != dot)) (l := rest)]
  cases hafter : rest.dropWhile (· != dot) with
  | nil =>
    rw [append_nil]
    exact splitOn_eq_singleton hbefore
  | cons byte tail =>
    have hdot : byte = dot := by
      have := head?_dropWhile_not (· != dot) rest
      simpa [hafter] using this
    rw [hdot]
    exact splitOn_append_cons_self_of_not_mem hbefore tail

/-- A name in the grammar neither starts nor ends with a dot. -/
theorem no_outer_dot (h : ∀ label ∈ name.splitOn dot, DnsLabel label) :
    name ≠ [] ∧ name.head? ≠ some dot ∧ name.getLast? ≠ some dot := by
  have hempty : [] ∉ name.splitOn dot := fun hmem => (h [] hmem).nonempty rfl
  refine ⟨?_, ?_, ?_⟩
  · rintro rfl
    exact hempty (by simp)
  · intro hfirst
    obtain ⟨rest, rfl⟩ := head?_eq_some_iff.mp hfirst
    refine hempty ?_
    rw [show dot :: rest = [] ++ dot :: rest from rfl, splitOn_append_cons_self]
    simp
  intro hlast
  obtain ⟨front, rfl⟩ := getLast?_eq_some_iff.mp hlast
  refine hempty ?_
  rw [splitOn_append_cons_self]
  simp

theorem modifyHead_nil_append (pieces : List Bytes) : pieces.modifyHead ([] ++ ·) = pieces := by
  cases pieces <;> rfl

theorem isDnsLabel_iff
    (hletters : ∀ byte ∈ label, isLowerAlphanumeric byte = true ∨ byte = hyphen) :
    isDnsLabel label = true ↔ DnsLabel label := by
  simp only [isDnsLabel, Bool.and_eq_true, Bool.not_eq_true', isEmpty_eq_false_iff,
    decide_eq_true_eq, bne_iff_ne]
  constructor
  · rintro ⟨⟨⟨hne, hlength⟩, hfirst⟩, hlast⟩
    exact ⟨hne, hlength, hletters, hfirst, hlast⟩
  intro h
  exact ⟨⟨⟨h.nonempty, h.length⟩, h.first⟩, h.last⟩

/-- The character scan of `IsCanonicalDnsName` checks the label it has read so
far together with the pieces that follow. -/
theorem dnsLoop_iff (rest label : Bytes)
    (hletters : ∀ byte ∈ label, isLowerAlphanumeric byte = true ∨ byte = hyphen) :
    dnsLoop rest label = true ↔
      ∀ piece ∈ (rest.splitOn dot).modifyHead (label ++ ·), DnsLabel piece := by
  induction rest generalizing label with
  | nil => simpa [dnsLoop] using isDnsLabel_iff hletters
  | cons byte rest ih =>
    rw [dnsLoop, splitOn_cons_eq_if_modifyHead]
    simp only [beq_iff_eq]
    by_cases hdot : byte = dot
    · rw [if_neg (not_not.mpr hdot), if_pos hdot, modifyHead_cons, append_nil,
        forall_mem_cons, ← isDnsLabel_iff hletters]
      have hrest := ih [] (by simp)
      rw [modifyHead_nil_append] at hrest
      split
      · rename_i hlabel
        rw [hrest]
        exact (and_iff_right hlabel).symm
      rename_i hlabel
      exact iff_of_false Bool.false_ne_true fun hall => hlabel hall.1
    rw [if_pos hdot, if_neg hdot, modifyHead_modifyHead]
    by_cases hletter : isLowerAlphanumeric byte = true ∨ byte = hyphen
    · have hread : ∀ other ∈ label ++ [byte],
          isLowerAlphanumeric other = true ∨ other = hyphen :=
        forall_mem_append.mpr ⟨hletters, forall_mem_singleton.mpr hletter⟩
      rw [if_pos (by simpa using hletter), ih _ hread]
      simp [Function.comp_def]
    rw [if_neg (by simpa using hletter)]
    obtain ⟨first, pieces, hpieces⟩ := exists_cons_of_ne_nil (splitOnP_ne_nil (· == dot) rest)
    have hpieces : rest.splitOn dot = first :: pieces := hpieces
    rw [hpieces, modifyHead_cons, forall_mem_cons]
    simp only [Bool.false_eq_true, false_iff, not_and]
    intro hlabel
    exact absurd (hlabel.letters byte (by simp)) hletter

theorem isCanonicalDnsName_iff (name : Bytes) : isCanonicalDnsName name = true ↔ DnsName name := by
  have hloop := dnsLoop_iff name [] (by simp)
  rw [modifyHead_nil_append] at hloop
  rw [isCanonicalDnsName, dnsName_iff, ← hloop]
  simp only [Bool.and_eq_true, Bool.not_eq_true', isEmpty_eq_false_iff,
    decide_eq_true_eq, bne_iff_ne]
  constructor
  · rintro ⟨⟨⟨⟨-, hlength⟩, -⟩, -⟩, hlabels⟩
    exact ⟨hlength, hlabels⟩
  rintro ⟨hlength, hlabels⟩
  obtain ⟨hne, hfirst, hlast⟩ := no_outer_dot (hloop.mp hlabels)
  exact ⟨⟨⟨⟨hne, hlength⟩, hfirst⟩, hlast⟩, hlabels⟩

/-- The ends of a label are letters or digits exactly when they are no hyphens. -/
theorem validLabel_iff : validLabel label = true ↔ DnsLabel label := by
  simp only [validLabel, Bool.and_eq_true, Bool.not_eq_true', isEmpty_eq_false_iff,
    decide_eq_true_eq, Option.all_eq_true, all_eq_true, Bool.or_eq_true, beq_iff_eq]
  have hyphen_not : isLowerAlphanumeric hyphen = false := by decide
  constructor
  · rintro ⟨⟨⟨⟨hne, hlength⟩, hfirst⟩, hlast⟩, hletters⟩
    exact ⟨hne, hlength, hletters, fun hhead => by simpa [hyphen_not] using hfirst _ hhead,
      fun hend => by simpa [hyphen_not] using hlast _ hend⟩
  intro h
  refine ⟨⟨⟨⟨h.nonempty, h.length⟩, fun byte hhead => ?_⟩, fun byte hend => ?_⟩, h.letters⟩
  · exact (h.letters byte (mem_of_mem_head? hhead)).resolve_right
      fun hsame => h.first (hsame ▸ hhead)
  · exact (h.letters byte (mem_of_getLast? hend)).resolve_right fun hsame => h.last (hsame ▸ hend)

/-- The find-and-substr loop checks the pieces one by one. -/
theorem validLabels_iff (rest : Bytes) :
    validLabels rest = true ↔ ∀ label ∈ rest.splitOn dot, DnsLabel label := by
  fun_induction validLabels rest with
  | case1 rest hlabel hafter =>
    rw [splitOn_dot, hafter, forall_mem_cons, ← validLabel_iff]
    simp [hlabel]
  | case2 rest hlabel byte tail hafter ih =>
    rw [splitOn_dot, hafter, forall_mem_cons, ← validLabel_iff, ih]
    exact (and_iff_right hlabel).symm
  | case3 rest hlabel =>
    rw [splitOn_dot, forall_mem_cons, ← validLabel_iff]
    exact iff_of_false Bool.false_ne_true fun hall => hlabel hall.1

theorem validDnsName_iff (name : Bytes) : validDnsName name = true ↔ DnsName name := by
  rw [validDnsName, dnsName_iff, ← validLabels_iff]
  simp only [Bool.and_eq_true, Bool.not_eq_true', isEmpty_eq_false_iff, decide_eq_true_eq]
  constructor
  · rintro ⟨⟨-, hlength⟩, hlabels⟩
    exact ⟨hlength, hlabels⟩
  rintro ⟨hlength, hlabels⟩
  exact ⟨⟨(no_outer_dot ((validLabels_iff name).mp hlabels)).1, hlength⟩, hlabels⟩

end Grammar

inductive NetworkProtocol where
  | tcp
  | udp
deriving Repr, DecidableEq

inductive RouteAddressKind where
  | ipv4
  | ipv6
  | dnsName
deriving Repr, DecidableEq

/-- `RouteDestination`, which only its three factories build. -/
structure RouteDestination where
  protocol : NetworkProtocol
  addressKind : RouteAddressKind
  address : Address := .zero
  addressLength : UInt8 := 0
  dnsName : Bytes := []
  port : UInt16

namespace RouteDestination

def addressBytes (route : RouteDestination) : Bytes :=
  route.address.bytes.take route.addressLength.toNat

theorem addressBytes_length_le (route : RouteDestination) : route.addressBytes.length ≤ 16 := by
  rw [addressBytes, length_take, route.address.size]
  omega

/-- `RouteDestination::ipv4`. -/
def ofIpv4 (protocol : NetworkProtocol) (address : Bytes) (h : address.length = 4)
    (port : UInt16) : Except Status RouteDestination :=
  if port = 0 then
    .error ⟨.invalidArgument, "route destination protocol or port is invalid"⟩
  else .ok { protocol := protocol, addressKind := .ipv4, port := port
             address := .ofPrefix address (ipv4_length_le h), addressLength := 4 }

/-- `RouteDestination::ipv6`. -/
def ofIpv6 (protocol : NetworkProtocol) (address : Address) (port : UInt16) :
    Except Status RouteDestination :=
  if port = 0 then
    .error ⟨.invalidArgument, "route destination protocol or port is invalid"⟩
  else .ok { protocol := protocol, addressKind := .ipv6, port := port
             address := address, addressLength := 16 }

/-- `RouteDestination::dns_name`. -/
def ofDnsName (protocol : NetworkProtocol) (name : Bytes) (port : UInt16) :
    Except Status RouteDestination :=
  if port = 0 ∨ ¬ validDnsName name then
    .error ⟨.invalidArgument, "route destination DNS name, protocol, or port is invalid"⟩
  else .ok { protocol := protocol, addressKind := .dnsName, port := port
             dnsName := name }

end RouteDestination

/-- The transport that `from_ytp_destination` selects. -/
def fromYtpTransport (transport : TransportProtocol) : Except Status NetworkProtocol :=
  if transport = .tcp then .ok .tcp
  else if transport = .udp then .ok .udp
  else if transport = .none then
    .error ⟨.invalidArgument, "absent YTP destination cannot become a route destination"⟩
  else .error ⟨.invalidArgument, "YTP destination has an unknown transport"⟩

/-- `from_ytp_destination`. -/
def fromYtpDestination (destination : Destination) : Except Status RouteDestination :=
  match fromYtpTransport destination.transport with
  | .error status => .error status
  | .ok protocol =>
    if destination.addressKind = .ipv4 then
      RouteDestination.ofIpv4 protocol (destination.address.bytes.take 4)
        (by simp [destination.address.size]) destination.port
    else if destination.addressKind = .ipv6 then
      RouteDestination.ofIpv6 protocol destination.address destination.port
    else if destination.addressKind = .dns then
      RouteDestination.ofDnsName protocol destination.dnsName destination.port
    else .error ⟨.invalidArgument, "YTP destination has an unknown address kind"⟩

def toYtpTransport : NetworkProtocol → TransportProtocol
  | .tcp => .tcp
  | .udp => .udp

/-- `to_ytp_destination`. -/
def toYtpDestination (route : RouteDestination) : Destination :=
  match route.addressKind with
  | .ipv4 =>
    { transport := toYtpTransport route.protocol, port := route.port
      addressKind := .ipv4, addressLength := 4
      address := .ofPrefix route.addressBytes route.addressBytes_length_le }
  | .ipv6 =>
    { transport := toYtpTransport route.protocol, port := route.port
      addressKind := .ipv6, addressLength := 16
      address := .ofPrefix route.addressBytes route.addressBytes_length_le }
  | .dnsName =>
    { transport := toYtpTransport route.protocol, port := route.port
      addressKind := .dns, dnsName := route.dnsName }

section Routes

variable {kind : ServiceKind} {destination : Destination} {transport : TransportProtocol}

theorem fromYtpTransport_ok (hpresent : transport ≠ .none) (hknown : transport.isKnown = true) :
    ∃ protocol, fromYtpTransport transport = .ok protocol ∧
      toYtpTransport protocol = transport := by
  have hcases : transport = .tcp ∨ transport = .udp := by
    simp only [TransportProtocol.isKnown, Bool.or_eq_true, beq_iff_eq] at hknown
    tauto
  rcases hcases with rfl | rfl
  · exact ⟨.tcp, rfl, rfl⟩
  · exact ⟨.udp, rfl, rfl⟩

/-- A destination that passes its check becomes a route and comes back. -/
theorem Destination.Valid.route (h : destination.Valid kind)
    (hpresent : destination.transport ≠ .none) :
    ∃ route, fromYtpDestination destination = .ok route ∧ toYtpDestination route = destination := by
  cases h with
  | absent => exact absurd rfl hpresent
  | @ipv4 transport port bytes hlength hnone hknown hport =>
    obtain ⟨protocol, hfrom, rfl⟩ := fromYtpTransport_ok hnone hknown
    have htake : ∀ h, (Address.ofPrefix bytes h).bytes.take 4 = bytes := fun h =>
      take_left' hlength
    refine ⟨{ protocol := protocol, addressKind := .ipv4, port := port
              address := .ofPrefix bytes (by omega), addressLength := 4 }, ?_, ?_⟩
    · simp [fromYtpDestination, hfrom, RouteDestination.ofIpv4, hport, htake]
    · simp [toYtpDestination, RouteDestination.addressBytes, htake]
  | @ipv6 transport port address hnone hknown hport =>
    obtain ⟨protocol, hfrom, rfl⟩ := fromYtpTransport_ok hnone hknown
    have htake : address.bytes.take 16 = address.bytes :=
      take_of_length_le (by simp [address.size])
    have hwhole : Address.ofPrefix address.bytes (by simp [address.size]) = address := by
      rw [Address.mk.injEq]
      simp [Address.ofPrefix, address.size]
    refine ⟨{ protocol := protocol, addressKind := .ipv6, port := port
              address := address, addressLength := 16 }, ?_, ?_⟩
    · simp [fromYtpDestination, hfrom, RouteDestination.ofIpv6, hport, AddressKind.ipv6,
        AddressKind.ipv4]
    · simp [toYtpDestination, RouteDestination.addressBytes, htake, hwhole]
  | @dns transport port name hnone hknown hport hname =>
    obtain ⟨protocol, hfrom, rfl⟩ := fromYtpTransport_ok hnone hknown
    have hvalid := (validDnsName_iff _).mpr ((isCanonicalDnsName_iff _).mp hname)
    refine ⟨{ protocol := protocol, addressKind := .dnsName, port := port
              dnsName := name }, ?_, rfl⟩
    simp [fromYtpDestination, hfrom, RouteDestination.ofDnsName, hport, hvalid,
      AddressKind.dns, AddressKind.ipv4, AddressKind.ipv6]

end Routes

end Yume.Ytp
