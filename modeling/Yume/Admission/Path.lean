/-
The admission path of an HTTP/2 request: how it is built and parsed, how the
authority is compared with the TLS server name, and exactly which requests are
admitted.
-/
import Yume.Admission.Replay
import Yume.Admission.ServerName
import Yume.Crypto.Canonical
import Yume.Lib.Hex

namespace Yume.Admission

open Yume.Lib Yume.Ytp List
open Yume.Crypto (textU8)

def h2TokenBytes : Nat := 32
def h2TokenHexLength : Nat := 2 * h2TokenBytes
def h2NonceHexLength : Nat := 2 * h2NonceBytes
def h2PathLength : Nat := 1 + h2TokenHexLength + 1 + h2NonceHexLength
def admissionKeyBytes : Nat := 32
def admissionExporterBytes : Nat := 32
def admissionDomain : Bytes := textU8 "yume/ytp/1/h2-web/admission/v1"

/-- `Token`, an array of bytes. -/
abbrev Token := { bytes : Bytes // bytes.length = h2TokenBytes }

def slash : UInt8 := 47
def colon : UInt8 := 58
def openBracket : UInt8 := 91
def closeBracket : UInt8 := 93

/-- The digits of `std::from_chars`, as a number. -/
def decimal (digits : Bytes) : Nat :=
  digits.foldl (fun value digit => 10 * value + (digit.toNat - 48)) 0

/-- `parse_port`.  `std::from_chars` stops at the first byte that is no digit. -/
def parsePort (text : Bytes) : Option UInt16 :=
  if text.isEmpty ∨ ¬ text.all (fun byte => decide (48 ≤ byte) && decide (byte ≤ 57)) then none
  else if decimal text > 2 ^ 32 - 1 ∨ decimal text = 0 ∨ decimal text > 2 ^ 16 - 1 then none
  else some (UInt16.ofNat (decimal text))

/-- `make_address` and `to_string` on IPv6 literals: the text of an address
always has a colon. -/
structure Ipv6Literals where
  normalize : Bytes → Option Bytes
  colon_mem : ∀ {host text}, normalize host = some text → colon ∈ text

/-- The loop of `normalize_host` that drops trailing dots. -/
def stripDots (host : Bytes) : Bytes :=
  if host.length > 1 ∧ host.getLast? = some dot then stripDots host.dropLast else host
termination_by host.length
decreasing_by
  rw [List.length_dropLast]
  omega

/-- The bytes that no host may have. -/
def isForbidden (byte : UInt8) : Bool :=
  decide (byte ≤ 0x20) || byte == 0x7f || byte == slash || byte == 64

/-- `normalize_host`, in the "C" locale. -/
def normalizeHost (literals : Ipv6Literals) (host : Bytes) (requireIpv6Literal : Bool) :
    Option Bytes :=
  if host.isEmpty ∨ host.length > 2 ^ 16 - 1 ∨ host.any isForbidden then none
  else
    let normalized := stripDots (host.map asciiLower)
    if requireIpv6Literal then literals.normalize normalized else some normalized

structure ParsedAuthority where
  host : Bytes
  port : Option UInt16
deriving Repr, DecidableEq

/-- The port behind a host: none at all, or a colon and a number. -/
def parseSuffix : Bytes → Option (Option UInt16)
  | [] => some none
  | byte :: text =>
    if byte ≠ colon then none
    else
      match parsePort text with
      | none => none
      | some port => some (some port)

/-- `parse_authority`. -/
def parseAuthority (literals : Ipv6Literals) (authority : Bytes)
    (allowUnbracketedIpv6 : Bool) : Option ParsedAuthority :=
  if authority.isEmpty then none
  else
    if authority.head? = some openBracket then
      match authority.dropWhile (· != closeBracket) with
      | [] => none
      | _ :: suffix =>
        match parseSuffix suffix with
        | none => none
        | some port =>
          (normalizeHost literals ((authority.takeWhile (· != closeBracket)).drop 1)
            true).map (⟨·, port⟩)
    else
      match authority.dropWhile (· != colon) with
      | [] => (normalizeHost literals authority false).map (⟨·, none⟩)
      | _ :: after =>
        if colon ∉ after then
          match parsePort after with
          | none => none
          | some port =>
            (normalizeHost literals (authority.takeWhile (· != colon)) false).map (⟨·, some port⟩)
        else if ¬ allowUnbracketedIpv6 then none
        else (normalizeHost literals authority true).map (⟨·, none⟩)

/-- A port that the listener does not contradict. -/
def portAllowed (port listenerPort : Option UInt16) : Bool :=
  match port, listenerPort with
  | some port, some listener => port == listener
  | _, _ => true

/-- `authority_matches_tls_sni`. -/
def authorityMatchesTlsSni (literals : Ipv6Literals) (authority tlsSni : Bytes)
    (listenerPort : Option UInt16) : Bool :=
  match parseAuthority literals authority false, parseAuthority literals tlsSni true with
  | some parsed, some sni =>
    parsed.host == sni.host && portAllowed parsed.port listenerPort &&
      portAllowed sni.port listenerPort
  | _, _ => false

structure ParsedPath where
  token : Token
  nonce : Nonce
deriving DecidableEq

/-- `decode_lower_hex` into an array. -/
def decodeHexArray (text : Bytes) (size : Nat) : Option { bytes : Bytes // bytes.length = size } :=
  match h : decodeLowerHex text size with
  | none => none
  | some bytes => some ⟨bytes, (hexLower_of_decode h).2⟩

/-- `parse_path`. -/
def parsePath (path : Bytes) : Option ParsedPath :=
  if path.length ≠ h2PathLength ∨ path.head? ≠ some slash ∨
      path[1 + h2TokenHexLength]? ≠ some slash then none
  else
    match decodeHexArray ((path.drop 1).take h2TokenHexLength) h2TokenBytes,
      decodeHexArray ((path.drop (2 + h2TokenHexLength)).take h2NonceHexLength) h2NonceBytes with
    | some token, some nonce => some ⟨token, nonce⟩
    | _, _ => none

/-- `build_path`. -/
def buildPath (token : Token) (nonce : Nonce) : Bytes :=
  slash :: hexLower token.1 ++ slash :: hexLower nonce.1

/-- `encode_ytp1_h2_admission_input`. -/
def encodeAdmissionInput (tlsSni tlsExporter : Bytes) (nonce : Nonce) : Option Bytes :=
  if tlsExporter.length ≠ admissionExporterBytes ∨ admissionDomain.length > 2 ^ 16 - 1 then none
  else
    match canonicalizeServerName tlsSni with
    | none => none
    | some normalizedSni =>
      some (beBytes 2 admissionDomain.length ++ admissionDomain ++
        beBytes 2 normalizedSni.length ++ normalizedSni ++
        beBytes 2 tlsExporter.length ++ tlsExporter ++ nonce.1)

variable (hmac : Bytes → Bytes → Token) (literals : Ipv6Literals)

/-- `derive_ytp1_h2_admission_token`, with the keyed hash as a function. -/
def deriveAdmissionToken (admissionKey tlsSni tlsExporter : Bytes) (nonce : Nonce) : Option Token :=
  if admissionKey.length ≠ admissionKeyBytes then none
  else
    match encodeAdmissionInput tlsSni tlsExporter nonce with
    | none => none
    | some input => some (hmac admissionKey input)

/-- `build_ytp1_h2_admission_path`. -/
def buildAdmissionPath (admissionKey tlsSni tlsExporter : Bytes) (nonce : Nonce) : Option Bytes :=
  match deriveAdmissionToken hmac admissionKey tlsSni tlsExporter nonce with
  | none => none
  | some token => some (buildPath token nonce)

/-- `verify_ytp1_h2_admission_path`. -/
def verifyAdmissionPath (admissionKey authority tlsSni tlsExporter path : Bytes)
    (listenerPort : Option UInt16) : Bool :=
  if authority.length > maxServerNameBytes + 6 ∨
      ¬ authorityMatchesTlsSni literals authority tlsSni listenerPort then false
  else
    match parsePath path with
    | none => false
    | some parsed =>
      match deriveAdmissionToken hmac admissionKey tlsSni tlsExporter parsed.nonce with
      | none => false
      | some expected => expected == parsed.token

section Paths

variable {path : Bytes} {token : Token} {nonce : Nonce}

theorem decodeHexArray_eq_some_iff {text : Bytes} {size : Nat}
    {block : { bytes : Bytes // bytes.length = size }} :
    decodeHexArray text size = some block ↔ text = hexLower block.1 := by
  constructor
  · intro h
    unfold decodeHexArray at h
    split at h
    · cases h
    rename_i hdecode
    cases h
    exact (hexLower_of_decode hdecode).1.symm
  rintro rfl
  obtain ⟨bytes, rfl⟩ := block
  have hdecode := decodeLowerHex_hexLower bytes
  unfold decodeHexArray
  split
  · rename_i hnone
    exact absurd (hdecode.symm.trans hnone) (by simp)
  rename_i hsome
  cases hdecode.symm.trans hsome
  rfl

theorem hexLower_token (token : Token) : (hexLower token.1).length = h2TokenHexLength := by
  rw [hexLower_length, token.2, h2TokenHexLength]

theorem hexLower_nonce (nonce : Nonce) : (hexLower nonce.1).length = h2NonceHexLength := by
  rw [hexLower_length, nonce.2, h2NonceHexLength]

/-- A path is parsed exactly when it is built from its parts. -/
theorem parsePath_eq_some_iff :
    parsePath path = some ⟨token, nonce⟩ ↔ path = buildPath token nonce := by
  have htoken := hexLower_token token
  have hnonce := hexLower_nonce nonce
  constructor
  · intro h
    unfold parsePath at h
    split_ifs at h with hbad
    simp only [not_or, not_not] at hbad
    obtain ⟨hlength, hhead, hslash⟩ := hbad
    split at h
    · rename_i first second hfirst hsecond
      cases h
      rw [decodeHexArray_eq_some_iff] at hfirst hsecond
      obtain ⟨rest, rfl⟩ := head?_eq_some_iff.mp hhead
      simp only [h2TokenHexLength, h2TokenBytes, h2NonceHexLength, h2NonceBytes, h2PathLength]
        at hfirst hsecond hslash hlength
      rw [Nat.add_comm, getElem?_cons_succ] at hslash
      obtain ⟨hlt, hbyte⟩ := List.getElem?_eq_some_iff.mp hslash
      have hrest : rest.drop 64 = slash :: rest.drop 65 := by
        rw [← hbyte]
        exact drop_eq_getElem_cons hlt
      have hend : (rest.drop 65).take 64 = rest.drop 65 := by
        apply take_of_length_le
        rw [length_drop]
        simp only [length_cons] at hlength
        omega
      simp only [drop_succ_cons, drop_zero] at hfirst hsecond
      rw [hend] at hsecond
      rw [buildPath, ← hfirst, ← hsecond, cons_append, ← hrest, take_append_drop]
    · cases h
  rintro rfl
  have hlength : (buildPath token nonce).length = h2PathLength := by
    rw [buildPath, length_append, length_cons, length_cons, htoken, hnonce, h2PathLength]
    omega
  have hslash : (buildPath token nonce)[1 + h2TokenHexLength]? = some slash := by
    rw [buildPath, getElem?_append_right (by rw [length_cons, htoken]; omega),
      length_cons, htoken, Nat.add_comm, Nat.sub_self]
    rfl
  have hfirst : ((buildPath token nonce).drop 1).take h2TokenHexLength = hexLower token.1 := by
    rw [buildPath, cons_append, drop_one, tail_cons, take_left' htoken]
  have hsecond : ((buildPath token nonce).drop (2 + h2TokenHexLength)).take
      h2NonceHexLength = hexLower nonce.1 := by
    have hsplit : buildPath token nonce =
        (slash :: hexLower token.1 ++ [slash]) ++ hexLower nonce.1 := by simp [buildPath]
    have hdrop : (buildPath token nonce).drop (2 + h2TokenHexLength) = hexLower nonce.1 := by
      rw [hsplit]
      refine drop_left' ?_
      rw [length_append, length_cons, htoken, length_singleton]
      omega
    rw [hdrop, take_of_length_le (Nat.le_of_eq hnonce)]
  have hhead : (buildPath token nonce).head? = some slash := rfl
  rw [parsePath, if_neg (by simp [hlength, hhead, hslash]),
    decodeHexArray_eq_some_iff.mpr hfirst, decodeHexArray_eq_some_iff.mpr hsecond]

theorem asciiLower_idem (byte : UInt8) : asciiLower (asciiLower byte) = asciiLower byte := by
  have hlowered : 65 ≤ byte ∧ byte ≤ 90 → ¬ (65 ≤ byte + 32 ∧ byte + 32 ≤ 90) := by
    rw [UInt8.le_iff_toNat_le, UInt8.le_iff_toNat_le, UInt8.le_iff_toNat_le,
      UInt8.le_iff_toNat_le, UInt8.toNat_add]
    simp only [UInt8.reduceToNat]
    omega
  unfold asciiLower
  by_cases hupper : 65 ≤ byte ∧ byte ≤ 90
  · rw [if_pos hupper, if_neg (hlowered hupper)]
  · rw [if_neg hupper, if_neg hupper]

/-- The canonical form of a server name is its own canonical form. -/
theorem canonicalize_canonical {name canonical : Bytes}
    (h : canonicalizeServerName name = some canonical) :
    DnsName canonical ∧ canonicalizeServerName canonical = some canonical := by
  rw [canonicalizeServerName_iff] at h
  obtain ⟨hname, rfl⟩ := h
  have hmap : (name.map asciiLower).map asciiLower = name.map asciiLower := by
    rw [map_map]
    exact map_congr_left fun byte _ => asciiLower_idem byte
  refine ⟨hname, ?_⟩
  rw [canonicalizeServerName_iff, hmap]
  exact ⟨hname, rfl⟩

/-- The input of the keyed hash, for a canonical name and an exporter. -/
theorem encodeAdmissionInput_eq_some_iff {name exporter input : Bytes} :
    encodeAdmissionInput name exporter nonce = some input ↔
      ∃ canonical, canonicalizeServerName name = some canonical ∧
        exporter.length = admissionExporterBytes ∧
        input = beBytes 2 admissionDomain.length ++ admissionDomain ++
          beBytes 2 canonical.length ++ canonical ++ beBytes 2 exporter.length ++ exporter ++
          nonce.1 := by
  have hdomain : ¬ admissionDomain.length > 2 ^ 16 - 1 := by
    simp [admissionDomain, textU8]
  unfold encodeAdmissionInput
  by_cases hexporter : exporter.length = admissionExporterBytes
  · rw [if_neg (by simp only [hexporter, ne_eq, not_true, false_or]; exact hdomain)]
    cases canonicalizeServerName name with
    | none => simp
    | some => simp [hexporter, eq_comm]
  rw [if_pos (.inl hexporter)]
  simp [hexporter]

/-- Two inputs are equal only where name, exporter and nonce are. -/
theorem encodeAdmissionInput_inj {name other exporter otherExporter input : Bytes}
    {otherNonce : Nonce} (h : encodeAdmissionInput name exporter nonce = some input)
    (hother : encodeAdmissionInput other otherExporter otherNonce = some input) :
    canonicalizeServerName name = canonicalizeServerName other ∧ exporter = otherExporter ∧
      nonce = otherNonce := by
  obtain ⟨canonical, hcanonical, hsize, rfl⟩ := encodeAdmissionInput_eq_some_iff.mp h
  obtain ⟨canonical', hcanonical', hsize', heq⟩ := encodeAdmissionInput_eq_some_iff.mp hother
  have hlength := (canonicalize_canonical hcanonical).1.1
  have hlength' := (canonicalize_canonical hcanonical').1.1
  simp only [maxDnsNameBytes] at hlength hlength'
  simp only [append_assoc, append_cancel_left_eq] at heq
  obtain ⟨hcount, heq⟩ := append_inj heq (by simp)
  obtain ⟨hname, heq⟩ := append_inj heq (beBytes_inj (by omega) (by omega) hcount)
  obtain ⟨-, heq⟩ := append_inj heq (by simp)
  obtain ⟨hexporter, hnonce⟩ := append_inj heq (by rw [hsize, hsize'])
  exact ⟨by rw [hcanonical, hcanonical', hname], hexporter, Subtype.ext hnonce⟩

end Paths

section Authorities

variable {literals : Ipv6Literals} {host canonical authority : Bytes} {port : Option UInt16}

/-- Dropping trailing dots leaves a front and some dots. -/
theorem eq_stripDots_append (host : Bytes) :
    ∃ dots, host = stripDots host ++ List.replicate dots dot := by
  fun_induction stripDots host with
  | case1 host hdot ih =>
    obtain ⟨dots, hdots⟩ := ih
    obtain ⟨front, rfl⟩ := getLast?_eq_some_iff.mp hdot.2
    rw [dropLast_concat] at hdots ⊢
    refine ⟨dots + 1, ?_⟩
    rw [replicate_succ', ← append_assoc, ← hdots]
  | case2 host => exact ⟨0, by simp⟩

/-- All trailing dots are dropped, and no other byte. -/
theorem stripDots_append (hne : canonical ≠ []) (hlast : canonical.getLast? ≠ some dot)
    (dots : Nat) : stripDots (canonical ++ List.replicate dots dot) = canonical := by
  induction dots with
  | zero =>
    rw [replicate_zero, append_nil, stripDots, if_neg fun h => hlast h.2]
  | succ dots ih =>
    have hpositive := length_pos_of_ne_nil hne
    rw [replicate_succ', ← append_assoc, stripDots, if_pos, dropLast_concat, ih]
    rw [getLast?_concat, length_append, length_append, length_singleton]
    exact ⟨by omega, rfl⟩

theorem mem_intercalate {labels : List Bytes} {byte : UInt8} (h : byte ∈ [dot].intercalate labels) :
    byte = dot ∨ ∃ label ∈ labels, byte ∈ label := by
  induction labels with
  | nil => simp at h
  | cons label rest ih =>
    cases rest with
    | nil => exact .inr ⟨label, by simp, by simpa using h⟩
    | cons next rest =>
      rw [intercalate_cons_cons] at h
      simp only [mem_append, mem_singleton] at h
      rcases h with (hlabel | hdot) | hrest
      · exact .inr ⟨label, by simp, hlabel⟩
      · exact .inl hdot
      rcases ih hrest with hdot | ⟨other, hother, hmem⟩
      · exact .inl hdot
      · exact .inr ⟨other, mem_cons_of_mem _ hother, hmem⟩

/-- The letters of a name in the grammar. -/
theorem dnsName_letters (h : DnsName canonical) : ∀ byte ∈ canonical,
    isLowerAlphanumeric byte = true ∨ byte = hyphen ∨ byte = dot := by
  obtain ⟨-, labels, -, hlabels, rfl⟩ := h
  intro byte hbyte
  rcases mem_intercalate hbyte with hdot | ⟨label, hlabel, hmem⟩
  · exact .inr (.inr hdot)
  rcases (hlabels label hlabel).letters byte hmem with hletter | hhyphen
  · exact .inl hletter
  · exact .inr (.inl hhyphen)

/-- A byte that is lowered to a letter of the grammar has no other meaning in an
authority. -/
theorem plain_byte {byte : UInt8} (h : isLowerAlphanumeric (asciiLower byte) = true ∨
    asciiLower byte = hyphen ∨ asciiLower byte = dot) :
    isForbidden byte = false ∧ byte ≠ colon ∧ byte ≠ openBracket := by
  simp only [isLowerAlphanumeric, asciiLower, isForbidden, hyphen, dot, colon, openBracket, slash,
    Bool.or_eq_true, Bool.and_eq_true, decide_eq_true_eq, Bool.or_eq_false_iff,
    beq_eq_false_iff_ne, decide_eq_false_iff_not, ne_eq, UInt8.le_iff_toNat_le,
    ← UInt8.toNat_inj] at h ⊢
  split_ifs at h
  · simp only [UInt8.toNat_add, UInt8.reduceToNat] at *
    omega
  simp only [UInt8.reduceToNat] at *
  omega

/-- A spelling of a host: its letters in any case, then any number of dots. -/
def SpellsHost (canonical host : Bytes) : Prop :=
  ∃ spelled dots, spelled.map asciiLower = canonical ∧ host = spelled ++ List.replicate dots dot

theorem SpellsHost.plain (hname : DnsName canonical) (h : SpellsHost canonical host) :
    host ≠ [] ∧ ∀ byte ∈ host, isForbidden byte = false ∧ byte ≠ colon ∧ byte ≠ openBracket := by
  obtain ⟨spelled, dots, rfl, rfl⟩ := h
  refine ⟨fun hempty => hname.ne_nil (by simp_all), fun byte hbyte => plain_byte ?_⟩
  rcases mem_append.mp hbyte with hspelled | hdot
  · exact dnsName_letters hname _ (mem_map_of_mem hspelled)
  rw [eq_of_mem_replicate hdot]
  exact .inr (.inr (by decide))

/-- The hosts that normalize to a name of the grammar. -/
theorem normalizeHost_eq_some_iff (hname : DnsName canonical) (hshort : host.length ≤ 2 ^ 16 - 1) :
    normalizeHost literals host false = some canonical ↔ SpellsHost canonical host := by
  obtain ⟨hne, -, hlast⟩ := no_outer_dot (dnsName_iff.mp hname).2
  constructor
  · intro h
    simp only [normalizeHost, Bool.false_eq_true, if_false] at h
    split_ifs at h
    rw [Option.some.injEq] at h
    obtain ⟨dots, hdots⟩ := eq_stripDots_append (host.map asciiLower)
    rw [h] at hdots
    obtain ⟨spelled, tail, rfl, hspelled, htail⟩ := map_eq_append_iff.mp hdots
    refine ⟨spelled, dots, hspelled, ?_⟩
    rw [append_cancel_left_eq]
    rw [eq_replicate_iff]
    have hlength := congrArg List.length htail
    rw [length_map, length_replicate] at hlength
    refine ⟨hlength, fun byte hbyte => asciiLower_eq_dot.mp ?_⟩
    exact eq_of_mem_replicate (htail ▸ mem_map_of_mem hbyte)
  intro h
  obtain ⟨hnonempty, hplain⟩ := h.plain hname
  obtain ⟨spelled, dots, rfl, rfl⟩ := h
  have hallowed : (spelled ++ List.replicate dots dot).any isForbidden = false :=
    any_eq_false.mpr fun byte hbyte => by simp [(hplain byte hbyte).1]
  have hlower : asciiLower dot = dot := by decide
  have hgood : ¬ ((spelled ++ List.replicate dots dot).isEmpty ∨
      (spelled ++ List.replicate dots dot).length > 2 ^ 16 - 1 ∨
      (spelled ++ List.replicate dots dot).any isForbidden) := by
    rw [hallowed, List.isEmpty_iff]
    exact fun hbad => hbad.elim hnonempty fun hbad =>
      hbad.elim (Nat.not_lt.mpr hshort) Bool.false_ne_true
  simp only [normalizeHost, Bool.false_eq_true, if_false]
  rw [if_neg hgood, map_append, map_replicate, hlower, stripDots_append hne hlast]

/-- A host, then a port or nothing. -/
def NamesHost (canonical authority : Bytes) (port : Option UInt16) : Prop :=
  ∃ host suffix, SpellsHost canonical host ∧ authority = host ++ suffix ∧
    parseSuffix suffix = some port

theorem parsePort_digits {text : Bytes} {port : UInt16} (h : parsePort text = some port) :
    colon ∉ text := by
  unfold parsePort at h
  split_ifs at h with hbad
  simp only [not_or, not_not, all_eq_true] at hbad
  intro hmem
  have hdigit := hbad.2 colon hmem
  revert hdigit
  decide

theorem normalizeHost_ipv6 (hname : DnsName canonical) :
    normalizeHost literals host true ≠ some canonical := by
  intro h
  simp only [normalizeHost, if_true] at h
  split_ifs at h
  have hcolon := dnsName_letters hname _ (literals.colon_mem h)
  revert hcolon
  decide

/-- The authorities that name a host of the grammar. -/
theorem parseAuthority_eq_some_iff (hname : DnsName canonical)
    (hshort : authority.length ≤ 2 ^ 16 - 1) (allowUnbracketedIpv6 : Bool) :
    parseAuthority literals authority allowUnbracketedIpv6 = some ⟨canonical, port⟩ ↔
      NamesHost canonical authority port := by
  constructor
  · intro h
    unfold parseAuthority at h
    split at h
    · cases h
    split at h
    · split at h
      · cases h
      split at h
      · cases h
      simp only [Option.map_eq_some_iff, ParsedAuthority.mk.injEq] at h
      obtain ⟨text, htext, rfl, -⟩ := h
      exact absurd htext (normalizeHost_ipv6 hname)
    split at h
    · simp only [Option.map_eq_some_iff, ParsedAuthority.mk.injEq] at h
      obtain ⟨text, htext, rfl, rfl⟩ := h
      exact ⟨authority, [], (normalizeHost_eq_some_iff hname hshort).mp htext, by simp, rfl⟩
    rename_i byte after hafter
    have hcolon : byte = colon := by
      have := head?_dropWhile_not (· != colon) authority
      simpa [hafter] using this
    have hsplit : authority = authority.takeWhile (· != colon) ++ byte :: after := by
      rw [← hafter, takeWhile_append_dropWhile]
    by_cases honce : colon ∉ after
    · rw [if_pos honce] at h
      split at h
      · cases h
      rename_i hnumber
      simp only [Option.map_eq_some_iff, ParsedAuthority.mk.injEq] at h
      obtain ⟨text, htext, rfl, rfl⟩ := h
      have hlength : (authority.takeWhile (· != colon)).length ≤ 2 ^ 16 - 1 :=
        (takeWhile_sublist _).length_le.trans hshort
      refine ⟨_, _, (normalizeHost_eq_some_iff hname hlength).mp htext, hsplit, ?_⟩
      rw [hcolon, parseSuffix, if_neg (not_not.mpr rfl), hnumber]
    rw [if_neg honce] at h
    split_ifs at h
    simp only [Option.map_eq_some_iff, ParsedAuthority.mk.injEq] at h
    obtain ⟨text, htext, rfl, -⟩ := h
    exact absurd htext (normalizeHost_ipv6 hname)
  rintro ⟨host, suffix, hspells, rfl, hsuffix⟩
  obtain ⟨hnonempty, hplain⟩ := hspells.plain hname
  have hlength : host.length ≤ 2 ^ 16 - 1 := by
    rw [length_append] at hshort
    omega
  have hhost : normalizeHost literals host false = some canonical :=
    (normalizeHost_eq_some_iff hname hlength).mpr hspells
  have hempty : ¬ (host ++ suffix).isEmpty := by simp [hnonempty]
  have hbracket : (host ++ suffix).head? ≠ some openBracket := by
    obtain ⟨first, rest, rfl⟩ := exists_cons_of_ne_nil hnonempty
    simpa using (hplain first mem_cons_self).2.2
  have hnone : ∀ byte ∈ host, (byte != colon) = true := fun byte hbyte =>
    bne_iff_ne.mpr (hplain byte hbyte).2.1
  rw [parseAuthority, if_neg hempty, if_neg hbracket]
  cases suffix with
  | nil =>
    cases hsuffix
    rw [append_nil, dropWhile_eq_nil_iff.mpr hnone]
    simp [hhost]
  | cons byte text =>
    rw [parseSuffix] at hsuffix
    split_ifs at hsuffix with hcolon
    split at hsuffix
    · cases hsuffix
    rename_i hnumber
    cases hsuffix
    rw [not_not] at hcolon
    subst hcolon
    rw [dropWhile_append_of_pos hnone, takeWhile_append_of_pos hnone]
    simp [parsePort_digits hnumber, hnumber, hhost]

end Authorities

section Admission

variable {hmac literals} {key authority sni exporter path canonical : Bytes} {nonce : Nonce}
  {listenerPort : Option UInt16}

/-- The token is derived from the canonical form of the name. -/
theorem deriveAdmissionToken_canonical (h : canonicalizeServerName sni = some canonical) :
    deriveAdmissionToken hmac key sni exporter nonce =
      deriveAdmissionToken hmac key canonical exporter nonce := by
  simp only [deriveAdmissionToken, encodeAdmissionInput, h, (canonicalize_canonical h).2]

theorem canonicalize_of_derive {token : Token}
    (h : deriveAdmissionToken hmac key sni exporter nonce = some token) :
    ∃ canonical, canonicalizeServerName sni = some canonical := by
  unfold deriveAdmissionToken at h
  split_ifs at h
  split at h
  · cases h
  rename_i hinput
  obtain ⟨canonical, hcanonical, -⟩ := encodeAdmissionInput_eq_some_iff.mp hinput
  exact ⟨canonical, hcanonical⟩

theorem buildAdmissionPath_eq_some_iff :
    buildAdmissionPath hmac key sni exporter nonce = some path ↔
      ∃ token, deriveAdmissionToken hmac key sni exporter nonce = some token ∧
        path = buildPath token nonce := by
  unfold buildAdmissionPath
  cases deriveAdmissionToken hmac key sni exporter nonce with
  | none => simp
  | some => simp [eq_comm]

/-- A short authority matches a server name exactly when it names its canonical
form with a port that the listener allows. -/
theorem authorityMatchesTlsSni_iff (h : canonicalizeServerName sni = some canonical)
    (hshort : authority.length ≤ maxServerNameBytes + 6) :
    authorityMatchesTlsSni literals authority sni listenerPort = true ↔
      ∃ port, NamesHost canonical authority port ∧ portAllowed port listenerPort = true := by
  obtain ⟨hname, -⟩ := canonicalize_canonical h
  have hlower := (canonicalizeServerName_iff sni canonical).mp h
  have hlength : sni.length ≤ 2 ^ 16 - 1 := by
    have hbound := hlower.1.1
    rw [length_map] at hbound
    simp only [maxDnsNameBytes] at hbound
    omega
  have hbound : authority.length ≤ 2 ^ 16 - 1 := hshort.trans (by decide)
  have hspells : NamesHost canonical sni none :=
    ⟨sni, [], ⟨sni, 0, hlower.2.symm, by simp⟩, by simp, rfl⟩
  have hsni : parseAuthority literals sni true = some ⟨canonical, none⟩ :=
    (parseAuthority_eq_some_iff hname hlength true).mpr hspells
  unfold authorityMatchesTlsSni
  rw [hsni]
  constructor
  · intro hmatch
    cases hparsed : parseAuthority literals authority false with
    | none =>
      rw [hparsed] at hmatch
      cases hmatch
    | some parsed =>
      obtain ⟨host, port⟩ := parsed
      simp only [hparsed, Bool.and_eq_true, beq_iff_eq] at hmatch
      obtain ⟨⟨rfl, hport⟩, -⟩ := hmatch
      exact ⟨port, (parseAuthority_eq_some_iff hname hbound false).mp hparsed, hport⟩
  · rintro ⟨port, hnames, hport⟩
    rw [(parseAuthority_eq_some_iff hname hbound false).mpr hnames]
    simp only [beq_self_eq_true, hport, Bool.and_self, Bool.true_and]
    rfl

/-- The requests that are admitted. -/
theorem verifyAdmissionPath_iff :
    verifyAdmissionPath hmac literals key authority sni exporter path listenerPort = true ↔
      ∃ canonical nonce port, canonicalizeServerName sni = some canonical ∧
        buildAdmissionPath hmac key canonical exporter nonce = some path ∧
        (∃ token, parsePath path = some ⟨token, nonce⟩) ∧
        authority.length ≤ maxServerNameBytes + 6 ∧ NamesHost canonical authority port ∧
        portAllowed port listenerPort = true := by
  constructor
  · intro h
    unfold verifyAdmissionPath at h
    split_ifs at h with hbad
    simp only [not_or, not_not, gt_iff_lt, Nat.not_lt] at hbad
    obtain ⟨hshort, hmatch⟩ := hbad
    split at h
    · cases h
    rename_i parsed hparsed
    split at h
    · cases h
    rename_i hexpected
    rw [beq_iff_eq] at h
    subst h
    obtain ⟨canonical, hcanonical⟩ := canonicalize_of_derive hexpected
    obtain ⟨port, hnames, hport⟩ := (authorityMatchesTlsSni_iff hcanonical hshort).mp hmatch
    refine ⟨canonical, parsed.nonce, port, hcanonical, ?_, ⟨_, hparsed⟩, hshort, hnames, hport⟩
    rw [deriveAdmissionToken_canonical hcanonical] at hexpected
    exact buildAdmissionPath_eq_some_iff.mpr ⟨_, hexpected, parsePath_eq_some_iff.mp hparsed⟩
  · rintro ⟨canonical, nonce, port, hcanonical, hbuild, -, hshort, hnames, hport⟩
    obtain ⟨token, htoken, rfl⟩ := buildAdmissionPath_eq_some_iff.mp hbuild
    have hmatch : authorityMatchesTlsSni literals authority sni listenerPort = true :=
      (authorityMatchesTlsSni_iff hcanonical hshort).mpr ⟨port, hnames, hport⟩
    rw [← deriveAdmissionToken_canonical hcanonical] at htoken
    rw [verifyAdmissionPath, if_neg (by simp [hmatch, hshort]), parsePath_eq_some_iff.mpr rfl]
    simp [htoken]

end Admission

/-- Exactly the built paths with a fitting authority of at most 259 bytes are
admitted, each nonce has one spelling, and the keyed hash never sees the same
input for two requests. -/
theorem admission_path_exact :
    (∀ key authority sni exporter path listenerPort,
      verifyAdmissionPath hmac literals key authority sni exporter path listenerPort = true ↔
        ∃ canonical nonce port, canonicalizeServerName sni = some canonical ∧
          buildAdmissionPath hmac key canonical exporter nonce = some path ∧
          (∃ token, parsePath path = some ⟨token, nonce⟩) ∧
          authority.length ≤ maxServerNameBytes + 6 ∧ NamesHost canonical authority port ∧
          portAllowed port listenerPort = true) ∧
    (∀ key authority sni exporter path listenerPort otherAuthority otherPath otherPort
        (parsed other : ParsedPath),
      verifyAdmissionPath hmac literals key authority sni exporter path listenerPort = true →
      verifyAdmissionPath hmac literals key otherAuthority sni exporter otherPath otherPort =
        true →
      parsePath path = some parsed → parsePath otherPath = some other →
      parsed.nonce = other.nonce → path = otherPath) ∧
    (∀ name other exporter otherExporter (nonce otherNonce : Nonce) input,
      encodeAdmissionInput name exporter nonce = some input →
      encodeAdmissionInput other otherExporter otherNonce = some input →
      canonicalizeServerName name = canonicalizeServerName other ∧
        exporter = otherExporter ∧ nonce = otherNonce) := by
  refine ⟨fun _ _ _ _ _ _ => verifyAdmissionPath_iff, ?_,
    fun _ _ _ _ _ _ _ => encodeAdmissionInput_inj⟩
  intro key authority sni exporter path listenerPort otherAuthority otherPath otherPort parsed
    other hverify hother hparsed hparsedOther hnonce
  obtain ⟨canonical, nonce, -, hcanonical, hbuild, -⟩ := verifyAdmissionPath_iff.mp hverify
  obtain ⟨canonical', nonce', -, hcanonical', hbuild', -⟩ := verifyAdmissionPath_iff.mp hother
  cases hcanonical.symm.trans hcanonical'
  obtain ⟨token, htoken, rfl⟩ := buildAdmissionPath_eq_some_iff.mp hbuild
  obtain ⟨token', htoken', rfl⟩ := buildAdmissionPath_eq_some_iff.mp hbuild'
  cases (parsePath_eq_some_iff.mpr rfl).symm.trans hparsed
  cases (parsePath_eq_some_iff.mpr rfl).symm.trans hparsedOther
  cases hnonce
  cases htoken.symm.trans htoken'
  rfl

def sampleHmac (_key _input : Bytes) : Token :=
  ⟨List.replicate h2TokenBytes 7, List.length_replicate⟩

def noLiterals : Ipv6Literals := ⟨fun _ => none, nofun⟩

def sampleKey : Bytes := List.replicate 32 1

theorem sampleName_canonical : canonicalizeServerName [97] = some [97] :=
  (canonicalizeServerName_iff _ _).mpr ⟨(isCanonicalDnsName_iff [97]).mp (by decide), by decide⟩

def samplePath : Bytes := buildPath (sampleHmac [] []) sampleNonce

/-- The two spellings of one name give one input. -/
theorem sampleInput_shared : ∃ input, encodeAdmissionInput [97] sampleKey sampleNonce = some input ∧
      encodeAdmissionInput [65] sampleKey sampleNonce = some input := by
  have hupper : canonicalizeServerName [65] = some [97] :=
    (canonicalizeServerName_iff _ _).mpr ⟨(isCanonicalDnsName_iff [97]).mp (by decide), by decide⟩
  have hexporter : sampleKey.length = admissionExporterBytes := rfl
  exact ⟨_, encodeAdmissionInput_eq_some_iff.mpr ⟨[97], sampleName_canonical, hexporter, rfl⟩,
    encodeAdmissionInput_eq_some_iff.mpr ⟨[97], hupper, hexporter, rfl⟩⟩

theorem samplePath_built :
    buildAdmissionPath sampleHmac sampleKey [97] sampleKey sampleNonce = some samplePath := by
  obtain ⟨input, hinput, -⟩ := sampleInput_shared
  have htoken : deriveAdmissionToken sampleHmac sampleKey [97] sampleKey sampleNonce =
      some (sampleHmac sampleKey input) := by
    rw [deriveAdmissionToken, if_neg (by decide), hinput]
  exact buildAdmissionPath_eq_some_iff.mpr ⟨_, htoken, rfl⟩

theorem sampleAuthority_names (dots : Nat) : NamesHost [97] (97 :: List.replicate dots dot) none :=
  ⟨_, [], ⟨[97], dots, by decide, rfl⟩, by simp, rfl⟩

theorem sampleAuthority_admitted (listenerPort : Option UInt16) :
    verifyAdmissionPath sampleHmac noLiterals sampleKey [97] [97] sampleKey samplePath
      listenerPort = true :=
  verifyAdmissionPath_iff.mpr ⟨[97], sampleNonce, none, sampleName_canonical, samplePath_built,
    ⟨_, parsePath_eq_some_iff.mpr rfl⟩, by decide, sampleAuthority_names 0,
    by cases listenerPort <;> rfl⟩

/-- Every admitted path with the sample's nonce is the sample's path. -/
theorem admission_path_exact_sample :
    (∀ port, verifyAdmissionPath sampleHmac noLiterals sampleKey [97] [97] sampleKey samplePath
        port = true) ∧
      (∀ path parsed, verifyAdmissionPath sampleHmac noLiterals sampleKey [97] [97] sampleKey path
        (some 443) = true → parsePath path = some parsed → parsed.nonce = sampleNonce →
        path = samplePath) ∧
      canonicalizeServerName [97] = canonicalizeServerName [65] := by
  obtain ⟨-, hspelling, hinput⟩ := admission_path_exact sampleHmac noLiterals
  obtain ⟨input, hlower, hupper⟩ := sampleInput_shared
  refine ⟨sampleAuthority_admitted, fun path parsed hverify hparsed hnonce => ?_, ?_⟩
  · exact hspelling _ _ _ _ _ _ _ _ _ _ _ hverify (sampleAuthority_admitted none) hparsed
      (parsePath_eq_some_iff.mpr rfl) hnonce
  · exact (hinput _ _ _ _ _ _ _ hlower hupper).1

/-- The built path for the same host is refused when the host is followed by
300 dots, which the normalization would remove. -/
theorem long_authority_refused :
    canonicalizeServerName [97] = some [97] ∧
      buildAdmissionPath sampleHmac sampleKey [97] sampleKey sampleNonce = some samplePath ∧
      NamesHost [97] (97 :: List.replicate 300 dot) none ∧ portAllowed none none = true ∧
      verifyAdmissionPath sampleHmac noLiterals sampleKey (97 :: List.replicate 300 dot) [97]
        sampleKey samplePath none = false := by
  refine ⟨sampleName_canonical, samplePath_built, sampleAuthority_names 300, rfl, ?_⟩
  have hlong : (97 :: List.replicate 300 dot).length > maxServerNameBytes + 6 := by
    rw [length_cons, length_replicate]
    decide
  rw [verifyAdmissionPath, if_pos (.inl hlong)]

end Yume.Admission
