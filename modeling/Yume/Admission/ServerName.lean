/-
The TLS server names of the HTTP/2 admission, in the DNS grammar that OPEN
destinations and routes use.
-/
import Yume.Ytp.DnsNames

namespace Yume.Admission

open Yume.Lib Yume.Ytp List

def maxServerNameBytes : Nat := 253

/-- The lower-casing of `canonicalize_ytp1_h2_server_name`. -/
def asciiLower (byte : UInt8) : UInt8 :=
  if 65 ≤ byte ∧ byte ≤ 90 then byte + 32 else byte

/-- The loop of `canonicalize_ytp1_h2_server_name` from one label on.  It ends
when the name does. -/
def serverLabels (rest : Bytes) : Bool :=
  if rest.isEmpty then true
  else if (rest.takeWhile (· != dot)).length = 0 ∨ (rest.takeWhile (· != dot)).length > 63 ∨
      (rest.takeWhile (· != dot)).head? = some hyphen ∨
      (rest.takeWhile (· != dot)).getLast? = some hyphen then false
  else if ¬ (rest.takeWhile (· != dot)).all fun byte =>
      isLowerAlphanumeric byte || byte == hyphen then false
  else
    match _hafter : rest.dropWhile (· != dot) with
    | [] => true
    | _ :: tail => serverLabels tail
termination_by rest.length
decreasing_by
  have hle := (List.dropWhile_sublist (· != dot) (l := rest)).length_le
  rw [_hafter, List.length_cons] at hle
  omega

/-- `canonicalize_ytp1_h2_server_name`. -/
def canonicalizeServerName (name : Bytes) : Option Bytes :=
  if name.isEmpty ∨ name.length > maxServerNameBytes ∨ name.head? = some dot ∨
      name.getLast? = some dot then none
  else if serverLabels (name.map asciiLower) then some (name.map asciiLower)
  else none

section Scan

variable {rest label : Bytes}

theorem dnsLabel_iff : DnsLabel label ↔ ¬ (label.length = 0 ∨ label.length > 63 ∨
    label.head? = some hyphen ∨ label.getLast? = some hyphen) ∧
      (label.all fun byte => isLowerAlphanumeric byte || byte == hyphen) = true := by
  simp only [not_or, length_eq_zero_iff, gt_iff_lt, Nat.not_lt, all_eq_true,
    Bool.or_eq_true, beq_iff_eq]
  constructor
  · intro h
    exact ⟨⟨h.nonempty, h.length, h.first, h.last⟩, h.letters⟩
  rintro ⟨⟨hne, hlength, hfirst, hlast⟩, hletters⟩
  exact ⟨hne, hlength, hletters, hfirst, hlast⟩

/-- The index scan checks the pieces of a name that does not end with a dot. -/
theorem serverLabels_iff (rest : Bytes) (hne : rest ≠ []) (hlast : rest.getLast? ≠ some dot) :
    serverLabels rest = true ↔ ∀ label ∈ rest.splitOn dot, DnsLabel label := by
  fun_induction serverLabels rest with
  | case1 rest hempty => exact absurd (List.isEmpty_iff.mp hempty) hne
  | case2 rest _ hbad =>
    rw [splitOn_dot, forall_mem_cons, dnsLabel_iff]
    exact iff_of_false Bool.false_ne_true fun hall => hall.1.1 hbad
  | case3 rest _ _ hletters =>
    rw [splitOn_dot, forall_mem_cons, dnsLabel_iff]
    exact iff_of_false Bool.false_ne_true fun hall => hletters hall.1.2
  | case4 rest _ hgood hletters hafter =>
    rw [splitOn_dot, hafter, forall_mem_cons, dnsLabel_iff]
    exact iff_of_true rfl ⟨⟨hgood, not_not.mp hletters⟩, by simp⟩
  | case5 rest _ hgood hletters byte tail hafter ih =>
    have hsplit : rest = rest.takeWhile (· != dot) ++ byte :: tail := by
      rw [← hafter, takeWhile_append_dropWhile]
    have hdot : byte = dot := by
      have := head?_dropWhile_not (· != dot) rest
      simpa [hafter] using this
    -- a name that ends with the dot was excluded, so another label follows
    have htail : tail ≠ [] := by
      rintro rfl
      rw [hsplit, hdot, getLast?_concat] at hlast
      exact hlast rfl
    have hend : tail.getLast? ≠ some dot := by
      obtain ⟨front, last, rfl⟩ := (eq_nil_or_concat' tail).resolve_left htail
      rw [hsplit, ← cons_append, ← append_assoc, getLast?_concat] at hlast
      rwa [getLast?_concat]
    rw [splitOn_dot, hafter, forall_mem_cons, dnsLabel_iff, ih htail hend]
    exact (and_iff_right ⟨hgood, not_not.mp hletters⟩).symm

end Scan

theorem asciiLower_eq_dot {byte : UInt8} : asciiLower byte = dot ↔ byte = dot := by
  unfold asciiLower dot
  split
  · rename_i hupper
    simp only [UInt8.le_iff_toNat_le, ← UInt8.toNat_inj, UInt8.toNat_add] at hupper ⊢
    simp at hupper ⊢
    omega
  · exact Iff.rfl

theorem canonicalizeServerName_iff (name canonical : Bytes) :
    canonicalizeServerName name = some canonical ↔
      DnsName (name.map asciiLower) ∧ canonical = name.map asciiLower := by
  have hends : ((name.map asciiLower).head? = some dot ↔ name.head? = some dot) ∧
      ((name.map asciiLower).getLast? = some dot ↔ name.getLast? = some dot) := by
    simp [head?_map, getLast?_map, asciiLower_eq_dot]
  rw [canonicalizeServerName, dnsName_iff, length_map]
  constructor
  · intro h
    split at h
    · cases h
    rename_i hcheck
    simp only [List.isEmpty_iff, not_or, gt_iff_lt, Nat.not_lt] at hcheck
    split at h <;> cases h
    rename_i hscan
    refine ⟨⟨hcheck.2.1, (serverLabels_iff _ ?_ ?_).mp hscan⟩, rfl⟩
    · simpa using hcheck.1
    · exact mt hends.2.mp hcheck.2.2.2
  rintro ⟨⟨hlength, hlabels⟩, rfl⟩
  obtain ⟨hne, hfirst, hlast⟩ := no_outer_dot hlabels
  have hname : name ≠ [] := by simpa using hne
  rw [if_neg, if_pos ((serverLabels_iff _ hne hlast).mpr hlabels)]
  simp only [List.isEmpty_iff, not_or, gt_iff_lt, Nat.not_lt]
  exact ⟨hname, hlength, mt hends.1.mpr hfirst, mt hends.2.mpr hlast⟩

/-- The three scanners of DNS names read one grammar, the server name in lower
case, and a decoded destination becomes a route and comes back unchanged. -/
theorem dns_grammars_agree :
    (∀ name, isCanonicalDnsName name = true ↔ DnsName name) ∧
    (∀ name, validDnsName name = true ↔ DnsName name) ∧
    (∀ name canonical, canonicalizeServerName name = some canonical ↔
      DnsName (name.map asciiLower) ∧ canonical = name.map asciiLower) ∧
    (∀ payload request, decodeOpen payload = .ok request →
      request.destination.transport ≠ .none →
      ∃ route, fromYtpDestination request.destination = .ok route ∧
        toYtpDestination route = request.destination) :=
  ⟨isCanonicalDnsName_iff, validDnsName_iff, canonicalizeServerName_iff,
    fun _ _ hdecoded hpresent =>
      (validateDestination_valid (decodeOpen_ok hdecoded).1.destination).2.route hpresent⟩

theorem dns_grammars_agree_sample :
    decodeOpen [1, 1, 1, 3, 0, 3, 0, 6, 97, 46, 98, 1, 187, 3, 120, 46, 121] =
        .ok sampleOpenRequest ∧
      ∃ route, fromYtpDestination sampleOpenRequest.destination = .ok route ∧
        toYtpDestination route = sampleOpenRequest.destination := by
  have hdecode : decodeOpen [1, 1, 1, 3, 0, 3, 0, 6, 97, 46, 98, 1, 187, 3, 120, 46, 121] =
      .ok sampleOpenRequest := by decide +kernel
  exact ⟨hdecode, dns_grammars_agree.2.2.2 _ _ hdecode (by decide)⟩

end Yume.Admission
