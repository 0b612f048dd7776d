/-
Egress lists: the ranges that list files name, swept into the table that a
destination is looked up in.

An address is the number its bytes spell, most significant first, so that arrays
compare as numbers do.  Ranges come from a list's networks, from a VPN database's
start and end addresses and from a country database.
-/
import Yume.Lib.Bytes
import Yume.Lib.Sweep
import Mathlib.Data.Nat.Size

namespace Yume.Egress

open Yume.Lib

inductive IpFamily where
  | v4
  | v6
deriving DecidableEq, Repr

namespace IpFamily

def addressBytes : IpFamily → Nat
  | .v4 => 4
  | .v6 => 16

def addressBits (family : IpFamily) : Nat := 8 * family.addressBytes

/-- The last address. -/
def top (family : IpFamily) : Nat := 2 ^ family.addressBits - 1

theorem addressBits_le (family : IpFamily) : family.addressBits ≤ 128 := by
  cases family <;> decide

end IpFamily

inductive EgressListAction where
  | allow
  | deny
deriving DecidableEq, Repr

/-- What a range says, and how specific it is. -/
structure Rule where
  specificity : Fin 129
  action : EgressListAction
deriving DecidableEq, Repr

/-- An `IpNetwork` as a list names it.  Every bit after the prefix is zero. -/
structure Network where
  family : IpFamily
  address : Nat
  prefixLength : Nat
  address_le : address ≤ family.top
  prefix_le : prefixLength ≤ family.addressBits
  host_bits : 2 ^ (family.addressBits - prefixLength) ∣ address
deriving DecidableEq

/-- `shared_prefix`: how many leading bits two addresses have in common. -/
def sharedPrefix (family : IpFamily) (first last : Nat) : Nat :=
  family.addressBits - (first ^^^ last).size

/-- `with_host_bits`: an address with every bit after a prefix set. -/
def withHostBits (family : IpFamily) (address fromBit : Nat) : Nat :=
  address ||| (2 ^ (family.addressBits - fromBit) - 1)

/-! ### The count of open ranges -/

/-- `ActiveCounts`: how many open ranges there are of each specificity and
action, and which specificities occur. -/
structure ActiveCounts where
  counts : Nat → EgressListAction → Nat
  mask : Nat → Bool

namespace ActiveCounts

def empty : ActiveCounts := ⟨fun _ _ => 0, fun _ => false⟩

def total (active : ActiveCounts) (specificity : Nat) : Nat :=
  active.counts specificity .allow + active.counts specificity .deny

/-- A count replaced. -/
def setCount (active : ActiveCounts) (rule : Rule) (count : Nat) : ActiveCounts :=
  { active with
    counts := fun specificity action =>
      if specificity = rule.specificity.val ∧ action = rule.action then count
      else active.counts specificity action }

def setMask (active : ActiveCounts) (specificity : Nat) (occurs : Bool) : ActiveCounts :=
  { active with
    mask := fun other => if other = specificity then occurs else active.mask other }

def add (active : ActiveCounts) (rule : Rule) : ActiveCounts :=
  let marked :=
    if active.total rule.specificity = 0 then active.setMask rule.specificity true else active
  marked.setCount rule (active.counts rule.specificity rule.action + 1)

def remove (active : ActiveCounts) (rule : Rule) : ActiveCounts :=
  let counted := active.setCount rule (active.counts rule.specificity rule.action - 1)
  if counted.total rule.specificity = 0 then counted.setMask rule.specificity false else counted

/-- The highest bit of the mask below a bound. -/
def highest (mask : Nat → Bool) : Nat → Option Nat
  | 0 => none
  | bound + 1 => if mask bound then some bound else highest mask bound

/-- The mask has three words of 64 bits. -/
def best (active : ActiveCounts) : EgressListAction :=
  match highest active.mask (3 * 64) with
  | none => .deny
  | some specificity => if active.counts specificity .deny ≠ 0 then .deny else .allow

end ActiveCounts

/-- The sweep's use of `ActiveCounts`. -/
def activeCounts : Sweep.Summary Rule EgressListAction ActiveCounts where
  empty := .empty
  add := .add
  remove := .remove
  value := ActiveCounts.best

abbrev Range := Sweep.Range Rule
abbrev Segment := Sweep.Segment EgressListAction

/-- `EgressListBuilder::flatten`. -/
def flatten (ranges : List Range) (family : IpFamily) : List Segment :=
  Sweep.sweep activeCounts family.top
    (ranges.insertionSort fun left right => left.first ≤ right.first)

/-! ### The builder -/

/-- `kMaxEgressListRanges`. -/
def maxEgressListRanges : Nat := 2 * 1024 * 1024

/-- One range that a file adds. -/
inductive Addition where
  | network (network : Network) (action : EgressListAction)
  /-- From an address to another one of a VPN database. -/
  | span (family : IpFamily) (first last : Nat) (action : EgressListAction)
  | country (family : IpFamily) (first last : Nat) (action : EgressListAction)
deriving DecidableEq

namespace Addition

def family : Addition → IpFamily
  | .network listed _ => listed.family
  | .span family _ _ _ => family
  | .country family _ _ _ => family

/-- The range that is stored. -/
def range : Addition → Range
  | .network listed action =>
    ⟨listed.address, withHostBits listed.family listed.address listed.prefixLength,
      ⟨Fin.ofNat 129 listed.prefixLength, action⟩⟩
  | .span family first last action =>
    ⟨first, last, ⟨Fin.ofNat 129 (sharedPrefix family first last), action⟩⟩
  | .country _ first last action => ⟨first, last, ⟨0, action⟩⟩

/-- The addresses are of the family, and a range does not end before it starts. -/
def Valid : Addition → Prop
  | .network _ _ => True
  | .span family first last _ => first ≤ last ∧ last ≤ family.top
  | .country family first last _ => first ≤ last ∧ last ≤ family.top

instance (addition : Addition) : Decidable addition.Valid := by
  cases addition <;> unfold Valid <;> infer_instance

end Addition

structure EgressListBuilder where
  v4 : List Range
  v6 : List Range
deriving DecidableEq

structure EgressListRules where
  v4 : List Segment
  v6 : List Segment
deriving DecidableEq

namespace EgressListBuilder

def empty : EgressListBuilder := ⟨[], []⟩

/-- The ranges of one file in one family. -/
def rangesOf (family : IpFamily) (additions : List Addition) : List Range :=
  (additions.filter fun addition => decide (addition.family = family)).map Addition.range

/-- `take`: every range of a file, or nothing of it.  A range that ends before
it starts refuses the file. -/
def add (builder : EgressListBuilder) (additions : List Addition) : Option EgressListBuilder :=
  if maxEgressListRanges < builder.v4.length + builder.v6.length + additions.length ∨
      ¬(∀ addition ∈ additions, addition.Valid) then none
  else
    some ⟨builder.v4 ++ rangesOf .v4 additions, builder.v6 ++ rangesOf .v6 additions⟩

def build (builder : EgressListBuilder) : EgressListRules :=
  ⟨flatten builder.v4 .v4, flatten builder.v6 .v6⟩

/-- The files in order. -/
def addFiles : EgressListBuilder → List (List Addition) → Option EgressListBuilder
  | builder, [] => some builder
  | builder, file :: rest => (builder.add file).bind (addFiles · rest)

end EgressListBuilder

namespace EgressListRules

def segments (rules : EgressListRules) : IpFamily → List Segment
  | .v4 => rules.v4
  | .v6 => rules.v6

/-- `match`, with the partition point that the binary search finds. -/
def lookup (rules : EgressListRules) (family : IpFamily) (address : Bytes) :
    Option EgressListAction :=
  if address.length ≠ family.addressBytes then none
  else Sweep.lookup (rules.segments family) (beNat address)

end EgressListRules

end Yume.Egress
