/-
A lookup in egress lists finds the most specific range.

The count of open ranges stands for the rules it counts, so the sweep of the
builder's ranges is the table of `decision`, and the table decides a lookup.
-/
import Yume.Egress.Lists
import Mathlib.Data.Finset.Max
import Mathlib.Data.Nat.Bitwise

namespace Yume.Egress

open List

variable {family : IpFamily} {addition : Addition}

open Yume.Lib EgressListBuilder

/-- What rules that hold at once decide: the most specific one, and a deny among
equally specific ones. -/
def decision (rules : List Rule) : EgressListAction :=
  if ∃ rule ∈ rules, rule.action = .deny ∧ ∀ other ∈ rules, other.specificity ≤ rule.specificity
  then .deny else .allow

namespace ActiveCounts

variable {active : ActiveCounts} {rules : List Rule}

/-- How many rules have a specificity and an action. -/
def countOf (rules : List Rule) (specificity : Nat) (action : EgressListAction) : Nat :=
  rules.countP fun rule => decide (rule.specificity.val = specificity ∧ rule.action = action)

/-- The counts and the mask are those of a list of rules. -/
structure Stands (active : ActiveCounts) (rules : List Rule) : Prop where
  counts : ∀ specificity action, active.counts specificity action = countOf rules specificity action
  mask : ∀ specificity, active.mask specificity = decide (active.total specificity ≠ 0)

theorem countOf_cons (rule : Rule) (rules : List Rule) (specificity : Nat)
    (action : EgressListAction) :
    countOf (rule :: rules) specificity action = countOf rules specificity action +
      if specificity = rule.specificity.val ∧ action = rule.action then 1 else 0 := by
  unfold countOf
  rw [countP_cons]
  congr 1
  apply if_congr _ rfl rfl
  rw [decide_eq_true_eq, eq_comm, and_congr_right_iff]
  intro _
  exact eq_comm

theorem setCount_total {rule : Rule} {count specificity : Nat}
    (h : specificity ≠ rule.specificity.val) :
    (active.setCount rule count).total specificity = active.total specificity := by
  simp [total, setCount, h]

theorem total_ne_zero_of_count {specificity : Nat}
    (action : EgressListAction) (h : active.counts specificity action ≠ 0) :
    active.total specificity ≠ 0 := by
  unfold total
  cases action <;> omega

theorem Stands.add (h : active.Stands rules)
    (rule : Rule) : (active.add rule).Stands (rule :: rules) := by
  have hcounts : ∀ specificity action, (active.add rule).counts specificity action =
      countOf (rule :: rules) specificity action := by
    intro specificity action
    rw [countOf_cons, ← h.counts]
    unfold ActiveCounts.add
    by_cases hsame : specificity = rule.specificity.val ∧ action = rule.action
    · obtain ⟨rfl, rfl⟩ := hsame
      simp [setCount]
    split <;> simp [setCount, setMask, hsame]
  refine ⟨hcounts, fun specificity => ?_⟩
  by_cases hsame : specificity = rule.specificity.val
  · subst hsame
    have hpos : (active.add rule).total rule.specificity ≠ 0 := by
      refine total_ne_zero_of_count rule.action ?_
      rw [hcounts, countOf_cons]
      simp
    rw [decide_eq_true hpos]
    unfold ActiveCounts.add
    split
    · simp [setCount, setMask]
    rename_i hoccurs
    simp only [setCount]
    rw [h.mask, decide_eq_true hoccurs]
  have htotal : (active.add rule).total specificity = active.total specificity := by
    unfold ActiveCounts.add
    split
    · rw [setCount_total hsame]
      rfl
    · exact setCount_total hsame
  rw [htotal, ← h.mask]
  unfold ActiveCounts.add
  split <;> simp [setCount, setMask, hsame]

theorem Stands.remove {rule : Rule}
    (h : active.Stands (rule :: rules)) : (active.remove rule).Stands rules := by
  have hcounts : ∀ specificity action,
      (active.setCount rule (active.counts rule.specificity rule.action - 1)).counts
        specificity action = countOf rules specificity action := by
    intro specificity action
    have hbefore := h.counts specificity action
    rw [countOf_cons] at hbefore
    by_cases hsame : specificity = rule.specificity.val ∧ action = rule.action
    · obtain ⟨rfl, rfl⟩ := hsame
      simp only [and_self, if_true] at hbefore
      simp only [setCount, and_self, if_true]
      omega
    rw [if_neg hsame] at hbefore
    simp only [setCount, if_neg hsame]
    omega
  have hmask : ∀ specificity, specificity ≠ rule.specificity.val →
      active.mask specificity = decide ((active.setCount rule
        (active.counts rule.specificity rule.action - 1)).total specificity ≠ 0) := by
    intro specificity hother
    rw [setCount_total hother]
    exact h.mask specificity
  unfold ActiveCounts.remove
  dsimp only
  split
  · rename_i hzero
    refine ⟨hcounts, fun specificity => ?_⟩
    by_cases hsame : specificity = rule.specificity.val
    · subst hsame
      refine Eq.trans (if_pos rfl) (decide_eq_false ?_).symm
      exact not_not.mpr hzero
    · exact Eq.trans (if_neg hsame) (hmask specificity hsame)
  rename_i hmore
  refine ⟨hcounts, fun specificity => ?_⟩
  by_cases hsame : specificity = rule.specificity.val
  · subst hsame
    rw [decide_eq_true hmore]
    refine (h.mask _).trans (decide_eq_true ?_)
    refine total_ne_zero_of_count rule.action ?_
    rw [h.counts, countOf_cons]
    simp
  · exact hmask specificity hsame

theorem highest_spec (mask : Nat → Bool) (bound : Nat) :
    match highest mask bound with
    | none => ∀ other < bound, mask other = false
    | some found => found < bound ∧ mask found = true ∧
      ∀ other < bound, mask other = true → other ≤ found := by
  induction bound with
  | zero => simp [highest]
  | succ bound ih =>
    unfold highest
    by_cases hbit : mask bound = true
    · simp only [hbit, if_true]
      exact ⟨Nat.lt_succ_self bound, trivial, fun other hother _ => Nat.le_of_lt_succ hother⟩
    simp only [hbit, if_false, Bool.false_eq_true]
    split
    · rename_i hnone
      simp only [hnone] at ih
      intro other hother
      rcases Nat.lt_succ_iff_lt_or_eq.mp hother with hlt | rfl
      · exact ih other hlt
      · exact Bool.eq_false_of_not_eq_true hbit
    rename_i hfound
    simp only [hfound] at ih
    refine ⟨Nat.lt_succ_of_lt ih.1, ih.2.1, fun other hother hset => ?_⟩
    rcases Nat.lt_succ_iff_lt_or_eq.mp hother with hlt | rfl
    · exact ih.2.2 other hlt hset
    · exact absurd hset hbit

theorem countOf_ne_zero {specificity : Nat} {action : EgressListAction} :
    countOf rules specificity action ≠ 0 ↔
      ∃ rule ∈ rules, rule.specificity.val = specificity ∧ rule.action = action := by
  unfold countOf
  rw [← Nat.pos_iff_ne_zero, countP_pos_iff]
  simp only [decide_eq_true_eq]

theorem Stands.mask_iff (h : active.Stands rules) (specificity : Nat) :
    active.mask specificity = true ↔ ∃ rule ∈ rules, rule.specificity.val = specificity := by
  rw [h.mask, decide_eq_true_eq]
  constructor
  · intro htotal
    have hcount : ∃ action, active.counts specificity action ≠ 0 := by
      by_contra hnone
      push Not at hnone
      exact htotal (by rw [total, hnone .allow, hnone .deny])
    obtain ⟨action, hcount⟩ := hcount
    rw [h.counts, countOf_ne_zero] at hcount
    obtain ⟨rule, hmem, hspecificity, -⟩ := hcount
    exact ⟨rule, hmem, hspecificity⟩
  · rintro ⟨rule, hmem, hspecificity⟩
    refine total_ne_zero_of_count rule.action ?_
    rw [h.counts, countOf_ne_zero]
    exact ⟨rule, hmem, hspecificity, rfl⟩

/-- The best of the counts is the decision of the rules they count. -/
theorem Stands.best (h : active.Stands rules)
    (hne : rules ≠ []) : active.best = decision rules := by
  have hspec := highest_spec active.mask (3 * 64)
  obtain ⟨some_rule, hsome⟩ := exists_mem_of_ne_nil rules hne
  have hbound : ∀ rule : Rule, rule.specificity.val < 3 * 64 := by
    intro rule
    have := rule.specificity.isLt
    omega
  unfold ActiveCounts.best
  split
  · rename_i hnone
    simp only [hnone] at hspec
    have hset := (h.mask_iff _).mpr ⟨some_rule, hsome, rfl⟩
    rw [hspec _ (hbound some_rule)] at hset
    cases hset
  rename_i found hfound
  simp only [hfound] at hspec
  obtain ⟨-, hset, hmost⟩ := hspec
  obtain ⟨top, htop, htopSpecificity⟩ := (h.mask_iff found).mp hset
  have hle : ∀ other ∈ rules, other.specificity.val ≤ found := by
    intro other hother
    exact hmost _ (hbound other) ((h.mask_iff _).mpr ⟨other, hother, rfl⟩)
  unfold decision
  apply if_congr _ rfl rfl
  rw [h.counts, countOf_ne_zero]
  constructor
  · rintro ⟨rule, hmem, hspecificity, haction⟩
    refine ⟨rule, hmem, haction, fun other hother => ?_⟩
    exact Fin.le_def.mpr (hspecificity ▸ hle other hother)
  rintro ⟨rule, hmem, haction, hgreatest⟩
  refine ⟨rule, hmem, le_antisymm (hle rule hmem) ?_, haction⟩
  exact htopSpecificity ▸ Fin.le_def.mp (hgreatest top htop)

end ActiveCounts

theorem activeCounts_correct : Sweep.Summary.Correct activeCounts ActiveCounts.Stands decision where
  empty := ⟨fun _ _ => rfl, fun _ => rfl⟩
  add := fun rule h => h.add rule
  remove := fun h => h.remove
  perm := fun hperm h => ⟨fun specificity action =>
    (h.counts specificity action).trans (hperm.countP_eq _), h.mask⟩
  value := fun h hne => h.best hne

/-! ### What a range holds -/

namespace Addition

def action : Addition → EgressListAction
  | .network _ action => action
  | .span _ _ _ action => action
  | .country _ _ _ action => action

/-- A network's prefix length, the length of the longest prefix that both ends of
a span share, and nothing for a country. -/
def specificity : Addition → Nat
  | .network listed _ => listed.prefixLength
  | .span family first last _ => sharedPrefix family first last
  | .country _ _ _ _ => 0

/-- The addresses of a network share its prefix, and those of a range lie
between its ends. -/
def Holds (addition : Addition) (family : IpFamily) (x : Nat) : Prop :=
  addition.family = family ∧
    match addition with
    | .network listed _ =>
      x / 2 ^ (family.addressBits - listed.prefixLength) =
        listed.address / 2 ^ (family.addressBits - listed.prefixLength)
    | .span _ first last _ => first ≤ x ∧ x ≤ last
    | .country _ first last _ => first ≤ x ∧ x ≤ last

/-- Holds an address, and no addition that holds it is more specific. -/
def MostSpecific (added : List Addition) (family : IpFamily) (x : Nat) (addition : Addition) :
    Prop :=
  (addition ∈ added ∧ addition.Holds family x) ∧
    ∀ other ∈ added, other.Holds family x → other.specificity ≤ addition.specificity

end Addition

/-- Equal leading bits are equal quotients. -/
theorem div_two_pow_eq_iff (a b bits : Nat) :
    a / 2 ^ bits = b / 2 ^ bits ↔ (a ^^^ b).size ≤ bits := by
  have hxor : a >>> bits = b >>> bits ↔ a >>> bits ^^^ b >>> bits = 0 :=
    not_iff_not.mp Nat.xor_ne_zero_iff.symm
  rw [Nat.size_le, ← Nat.shiftRight_eq_div_pow, ← Nat.shiftRight_eq_div_pow, hxor,
    ← Nat.shiftRight_xor_distrib, Nat.shiftRight_eq_div_pow, Nat.div_eq_zero_iff]
  simp

/-- `sharedPrefix` is the prefix length of the smallest network with both ends. -/
theorem sharedPrefix_spec {first last : Nat} (hfirst : first ≤ family.top)
    (hlast : last ≤ family.top) {length : Nat} (hlength : length ≤ family.addressBits) :
    first / 2 ^ (family.addressBits - length) = last / 2 ^ (family.addressBits - length) ↔
      length ≤ sharedPrefix family first last := by
  have hpos : 0 < 2 ^ family.addressBits := Nat.two_pow_pos _
  unfold IpFamily.top at hfirst hlast
  have hsize : (first ^^^ last).size ≤ family.addressBits :=
    Nat.size_le.mpr (Nat.xor_lt_two_pow (by omega) (by omega))
  rw [div_two_pow_eq_iff]
  unfold sharedPrefix
  omega

/-- A number whose low bits are zero, with the low bits set. -/
theorem or_low_bits {address bits : Nat} (h : 2 ^ bits ∣ address) :
    address ||| (2 ^ bits - 1) = address + (2 ^ bits - 1) := by
  obtain ⟨high, rfl⟩ := h
  have hpos : 0 < 2 ^ bits := Nat.two_pow_pos bits
  rw [Nat.two_pow_add_eq_or_of_lt (by omega)]

theorem Network.contains_iff (network : Network) (x : Nat) :
    (network.address ≤ x ∧
      x ≤ withHostBits network.family network.address network.prefixLength) ↔
      x / 2 ^ (network.family.addressBits - network.prefixLength) =
        network.address / 2 ^ (network.family.addressBits - network.prefixLength) := by
  unfold withHostBits
  rw [or_low_bits network.host_bits]
  obtain ⟨high, hhigh⟩ := network.host_bits
  rw [hhigh]
  generalize hsize : 2 ^ (network.family.addressBits - network.prefixLength) = size
  have hpos : 0 < size := hsize ▸ Nat.two_pow_pos _
  rw [Nat.mul_div_cancel_left high hpos, Nat.div_eq_iff hpos, Nat.mul_comm size high]
  omega

theorem Addition.contains_iff (hfamily : addition.family = family) (x : Nat) :
    addition.range.Contains x ↔ addition.Holds family x := by
  subst hfamily
  cases addition with
  | network listed =>
    rw [Holds, Addition.family, eq_self_iff_true, true_and]
    exact listed.contains_iff x
  | span family first last action | country family first last action =>
    simp [Holds, range, Sweep.Range.Contains, Addition.family]

theorem Addition.label_eq (addition : Addition) :
    addition.range.label.specificity.val = addition.specificity ∧
      addition.range.label.action = addition.action := by
  cases addition with
  | network listed action =>
    have := listed.prefix_le
    have := listed.family.addressBits_le
    exact ⟨Nat.mod_eq_of_lt (by omega), rfl⟩
  | span family first last action =>
    have := family.addressBits_le
    refine ⟨Nat.mod_eq_of_lt ?_, rfl⟩
    unfold sharedPrefix
    omega
  | country => exact ⟨rfl, rfl⟩

theorem Addition.range_proper (h : addition.Valid) :
    addition.range.first ≤ addition.range.last ∧ addition.range.last ≤ addition.family.top := by
  cases addition with
  | network listed action =>
    refine ⟨Nat.left_le_or, ?_⟩
    have haddress := listed.address_le
    have hpos : 0 < 2 ^ listed.family.addressBits := Nat.two_pow_pos _
    have hlow : 2 ^ (listed.family.addressBits - listed.prefixLength) ≤
        2 ^ listed.family.addressBits := Nat.pow_le_pow_right (by decide) (Nat.sub_le _ _)
    have hlowpos : 0 < 2 ^ (listed.family.addressBits - listed.prefixLength) :=
      Nat.two_pow_pos _
    unfold IpFamily.top at haddress
    have : withHostBits listed.family listed.address listed.prefixLength <
        2 ^ listed.family.addressBits := Nat.or_lt_two_pow (by omega) (by omega)
    simp only [range, Addition.family, IpFamily.top]
    omega
  | span family first last action | country family first last action => exact h

/-! ### Lookups -/

theorem decision_eq_deny_iff {rules : List Rule} :
    decision rules = .deny ↔
      ∃ rule ∈ rules, rule.action = .deny ∧ ∀ other ∈ rules,
        other.specificity ≤ rule.specificity := by
  unfold decision
  split <;> simp_all

theorem decision_congr {rules others : List Rule} (h : ∀ rule, rule ∈ rules ↔ rule ∈ others) :
    decision rules = decision others := by
  unfold decision
  simp only [h]

/-- The table that the sweep makes of ranges, in whatever order they are. -/
theorem flatten_lookup {ranges : List Range}
    (hproper : ∀ range ∈ ranges, range.first ≤ range.last ∧ range.last ≤ family.top) :
    ((flatten ranges family).Pairwise fun earlier later => earlier.last < later.first) ∧
      (∀ segment ∈ flatten ranges family, segment.first ≤ segment.last) ∧
      ∀ x, Sweep.lookup (flatten ranges family) x =
        if Sweep.covering ranges x = [] then none
        else some (decision (Sweep.covering ranges x)) := by
  have hperm := perm_insertionSort (fun left right : Range => left.first ≤ right.first) ranges
  have htable : Sweep.Table decision
      (ranges.insertionSort fun left right => left.first ≤ right.first) (flatten ranges family) :=
    Sweep.sweep_table activeCounts_correct (pairwise_insertionSort _ ranges)
      fun range hrange => hproper range (hperm.mem_iff.mp hrange)
  refine ⟨htable.ordered, htable.proper, fun x => ?_⟩
  have hcover : (Sweep.covering (ranges.insertionSort fun left right => left.first ≤ right.first)
      x).Perm (Sweep.covering ranges x) := (hperm.filter _).map _
  refine (htable.lookup_eq x).trans ?_
  rw [decision_congr fun rule => hcover.mem_iff]
  apply if_congr _ rfl rfl
  exact ⟨fun h => (h ▸ hcover).symm.eq_nil, fun h => (h ▸ hcover).eq_nil⟩

namespace EgressListBuilder

variable {family : IpFamily} {added : List Addition} {x : Nat}

def ranges (builder : EgressListBuilder) : IpFamily → List Range
  | .v4 => builder.v4
  | .v6 => builder.v6

theorem rangesOf_append (family : IpFamily) (first second : List Addition) :
    rangesOf family (first ++ second) = rangesOf family first ++ rangesOf family second := by
  simp [rangesOf]

theorem add_eq_some {builder after : EgressListBuilder} {additions : List Addition}
    (h : builder.add additions = some after) :
    (∀ addition ∈ additions, addition.Valid) ∧
      ∀ family, after.ranges family = builder.ranges family ++ rangesOf family additions := by
  unfold add at h
  split at h
  · cases h
  rename_i hok
  cases h
  refine ⟨not_not.mp fun hinvalid => hok (.inr hinvalid), fun family => ?_⟩
  cases family <;> rfl

/-- The builder holds the ranges of every file. -/
theorem addFiles_eq_some {builder after : EgressListBuilder} {files : List (List Addition)}
    (h : builder.addFiles files = some after) :
    (∀ addition ∈ files.flatten, addition.Valid) ∧
      ∀ family, after.ranges family = builder.ranges family ++ rangesOf family files.flatten := by
  induction files generalizing builder with
  | nil =>
    cases h
    simp [rangesOf]
  | cons file rest ih =>
    obtain ⟨middle, hmiddle, hrest⟩ := Option.bind_eq_some_iff.mp h
    obtain ⟨hvalid, hranges⟩ := add_eq_some hmiddle
    obtain ⟨hvalidRest, hrangesRest⟩ := ih hrest
    refine ⟨forall_mem_append.mpr ⟨hvalid, hvalidRest⟩, fun family => ?_⟩
    rw [hrangesRest, hranges, flatten_cons, rangesOf_append, append_assoc]

theorem rangesOf_proper (h : ∀ addition ∈ added, addition.Valid) :
    ∀ range ∈ rangesOf family added, range.first ≤ range.last ∧ range.last ≤ family.top := by
  intro range hrange
  obtain ⟨addition, hmem, rfl⟩ := mem_map.mp hrange
  obtain ⟨hadded, hfamily⟩ := mem_filter.mp hmem
  have hproper := Addition.range_proper (h addition hadded)
  rwa [of_decide_eq_true hfamily] at hproper

/-- The rules at an address are those of the additions that hold it. -/
theorem mem_covering_iff {rule : Rule} :
    rule ∈ Sweep.covering (rangesOf family added) x ↔
      ∃ addition ∈ added, addition.Holds family x ∧ addition.range.label = rule := by
  simp only [Sweep.covering, rangesOf, mem_map, mem_filter, decide_eq_true_eq]
  constructor
  · rintro ⟨_, ⟨⟨addition, ⟨hmem, hfamily⟩, rfl⟩, hcontains⟩, rfl⟩
    exact ⟨addition, hmem, (Addition.contains_iff hfamily x).mp hcontains, rfl⟩
  rintro ⟨addition, hmem, hholds, rfl⟩
  exact ⟨addition.range, ⟨⟨addition, ⟨hmem, hholds.1⟩, rfl⟩,
    (Addition.contains_iff hholds.1 x).mpr hholds⟩, rfl⟩

theorem covering_eq_nil_iff :
    Sweep.covering (rangesOf family added) x = [] ↔
      ∀ addition ∈ added, ¬addition.Holds family x := by
  rw [eq_nil_iff_forall_not_mem]
  constructor
  · intro h addition hmem hholds
    exact h _ (mem_covering_iff.mpr ⟨addition, hmem, hholds, rfl⟩)
  intro h rule hrule
  obtain ⟨addition, hmem, hholds, -⟩ := mem_covering_iff.mp hrule
  exact h addition hmem hholds

theorem decision_covering :
    decision (Sweep.covering (rangesOf family added) x) = .deny ↔
      ∃ addition, Addition.MostSpecific added family x addition ∧ addition.action = .deny := by
  rw [decision_eq_deny_iff]
  constructor
  · rintro ⟨rule, hrule, haction, hmost⟩
    obtain ⟨addition, hmem, hholds, rfl⟩ := mem_covering_iff.mp hrule
    refine ⟨addition, ⟨⟨hmem, hholds⟩, fun other hother hotherHolds => ?_⟩,
      addition.label_eq.2 ▸ haction⟩
    have hle := hmost _ (mem_covering_iff.mpr ⟨other, hother, hotherHolds, rfl⟩)
    rwa [Fin.le_def, other.label_eq.1, addition.label_eq.1] at hle
  rintro ⟨addition, ⟨⟨hmem, hholds⟩, hmost⟩, haction⟩
  refine ⟨_, mem_covering_iff.mpr ⟨addition, hmem, hholds, rfl⟩,
    addition.label_eq.2.trans haction, fun rule hrule => ?_⟩
  obtain ⟨other, hother, hotherHolds, rfl⟩ := mem_covering_iff.mp hrule
  rw [Fin.le_def, other.label_eq.1, addition.label_eq.1]
  exact hmost other hother hotherHolds

end EgressListBuilder

open EgressListBuilder

theorem exists_mostSpecific {added : List Addition} {x : Nat}
    (hmem : addition ∈ added) (hholds : addition.Holds family x) :
    ∃ most, Addition.MostSpecific added family x most := by
  classical
  have hne : (added.toFinset.filter fun other => other.Holds family x).Nonempty :=
    ⟨addition, Finset.mem_filter.mpr ⟨mem_toFinset.mpr hmem, hholds⟩⟩
  obtain ⟨most, hmost, hgreatest⟩ := Finset.exists_max_image _ Addition.specificity hne
  obtain ⟨hmostMem, hmostHolds⟩ := Finset.mem_filter.mp hmost
  refine ⟨most, ⟨mem_toFinset.mp hmostMem, hmostHolds⟩, fun other hother hotherHolds => ?_⟩
  exact hgreatest other (Finset.mem_filter.mpr ⟨mem_toFinset.mpr hother, hotherHolds⟩)

section

variable {files : List (List Addition)} {builder : EgressListBuilder} {family : IpFamily}
  {address : Bytes}

variable (h : empty.addFiles files = some builder)
include h

theorem build_segments :
    builder.build.segments family = flatten (rangesOf family files.flatten) family := by
  have hfamily := (addFiles_eq_some h).2 family
  cases family <;> exact congrArg (flatten · _) hfamily

theorem build_ordered :
    ((builder.build.segments family).Pairwise fun earlier later => earlier.last < later.first) ∧
      ∀ segment ∈ builder.build.segments family, segment.first ≤ segment.last := by
  rw [build_segments h]
  obtain ⟨hordered, hproper, -⟩ :=
    flatten_lookup (rangesOf_proper (addFiles_eq_some h).1 : ∀ range ∈ rangesOf family _, _)
  exact ⟨hordered, hproper⟩

variable (hlength : address.length = family.addressBytes)
include hlength

/-- The lookup of an address in the rules of the files added to a builder. -/
theorem lookup_build :
    builder.build.lookup family address =
      if Sweep.covering (rangesOf family files.flatten) (beNat address) = [] then none
      else some (decision (Sweep.covering (rangesOf family files.flatten) (beNat address))) := by
  rw [EgressListRules.lookup, if_neg (not_not.mpr hlength), build_segments h]
  exact (flatten_lookup (rangesOf_proper (addFiles_eq_some h).1)).2.2 _

theorem lookup_eq_none_iff :
    builder.build.lookup family address = none ↔
      ∀ addition ∈ files.flatten, ¬addition.Holds family (beNat address) := by
  rw [lookup_build h hlength, ← covering_eq_nil_iff]
  simp

theorem lookup_eq_deny_iff :
    builder.build.lookup family address = some .deny ↔
      ∃ addition, Addition.MostSpecific files.flatten family (beNat address) addition ∧
        addition.action = .deny := by
  rw [lookup_build h hlength, ← decision_covering]
  split
  · rename_i hnone
    simp [hnone, decision]
  · exact Option.some_inj

theorem lookup_eq_allow_iff :
    builder.build.lookup family address = some .allow ↔
      (∃ addition, Addition.MostSpecific files.flatten family (beNat address) addition) ∧
      ∀ addition, Addition.MostSpecific files.flatten family (beNat address) addition →
        addition.action = .allow := by
  have hnone := lookup_eq_none_iff h hlength
  have hdeny := lookup_eq_deny_iff h hlength
  constructor
  · intro hallow
    rw [hallow] at hnone hdeny
    refine ⟨?_, fun addition hmost => ?_⟩
    · by_contra hnever
      refine Option.some_ne_none _ (hnone.mpr fun addition hmem hholds => ?_)
      exact hnever (exists_mostSpecific hmem hholds)
    cases haction : addition.action with
    | allow => rfl
    | deny => cases hdeny.mpr ⟨addition, hmost, haction⟩
  rintro ⟨⟨addition, hmost⟩, hall⟩
  cases hlookup : builder.build.lookup family address with
  | none => exact absurd hmost.1.2 (hnone.mp hlookup addition hmost.1.1)
  | some action =>
    cases action with
    | allow => rfl
    | deny =>
      obtain ⟨other, hother, haction⟩ := hdeny.mp hlookup
      rw [hall other hother] at haction
      cases haction

end

/-- The table of the files added to a builder has disjoint segments in order, and
an address takes the action of the most specific range that holds it, a deny
among equally specific ones, in whatever order the ranges came. -/
theorem egress_longest_match (files : List (List Addition)) (builder : EgressListBuilder)
    (h : empty.addFiles files = some builder) :
    (∀ family,
      ((builder.build.segments family).Pairwise fun earlier later => earlier.last < later.first) ∧
      ∀ segment ∈ builder.build.segments family, segment.first ≤ segment.last) ∧
    (∀ family address, address.length = family.addressBytes →
      (builder.build.lookup family address = none ↔
        ∀ addition ∈ files.flatten, ¬addition.Holds family (beNat address)) ∧
      (builder.build.lookup family address = some .deny ↔
        ∃ addition, Addition.MostSpecific files.flatten family (beNat address) addition ∧
          addition.action = .deny) ∧
      (builder.build.lookup family address = some .allow ↔
        (∃ addition, Addition.MostSpecific files.flatten family (beNat address) addition) ∧
        ∀ addition, Addition.MostSpecific files.flatten family (beNat address) addition →
          addition.action = .allow)) ∧
    (∀ others other, empty.addFiles others = some other →
      others.flatten.Perm files.flatten →
      ∀ family address, other.build.lookup family address = builder.build.lookup family address) ∧
    ∀ (family : IpFamily) (first last length : Nat), first ≤ family.top → last ≤ family.top →
      length ≤ family.addressBits →
      (first / 2 ^ (family.addressBits - length) = last / 2 ^ (family.addressBits - length) ↔
        length ≤ sharedPrefix family first last) := by
  refine ⟨fun family => build_ordered h, fun family address hlength => ?_, ?_, ?_⟩
  · exact ⟨lookup_eq_none_iff h hlength, lookup_eq_deny_iff h hlength,
      lookup_eq_allow_iff h hlength⟩
  · intro others other hother hperm family address
    by_cases hlength : address.length = family.addressBytes
    · have hcover : ∀ rule, rule ∈ Sweep.covering (rangesOf family others.flatten) (beNat address) ↔
          rule ∈ Sweep.covering (rangesOf family files.flatten) (beNat address) := by
        intro rule
        simp only [mem_covering_iff, hperm.mem_iff]
      rw [lookup_build hother hlength, lookup_build h hlength, decision_congr hcover]
      apply if_congr _ rfl rfl
      simp only [covering_eq_nil_iff, hperm.mem_iff]
    · rw [EgressListRules.lookup, EgressListRules.lookup, if_pos hlength, if_pos hlength]
  · intro family first last length hfirst hlast hlength
    exact sharedPrefix_spec hfirst hlast hlength

/-- 10.0.0.0/8 denied, 10.1.0.0/16 allowed, 10.1.0.0 to 10.1.255.255 denied by a
VPN database and the whole of IPv6 denied by a country. -/
def sampleFiles : List (List Addition) :=
  [[.network ⟨.v4, 10 * 2 ^ 24, 8, by decide, by decide, by decide⟩ .deny,
    .network ⟨.v4, 10 * 2 ^ 24 + 2 ^ 16, 16, by decide, by decide, by decide⟩ .allow],
   [.span .v4 (10 * 2 ^ 24 + 2 ^ 16) (10 * 2 ^ 24 + 2 ^ 17 - 1) .deny],
   [.country .v6 0 (2 ^ 128 - 1) .deny]]

/-- The span is as specific as the allowed network, so it denies 10.1.2.3, also
with the files in another order, and no range holds 11.0.0.0. -/
theorem egress_longest_match_sample :
    ∃ builder other, empty.addFiles sampleFiles = some builder ∧
      empty.addFiles sampleFiles.reverse = some other ∧
      builder.build.lookup .v4 [10, 1, 2, 3] = some .deny ∧
      other.build.lookup .v4 [10, 1, 2, 3] = builder.build.lookup .v4 [10, 1, 2, 3] ∧
      (builder.build.lookup .v4 [11, 0, 0, 0] = none ↔
        ∀ addition ∈ sampleFiles.flatten, ¬addition.Holds .v4 (beNat [11, 0, 0, 0])) ∧
      8 ≤ sharedPrefix .v4 (10 * 2 ^ 24) (10 * 2 ^ 24 + 2 ^ 16) := by
  obtain ⟨builder, hbuilder⟩ := Option.isSome_iff_exists.mp
    (show (empty.addFiles sampleFiles).isSome from by decide)
  obtain ⟨other, hother⟩ := Option.isSome_iff_exists.mp
    (show (empty.addFiles sampleFiles.reverse).isSome from by decide)
  obtain ⟨-, hlookup, horder, hleading⟩ := egress_longest_match sampleFiles builder hbuilder
  have hspecific : ∀ addition ∈ sampleFiles.flatten, addition.specificity ≤ 16 := by decide
  have hspan : 16 ≤ sharedPrefix .v4 (10 * 2 ^ 24 + 2 ^ 16) (10 * 2 ^ 24 + 2 ^ 17 - 1) := by
    decide
  refine ⟨builder, other, hbuilder, hother, (hlookup .v4 [10, 1, 2, 3] rfl).2.1.mpr ?_,
    horder _ other hother (reverse_perm sampleFiles).flatten .v4 _,
    (hlookup .v4 [11, 0, 0, 0] rfl).1,
    (hleading .v4 _ _ 8 (by decide) (by decide) (by decide)).mp (by decide)⟩
  exact ⟨.span .v4 (10 * 2 ^ 24 + 2 ^ 16) (10 * 2 ^ 24 + 2 ^ 17 - 1) .deny,
    ⟨⟨by decide, rfl, by decide⟩, fun addition hmem _ =>
      le_trans (hspecific addition hmem) hspan⟩, rfl⟩

end Yume.Egress
