/-
The replay cache of the HTTP/2 admission: `ReplayCache::reserve` and `evict`,
and that a call is accepted exactly when no live reservation forbids it.
-/
import Yume.Lib.Bytes

namespace Yume.Admission

open Yume.Lib List

def h2NonceBytes : Nat := 32

/-- `Nonce`, an array of bytes. -/
abbrev Nonce := { bytes : Bytes // bytes.length = h2NonceBytes }

inductive ReplayDecision where
  | accepted
  | rejected
deriving Repr, DecidableEq

def maxTick : UInt64 := 0xffffffffffffffff

/-- A nonce with the tick at which its reservation expires. -/
abbrev Reservation := Nonce × UInt64

/-- `ReplayCache`.  `lastTick` stands for `has_last_tick_` and `last_tick_`; the
`unordered_map` is the list of its entries. -/
structure ReplayCache where
  maxEntries : Nat
  ttlTicks : UInt64
  lastTick : Option UInt64 := none
  expiryByNonce : List Reservation := []
  expiryOrder : List Reservation := []

open ReplayCache

namespace ReplayCache

/-- The constructor: both bounds are at least one. -/
def create (maxEntries : Nat) (ttlTicks : UInt64) : ReplayCache where
  maxEntries := max 1 maxEntries
  ttlTicks := max 1 ttlTicks

def size (cache : ReplayCache) : Nat := cache.expiryByNonce.length

/-- The loop of `evict` over the expiry queue and the map. -/
def evictLoop (now : UInt64) : List Reservation → List Reservation →
    List Reservation × List Reservation
  | [], entries => ([], entries)
  | oldest :: rest, entries =>
    if oldest.2 ≤ now then
      evictLoop now rest (if entries.lookup oldest.1 = some oldest.2 then
        entries.filter fun entry => entry.1 ≠ oldest.1 else entries)
    else (oldest :: rest, entries)

def evict (cache : ReplayCache) (now : UInt64) : ReplayCache :=
  { cache with
    expiryOrder := (evictLoop now cache.expiryOrder cache.expiryByNonce).1
    expiryByNonce := (evictLoop now cache.expiryOrder cache.expiryByNonce).2 }

/-- Does a call pass the checks that come before the eviction? -/
def ticks (cache : ReplayCache) (now : UInt64) : Bool :=
  cache.lastTick.all (· ≤ now) && now ≤ maxTick - cache.ttlTicks

def reserve (cache : ReplayCache) (nonce : Nonce) (now : UInt64) : ReplayDecision × ReplayCache :=
  if ¬ cache.ticks now then (.rejected, cache)
  else
    let evicted := { cache with lastTick := some now }.evict now
    if (evicted.expiryByNonce.any fun entry => entry.1 = nonce) ∨
        evicted.size ≥ evicted.maxEntries then (.rejected, evicted)
    else
      (.accepted, { evicted with
        expiryOrder := evicted.expiryOrder ++ [(nonce, now + evicted.ttlTicks)]
        expiryByNonce := evicted.expiryByNonce ++ [(nonce, now + evicted.ttlTicks)] })

end ReplayCache

/-- One call of `reserve`: its nonce and its tick. -/
abbrev ReserveCall := Nonce × UInt64

namespace ReplayCache

/-- The cache after a sequence of calls. -/
def after (cache : ReplayCache) (calls : List ReserveCall) : ReplayCache :=
  calls.foldl (fun cache call => (cache.reserve call.1 call.2).2) cache

/-- The calls of a sequence that are accepted. -/
def accepted (cache : ReplayCache) : List ReserveCall → List ReserveCall
  | [] => []
  | call :: rest =>
    (if (cache.reserve call.1 call.2).1 = .accepted then [call] else []) ++
      (cache.reserve call.1 call.2).2.accepted rest

end ReplayCache

/-- The ticks that a sequence of calls processes: those that neither fall behind
an earlier one nor overflow with the lifetime added. -/
def processed (ttl : UInt64) (calls : List ReserveCall) : List UInt64 :=
  calls.foldl (fun ticks call =>
    if ticks.all (· ≤ call.2) ∧ call.2.toNat + ttl.toNat < 2 ^ 64 then ticks ++ [call.2]
    else ticks) []

/-- Is the reservation of an accepted call alive at this tick? -/
def Alive (ttl now : UInt64) (call : ReserveCall) : Prop :=
  now.toNat < call.2.toNat + ttl.toNat

instance (ttl now : UInt64) (call : ReserveCall) : Decidable (Alive ttl now call) :=
  inferInstanceAs (Decidable (_ < _))

/-- With sorted expiries and distinct nonces, both the queue and the map lose
exactly the expired entries. -/
theorem evictLoop_same (now : UInt64) {entries : List Reservation}
    (hkeys : (entries.map Prod.fst).Nodup)
    (hsorted : entries.Pairwise fun left right => left.2 ≤ right.2) :
    evictLoop now entries entries = (entries.filter (now < ·.2), entries.filter (now < ·.2)) := by
  induction entries with
  | nil => rfl
  | cons oldest rest ih =>
    rw [map_cons, nodup_cons] at hkeys
    rw [pairwise_cons] at hsorted
    simp only [evictLoop]
    by_cases hexpired : oldest.2 ≤ now
    · have hfound : (oldest :: rest).lookup oldest.1 = some oldest.2 :=
        lookup_cons_self
      have herased : (oldest :: rest).filter (fun entry => entry.1 ≠ oldest.1) = rest := by
        rw [filter_cons_of_neg (by simp), filter_eq_self]
        intro entry hentry
        simp only [ne_eq, decide_not, Bool.not_eq_true', decide_eq_false_iff_not]
        exact fun hsame => hkeys.1 (hsame ▸ mem_map_of_mem hentry)
      rw [if_pos hexpired, if_pos hfound, herased, ih hkeys.2 hsorted.2,
        filter_cons_of_neg (by simpa using hexpired)]
    have hlive : (oldest :: rest).filter (now < ·.2) = oldest :: rest := by
      rw [filter_eq_self]
      intro entry hentry
      rw [UInt64.not_le] at hexpired
      rcases mem_cons.mp hentry with rfl | hentry
      · simpa using hexpired
      · simpa using UInt64.lt_of_lt_of_le hexpired (hsorted.1 entry hentry)
    rw [if_neg hexpired, hlive]

/-- The subtraction of the check is exact, so it says that nothing overflows. -/
theorem ReplayCache.ticks_iff (cache : ReplayCache) (now : UInt64) :
    cache.ticks now = true ↔ (∀ last, cache.lastTick = some last → last ≤ now) ∧
      now.toNat + cache.ttlTicks.toNat < 2 ^ 64 := by
  have hmax : maxTick.toNat = 2 ^ 64 - 1 := rfl
  have hle : cache.ttlTicks ≤ maxTick := by
    rw [UInt64.le_iff_toNat_le, hmax]
    have := cache.ttlTicks.toNat_lt
    omega
  have hroom : now ≤ maxTick - cache.ttlTicks ↔ now.toNat + cache.ttlTicks.toNat < 2 ^ 64 := by
    rw [UInt64.le_iff_toNat_le, UInt64.toNat_sub_of_le _ _ hle, hmax]
    have := cache.ttlTicks.toNat_lt
    omega
  rw [ticks, Bool.and_eq_true, decide_eq_true_iff, hroom, Option.all_eq_true]
  simp

theorem processed_append (ttl : UInt64) (calls : List ReserveCall) (call : ReserveCall) :
    processed ttl (calls ++ [call]) =
      if (processed ttl calls).all (· ≤ call.2) ∧ call.2.toNat + ttl.toNat < 2 ^ 64 then
        processed ttl calls ++ [call.2]
      else processed ttl calls := by
  rw [processed, foldl_append, ← processed, foldl_cons, foldl_nil]

theorem processed_of_ticks {ttl : UInt64} {calls : List ReserveCall} {call : ReserveCall}
    (h : (∀ tick ∈ processed ttl calls, tick ≤ call.2) ∧ call.2.toNat + ttl.toNat < 2 ^ 64) :
    processed ttl (calls ++ [call]) = processed ttl calls ++ [call.2] := by
  rw [processed_append, if_pos ⟨all_eq_true.mpr (by simpa using h.1), h.2⟩]

theorem processed_of_stale {ttl : UInt64} {calls : List ReserveCall} {call : ReserveCall}
    (h : ¬ ((∀ tick ∈ processed ttl calls, tick ≤ call.2) ∧ call.2.toNat + ttl.toNat < 2 ^ 64)) :
    processed ttl (calls ++ [call]) = processed ttl calls := by
  rw [processed_append, if_neg (by simpa using h)]

/-- The entry that an accepted call leaves in the cache. -/
def reservation (ttl : UInt64) (call : ReserveCall) : Reservation :=
  (call.1, call.2 + ttl)

/-- What the calls so far and those accepted among them say about the cache: it
keeps the accepted calls that were alive at the last processed tick. -/
structure ReplayCache.Records (cache : ReplayCache) (past accepted : List ReserveCall) :
    Prop where
  clock : cache.lastTick = (processed cache.ttlTicks past).getLast?
  rising : (processed cache.ttlTicks past).Pairwise (· ≤ ·)
  seen : ∀ call ∈ accepted, call.2 ∈ processed cache.ttlTicks past
  fits : ∀ call ∈ accepted, call.2.toNat + cache.ttlTicks.toNat < 2 ^ 64
  sorted : accepted.Pairwise fun left right => left.2 ≤ right.2
  spaced : accepted.Pairwise fun left right => left.1 = right.1 →
    ¬ Alive cache.ttlTicks right.2 left
  order : cache.expiryOrder = (accepted.filter fun call =>
    cache.lastTick.all (Alive cache.ttlTicks · call)).map (reservation cache.ttlTicks)
  same : cache.expiryByNonce = cache.expiryOrder
  bounded : cache.expiryOrder.length ≤ cache.maxEntries

section Records

variable {cache : ReplayCache} {past accepted : List ReserveCall} {now : UInt64}

theorem le_of_getLast? {ticks : List UInt64} {last tick : UInt64}
    (hrising : ticks.Pairwise (· ≤ ·)) (hlast : ticks.getLast? = some last)
    (htick : tick ∈ ticks) : tick ≤ last := by
  obtain ⟨front, rfl⟩ := getLast?_eq_some_iff.mp hlast
  rcases mem_append.mp htick with htick | htick
  · exact (pairwise_append.mp hrising).2.2 tick htick last mem_cons_self
  rw [mem_singleton.mp htick]
  exact UInt64.le_refl last

namespace ReplayCache.Records

section

variable (h : cache.Records past accepted)
include h

theorem last_le :
    (∀ last, cache.lastTick = some last → last ≤ now) ↔
      ∀ tick ∈ processed cache.ttlTicks past, tick ≤ now := by
  rw [h.clock]
  constructor
  · intro hlast tick htick
    cases hsome : (processed cache.ttlTicks past).getLast? with
    | none => simp [getLast?_eq_none_iff.mp hsome] at htick
    | some last =>
      exact UInt64.le_trans (le_of_getLast? h.rising hsome htick) (hlast last hsome)
  · exact fun hall last hlast => hall last (mem_of_getLast? hlast)

theorem ticks_iff :
    cache.ticks now = true ↔ (∀ tick ∈ processed cache.ttlTicks past, tick ≤ now) ∧
      now.toNat + cache.ttlTicks.toNat < 2 ^ 64 := by
  rw [ReplayCache.ticks_iff, h.last_le]

/-- An accepted call outlives a tick exactly when its entry expires later. -/
theorem lt_reservation {call : ReserveCall} (hcall : call ∈ accepted) :
    now < (reservation cache.ttlTicks call).2 ↔ Alive cache.ttlTicks now call := by
  have hfits := h.fits call hcall
  rw [reservation, UInt64.lt_iff_toNat_lt, UInt64.toNat_add,
    Nat.mod_eq_of_lt (by simpa using hfits)]
  rfl

theorem keys : (cache.expiryOrder.map Prod.fst).Nodup := by
  rw [h.order, map_map, Nodup, pairwise_map]
  refine ((Pairwise.and_mem.mp h.spaced).filter _).imp_of_mem ?_
  rintro left right hleft - ⟨-, hmem, hspaced⟩ hsame
  refine hspaced hsame ?_
  -- the later call ran no later than the last tick, when the earlier one was alive
  have hseen := h.seen right hmem
  simp only [mem_filter] at hleft
  cases hclock : cache.lastTick with
  | none =>
    rw [h.clock] at hclock
    simp [getLast?_eq_none_iff.mp hclock] at hseen
  | some last =>
    have halive : Alive cache.ttlTicks last left := by simpa [hclock] using hleft.2
    have hle := le_of_getLast? h.rising (h.clock.symm.trans hclock) hseen
    rw [UInt64.le_iff_toNat_le] at hle
    exact Nat.lt_of_le_of_lt hle halive

theorem expiries : cache.expiryOrder.Pairwise fun left right => left.2 ≤ right.2 := by
  rw [h.order, pairwise_map]
  refine ((Pairwise.and_mem.mp h.sorted).filter _).imp ?_
  rintro left right ⟨hleft, hright, hle⟩
  have hleft := h.fits left hleft
  have hright := h.fits right hright
  rw [UInt64.le_iff_toNat_le] at hle
  rw [reservation, reservation, UInt64.le_iff_toNat_le, UInt64.toNat_add, UInt64.toNat_add,
    Nat.mod_eq_of_lt (by simpa using hleft), Nat.mod_eq_of_lt (by simpa using hright)]
  omega

/-- After the eviction exactly the accepted calls that are alive remain. -/
theorem evicted (hticks : cache.ticks now = true) :
    ({ cache with lastTick := some now }.evict now).expiryOrder =
        (accepted.filter fun call => Alive cache.ttlTicks now call).map
          (reservation cache.ttlTicks) ∧
      ({ cache with lastTick := some now }.evict now).expiryByNonce =
        ({ cache with lastTick := some now }.evict now).expiryOrder := by
  have hloop := evictLoop_same now h.keys h.expiries
  simp only [evict, h.same, hloop, and_true]
  rw [h.order, filter_map, filter_filter]
  refine congrArg _ (filter_congr fun call hcall => ?_)
  have hiff : now < (reservation cache.ttlTicks call).2 ↔ _ := h.lt_reservation hcall
  rw [Function.comp_apply]
  by_cases halive : Alive cache.ttlTicks now call
  · have hlast := (cache.ticks_iff now).mp hticks |>.1
    have hwas : cache.lastTick.all (Alive cache.ttlTicks · call) = true := by
      rw [Option.all_eq_true]
      intro last hsome
      have hle := hlast last hsome
      rw [UInt64.le_iff_toNat_le] at hle
      exact decide_eq_true (Nat.lt_of_le_of_lt hle halive)
    simp [halive, hwas, hiff.mpr halive]
  · simp [halive, mt hiff.mp halive]

theorem mem_evicted {entry : Reservation} :
    entry ∈ ({ cache with lastTick := some now }.evict now).expiryByNonce ↔
      entry ∈ cache.expiryByNonce ∧ now < entry.2 := by
  simp [evict, h.same, evictLoop_same now h.keys h.expiries]

/-- A call that passes the checks advances the clock and evicts. -/
theorem tick (hticks : cache.ticks now = true)
    (nonce : Nonce) : ({ cache with lastTick := some now }.evict now).Records
      (past ++ [(nonce, now)]) accepted := by
  obtain ⟨horder, hsame⟩ := h.evicted hticks
  have hnow := h.ticks_iff.mp hticks
  have hprocessed : processed cache.ttlTicks (past ++ [(nonce, now)]) =
      processed cache.ttlTicks past ++ [now] := by
    exact processed_of_ticks hnow
  refine ⟨?_, ?_, ?_, h.fits, h.sorted, h.spaced, ?_, hsame, ?_⟩
  · exact (congrArg List.getLast? hprocessed).trans getLast?_concat |>.symm
  · refine hprocessed ▸ pairwise_append.mpr
      ⟨h.rising, pairwise_singleton _ _, fun tick htick last hlast => ?_⟩
    rw [mem_singleton.mp hlast]
    exact hnow.1 tick htick
  · intro call hcall
    exact hprocessed ▸ mem_append_left _ (h.seen call hcall)
  · rw [horder]
    rfl
  rw [horder, length_map]
  have hwas := h.bounded
  rw [h.order, length_map] at hwas
  refine le_trans (List.Sublist.length_le ?_) hwas
  refine monotone_filter_right _ fun call halive => ?_
  have hlast := (cache.ticks_iff now).mp hticks |>.1
  rw [Option.all_eq_true]
  intro last hsome
  have hle := hlast last hsome
  rw [UInt64.le_iff_toNat_le] at hle
  exact decide_eq_true (Nat.lt_of_le_of_lt hle (of_decide_eq_true halive))

end

/-- A new reservation joins the ones that are alive. -/
theorem add {nonce : Nonce} (h : cache.Records (past ++ [(nonce, now)]) accepted)
    (hclock : cache.lastTick = some now)
    (hfits : now.toNat + cache.ttlTicks.toNat < 2 ^ 64) (hpositive : cache.ttlTicks ≠ 0)
    (hfree : ∀ call ∈ accepted, call.1 = nonce → ¬ Alive cache.ttlTicks now call)
    (hroom : cache.expiryOrder.length < cache.maxEntries) :
    { cache with
      expiryOrder := cache.expiryOrder ++ [(nonce, now + cache.ttlTicks)]
      expiryByNonce := cache.expiryByNonce ++ [(nonce, now + cache.ttlTicks)] }.Records
      (past ++ [(nonce, now)]) (accepted ++ [(nonce, now)]) := by
  have hseen : now ∈ processed cache.ttlTicks (past ++ [(nonce, now)]) :=
    mem_of_getLast? (h.clock.symm.trans hclock)
  have hold : ∀ call ∈ accepted, call.2 ≤ now := fun call hcall =>
    le_of_getLast? h.rising (h.clock.symm.trans hclock) (h.seen call hcall)
  refine ⟨h.clock, h.rising, ?_, ?_, ?_, ?_, ?_, by rw [h.same], ?_⟩
  · simpa [or_imp, forall_and, hseen] using h.seen
  · exact forall_mem_append.mpr ⟨h.fits, forall_mem_singleton.mpr hfits⟩
  · exact pairwise_append.mpr ⟨h.sorted, pairwise_singleton _ _,
      fun call hcall last hlast => mem_singleton.mp hlast ▸ hold call hcall⟩
  · exact pairwise_append.mpr ⟨h.spaced, pairwise_singleton _ _,
      fun call hcall last hlast => mem_singleton.mp hlast ▸ hfree call hcall⟩
  · have halive : Alive cache.ttlTicks now (nonce, now) := by
      have : cache.ttlTicks.toNat ≠ 0 := fun hzero =>
        hpositive (UInt64.toNat_inj.mp hzero)
      show now.toNat < now.toNat + cache.ttlTicks.toNat
      omega
    rw [h.order, filter_append, map_append, hclock]
    simp [halive, reservation]
  · simpa using Nat.succ_le_of_lt hroom

end ReplayCache.Records

namespace ReplayCache

variable {nonce : Nonce}

/-- A nonce is in the evicted map exactly when a live reservation holds it. -/
theorem Records.contains_iff (h : cache.Records past accepted)
    (hticks : cache.ticks now = true) (nonce : Nonce) :
    (({ cache with lastTick := some now }.evict now).expiryByNonce.any
        fun entry => entry.1 = nonce) = true ↔
      ¬ ∀ call ∈ accepted, call.1 = nonce → ¬ Alive cache.ttlTicks now call := by
  obtain ⟨horder, hsame⟩ := h.evicted hticks
  rw [hsame, horder]
  simp only [any_map, any_eq_true, mem_filter, decide_eq_true_eq,
    Function.comp_apply, reservation, not_forall, not_not]
  constructor
  · rintro ⟨call, ⟨hmem, halive⟩, hname⟩
    exact ⟨call, hmem, of_decide_eq_true hname, halive⟩
  rintro ⟨call, hmem, hname, halive⟩
  exact ⟨call, ⟨hmem, halive⟩, decide_eq_true hname⟩

theorem Records.size_evicted (h : cache.Records past accepted) (hticks : cache.ticks now = true) :
    ({ cache with lastTick := some now }.evict now).size =
      (accepted.filter fun call => Alive cache.ttlTicks now call).length := by
  obtain ⟨horder, hsame⟩ := h.evicted hticks
  rw [size, hsame, horder, length_map]

/-- A call is rejected before the eviction or after it, or it is accepted. -/
inductive Reserves (cache : ReplayCache) (accepted : List ReserveCall) (nonce : Nonce)
    (now : UInt64) : ReplayDecision × ReplayCache → Prop where
  | unprocessed : cache.ticks now = false → Reserves cache accepted nonce now (.rejected, cache)
  | blocked : cache.ticks now = true →
    ((∀ call ∈ accepted, call.1 = nonce → ¬ Alive cache.ttlTicks now call) →
      cache.maxEntries ≤ (accepted.filter fun call => Alive cache.ttlTicks now call).length) →
    Reserves cache accepted nonce now (.rejected, { cache with lastTick := some now }.evict now)
  | reserved {evicted} : evicted = { cache with lastTick := some now }.evict now →
    cache.ticks now = true →
    (∀ call ∈ accepted, call.1 = nonce → ¬ Alive cache.ttlTicks now call) →
    (accepted.filter fun call => Alive cache.ttlTicks now call).length < cache.maxEntries →
    Reserves cache accepted nonce now (.accepted, { evicted with
      expiryOrder := evicted.expiryOrder ++ [(nonce, now + evicted.ttlTicks)]
      expiryByNonce := evicted.expiryByNonce ++ [(nonce, now + evicted.ttlTicks)] })

theorem Records.reserves (h : cache.Records past accepted) (nonce : Nonce) (now : UInt64) :
    Reserves cache accepted nonce now (cache.reserve nonce now) := by
  unfold reserve
  split
  · exact .unprocessed (eq_false_of_ne_true ‹_›)
  rename_i hticks
  rw [not_not] at hticks
  have hcontains := h.contains_iff hticks nonce
  have hsize := h.size_evicted hticks
  dsimp only
  split
  · rename_i hblocked
    refine .blocked hticks fun hfree => ?_
    rw [hcontains, hsize] at hblocked
    exact hblocked.resolve_left (not_not.mpr hfree)
  rename_i hroom
  rw [not_or, hcontains, not_not, hsize, ge_iff_le, Nat.not_le] at hroom
  exact .reserved rfl hticks hroom.1 hroom.2

/-- When `reserve` accepts, in terms of the calls so far. -/
theorem Records.reserve_iff (h : cache.Records past accepted) :
    (cache.reserve nonce now).1 = .accepted ↔
      (∀ tick ∈ processed cache.ttlTicks past, tick ≤ now) ∧
      now.toNat + cache.ttlTicks.toNat < 2 ^ 64 ∧
      (∀ call ∈ accepted, call.1 = nonce → ¬ Alive cache.ttlTicks now call) ∧
      (accepted.filter fun call => Alive cache.ttlTicks now call).length < cache.maxEntries := by
  rw [← and_assoc, ← h.ticks_iff]
  have hcases := h.reserves nonce now
  generalize cache.reserve nonce now = result at hcases
  cases hcases with
  | unprocessed hticks => simp [hticks]
  | blocked hticks hblocked =>
    simp only [reduceCtorEq, hticks, true_and, false_iff, not_and, Nat.not_lt]
    exact hblocked
  | reserved _ hticks hfree hroom => exact iff_of_true rfl ⟨hticks, hfree, hroom⟩

/-- The record of the calls goes on with each call. -/
theorem Records.reserve (h : cache.Records past accepted)
    (hpositive : cache.ttlTicks ≠ 0) (nonce : Nonce) (now : UInt64) :
    (cache.reserve nonce now).2.Records (past ++ [(nonce, now)])
      (accepted ++ if (cache.reserve nonce now).1 = .accepted then [(nonce, now)]
        else []) := by
  have hcases := h.reserves nonce now
  generalize cache.reserve nonce now = result at hcases
  cases hcases with
  | unprocessed hticks =>
    have hprocessed : processed cache.ttlTicks (past ++ [(nonce, now)]) =
        processed cache.ttlTicks past := by
      exact processed_of_stale (mt h.ticks_iff.mpr (by simp [hticks]))
    rw [if_neg nofun, append_nil]
    exact ⟨hprocessed ▸ h.clock, hprocessed ▸ h.rising, hprocessed ▸ h.seen, h.fits,
      h.sorted, h.spaced, h.order, h.same, h.bounded⟩
  | blocked hticks =>
    rw [if_neg nofun, append_nil]
    exact h.tick hticks nonce
  | reserved hevicted hticks hfree hroom =>
    subst hevicted
    rw [if_pos rfl]
    refine (h.tick hticks nonce).add rfl (h.ticks_iff.mp hticks).2 hpositive hfree ?_
    rw [← (h.tick hticks nonce).same]
    exact (h.size_evicted hticks).trans_lt hroom

theorem reserve_bounds (cache : ReplayCache) (nonce : Nonce) (now : UInt64) :
    (cache.reserve nonce now).2.ttlTicks = cache.ttlTicks ∧
      (cache.reserve nonce now).2.maxEntries = cache.maxEntries := by
  unfold reserve
  dsimp only
  split
  · exact ⟨rfl, rfl⟩
  · split <;> exact ⟨rfl, rfl⟩

theorem after_bounds (cache : ReplayCache) (calls : List ReserveCall) :
    (cache.after calls).ttlTicks = cache.ttlTicks ∧
      (cache.after calls).maxEntries = cache.maxEntries := by
  induction calls generalizing cache with
  | nil => exact ⟨rfl, rfl⟩
  | cons call rest ih =>
    have hstep := cache.reserve_bounds call.1 call.2
    have hrest := ih (cache.reserve call.1 call.2).2
    exact ⟨hrest.1.trans hstep.1, hrest.2.trans hstep.2⟩

/-- The record holds after any sequence of calls. -/
theorem Records.after (h : cache.Records past accepted) (hpositive : cache.ttlTicks ≠ 0)
    (calls : List ReserveCall) : (cache.after calls).Records (past ++ calls)
      (accepted ++ cache.accepted calls) := by
  induction calls generalizing cache past accepted with
  | nil => simpa [ReplayCache.after, ReplayCache.accepted] using h
  | cons call rest ih =>
    have hstep := h.reserve hpositive call.1 call.2
    have hrest := ih hstep (by rwa [(cache.reserve_bounds call.1 call.2).1])
    simpa [ReplayCache.after, ReplayCache.accepted] using hrest

theorem create_positive (maxEntries : Nat) (ttlTicks : UInt64) :
    (create maxEntries ttlTicks).ttlTicks ≠ 0 := by
  intro hzero
  have hle : (1 : UInt64) ≤ max 1 ttlTicks := by
    show 1 ≤ if 1 ≤ ttlTicks then ttlTicks else 1
    split
    · assumption
    · exact UInt64.le_refl 1
  rw [show max 1 ttlTicks = 0 from hzero] at hle
  exact absurd hle (by decide)

theorem create_records (maxEntries : Nat) (ttlTicks : UInt64) :
    (create maxEntries ttlTicks).Records [] [] := by
  constructor <;> simp [create, processed]

end ReplayCache

end Records

/-- A tick from which on a reservation counts: no processed tick is later. -/
def Current (ttl : UInt64) (calls : List ReserveCall) (tick : UInt64) : Prop :=
  ∀ earlier ∈ processed ttl calls, earlier ≤ tick

/-- A call of `reserve` is accepted exactly when its tick is processed, no live
reservation holds its nonce and fewer than the bound are alive.  So no nonce is
accepted twice within its lifetime, a rejected call changes no live reservation,
the map and the queue hold the same entries, and their number is bounded. -/
theorem replay_cache_exact (maxEntries : Nat) (ttlTicks : UInt64)
    (calls : List ReserveCall) :
    let start := create maxEntries ttlTicks
    let cache := start.after calls
    let accepted := start.accepted calls
    (∀ nonce now, (cache.reserve nonce now).1 = .accepted ↔
      Current start.ttlTicks calls now ∧
      now.toNat + start.ttlTicks.toNat < 2 ^ 64 ∧
      (∀ call ∈ accepted, call.1 = nonce → ¬ Alive start.ttlTicks now call) ∧
      (accepted.filter fun call => Alive start.ttlTicks now call).length <
        start.maxEntries) ∧
    accepted.Pairwise (fun left right => left.1 = right.1 →
      left.2.toNat + start.ttlTicks.toNat ≤ right.2.toNat) ∧
    (∀ nonce now, (cache.reserve nonce now).1 = .rejected →
      ∀ tick, Current start.ttlTicks (calls ++ [(nonce, now)]) tick →
      ∀ entry : Reservation, tick < entry.2 →
        (entry ∈ (cache.reserve nonce now).2.expiryByNonce ↔
          entry ∈ cache.expiryByNonce)) ∧
    (∀ entry, entry ∈ cache.expiryByNonce ↔ entry ∈ cache.expiryOrder) ∧
    (cache.expiryByNonce.map Prod.fst).Nodup ∧ (cache.expiryOrder.map Prod.fst).Nodup ∧
    cache.size ≤ start.maxEntries := by
  intro start cache accepted
  have hrecords : cache.Records calls accepted := by
    have := (create_records maxEntries ttlTicks).after
      (create_positive maxEntries ttlTicks) calls
    simpa using this
  obtain ⟨httl, hmax⟩ := start.after_bounds calls
  have httl : cache.ttlTicks = start.ttlTicks := httl
  have hmax : cache.maxEntries = start.maxEntries := hmax
  refine ⟨fun nonce now => ?_, ?_, fun nonce now hrejected tick hcurrent entry hlive => ?_,
    fun entry => ?_, ?_, ?_, ?_⟩
  · rw [← httl, ← hmax]
    exact hrecords.reserve_iff
  · rw [← httl]
    exact hrecords.spaced.imp fun hspaced hsame => Nat.le_of_not_lt (hspaced hsame)
  · have hcases := hrecords.reserves nonce now
    generalize cache.reserve nonce now = result at hcases hrejected ⊢
    cases hcases with
    | unprocessed => exact Iff.rfl
    | blocked hticks =>
      have hnow : now ≤ tick := by
        refine hcurrent now ?_
        rw [← httl, processed_of_ticks (hrecords.ticks_iff.mp hticks)]
        exact mem_append_right _ mem_cons_self
      rw [hrecords.mem_evicted]
      exact and_iff_left (UInt64.lt_of_le_of_lt hnow hlive)
    | reserved => cases hrejected
  · rw [hrecords.same]
  · rw [hrecords.same]
    exact hrecords.keys
  · exact hrecords.keys
  · rw [size, hrecords.same, ← hmax]
    exact hrecords.bounded

def sampleNonce : Nonce := ⟨List.replicate 32 7, rfl⟩

/-- A replay of a reserved nonce is rejected and leaves the reservation alive. -/
theorem replay_cache_exact_repeat :
    (((create 4 10).after [(sampleNonce, 5)]).reserve sampleNonce 6).1 =
        .rejected ∧
      (sampleNonce, 15) ∈ (((create 4 10).after
        [(sampleNonce, 5)]).reserve sampleNonce 6).2.expiryByNonce := by
  have hrejected : (((create 4 10).after
      [(sampleNonce, 5)]).reserve sampleNonce 6).1 = .rejected := by decide +kernel
  have hcurrent : Current (create 4 10).ttlTicks
      ([(sampleNonce, 5)] ++ [(sampleNonce, 6)]) 6 := by
    have hticks : processed (create 4 10).ttlTicks
        ([(sampleNonce, 5)] ++ [(sampleNonce, 6)]) = [5, 6] := by decide +kernel
    intro tick htick
    rw [hticks, mem_cons, mem_singleton] at htick
    rcases htick with rfl | rfl <;> decide
  have hheld : (sampleNonce, 15) ∈
      ((create 4 10).after [(sampleNonce, 5)]).expiryByNonce := by decide +kernel
  have hexact := replay_cache_exact 4 10 [(sampleNonce, 5)]
  dsimp only at hexact
  obtain ⟨-, -, hkept, -⟩ := hexact
  exact ⟨hrejected, (hkept sampleNonce 6 hrejected 6 hcurrent (sampleNonce, 15)
    (by decide)).mpr hheld⟩

end Yume.Admission
