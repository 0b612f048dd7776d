/-
The tables of the device translator over whole runs.

`Change` says once what an operation can do to a family's tables: move the next
port, open a connection on a free port, update one, or free one that is not
accepted.  What every run keeps follows from its four cases.
-/
import Yume.DeviceNat.Model
import Yume.Lib.Runs
import Mathlib.Logic.Relation

namespace Yume.Device

open Yume.Lib List Option Bool AList

/-- What becomes of an entry that stays.  With `once`, an entry is accepted only
while it is not accepted already. -/
inductive Entry.Next (once : Prop) (entry : Entry) : Entry → Prop where
  | reopened (expires : Int) (hphase : entry.phase = .lingering) :
    Next once entry { entry with phase := .pending, expires := expires }
  | accepted (honce : once → entry.phase ≠ .accepted) :
    Next once entry { entry with phase := .accepted, accepts := entry.accepts + 1 }
  | released (expires : Int) :
    Next once entry
      { entry with phase := .lingering, expires := expires, releases := entry.releases + 1 }

variable {entry : Entry}

theorem Entry.Next.key_eq {once : Prop} {next : Entry} (h : entry.Next once next) :
    next.key = entry.key := by
  cases h <;> rfl

/-- An entry accepted more often than released. -/
def Entry.Unreleased (entry : Entry) : Prop := entry.releases < entry.accepts

/-- Only an accepted entry is accepted more often than released. -/
def Entry.Held (entry : Entry) : Prop :=
  entry.accepts ≤ entry.releases + if entry.phase = .accepted then 1 else 0

theorem Entry.Held.accepted (h : entry.Held) (hmore : entry.Unreleased) :
    entry.phase = .accepted := by
  unfold Held at h
  unfold Unreleased at hmore
  by_contra hphase
  rw [if_neg hphase] at h
  omega

theorem Entry.Held.next {next : Entry} (h : entry.Held) (hnext : entry.Next True next) :
    next.Held := by
  unfold Held at h ⊢
  cases hnext with
  | reopened expires hphase => simpa [hphase] using h
  | accepted honce =>
    rw [if_neg (honce trivial)] at h
    simp only [if_true]
    omega
  | released expires =>
    simp only [reduceCtorEq, if_false]
    split at h <;> omega

namespace Family

variable {ipv6 : Bool} {limits : DeviceNatLimits} {once : Prop} {family before after : Family ipv6}

/-- What an operation can do to a family's tables. -/
inductive Change (limits : DeviceNatLimits) (once : Prop) : Family ipv6 → Family ipv6 → Prop where
  | moved (family : Family ipv6) (listenerPort : Nat) (nextPort : TranslatedPort) :
    Change limits once family { family with listenerPort := listenerPort, nextPort := nextPort }
  | opened (family : Family ipv6) (nextPort : TranslatedPort) (port : Nat) (key : Key)
    (expires : Int) (hport : port ∉ family.entries) (hkey : key ∉ family.ports)
    (hroom : family.size < limits.maxConnections) :
    Change limits once family { family with
        nextPort := nextPort
        entries := family.entries.insert port ⟨key, .pending, expires, 0, 0⟩
        ports := family.ports.insert key port }
  | updated (family : Family ipv6) (port : Nat) (entry next : Entry)
    (hentry : family.entries.lookup port = some entry) (hnext : entry.Next once next) :
    Change limits once family { family with entries := family.entries.insert port next }
  | freed (family : Family ipv6) (port : Nat) (entry : Entry)
    (hentry : family.entries.lookup port = some entry) (hphase : entry.phase ≠ .accepted) :
    Change limits once family { family with
        ports := family.ports.erase entry.key
        entries := family.entries.erase port }

/-- The two tables are inverse to each other and within the limit. -/
structure Consistent (limits : DeviceNatLimits) (family : Family ipv6) : Prop where
  inverse : ∀ key port, family.ports.lookup key = some port ↔
    ∃ entry, family.entries.lookup port = some entry ∧ entry.key = key
  bounded : family.size ≤ limits.maxConnections

/-- Every entry of the table is held as `Entry.Held` says. -/
def Held (family : Family ipv6) : Prop :=
  ∀ port entry, family.entries.lookup port = some entry → entry.Held

/-- An entry accepted more often than released keeps its port and its tuple. -/
def Keeps (before after : Family ipv6) : Prop :=
  ∀ port entry, before.entries.lookup port = some entry → entry.Unreleased →
    ∃ next, after.entries.lookup port = some next ∧ next.key = entry.key

variable {port : Nat} {entry : Entry} {key : Key}

theorem mem_of_lookup (h : family.entries.lookup port = some entry) : port ∈ family.entries :=
  lookup_isSome.mp (by rw [h]; rfl)

/-- What a table with one entry replaced holds. -/
theorem lookup_insert_cases {entries : AList fun _ : Nat => Entry} {port found : Nat}
    {entry held : Entry} (h : (entries.insert port entry).lookup found = some held) :
    found = port ∧ held = entry ∨ found ≠ port ∧ entries.lookup found = some held := by
  by_cases hfound : found = port
  · subst hfound
    rw [lookup_insert, some.injEq] at h
    exact .inl ⟨rfl, h.symm⟩
  rw [lookup_insert_ne hfound] at h
  exact .inr ⟨hfound, h⟩

/-- What a table with one entry erased holds. -/
theorem lookup_erase_some {entries : AList fun _ : Nat => Entry} {port found : Nat}
    {held : Entry} (h : (entries.erase port).lookup found = some held) :
    found ≠ port ∧ entries.lookup found = some held := by
  have hfound : found ≠ port := by
    rintro rfl
    rw [lookup_erase] at h
    cases h
  rw [lookup_erase_ne hfound] at h
  exact ⟨hfound, h⟩

theorem Consistent.create (addresses : DeviceAddressPair) :
    Consistent limits (Family.create ipv6 addresses) where
  inverse := by
    intro key port
    simp [Family.create]
  bounded := by simp [Family.create, size]

theorem Consistent.opened (h : family.Consistent limits)
    (hport : port ∉ family.entries) (hkey : key ∉ family.ports) (entry : Entry)
    (hentry : entry.key = key) (other : Key) (found : Nat) :
    (family.ports.insert key port).lookup other = some found ↔
      ∃ next, (family.entries.insert port entry).lookup found = some next ∧ next.key = other := by
  have hnone := lookup_eq_none.mpr hport
  have hfresh := lookup_eq_none.mpr hkey
  by_cases hother : other = key
  · subst hother
    rw [lookup_insert, some.injEq]
    constructor
    · rintro rfl
      exact ⟨entry, lookup_insert _, hentry⟩
    rintro ⟨next, hnext, hnextKey⟩
    rcases lookup_insert_cases hnext with ⟨rfl, -⟩ | ⟨-, hold⟩
    · rfl
    -- An older entry with this key would be in the table of ports.
    have := (h.inverse other found).mpr ⟨next, hold, hnextKey⟩
    rw [hfresh] at this
    cases this
  rw [lookup_insert_ne hother, h.inverse]
  constructor
  · rintro ⟨next, hnext, hnextKey⟩
    have hne : found ≠ port := by
      rintro rfl
      rw [hnone] at hnext
      cases hnext
    exact ⟨next, by rw [lookup_insert_ne hne]; exact hnext, hnextKey⟩
  rintro ⟨next, hnext, hnextKey⟩
  rcases lookup_insert_cases hnext with ⟨-, rfl⟩ | ⟨-, hold⟩
  · exact absurd (hnextKey.symm.trans hentry) hother
  · exact ⟨next, hold, hnextKey⟩

theorem Consistent.updated (h : family.Consistent limits)
    {next : Entry} (hentry : family.entries.lookup port = some entry)
    (hkey : next.key = entry.key) (key : Key) (found : Nat) :
    family.ports.lookup key = some found ↔
      ∃ held, (family.entries.insert port next).lookup found = some held ∧ held.key = key := by
  rw [h.inverse]
  by_cases hfound : found = port
  · subst hfound
    simp [hentry, hkey]
  · rw [lookup_insert_ne hfound]

theorem Consistent.freed (h : family.Consistent limits)
    (hentry : family.entries.lookup port = some entry) (key : Key) (found : Nat) :
    (family.ports.erase entry.key).lookup key = some found ↔
      ∃ held, (family.entries.erase port).lookup found = some held ∧ held.key = key := by
  have hlisted := (h.inverse entry.key port).mpr ⟨entry, hentry, rfl⟩
  by_cases hkey : key = entry.key
  · subst hkey
    rw [lookup_erase]
    constructor
    · intro hnone
      cases hnone
    rintro ⟨held, hheld, hheldKey⟩
    obtain ⟨hne, hheld⟩ := lookup_erase_some hheld
    have := (h.inverse entry.key found).mpr ⟨held, hheld, hheldKey⟩
    rw [hlisted, some.injEq] at this
    exact absurd this.symm hne
  rw [lookup_erase_ne hkey, h.inverse]
  by_cases hfound : found = port
  · subst hfound
    simp [hentry, Ne.symm hkey]
  · rw [lookup_erase_ne hfound]

theorem Change.consistent (hchange : Change limits once before after)
    (h : before.Consistent limits) : after.Consistent limits := by
  cases hchange with
  | moved => exact ⟨h.inverse, h.bounded⟩
  | opened nextPort port key expires hport hkey hroom =>
    refine ⟨h.opened hport hkey _ rfl, ?_⟩
    simp only [size, keys_insert, length_cons]
    rw [erase_of_not_mem fun hmem => hport (AList.mem_keys.mpr hmem)]
    exact hroom
  | updated port entry next hentry hnext =>
    refine ⟨h.updated hentry hnext.key_eq, ?_⟩
    have hmem := AList.mem_keys.mp (mem_of_lookup hentry)
    have hbounded := h.bounded
    have hpos := length_pos_of_mem hmem
    simp only [size, keys_insert, length_cons, length_erase_of_mem hmem]
      at hbounded ⊢
    omega
  | freed port entry hentry hphase =>
    refine ⟨h.freed hentry, ?_⟩
    have hmem := AList.mem_keys.mp (mem_of_lookup hentry)
    have hbounded := h.bounded
    simp only [size, keys_erase, length_erase_of_mem hmem] at hbounded ⊢
    omega

theorem Change.held (hchange : Change limits True before after) (h : before.Held) : after.Held := by
  intro found held hheld
  cases hchange with
  | moved => exact h found held hheld
  | opened nextPort port key expires hport hkey hroom =>
    rcases lookup_insert_cases hheld with ⟨-, rfl⟩ | ⟨-, hold⟩
    · simp [Entry.Held]
    · exact h found held hold
  | updated port entry next hentry hnext =>
    rcases lookup_insert_cases hheld with ⟨-, rfl⟩ | ⟨-, hold⟩
    · exact (h port entry hentry).next hnext
    · exact h found held hold
  | freed =>
    exact h found held (lookup_erase_some hheld).2

/-- A change leaves an entry, or a later version of it, where it was unless it
frees an entry that is not accepted. -/
theorem Change.follow (hchange : Change limits once before after)
    {found : Nat} {held : Entry} (hheld : before.entries.lookup found = some held)
    (hphase : held.phase = .accepted) :
    ∃ next, after.entries.lookup found = some next ∧ (next = held ∨ held.Next once next) := by
  cases hchange with
  | moved => exact ⟨held, hheld, .inl rfl⟩
  | opened nextPort port key expires hport =>
    have hfound : found ≠ port := by
      rintro rfl
      exact hport (mem_of_lookup hheld)
    exact ⟨held, by rw [lookup_insert_ne hfound]; exact hheld, .inl rfl⟩
  | updated port entry next hentry hnext =>
    by_cases hfound : found = port
    · subst hfound
      rw [hheld, some.injEq] at hentry
      subst hentry
      exact ⟨next, lookup_insert _, .inr hnext⟩
    · exact ⟨held, by rw [lookup_insert_ne hfound]; exact hheld, .inl rfl⟩
  | freed port entry hentry hfree =>
    have hfound : found ≠ port := by
      rintro rfl
      rw [hheld, some.injEq] at hentry
      exact hfree (hentry ▸ hphase)
    exact ⟨held, by rw [lookup_erase_ne hfound]; exact hheld, .inl rfl⟩

theorem Change.keeps (hchange : Change limits once before after)
    (h : before.Held) : before.Keeps after := by
  intro port entry hentry hmore
  obtain ⟨next, hnext, hsame⟩ := hchange.follow hentry ((h port entry hentry).accepted hmore)
  refine ⟨next, hnext, ?_⟩
  rcases hsame with rfl | hlater
  · rfl
  · exact hlater.key_eq

/-! ### The operations -/

theorem allocateFrom_spec (key : Key) (now : Int) (tries : Nat) (family : Family ipv6) :
    (∃ nextPort, allocateFrom limits key now tries family =
        ({ family with nextPort := nextPort }, none) ∧
        ∀ index < tries, (portAfter^[index] family.nextPort).val ∈ family.entries) ∨
      ∃ nextPort, ∃ port, port ∉ family.entries ∧
        allocateFrom limits key now tries family = ({ family with
              nextPort := nextPort
              entries := family.entries.insert port ⟨key, .pending, now + limits.pending, 0, 0⟩
              ports := family.ports.insert key port },
            some port) := by
  induction tries generalizing family with
  | zero => exact .inl ⟨family.nextPort, rfl, by simp⟩
  | succ tries ih =>
    by_cases hused : family.nextPort.val ∈ family.entries
    · simp only [allocateFrom, if_pos hused]
      rcases ih { family with nextPort := portAfter family.nextPort } with
        ⟨nextPort, hnone, hall⟩ | ⟨nextPort, port, hport, hsome⟩
      · refine .inl ⟨nextPort, hnone, ?_⟩
        intro index hindex
        cases index with
        | zero => exact hused
        | succ index => exact hall index (by omega)
      · exact .inr ⟨nextPort, port, hport, hsome⟩
    · simp only [allocateFrom, if_neg hused]
      exact .inr ⟨_, _, hused, rfl⟩

theorem portAfter_val (port : TranslatedPort) :
    (portAfter port).val = if port.val = lastPort then firstPort else port.val + 1 := by
  unfold portAfter
  split <;> rfl

/-- The ports come round in order. -/
theorem portAfter_iterate (port : TranslatedPort) (count : Nat) :
    (portAfter^[count] port).val = firstPort + (port.val - firstPort + count) % 64512 := by
  induction count with
  | zero =>
    have := port.property
    simp only [firstPort, lastPort, Function.iterate_zero, id_eq] at this ⊢
    omega
  | succ count ih =>
    rw [Function.iterate_succ_apply', portAfter_val]
    split <;> rename_i hlast <;> simp only [firstPort, lastPort] at ih hlast ⊢ <;> omega

theorem exists_portAfter_iterate (start : TranslatedPort) (hfirst : firstPort ≤ port)
    (hlast : port ≤ lastPort) :
    ∃ count < lastPort - firstPort + 1, (portAfter^[count] start).val = port := by
  have := start.property
  refine ⟨(port + 64512 - start.val) % 64512, ?_, ?_⟩
  · simp only [firstPort, lastPort]
    omega
  rw [portAfter_iterate]
  simp only [firstPort, lastPort] at this hfirst hlast ⊢
  omega

theorem allocate_change (family : Family ipv6) (now : Int) (hkey : key ∉ family.ports) :
    Change limits once family (family.allocate limits key now).1 := by
  unfold allocate
  split
  · exact .moved family family.listenerPort family.nextPort
  rename_i hroom
  rcases allocateFrom_spec key now (lastPort - firstPort + 1) family with
    ⟨nextPort, hnone, -⟩ | ⟨nextPort, port, hport, hsome⟩
  · rw [hnone]
    exact .moved family family.listenerPort nextPort
  rw [hsome]
  exact .opened family nextPort port key _ hport hkey (by omega)

theorem allocate_refuses {now : Int} (hnone : (family.allocate limits key now).2 = none) :
    limits.maxConnections ≤ family.size ∨
      ∀ port, firstPort ≤ port → port ≤ lastPort → port ∈ family.entries := by
  unfold allocate at hnone
  split at hnone
  · rename_i hfull
    exact .inl hfull
  refine .inr fun port hfirst hlast => ?_
  rcases allocateFrom_spec key now (lastPort - firstPort + 1) family with
    ⟨nextPort, -, hall⟩ | ⟨nextPort, found, -, hsome⟩
  · obtain ⟨count, hcount, rfl⟩ := exists_portAfter_iterate family.nextPort hfirst hlast
    exact hall count hcount
  rw [hsome] at hnone
  cases hnone

theorem Change.refl (family : Family ipv6) : Change limits once family family :=
  .moved family family.listenerPort family.nextPort

theorem reopen_change (opening : Bool)
    (now : Int) (hentry : family.entries.lookup port = some entry) :
    Change limits once family (family.reopen limits port entry opening now) := by
  unfold reopen
  split
  · rename_i hopen
    simp only [and_eq_true, beq_iff_eq] at hopen
    exact .updated family port entry _ hentry (.reopened _ hopen.2)
  · exact .refl family

theorem route_change (family : Family ipv6) (segment : Segment) (now : Int) :
    Change limits once family (family.route limits segment now).1 := by
  unfold route
  split
  · split
    · exact .refl family
    · split <;> exact .refl family
  split
  · exact .refl family
  split
  · split
    · exact .refl family
    rename_i hentry
    exact reopen_change _ now hentry
  rename_i hkey
  split
  · have hchange : Change limits once family (family.allocate limits segment.key now).1 :=
      allocate_change family now (lookup_eq_none.mp hkey)
    split <;> rename_i halloc <;> rw [halloc] at hchange <;> exact hchange
  · split <;> exact .refl family

theorem accept_change (family : Family ipv6) (port : Nat)
    (honce : once → ∀ entry, family.entries.lookup port = some entry → entry.phase ≠ .accepted) :
    Change limits once family (family.accept port).1 := by
  unfold accept
  split
  · exact .refl family
  rename_i entry hentry
  exact .updated family port entry _ hentry (.accepted fun h => honce h entry hentry)

theorem release_change (family : Family ipv6) (port : Nat) (now : Int) :
    Change limits once family (family.release limits port now) := by
  unfold release
  split
  · exact .refl family
  rename_i entry hentry
  exact .updated family port entry _ hentry (.released _)

theorem sweepPort_change (family : Family ipv6) (port : Nat) (now : Int) :
    Change limits once family (sweepPort now family port) := by
  unfold sweepPort
  split
  · exact .refl family
  rename_i entry hentry
  split
  · rename_i hexpired
    simp only [expired, and_eq_true, bne_iff_ne] at hexpired
    exact .freed family port entry hentry hexpired.1
  · exact .refl family

/-- What every single change keeps, a sweep keeps. -/
theorem sweep_induction {P : Family ipv6 → Prop} (now : Int)
    (hstep : ∀ before after, Change limits once before after → P before → P after)
    (h : P family) : P (family.sweep now) := by
  unfold sweep
  generalize family.entries.keys = ports
  induction ports generalizing family with
  | nil => exact h
  | cons port rest ih => exact ih (hstep _ _ (sweepPort_change family port now) h)

theorem sweepPort_lookup {found : Nat} {held : Entry} (now : Int)
    (port : Nat) (hheld : family.entries.lookup found = some held)
    (hphase : held.phase = .accepted) :
    (sweepPort now family port).entries.lookup found = some held := by
  unfold sweepPort
  split
  · exact hheld
  rename_i entry hentry
  split
  · rename_i hexpired
    simp only [expired, and_eq_true, bne_iff_ne] at hexpired
    have hfound : found ≠ port := by
      rintro rfl
      rw [hheld, some.injEq] at hentry
      exact hexpired.1 (hentry ▸ hphase)
    exact (lookup_erase_ne hfound).trans hheld
  · exact hheld

theorem sweep_keeps (now : Int) (h : family.Held) : family.Keeps (family.sweep now) := by
  intro port entry hentry hmore
  have hphase := (h port entry hentry).accepted hmore
  refine ⟨entry, ?_, rfl⟩
  unfold sweep
  generalize family.entries.keys = ports
  clear h
  induction ports generalizing family with
  | nil => exact hentry
  | cons swept rest ih => exact ih (sweepPort_lookup now swept hentry hphase)

/-- What one call does to a family's tables: a change, or a sweep. -/
def Step (limits : DeviceNatLimits) (once : Prop) (before after : Family ipv6) : Prop :=
  Change limits once before after ∨ ∃ now, after = before.sweep now

theorem Step.refl (family : Family ipv6) : Step limits once family family := .inl (.refl family)

theorem Step.consistent (hstep : Step limits once before after)
    (h : before.Consistent limits) : after.Consistent limits := by
  rcases hstep with hchange | ⟨now, rfl⟩
  · exact hchange.consistent h
  · exact sweep_induction now (fun _ _ (hchange : Change limits once _ _) => hchange.consistent) h

theorem Step.held (hstep : Step limits True before after) (h : before.Held) : after.Held := by
  rcases hstep with hchange | ⟨now, rfl⟩
  · exact hchange.held h
  · exact sweep_induction now (fun _ _ (hchange : Change limits True _ _) => hchange.held) h

theorem Step.keeps (hstep : Step limits once before after)
    (h : before.Held) : before.Keeps after := by
  rcases hstep with hchange | ⟨now, rfl⟩
  · exact hchange.keeps h
  · exact sweep_keeps now h

end Family

/-! ### Runs -/

namespace DeviceNat

/-- The calls on a translator. -/
inductive Move where
  | setListenerPorts (ipv4 ipv6 : Nat)
  | translate (packet : Bytes) (now : Int)
  | accept (ipv6 : Bool) (port : Nat)
  | release (ipv6 : Bool) (port : Nat) (now : Int)
  | sweep (now : Int)
  | buildReply (ipv6 : Bool) (source : DeviceAddress) (sourcePort destinationPort : Nat)
    (payload : Bytes) (mtu : Nat) (out : Bytes)
deriving DecidableEq

def step (nat : DeviceNat) : Move → Option DeviceNat
  | .setListenerPorts ipv4 ipv6 => some (nat.setListenerPorts ipv4 ipv6)
  | .translate packet now => (nat.translate packet now).map Prod.fst
  | .accept ipv6 port => some (nat.accept ipv6 port).1
  | .release ipv6 port now => some (nat.release ipv6 port now)
  | .sweep now => some (nat.sweep now)
  | .buildReply ipv6 source sourcePort destinationPort payload mtu out =>
    (nat.buildReply ipv6 source sourcePort destinationPort payload mtu out).map Prod.fst

/-- An accept is for a connection that is not accepted already. -/
def AcceptsOnce (nat : DeviceNat) : Move → Prop
  | .accept ipv6 port => ∀ family, nat.family ipv6 = some family →
    ∀ entry, family.entries.lookup port = some entry → entry.phase ≠ .accepted
  | _ => True

/-- The translators that calls reach from a new one. -/
abbrev Reached (ipv4 ipv6 : Option DeviceAddressPair) (limits : DeviceNatLimits)
    (ok : DeviceNat → Move → Prop) : DeviceNat → Prop :=
  Reaches step ok (create ipv4 ipv6 limits)

/-- Each family of one translator against the same family of another. -/
def Families (R : {ipv6 : Bool} → Family ipv6 → Family ipv6 → Prop) (nat after : DeviceNat) : Prop :=
  ∀ ipv6, Option.Rel R (nat.family ipv6) (after.family ipv6)

/-- What a call does: the limits stay, and each family takes a step. -/
structure Follows (once : Prop) (nat after : DeviceNat) : Prop where
  limits_eq : after.limits = nat.limits
  families : Families (Family.Step nat.limits once) nat after

variable {once : Prop} {nat after : DeviceNat} {ipv6 : Bool}

theorem Families.refl {R : {ipv6 : Bool} → Family ipv6 → Family ipv6 → Prop}
    (hrefl : ∀ (ipv6 : Bool) (family : Family ipv6), R family family) (nat : DeviceNat) :
    Families R nat nat := by
  intro ipv6
  cases nat.family ipv6 with
  | none => exact .none
  | some family => exact .some (hrefl ipv6 family)

theorem Follows.refl (once : Prop) (nat : DeviceNat) : Follows once nat nat :=
  ⟨rfl, Families.refl (fun _ family => Family.Step.refl family) nat⟩

/-- A translator's identification counter is no part of its tables. -/
theorem Follows.identification (h : Follows once nat after) (identification : Nat) :
    Follows once nat { after with nextIdentification := identification } := by
  refine ⟨h.limits_eq, fun ipv6 => ?_⟩
  have := h.families ipv6
  cases ipv6 <;> exact this

theorem Follows.setFamily {family after : Family ipv6} (hfamily : nat.family ipv6 = some family)
    (hstep : Family.Step nat.limits once family after) :
    Follows once nat (nat.setFamily ipv6 after) := by
  have hsame := (Follows.refl once nat).families
  cases ipv6 with
  | false =>
    refine ⟨rfl, fun version => ?_⟩
    cases version with
    | false =>
      rw [hfamily]
      exact .some hstep
    | true => exact hsame true
  | true =>
    refine ⟨rfl, fun version => ?_⟩
    cases version with
    | false => exact hsame false
    | true =>
      rw [hfamily]
      exact .some hstep

/-- A call that leaves the translator as it was. -/
theorem Follows.of_same {α : Type*} {result other : α}
    (h : some (nat, result) = some (after, other)) : Follows once nat after := by
  cases h
  exact .refl once nat

theorem translateTcp_follows {family : Family ipv6} {packet : Bytes} {header : Nat} {now : Int}
    {result : DevicePacket}
    (hfamily : nat.family ipv6 = some family)
    (h : nat.translateTcp family packet header now = some (after, result)) :
    Follows once nat after := by
  unfold translateTcp at h
  split at h
  · exact .of_same h
  obtain ⟨segment, -, h⟩ := bind_eq_some_iff.mp h
  have hmoved : Follows once nat (nat.setFamily ipv6 (family.route nat.limits segment now).1) :=
    .setFamily hfamily (.inl (Family.route_change family segment now))
  dsimp only at h
  split at h
  · cases h
    exact hmoved
  · cases h
    exact hmoved
  · obtain ⟨reset, -, h⟩ := bind_eq_some_iff.mp h
    split at h
    · cases h
      exact hmoved
    cases h
    exact hmoved.identification _
  · obtain ⟨written, -, h⟩ := bind_eq_some_iff.mp h
    cases h
    exact hmoved

theorem translate_follows {packet : Bytes} {now : Int} {result : DevicePacket}
    (h : nat.translate packet now = some (after, result)) : Follows once nat after := by
  unfold translate at h
  split at h
  · exact .of_same h
  obtain ⟨first, -, h⟩ := bind_eq_some_iff.mp h
  dsimp only at h
  split at h
  · exact .of_same h
  split at h
  · exact .of_same h
  rename_i hfamily
  obtain ⟨ip, -, h⟩ := bind_eq_some_iff.mp h
  split at h
  · exact .of_same h
  split at h
  · exact .of_same h
  obtain ⟨source, -, h⟩ := bind_eq_some_iff.mp h
  split at h
  · exact .of_same h
  split at h
  · exact translateTcp_follows hfamily h
  split at h
  · exact .of_same h
  obtain ⟨datagram, -, h⟩ := bind_eq_some_iff.mp h
  exact .of_same h

theorem accept_follows (nat : DeviceNat) (ipv6 : Bool) (port : Nat)
    (honce : once → nat.AcceptsOnce (.accept ipv6 port)) :
    Follows once nat (nat.accept ipv6 port).1 := by
  unfold accept
  split
  · exact .refl once nat
  rename_i family hfamily
  exact .setFamily hfamily (.inl (Family.accept_change family port fun h => honce h family hfamily))

theorem release_follows (nat : DeviceNat) (ipv6 : Bool) (port : Nat) (now : Int) :
    Follows once nat (nat.release ipv6 port now) := by
  unfold release
  split
  · exact .refl once nat
  rename_i family hfamily
  exact .setFamily hfamily (.inl (Family.release_change family port now))

/-- A call that does one thing to each family. -/
theorem follows_of_map (hlimits : after.limits = nat.limits)
    (f : {ipv6 : Bool} → Family ipv6 → Family ipv6)
    (hf : ∀ (ipv6 : Bool) (family : Family ipv6), Family.Step nat.limits once family (f family))
    (hmap : ∀ ipv6, after.family ipv6 = (nat.family ipv6).map f) : Follows once nat after := by
  refine ⟨hlimits, fun ipv6 => ?_⟩
  rw [hmap ipv6]
  cases nat.family ipv6 with
  | none => exact .none
  | some family => exact .some (hf ipv6 family)

theorem sweep_follows (nat : DeviceNat) (now : Int) : Follows once nat (nat.sweep now) :=
  follows_of_map rfl (Family.sweep · now) (fun _ _ => .inr ⟨now, rfl⟩) (by
    intro ipv6
    cases ipv6 <;> rfl)

theorem setListenerPorts_follows (nat : DeviceNat) (ipv4 ipv6 : Nat) :
    Follows once nat (nat.setListenerPorts ipv4 ipv6) :=
  follows_of_map rfl (fun {version} family =>
      { family with listenerPort := if version then ipv6 else ipv4 })
    (fun _ family => .inl (.moved family _ family.nextPort)) (by
      intro version
      cases version <;> rfl)

theorem buildReply_follows {source : DeviceAddress} {sourcePort destinationPort mtu : Nat}
    {payload out : Bytes} {result : Option Bytes}
    (h : nat.buildReply ipv6 source sourcePort destinationPort payload mtu out =
      some (after, result)) : Follows once nat after := by
  unfold buildReply at h
  dsimp only at h
  split at h
  · exact .of_same h
  split at h
  · exact .of_same h
  obtain ⟨written, -, h⟩ := bind_eq_some_iff.mp h
  cases h
  exact (Follows.refl once nat).identification _

theorem step_follows {move : Move}
    (honce : once → nat.AcceptsOnce move) (h : nat.step move = some after) :
    Follows once nat after := by
  cases move with
  | setListenerPorts ipv4 ipv6 =>
    cases h
    exact setListenerPorts_follows nat ipv4 ipv6
  | translate =>
    obtain ⟨⟨_, result⟩, hresult, rfl⟩ := map_eq_some_iff.mp h
    exact translate_follows hresult
  | accept ipv6 port =>
    cases h
    exact accept_follows nat ipv6 port honce
  | release ipv6 port now =>
    cases h
    exact release_follows nat ipv6 port now
  | sweep now =>
    cases h
    exact sweep_follows nat now
  | buildReply =>
    obtain ⟨⟨_, result⟩, hresult, rfl⟩ := map_eq_some_iff.mp h
    exact buildReply_follows hresult

/-- The tables of every family are consistent. -/
structure Invariant (limits : DeviceNatLimits) (nat : DeviceNat) : Prop where
  limits_eq : nat.limits = limits
  consistent : ∀ ipv6 family, nat.family ipv6 = some family → family.Consistent limits

/-- Every entry of every family is held. -/
def Held (nat : DeviceNat) : Prop := ∀ ipv6 family, nat.family ipv6 = some family → family.Held

theorem create_family {ipv4 ipv6 : Option DeviceAddressPair} {limits : DeviceNatLimits}
    {version : Bool} {family : Family version}
    (h : (create ipv4 ipv6 limits).family version = some family) :
    ∃ addresses, family = Family.create version addresses := by
  cases version with
  | false | true =>
    obtain ⟨addresses, -, rfl⟩ := map_eq_some_iff.mp h
    exact ⟨addresses, rfl⟩

theorem Follows.before (h : Follows once nat after) {family : Family ipv6}
    (hfamily : after.family ipv6 = some family) :
    ∃ before, nat.family ipv6 = some before ∧ Family.Step nat.limits once before family := by
  have hrel := h.families ipv6
  rw [hfamily] at hrel
  generalize hbefore : nat.family ipv6 = found at hrel
  cases hrel with
  | some hstep => exact ⟨_, rfl, hstep⟩

theorem Invariant.reached {ipv4 ipv6 : Option DeviceAddressPair} {limits : DeviceNatLimits}
    {ok : DeviceNat → Move → Prop} (h : Reached ipv4 ipv6 limits ok nat) :
    Invariant limits nat := by
  refine h.invariant ⟨rfl, fun version family hfamily => ?_⟩ fun before move after _ hinv _ hstep => ?_
  · obtain ⟨addresses, rfl⟩ := create_family hfamily
    exact .create addresses
  have hfollows : Follows False before after := step_follows False.elim hstep
  refine ⟨hfollows.limits_eq.trans hinv.limits_eq, fun version family hfamily => ?_⟩
  obtain ⟨old, hold, hchange⟩ := hfollows.before hfamily
  rw [hinv.limits_eq] at hchange
  exact hchange.consistent (hinv.consistent version old hold)

theorem Held.reached {ipv4 ipv6 : Option DeviceAddressPair} {limits : DeviceNatLimits}
    (h : Reached ipv4 ipv6 limits AcceptsOnce nat) : nat.Held := by
  refine h.invariant (fun version family hfamily => ?_) fun before move after _ hheld honce hstep => ?_
  · obtain ⟨addresses, rfl⟩ := create_family hfamily
    intro port entry hentry
    cases hentry
  have hfollows : Follows True before after := step_follows (fun _ => honce) hstep
  intro version family hfamily
  obtain ⟨old, hold, hchange⟩ := hfollows.before hfamily
  exact hchange.held (hheld version old hold)

theorem Held.keeps (h : nat.Held)
    (hfollows : Follows once nat after) : Families Family.Keeps nat after := by
  intro ipv6
  have hrel := hfollows.families ipv6
  generalize hbefore : nat.family ipv6 = found at hrel ⊢
  generalize after.family ipv6 = next at hrel ⊢
  cases hrel with
  | none => exact .none
  | some hstep => exact .some (hstep.keeps (h ipv6 _ hbefore))

end DeviceNat

/-- A SYN to a destination beyond the device whose tuple the tables do not know. -/
structure Family.UnknownOpening {ipv6 : Bool} (family : Family ipv6) (segment : Segment) :
    Prop where
  opening : segment.opening = true
  beyond : same ipv6 segment.destination.val family.addresses.peer = false ∧
    same ipv6 segment.destination.val family.addresses.device = false
  ports : segment.sourcePort ≠ 0 ∧ segment.destinationPort ≠ 0
  unknown : segment.key ∉ family.ports

theorem Family.UnknownOpening.route_eq {ipv6 : Bool} {family : Family ipv6} {segment : Segment}
    (h : family.UnknownOpening segment) (limits : DeviceNatLimits) (now : Int) :
    (family.route limits segment now).2 =
      match (family.allocate limits segment.key now).2 with
      | some port => .rewrite family.addresses.peer port family.listenerPort
      | none => .drop := by
  have hkey := lookup_eq_none.mpr h.unknown
  simp only [route, h.beyond.1, h.beyond.2, h.ports.1, h.ports.2, hkey, h.opening, false_eq_true,
    if_false, if_true, Bool.false_or, beq_iff_eq, or_eq_true, or_self_iff]
  split <;> rename_i halloc <;> rw [halloc]

/-- A SYN of an unknown tuple that is dropped found the family full or every
port in use. -/
theorem DeviceNat.translateTcp_refuses {nat after : DeviceNat} {ipv6 : Bool}
    {family : Family ipv6} {packet : Bytes} {header : Nat} {now : Int} {segment : Segment}
    (hlength : tcpHeader ≤ packet.length - header) (hlistener : family.listenerPort ≠ 0)
    (hsegment : readSegment ipv6 packet header = some segment)
    (hopening : family.UnknownOpening segment)
    (h : nat.translateTcp family packet header now = some (after, .drop)) :
    nat.limits.maxConnections ≤ family.size ∨
      ∀ port, firstPort ≤ port → port ≤ lastPort → port ∈ family.entries := by
  have hroute := hopening.route_eq nat.limits now
  unfold translateTcp at h
  rw [if_neg (by simp [hlistener]; omega), hsegment] at h
  cases halloc : (family.allocate nat.limits segment.key now).2 with
  | none => exact Family.allocate_refuses halloc
  | some =>
    rw [halloc] at hroute
    simp only [bind_eq_bind, bind_some, hroute] at h
    obtain ⟨written, -, h⟩ := bind_eq_some_iff.mp h
    cases h

namespace DeviceNat

/-- Over every run the tables are inverse to each other and within the limit,
and a SYN of an unknown tuple is refused only by a full family.  As long as no
connection is accepted while it is accepted already, one that was accepted more
often than released keeps its port and its tuple. -/
theorem table_consistent (ipv4 ipv6 : Option DeviceAddressPair) (limits : DeviceNatLimits) :
    (∀ nat, Reached ipv4 ipv6 limits (fun _ _ => True) nat →
      ∀ (version : Bool) (family : Family version), nat.family version = some family →
        family.Consistent limits ∧
          ∀ packet header now segment after, tcpHeader ≤ packet.length - header →
            family.listenerPort ≠ 0 → readSegment version packet header = some segment →
            family.UnknownOpening segment →
            nat.translateTcp family packet header now = some (after, .drop) →
            family.size = limits.maxConnections ∨
              ∀ port, firstPort ≤ port → port ≤ lastPort → port ∈ family.entries) ∧
    ∀ nat, Reached ipv4 ipv6 limits AcceptsOnce nat →
      ∀ move after, nat.AcceptsOnce move → nat.step move = some after →
        Families Family.Keeps nat after := by
  constructor
  · intro nat hreached version family hfamily
    have hinv := Invariant.reached hreached
    have hconsistent := hinv.consistent version family hfamily
    refine ⟨hconsistent, ?_⟩
    intro packet header now segment after hlength hlistener hsegment hopening hdrop
    have hfull := translateTcp_refuses hlength hlistener hsegment hopening hdrop
    rw [hinv.limits_eq] at hfull
    exact hfull.imp_left fun h => le_antisymm hconsistent.bounded h
  · intro nat hreached move after honce hstep
    have hfollows : Follows True nat after := step_follows (fun _ => honce) hstep
    exact (Held.reached hreached).keeps hfollows

/-- The device 10.0.0.1 with the peer 10.0.0.2. -/
def sampleAddresses : DeviceAddressPair where
  device := ⟨[10, 0, 0, 1, 0, 0, 0, 0, 0, 0, 0, 0, 0, 0, 0, 0], rfl⟩
  peer := ⟨[10, 0, 0, 2, 0, 0, 0, 0, 0, 0, 0, 0, 0, 0, 0, 0], rfl⟩

/-- A SYN from port 4000 of the device to port 80 of 1.2.3.4. -/
def sampleSyn : Bytes :=
  [0x45, 0, 0, 40, 0, 0, 0x40, 0, 64, 6, 0, 0, 10, 0, 0, 1, 1, 2, 3, 4,
    0x0f, 0xa0, 0, 80, 0, 0, 0, 1, 0, 0, 0, 0, 0x50, 0x02, 0, 0, 0, 0, 0, 0]

def sampleLimits : DeviceNatLimits := ⟨4096, 60000, 15000⟩

/-- The entry on the first port is accepted more often than released. -/
def holdsFirst (nat : DeviceNat) : Bool :=
  nat.ipv4.any fun family =>
    (family.entries.lookup firstPort).any fun entry => decide (entry.releases < entry.accepts)

/-- `AcceptsOnce`, as a test. -/
def acceptsOnce (nat : DeviceNat) : Move → Bool
  | .accept ipv6 port => (nat.family ipv6).all fun family =>
    (family.entries.lookup port).all fun entry => entry.phase != .accepted
  | _ => true

theorem AcceptsOnce.of_test (nat : DeviceNat) (move : Move) (h : nat.acceptsOnce move = true) :
    nat.AcceptsOnce move := by
  cases move with
  | accept =>
    intro family hfamily entry hentry
    simpa [acceptsOnce, hfamily, hentry] using h
  | _ => trivial

/-- A family that may hold no connection. -/
def fullFamily : Family false := { Family.create false sampleAddresses with listenerPort := 9000 }

def fullLimits : DeviceNatLimits := { sampleLimits with maxConnections := 0 }

def sampleSegment : Segment :=
  ⟨⟨[1, 2, 3, 4, 0, 0, 0, 0, 0, 0, 0, 0, 0, 0, 0, 0], rfl⟩, 4000, 80, 0x02⟩

theorem sampleSegment_unknown : fullFamily.UnknownOpening sampleSegment where
  opening := by decide
  beyond := by decide
  ports := by decide
  unknown := by decide

/-- An accepted connection outlives a sweep, and a family without room refuses a
SYN. -/
theorem table_consistent_sample :
    (∃ nat, Reached (some sampleAddresses) none sampleLimits AcceptsOnce nat ∧
      nat.holdsFirst = true ∧ Families Family.Keeps nat (nat.sweep 1000000)) ∧
    fullFamily.Consistent fullLimits ∧
    (fullFamily.size = 0 ∨
      ∀ port, firstPort ≤ port → port ≤ lastPort → port ∈ fullFamily.entries) := by
  constructor
  · have hrun : (runChecked step acceptsOnce (create (some sampleAddresses) none sampleLimits)
        [.setListenerPorts 9000 0, .translate sampleSyn 0, .accept false firstPort]).any
        holdsFirst = true := by decide
    obtain ⟨nat, hreached, htest⟩ := Reaches.exists_of_runChecked AcceptsOnce.of_test _ _ hrun
    exact ⟨nat, hreached, htest,
      (table_consistent _ _ _).2 nat hreached (.sweep 1000000) _ trivial rfl⟩
  have hreached : Reached (some sampleAddresses) none fullLimits (fun _ _ => True)
      ((create (some sampleAddresses) none fullLimits).setListenerPorts 9000 0) :=
    .tail .refl trivial (show step _ (.setListenerPorts 9000 0) = _ from rfl)
  obtain ⟨hconsistent, hrefuses⟩ :=
    (table_consistent _ _ _).1 _ hreached false fullFamily rfl
  exact ⟨hconsistent, hrefuses sampleSyn 20 0 sampleSegment _ (by decide) (by decide) rfl
    sampleSegment_unknown rfl⟩

/-- A sweep frees the first port. -/
def sweepFreesFirst (nat : DeviceNat) (now : Int) : Bool :=
  nat.ipv4.any fun family => ((family.sweep now).entries.lookup firstPort).isNone

theorem not_keeps_of_sweepFreesFirst {nat : DeviceNat} {now : Int} (hholds : nat.holdsFirst = true)
    (hfrees : nat.sweepFreesFirst now = true) : ¬Families Family.Keeps nat (nat.sweep now) := by
  intro hkeeps
  have hrel := hkeeps false
  cases hfamily : nat.ipv4 with
  | none => simp [holdsFirst, hfamily] at hholds
  | some family =>
    simp only [holdsFirst, sweepFreesFirst, hfamily, any_some, Option.any_eq_true,
      decide_eq_true_eq] at hholds hfrees
    obtain ⟨entry, hentry, hmore⟩ := hholds
    simp only [DeviceNat.family, sweep, hfamily, map_some] at hrel
    cases hrel with
    | some hfamilies =>
      obtain ⟨next, hnext, -⟩ := hfamilies firstPort entry hentry hmore
      rw [hnext] at hfrees
      cases hfrees

/-- A connection that is accepted a second time before its first release is freed
after one release, although one of its two accepts was not released. -/
theorem accepted_twice_swept :
    ∃ nat, Reached (some sampleAddresses) none sampleLimits (fun _ _ => True) nat ∧
      nat.step (.sweep 15000) = some (nat.sweep 15000) ∧
      ¬Families Family.Keeps nat (nat.sweep 15000) := by
  have hrun : (runChecked step (fun _ _ => true) (create (some sampleAddresses) none sampleLimits)
      [.setListenerPorts 9000 0, .translate sampleSyn 0, .accept false firstPort,
        .accept false firstPort, .release false firstPort 0]).any
      (fun nat => nat.holdsFirst && nat.sweepFreesFirst 15000) = true := by decide
  obtain ⟨nat, hreached, htest⟩ :=
    Reaches.exists_of_runChecked (fun _ _ _ => trivial) _ _ hrun
  rw [and_eq_true] at htest
  exact ⟨nat, hreached, rfl, not_keeps_of_sweepFreesFirst htest.1 htest.2⟩

end DeviceNat

end Yume.Device
