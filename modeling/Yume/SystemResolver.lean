/-
The resolver that looks host names up in a helper process.  A completion may call
the resolver again, so a state carries what the interrupted calls have still to do.
-/
import Mathlib.Data.List.Sort
import Yume.Lib.Runs
import Yume.Session.Limits

namespace Yume.Providers

open Yume.Lib Yume.Session List

/-- A lookup without a slot.  `serial` is its place in the order of acceptance. -/
structure Waiting where
  id : UInt32
  serial : Nat
deriving DecidableEq

structure Lookup extends Waiting where
  cancelled : Bool := false
deriving DecidableEq

structure Helper where
  generation : UInt32
  hello : Bool := false

/-- What a call has still to do.  `outside` is a completion that runs. -/
inductive Task where
  | outside
  | startWaiting
  | answer (lookup : Lookup)
  | fail (lookups : List Waiting) (status : Status)

/-- How `start_helper` ends; `made` when the new generation was already taken. -/
inductive Start where
  | started
  | refused (status : Status) (made : Bool)

/-- How `send_lookup` ends. -/
inductive Sending where
  | sent
  | invalid
  | full
  | broken
  | thrown

def Sending.refusal : Sending → Option Status
  | .sent => none
  | .invalid => some ⟨.invalidArgument, "invalid system lookup"⟩
  | .full => some ⟨.resourceExhausted, "system resolver helper did not accept the lookup"⟩
  | .broken => some ⟨.notFound, "system resolver helper did not accept the lookup"⟩
  | .thrown => some ⟨.resourceExhausted, ""⟩

/-- A message of the helper, as a hello and as the response to a lookup. -/
inductive Message where
  | ended
  | oversize
  | bytes (hello : Bool) (response : Option UInt32)

/-- `sent` and `completed` record the serials of the lookups sent to a helper and
the completions run, with the failures among them. -/
structure SystemResolver where
  maxOutstanding : Nat
  maxWaiting : Nat
  program : Bool := true
  closeRequested : Bool := false
  closed : Bool := false
  replacementRequested : Bool := false
  helper : Option Helper := none
  generation : UInt32 := 0
  lookups : List Lookup := []
  waiting : List Waiting := []
  cancelledLookups : Nat := 0
  lastId : UInt32 := 0
  accepted : Nat := 0
  stack : List Task := []
  sent : List Nat := []
  completed : List (Nat × Option Status) := []

open SystemResolver

namespace SystemResolver

def taken (s : SystemResolver) (id : UInt32) : Bool :=
  s.lookups.any (·.id == id) || s.waiting.any (·.id == id)

def firstFree (s : SystemResolver) : Nat → UInt32 → UInt32
  | 0, id => id
  | fuel + 1, id => if id == 0 || s.taken id then s.firstFree fuel (id + 1) else id

-- One of any `lookups.length + waiting.length + 2` identifiers is free.
def nextId (s : SystemResolver) : UInt32 :=
  s.firstFree (s.lookups.length + s.waiting.length + 1) (s.lastId + 1)

def invoke (s : SystemResolver) (serial : Nat) (failure : Option Status) : SystemResolver :=
  { s with stack := .outside :: s.stack, completed := s.completed ++ [(serial, failure)] }

def send (s : SystemResolver) (next : Waiting) : SystemResolver :=
  { s with lookups := ⟨next, false⟩ :: s.lookups, sent := s.sent ++ [next.serial] }

def startHelper (s : SystemResolver) : Start → Option Status × SystemResolver
  | .started => (none, { s with
    generation := s.generation + 1, helper := some { generation := s.generation + 1 } })
  | .refused status made =>
    (some status, { s with generation := if made then s.generation + 1 else s.generation })

def sendNew (s : SystemResolver) (sending : Sending) : Except Status UInt32 × SystemResolver :=
  match sending.refusal with
  | some status => (.error status, { s with lastId := s.nextId })
  | none => (.ok s.nextId, { s.send ⟨s.nextId, s.accepted⟩ with
    lastId := s.nextId, accepted := s.accepted + 1 })

/-- The status of a refusal, or the identifier of the accepted lookup. -/
def resolve (s : SystemResolver) (valid : Bool) (start : Start) (sending : Sending) :
    Except Status UInt32 × SystemResolver :=
  if s.closed || s.closeRequested then (.error ⟨.closed, "system resolver is closed"⟩, s)
  else if !valid then (.error ⟨.invalidArgument, "invalid system lookup"⟩, s)
  else if !s.program then (.error ⟨.failedPrecondition,
    "hostname resolution needs a resolver program or a numeric address"⟩, s)
  else if s.maxOutstanding ≤ s.lookups.length then
    if s.cancelledLookups ≠ 0 then
      (.error ⟨.resourceExhausted, "too many outstanding system lookups"⟩,
        { s with replacementRequested := true })
    else if s.maxWaiting ≤ s.waiting.length then
      (.error ⟨.resourceExhausted, "too many system lookups waiting"⟩, s)
    else (.ok s.nextId, { s with
      lastId := s.nextId, waiting := s.waiting ++ [⟨s.nextId, s.accepted⟩]
      accepted := s.accepted + 1 })
  else
    match if s.helper.isSome then (none, s) else s.startHelper start with
    | (some status, s) => (.error status, s)
    | (none, s) => s.sendNew sending

def cancel (s : SystemResolver) (generation id : UInt32) : SystemResolver :=
  if s.helper.map (·.generation) ≠ some generation then s
  else if s.waiting.any (·.id == id) then
    { s with waiting := s.waiting.eraseP (·.id == id) }
  else
    match s.lookups.find? (·.id == id) with
    | none => s
    | some lookup =>
      if lookup.cancelled then s
      else { s with
        lookups := { lookup with cancelled := true } :: s.lookups.erase lookup
        cancelledLookups := s.cancelledLookups + 1 }

def replaceHelper (s : SystemResolver) (status : Status) : SystemResolver :=
  let failed := (s.lookups.insertionSort (·.id ≤ ·.id)).filter (!·.cancelled)
  { s with
    helper := none, lookups := [], waiting := [], cancelledLookups := 0
    stack := .fail (failed.map (·.toWaiting) ++ s.waiting) status :: s.stack }

def replaceOnContext (s : SystemResolver) : SystemResolver :=
  let s := { s with replacementRequested := false }
  if s.closed || s.lookups.length < s.maxOutstanding || s.cancelledLookups == 0 then s
  else s.replaceHelper ⟨.resourceExhausted, "system resolver was replaced after stalled lookups"⟩

def closeOnContext (s : SystemResolver) : SystemResolver :=
  if s.closed then s
  else { s with closed := true }.replaceHelper ⟨.closed, "system resolver is closed"⟩

def receive (s : SystemResolver) (armed : Bool) : SystemResolver :=
  if armed then s else s.replaceHelper ⟨.resourceExhausted, ""⟩

def received (s : SystemResolver) (helper : Helper) (armed : Bool) : Message → SystemResolver
  | .ended => s.replaceHelper ⟨.notFound, "system resolver helper exited"⟩
  | .oversize => s.replaceHelper ⟨.internal, "system resolver helper sent an oversize message"⟩
  | .bytes hello response =>
    if !helper.hello then
      if !hello then
        s.replaceHelper ⟨.failedPrecondition, "resolver helper protocol mismatch"⟩
      else { s with helper := some { helper with hello := true } }.receive armed
    else
      match s.lookups.find? (fun lookup => response == some lookup.id) with
      | none =>
        s.replaceHelper ⟨.internal, "system resolver helper sent an invalid response"⟩
      | some lookup => { s with
        lookups := s.lookups.erase lookup
        cancelledLookups := s.cancelledLookups - lookup.cancelled.toNat
        stack := .startWaiting :: .answer lookup :: s.stack }.receive armed

/-- The next part of a task that was taken from the stack. -/
def exec (s : SystemResolver) (sending : Sending) : Task → SystemResolver
  | .outside => s
  | .startWaiting =>
    match s.waiting with
    | [] => s
    | next :: rest =>
      if s.helper.isSome && s.lookups.length < s.maxOutstanding then
        let s := { s with waiting := rest, stack := .startWaiting :: s.stack }
        match sending.refusal with
        | none => s.send next
        | some status => s.invoke next.serial (some status)
      else s
  | .answer lookup => if lookup.cancelled then s else s.invoke lookup.serial none
  | .fail [] _ => s
  | .fail (next :: rest) status =>
    { s with stack := .fail rest status :: s.stack }.invoke next.serial (some status)

end SystemResolver

inductive Move where
  | resolve (valid : Bool) (start : Start) (sending : Sending)
  | cancel (generation id : UInt32)
  | requestClose
  | run (sending : Sending)
  | received (message : Message) (armed : Bool)
  | replaceTask
  | closeTask

namespace SystemResolver

/-- The caller has its turn between the tasks of the context and in a completion. -/
def callable (s : SystemResolver) : Bool :=
  match s.stack with
  | [] => true
  | .outside :: _ => true
  | _ => false

def next (s : SystemResolver) : Move → SystemResolver
  | .resolve valid start sending => (s.resolve valid start sending).2
  | .cancel generation id => s.cancel generation id
  | .requestClose => { s with closeRequested := true }
  | .run sending =>
    match s.stack with
    | [] => s
    | task :: below => { s with stack := below }.exec sending task
  | .received message armed => s.helper.elim s (s.received · armed message)
  | .replaceTask => s.replaceOnContext
  | .closeTask => s.closeOnContext

def enabled (s : SystemResolver) : Move → Bool
  | .resolve .. => s.callable
  | .cancel .. => s.callable
  | .received .. => s.stack.isEmpty
  | .replaceTask => s.stack.isEmpty && s.replacementRequested
  | .closeTask => s.stack.isEmpty && s.closeRequested
  | _ => true

def step (s : SystemResolver) (move : Move) : Option SystemResolver :=
  if s.enabled move then some (s.next move) else none

/-- Lookups wait for a helper whose lookups were all cancelled, and which is not about
to be replaced. -/
def abandons (s : SystemResolver) : Bool :=
  !s.replacementRequested && !s.waiting.isEmpty && s.maxOutstanding ≤ s.lookups.length &&
    s.lookups.all (·.cancelled)

/-- The identifier is that of the last live lookup in front of those that wait, with no
replacement requested. -/
def lastLive (s : SystemResolver) (generation id : UInt32) : Bool :=
  s.helper.map (·.generation) == some generation && !s.waiting.any (·.id == id) &&
    !s.replacementRequested && !s.waiting.isEmpty && s.maxOutstanding ≤ s.lookups.length &&
    (s.lookups.find? (·.id == id)).any fun lookup =>
      !lookup.cancelled && (s.lookups.erase lookup).all (·.cancelled)

/-- A call of `resolve` would be accepted and sent while others wait. -/
def overtakes (s : SystemResolver) (valid : Bool) (sending : Sending) : Bool :=
  !(s.closed || s.closeRequested) && valid && s.program && s.lookups.length < s.maxOutstanding &&
    !s.waiting.isEmpty && sending.refusal.isNone

def considerate (s : SystemResolver) : Move → Bool
  | .resolve valid _ sending => !s.overtakes valid sending
  | .cancel generation id => !s.lastLive generation id
  | _ => true

/-- The serials of the lookups sent, of those that wait and of the next one. -/
def order (s : SystemResolver) : List Nat :=
  s.sent ++ s.waiting.map (·.serial) ++ [s.accepted]

structure Served (s : SystemResolver) : Prop where
  positive : 0 < s.maxOutstanding
  bound : s.lookups.length ≤ s.maxOutstanding
  counted : s.cancelledLookups = s.lookups.countP (·.cancelled)
  helped : s.helper = none → s.lookups = [] ∧ s.waiting = []
  full : s.waiting ≠ [] → s.lookups.length = s.maxOutstanding ∨ .startWaiting ∈ s.stack
  live : s.abandons = false
  shut : s.closed = true → s.waiting = []
  sorted : s.order.Pairwise (· < ·)

namespace Served

variable {s s' : SystemResolver} {lookup : Lookup} {task : Task} {below : List Task}

/-- What a lookup counts for among the cancelled ones and in the slots. -/
theorem count_erase (hmem : lookup ∈ s.lookups) :
    s.lookups.countP (·.cancelled) =
        (s.lookups.erase lookup).countP (·.cancelled) + lookup.cancelled.toNat ∧
      s.lookups.length = (s.lookups.erase lookup).length + 1 := by
  have hperm := perm_cons_erase hmem
  refine ⟨?_, hperm.length_eq⟩
  rw [hperm.countP_eq, countP_cons]
  cases lookup.cancelled <;> rfl

variable (h : s.Served)
include h

theorem replaced (closed replacementRequested : Bool) (status : Status) :
    ({ s with closed, replacementRequested }.replaceHelper status).Served where
  positive := h.positive
  bound := Nat.zero_le _
  counted := rfl
  helped _ := ⟨rfl, rfl⟩
  full hwaiting := absurd rfl hwaiting
  live := by simp [abandons, SystemResolver.replaceHelper]
  shut _ := rfl
  sorted := h.sorted.sublist (by simp [order, SystemResolver.replaceHelper])

theorem replaceHelper (status : Status) : (s.replaceHelper status).Served :=
  h.replaced s.closed s.replacementRequested status

theorem receive (armed : Bool) : (s.receive armed).Served := by
  unfold SystemResolver.receive
  split
  · exact h
  · exact h.replaceHelper _

theorem received (helper : Helper) (armed : Bool) (message : Message) :
    (s.received helper armed message).Served := by
  unfold SystemResolver.received
  split
  · exact h.replaceHelper _
  · exact h.replaceHelper _
  split_ifs
  · exact h.replaceHelper _
  · refine receive ?_ _
    exact { h with helped := nofun }
  split
  · exact h.replaceHelper _
  rename_i lookup hfound
  obtain ⟨hcount, hlength⟩ := count_erase (mem_of_find?_eq_some hfound)
  have hslot : (s.lookups.erase lookup).length < s.maxOutstanding :=
    hlength.symm.le.trans h.bound
  refine receive ?_ _
  exact { h with
    bound := hslot.le
    counted := Nat.sub_eq_of_eq_add (h.counted.trans hcount)
    helped := fun hnone => by simp [h.helped hnone]
    full := fun _ => .inr mem_cons_self
    live := by simp [abandons, hslot.not_ge] }

theorem cancel {generation id : UInt32}
    (hlive : (s.cancel generation id).abandons = false) : (s.cancel generation id).Served := by
  revert hlive
  unfold SystemResolver.cancel
  split_ifs
  · exact fun _ => h
  · intro hlive
    exact { h with
      helped := fun hnone => by simp [h.helped hnone]
      full := fun hwaiting => h.full fun hnone => hwaiting (by simp [hnone])
      live := hlive
      shut := fun hclosed => by simp [h.shut hclosed]
      sorted := h.sorted.sublist
        (((List.Sublist.refl _).append (eraseP_sublist.map _)).append_right _) }
  split
  · exact fun _ => h
  rename_i lookup hfound
  have hmem := mem_of_find?_eq_some hfound
  obtain ⟨hcount, hlength⟩ := count_erase hmem
  split_ifs
  · exact fun _ => h
  intro hlive
  exact { h with
    bound := hlength.symm.le.trans h.bound
    counted := by simp_all [h.counted]
    helped := fun hnone => by simp [h.helped hnone] at hmem
    full := fun hwaiting => (h.full hwaiting).imp_left hlength.symm.trans
    live := hlive }

/-- A cancel abandons those that wait exactly when it takes their last live lookup. -/
theorem cancel_abandons (generation id : UInt32) :
    (s.cancel generation id).abandons = s.lastLive generation id := by
  have hlive := h.live
  unfold SystemResolver.cancel lastLive
  split_ifs with hother hwaits
  · simp [hlive, hother]
  · rw [hwaits, Bool.not_true, Bool.and_false]
    simp only [abandons] at hlive ⊢
    cases hwaiting : s.waiting <;> simp_all
  have hgeneration := not_not.mp hother
  split
  · rename_i hnone
    simp [hnone, hlive]
  rename_i hfound
  split_ifs with hcancelled
  · simp [hfound, hcancelled, hlive]
  have hlength := (count_erase (mem_of_find?_eq_some hfound)).2
  rw [hfound, hgeneration, Bool.eq_false_iff.mpr hwaits]
  simp [abandons, hlength, hcancelled, Bool.and_assoc]

/-- An accepted lookup takes the last place in the order. -/
theorem accept : (s.order ++ [s.accepted + 1]).Pairwise (· < ·) := by
  have hsorted := h.sorted
  simp only [order, pairwise_append, mem_append, mem_singleton] at hsorted ⊢
  grind

theorem sendNew (hhelper : s.helper ≠ none)
    (hslot : s.lookups.length < s.maxOutstanding) (sending : Sending)
    (hfree : sending.refusal = none → s.waiting = []) : (s.sendNew sending).2.Served := by
  unfold SystemResolver.sendNew
  split
  · exact { h with }
  rename_i hsent
  have hwaiting := hfree hsent
  exact { h with
    bound := hslot
    counted := by simpa [send] using h.counted
    helped := fun hnone => absurd hnone hhelper
    full := fun hne => absurd hwaiting hne
    live := by simp [abandons, send]
    shut := fun _ => hwaiting
    sorted := by simpa [order, send, hwaiting] using h.accept }

theorem resolve (valid : Bool) (start : Start) (sending : Sending)
    (hok : s.overtakes valid sending = false) : (s.resolve valid start sending).2.Served := by
  unfold SystemResolver.resolve
  split_ifs with hclosed hvalid hprogram hfull hcancelled _ hhelper
  · exact h
  · exact h
  · exact h
  · exact { h with live := by simp [abandons] }
  · exact h
  · obtain ⟨lookup, hmem⟩ := exists_mem_of_length_pos (h.positive.trans_le hfull)
    have hnone : lookup.cancelled = false := by
      have hcounted := h.counted
      simp_all [countP_eq_zero]
    exact { h with
      helped := fun hnone => by simp [h.helped hnone] at hmem
      full := fun _ => .inl (Nat.le_antisymm h.bound hfull)
      live := by simp [abandons]; exact fun _ _ => ⟨lookup, hmem, hnone⟩
      shut := fun hshut => by simp [show s.closed = true from hshut] at hclosed
      sorted := by simpa [order] using h.accept }
  all_goals
    have hfree : sending.refusal = none → s.waiting = [] := by
      intro hsent
      simp only [overtakes, hsent] at hok
      simp_all
  · exact h.sendNew (Option.isSome_iff_ne_none.mp hhelper) (Nat.lt_of_not_le hfull) sending hfree
  · cases start with
    | refused => exact { h with }
    | started =>
      have hstarted : Served { s with
          generation := s.generation + 1
          helper := some { generation := s.generation + 1 } } := { h with helped := nofun }
      exact hstarted.sendNew nofun (Nat.lt_of_not_le hfull) sending hfree

/-- A lookup that is sent while others wait is out of order. -/
theorem resolve_overtakes {valid : Bool} {start : Start} {sending : Sending}
    (hbad : s.overtakes valid sending = true) :
    ¬ (s.resolve valid start sending).2.order.Pairwise (· < ·) := by
  simp only [overtakes, Bool.and_eq_true, decide_eq_true_eq] at hbad
  obtain ⟨⟨⟨⟨⟨hopen, hvalid⟩, hprogram⟩, hslot⟩, hwaits⟩, hsent⟩ := hbad
  have hhelper : s.helper.isSome = true := by
    cases hnone : s.helper with
    | none => simp [h.helped hnone] at hwaits
    | some => rfl
  have hafter : (s.resolve valid start sending).2.order =
      s.sent ++ [s.accepted] ++ s.waiting.map (·.serial) ++ [s.accepted + 1] := by
    rw [Option.isNone_iff_eq_none] at hsent
    rw [Bool.not_eq_true'] at hopen
    simp [SystemResolver.resolve, SystemResolver.sendNew, hopen, hvalid, hprogram, hslot.not_ge,
      hhelper, hsent, order, send]
  have hsorted := h.sorted
  rw [hafter]
  cases hwaiting : s.waiting with
  | nil => simp [hwaiting] at hwaits
  | cons first rest =>
    simp only [order, hwaiting, map_cons, pairwise_append, mem_append, mem_cons] at hsorted ⊢
    intro hpairs
    have hlater := hsorted.2.2 first.serial (.inr (.inl rfl)) s.accepted (by simp)
    have hearlier := hpairs.1.2.2 s.accepted (by simp) first.serial (.inl rfl)
    omega

/-- A task that starts no lookups leaves the queue to the tasks below. -/
theorem pop (hstack : s.stack = task :: below) (hother : .startWaiting ≠ task)
    (tasks : List Task) (completed : List (Nat × Option Status)) :
    Served { s with stack := tasks ++ below, completed := completed } := by
  refine { h with full := fun hwaiting => (h.full hwaiting).imp_right fun hmem => ?_ }
  rw [hstack, mem_cons] at hmem
  exact mem_append_right _ (hmem.resolve_left hother)

theorem startWaiting (sending : Sending) :
    ({ s with stack := below }.exec sending .startWaiting).Served := by
  simp only [exec]
  split
  · rename_i hwaiting
    exact { h with full := fun hne => absurd hwaiting hne }
  rename_i next rest hwaiting
  split_ifs with hslot
  · simp only [Bool.and_eq_true, decide_eq_true_eq] at hslot
    split
    · exact { h with
        bound := hslot.2
        counted := by simpa [send] using h.counted
        helped := fun hnone => by simp_all [send]
        full := fun _ => .inr mem_cons_self
        live := by simp [abandons, send]
        shut := fun hclosed => by simp [h.shut hclosed] at hwaiting
        sorted := by simpa [order, send, hwaiting] using h.sorted }
    exact { h with
      helped := fun hnone => by simp_all [invoke]
      full := fun _ => .inr (mem_cons_of_mem _ mem_cons_self)
      live := by simp [abandons, invoke, hslot.2.not_ge]
      shut := fun hclosed => by simp [h.shut hclosed] at hwaiting
      sorted := h.sorted.sublist (by simp [order, invoke, hwaiting]) }
  · refine { h with full := fun _ => .inl (Nat.le_antisymm h.bound ?_) }
    cases hhelper : s.helper with
    | none => simp [h.helped hhelper] at hwaiting
    | some => simpa [hhelper] using hslot

theorem exec (hstack : s.stack = task :: below) (sending : Sending) :
    ({ s with stack := below }.exec sending task).Served := by
  cases task with
  | startWaiting => exact h.startWaiting sending
  | outside => exact h.pop hstack nofun [] s.completed
  | answer =>
    simp only [exec]
    split
    · exact h.pop hstack nofun [] s.completed
    · exact h.pop hstack nofun [.outside] _
  | fail lookups status =>
    cases lookups with
    | nil => exact h.pop hstack nofun [] s.completed
    | cons next rest => exact h.pop hstack nofun [.outside, .fail rest status] _

theorem next {move : Move} (hok : s.considerate move = true) : (s.next move).Served := by
  cases move with
  | resolve valid start sending =>
    exact h.resolve valid start sending (by simpa [considerate] using hok)
  | cancel =>
    exact h.cancel (by rw [h.cancel_abandons]; simpa [considerate] using hok)
  | requestClose => exact { h with }
  | run sending =>
    cases hstack : s.stack with
    | nil => simpa [SystemResolver.next, hstack] using h
    | cons task below => simpa [SystemResolver.next, hstack] using h.exec hstack sending
  | received message armed =>
    cases hhelper : s.helper with
    | none => simpa [SystemResolver.next, hhelper] using h
    | some helper => simpa [SystemResolver.next, hhelper] using h.received helper armed message
  | replaceTask =>
    unfold SystemResolver.next replaceOnContext
    dsimp only
    split
    · rename_i hkept
      refine { h with live := ?_ }
      simp only [Bool.or_eq_true, decide_eq_true_eq, beq_iff_eq, or_assoc] at hkept
      rcases hkept with hclosed | hslot | hnone
      · simp [abandons, h.shut hclosed]
      · simp [abandons, hslot.not_ge]
      · have hpositive := h.positive
        have hcounted := h.counted
        cases hlookups : s.lookups <;> simp_all [abandons]
        omega
    · exact h.replaced _ _ _
  | closeTask =>
    unfold SystemResolver.next closeOnContext
    dsimp only
    split
    · exact h
    · exact h.replaced _ _ _

end Served

/-- When every call is considerate, a lookup waits only for live lookups in every
slot or for a replacement that was requested, and lookups are sent in the order of
their acceptance.  Any other call breaks the one or the other. -/
theorem waiting_lookups_are_served {maxOutstanding maxWaiting : Nat} {program : Bool}
    {s : SystemResolver} (hpositive : 0 < maxOutstanding)
    (h : Reaches step (fun s move => s.considerate move = true)
      { maxOutstanding, maxWaiting, program } s) :
    ((s.stack = [] → s.waiting ≠ [] →
      (s.lookups.length = s.maxOutstanding ∧ ∃ lookup ∈ s.lookups, lookup.cancelled = false) ∨
        s.replacementRequested = true) ∧ s.order.Pairwise (· < ·)) ∧
    ∀ move, s.considerate move = false →
      (s.next move).abandons = true ∨ ¬ (s.next move).order.Pairwise (· < ·) := by
  have hserved : s.Served := by
    refine h.invariant ⟨hpositive, Nat.zero_le _, rfl, fun _ => ⟨rfl, rfl⟩,
      fun hne => absurd rfl hne, rfl, fun _ => rfl, pairwise_singleton _ _⟩ ?_
    intro before move after _ hbefore hok hstep
    rw [← Option.some.inj (Option.ite_none_right_eq_some.mp hstep).2]
    exact hbefore.next hok
  refine ⟨⟨fun hstack hwaiting => ?_, hserved.sorted⟩, fun move hbad => ?_⟩
  · have hfull := (hserved.full hwaiting).resolve_right (by simp [hstack])
    have hlive := hserved.live
    cases hrequested : s.replacementRequested with
    | true => exact .inr rfl
    | false => exact .inl ⟨hfull, by simpa [abandons, hrequested, hwaiting, hfull] using hlive⟩
  · cases move with
    | resolve =>
      exact .inr (hserved.resolve_overtakes (by simpa [considerate] using hbad))
    | cancel generation id =>
      exact .inl ((hserved.cancel_abandons generation id).trans (by simpa [considerate] using hbad))
    | _ => cases hbad

/-- A resolver whose helper has one slot. -/
def narrow : SystemResolver where
  maxOutstanding := 1
  maxWaiting := 2

/-- Three lookups are asked for, and the first one is answered. -/
def answeredMoves : List Move :=
  List.replicate 3 (.resolve true .started .sent) ++
    [.received (.bytes true none) true, .received (.bytes false (some 1)) true]

/-- With no call running the second lookup is live and the third waits for it; to
cancel the second one then leaves the third behind. -/
theorem waiting_lookups_are_served_answered : ∃ s : SystemResolver,
    (s.stack = [] ∧ s.sent = [0, 1] ∧ s.waiting.length = 1) ∧
      (∃ lookup ∈ s.lookups, lookup.cancelled = false) ∧ s.order.Pairwise (· < ·) ∧
      (s.next (.cancel 1 2)).abandons = true := by
  have hrun : (runChecked step considerate narrow
      (answeredMoves ++ List.replicate 4 (.run .sent))).any (fun s =>
        s.stack.isEmpty && s.sent == [0, 1] && s.waiting.length == 1 &&
          !s.replacementRequested && !s.considerate (.cancel 1 2) &&
          (s.next (.cancel 1 2)).order == s.order) = true := by decide
  obtain ⟨s, hreach, hs⟩ := Reaches.exists_of_runChecked (fun _ _ h => h) _ _ hrun
  obtain ⟨⟨hwait, hsorted⟩, hbad⟩ := waiting_lookups_are_served (by decide) hreach
  simp only [Bool.and_eq_true, List.isEmpty_iff, beq_iff_eq, Bool.not_eq_true'] at hs
  obtain ⟨⟨⟨⟨⟨hstack, hsent⟩, hwaiting⟩, hrequested⟩, hcancel⟩, horder⟩ := hs
  have hlive := (hwait hstack (by simp [← length_pos_iff, hwaiting])).resolve_right
    (by simp [hrequested])
  exact ⟨s, ⟨hstack, hsent, hwaiting⟩, hlive.2, hsorted,
    (hbad _ hcancel).resolve_right (not_not.mpr (horder ▸ hsorted))⟩

/-- Cancelling the only lookup of the helper leaves those that wait to it, with no
replacement requested, and a lookup asked for by the completion of a failed start
is sent before those that wait. -/
theorem cancel_abandons_waiting :
    (∃ s, Reaches step (fun _ _ => True) narrow s ∧ s.stack = [] ∧ s.closeRequested = false ∧
      s.abandons = true) ∧
    ∃ s, Reaches step (fun _ _ => True) narrow s ∧ ¬s.order.Pairwise (· < ·) := by
  have habandoned : (runChecked step (fun _ _ => true) narrow
      [.resolve true .started .sent, .resolve true .started .sent, .cancel 1 1]).any
      (fun s => s.stack.isEmpty && !s.closeRequested && s.abandons) = true := by decide
  have hovertaken : (runChecked step (fun _ _ => true) narrow
      (answeredMoves ++ [.run .full, .resolve true .started .sent])).any
      (fun s => s.order == [0, 3, 2, 4]) = true := by decide
  obtain ⟨s, hreach, hs⟩ := Reaches.exists_of_runChecked (fun _ _ _ => trivial) _ _ habandoned
  obtain ⟨s', hreach', hs'⟩ :=
    Reaches.exists_of_runChecked (fun _ _ _ => trivial) _ _ hovertaken
  refine ⟨⟨s, hreach, by simpa [and_assoc] using hs⟩, s', hreach', ?_⟩
  rw [eq_of_beq hs']
  decide

end SystemResolver

end Yume.Providers
