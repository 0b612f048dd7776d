/-
The code of a circuit pool outside its queue, gone through once.  Every length it
uses stays one the user agreed to, and no open is settled on the way.
-/
import Mathlib.Data.List.Nodup
import Mathlib.Data.List.Perm.Basic
import Yume.CircuitPool.Model
import Yume.Lib.Stacks

namespace Yume.CircuitPool

open Yume.Lib Pool List

/-- The lengths the user agreed to, in the configuration or by accepting a
proposal in the given history. -/
def Allowed (o : CircuitPoolOptions) (log : List Event) (hops : Nat) : Prop :=
  hops = o.hops ∨ o.minHops ≤ hops ∨ ∃ q, .accepted q ∈ log ∧ q.hops ≤ hops

/-- A proposal made since the last change of session and the last verified view. -/
def MadeIn (q : RouteProposal) (log : List Event) : Prop :=
  ∃ later earlier, log = later ++ .proposed q :: earlier ∧ .session ∉ later ∧ .view ∉ later

/-- A circuit of the configured length took over, as a probe or from a shorter
length in use, and nothing was accepted since. -/
def restored (o : CircuitPoolOptions) : List Event → Bool
  | [] => false
  | .accepted _ :: _ => false
  | .built hops probe before :: earlier =>
    decide (hops = o.hops ∧ (probe = true ∨ before < hops)) || restored o earlier
  | _ :: earlier => restored o earlier

/-- A length that may be used: it is allowed, and once the configured length has
taken over it is at least `minHops`. -/
structure Fits (o : CircuitPoolOptions) (log : List Event) (hops : Nat) : Prop where
  allowed : Allowed o log hops
  restored : restored o log = true → o.minHops ≤ hops

/-- What a history says at an event about the events before it. -/
def EventOk (o : CircuitPoolOptions) : Event → List Event → Prop
  | .streamed via hops, earlier =>
    Fits o earlier hops ∧ (via = .direct → hops = 1) ∧
      ∀ length, via = .circuit length → length = hops
  | .accepted q, earlier => MadeIn q earlier
  | _, _ => True

def HistoryOk (o : CircuitPoolOptions) : List Event → Prop
  | [] => True
  | event :: earlier => EventOk o event earlier ∧ HistoryOk o earlier

/-- The number of hops an operation builds. -/
def Op.hops : Op → Option Nat
  | .entry _ route _ => some route.length
  | .build _ _ route _ => some route.length
  | _ => none

/-- The generation of the pool an operation builds for. -/
def Op.buildsFor : Op → Option Nat
  | .entry generation _ _ => some generation
  | .build generation _ _ _ => some generation
  | _ => none

/-- The builds that are running for the session in force. -/
def Pool.builds (p : Pool) : Nat :=
  p.ops.countP fun op => op.buildsFor == some p.generation

/-- What the pool builds and uses fits its history, and at most one build runs
for the session in force. -/
structure Lengths (o : CircuitPoolOptions) (p : Pool) : Prop where
  current : p.currentHops = 0 ∨ Fits o p.log p.currentHops
  accepted : p.acceptedHops = 0 ∨ ∃ q, .accepted q ∈ p.log ∧ q.hops = p.acceptedHops
  regained : restored o p.log = true → p.acceptedHops = 0
  older : ∀ op ∈ p.ops, ∀ generation ∈ op.buildsFor, generation ≤ p.generation
  fits : ∀ op ∈ p.ops, op.buildsFor = some p.generation → ∀ hops ∈ op.hops, Fits o p.log hops
  single : p.builds ≤ 1
  idle : p.building = false → p.builds = 0
  pending : ∀ q ∈ p.proposal, MadeIn q p.log
  history : HistoryOk o p.log

def Pool.measured (p : Pool) :=
  (p.currentHops, p.acceptedHops, p.proposal, p.log, p.ops, p.generation, p.building)

/-- The calls of `open` whose completion something has. -/
def Waiter.calls (waiter : Waiter) : List Nat := if waiter.done then [waiter.call] else []

def Task.calls : Task → List Nat
  | .settleAll waiters _ => waiters.flatMap Waiter.calls
  | _ => []

/-- The waiter whose completion a provider has. -/
def Op.waiter : Op → Option Waiter
  | .direct waiter => some waiter
  | .stream waiter => some waiter
  | _ => none

def Op.calls (op : Op) : List Nat := op.waiter.elim [] Waiter.calls

def Event.settledCall : Event → List Nat
  | .settled call _ => [call]
  | _ => []

def Event.lostCall : Event → List Nat
  | .lost call => [call]
  | _ => []

namespace Pool

/-- The opens that wait, are about to be settled, or are with a provider. -/
def unsettled (p : Pool) : List Nat :=
  p.waiters.flatMap Waiter.calls ++ p.stack.flatMap Task.calls ++ p.ops.flatMap Op.calls

/-- The completions that were invoked. -/
def settledCalls (p : Pool) : List Nat := p.log.flatMap Event.settledCall

/-- The opens whose completion was dropped. -/
def lostCalls (p : Pool) : List Nat := p.log.flatMap Event.lostCall

/-- How often an open is accounted for. -/
def owned (call : Nat) (p : Pool) : Nat :=
  weigh (fun waiter => waiter.calls.count call) p.waiters +
    weigh (fun task => task.calls.count call) p.stack +
    weigh (fun op => op.calls.count call) p.ops +
    weigh (fun event => event.settledCall.count call + event.lostCall.count call) p.log

end Pool

/-- An event that settles and loses nothing. -/
def Event.silent : Event → Bool
  | .settled _ _ => false
  | .lost _ => false
  | .emptyPop => false
  | _ => true

theorem Event.silent_calls {event : Event} (h : event.silent = true) :
    event.settledCall = [] ∧ event.lostCall = [] := by
  cases event <;> first | exact ⟨rfl, rfl⟩ | cases h

/-- What the code outside the queue does to the opens: it pushes its own points,
detaches waiters together, and settles nothing. -/
structure Plain (p p' : Pool) : Prop where
  calls : p'.calls = p.calls
  closed : p'.closed = p.closed
  kept : ∀ waiter ∈ p'.waiters, waiter ∈ p.waiters
  stack : ∃ tasks, p'.stack = tasks ++ p.stack ∧ .popFront ∉ tasks
  owned : ∀ call, p'.owned call = p.owned call
  log : ∃ events, p'.log = events ++ p.log ∧ ∀ event ∈ events, event.silent = true

def Pool.called (p : Pool) := (p.calls, p.closed, p.waiters, p.stack, p.ops, p.log)

/-- What one move does to a pool. -/
inductive Moved (o : CircuitPoolOptions) (credentials : Credentials) (p : Pool) : Pool → Prop where
  | run {w task below} : p.stack = task :: below →
    Moved o credentials p ({ p with stack := below }.exec o credentials w task)
  | back {below} : p.stack = .outside :: below → Moved o credentials p { p with stack := below }
  | call {w} (request : Call) : p.free = true →
    Moved o credentials p (p.call o credentials w request)
  | complete {w index op} (reply : Reply) : p.free = true → p.ops[index]? = some op →
    Moved o credentials p ({ p with ops := p.ops.eraseIdx index }.complete o credentials w op reply)

section

variable {o : CircuitPoolOptions} {credentials : Credentials} {w : World} {p p' p'' : Pool}
  {log : List Event} {event : Event} {hops : Nat} {route : List RouteNode} {op : Op}

theorem Allowed.cons {hops : Nat} (h : Allowed o log hops) (event : Event) :
    Allowed o (event :: log) hops := by
  obtain h | h | ⟨q, hq, hle⟩ := h
  · exact .inl h
  · exact .inr (.inl h)
  · exact .inr (.inr ⟨q, mem_cons_of_mem _ hq, hle⟩)

theorem MadeIn.cons {q : RouteProposal} (h : MadeIn q log)
    (hsession : event ≠ .session) (hview : event ≠ .view) : MadeIn q (event :: log) := by
  obtain ⟨later, earlier, rfl, hs, hv⟩ := h
  refine ⟨event :: later, earlier, rfl, ?_, ?_⟩
  · simp only [mem_cons, not_or]
    exact ⟨hsession.symm, hs⟩
  simp only [mem_cons, not_or]
  exact ⟨hview.symm, hv⟩

/-- At an event of a history, what it says about the events before. -/
theorem HistoryOk.at {later earlier : List Event}
    (h : HistoryOk o (later ++ event :: earlier)) : EventOk o event earlier := by
  induction later with
  | nil => exact h.1
  | cons _ later ih => exact ih h.2

/-- An event that leaves what is allowed and what is restored as it was. -/
def Event.plain : Event → Bool
  | .accepted _ => false
  | .built _ _ _ => false
  | _ => true

theorem restored_cons (h : event.plain = true) : restored o (event :: log) = restored o log := by
  cases event <;> first | rfl | cases h

theorem Fits.cons {hops : Nat} (h : Fits o log hops)
    (hplain : event.plain = true) : Fits o (event :: log) hops :=
  ⟨h.allowed.cons event, by
    rw [restored_cons hplain]
    exact h.restored⟩

theorem fits_configured (log : List Event) : Fits o log o.hops :=
  ⟨.inl rfl, fun _ => o.minHops_le⟩

namespace Lengths

variable (h : Lengths o p)
include h

/-- What does not touch the lengths keeps them. -/
theorem frame {p' : Pool} (hsame : p'.measured = p.measured) : Lengths o p' := by
  simp only [measured, Prod.mk.injEq] at hsame
  obtain ⟨hcurrent, haccepted, hproposal, hlog, hops, hgeneration, hbuilding⟩ := hsame
  have hbuilds : p'.builds = p.builds := by simp only [builds, hops, hgeneration]
  constructor
  · rw [hcurrent, hlog]; exact h.current
  · rw [haccepted, hlog]; exact h.accepted
  · rw [haccepted, hlog]; exact h.regained
  · rw [hops, hgeneration]; exact h.older
  · rw [hops, hgeneration, hlog]; exact h.fits
  · rw [hbuilds]; exact h.single
  · rw [hbuilds, hbuilding]; exact h.idle
  · rw [hproposal, hlog]; exact h.pending
  · rw [hlog]; exact h.history

theorem push (tasks : List Task) : Lengths o (p.push tasks) :=
  h.frame rfl

/-- A plain event, with what it says about the proposal that is pending. -/
theorem noted (event : Event) (hplain : event.plain = true)
    (hpending : ∀ q ∈ p.proposal, MadeIn q (event :: p.log)) (hok : EventOk o event p.log) :
    Lengths o (p.note event) where
  current := h.current.imp_right fun hfits => hfits.cons hplain
  accepted := h.accepted.imp_right fun ⟨q, hq, hhops⟩ => ⟨q, mem_cons_of_mem _ hq, hhops⟩
  regained := by
    simp only [note, restored_cons hplain]
    exact h.regained
  older := h.older
  fits := fun op hop hbuilds hops hhops => (h.fits op hop hbuilds hops hhops).cons hplain
  single := h.single
  idle := h.idle
  pending := hpending
  history := ⟨hok, h.history⟩

theorem note (event : Event) (hplain : event.plain = true)
    (hsession : event ≠ .session) (hview : event ≠ .view) (hok : EventOk o event p.log) :
    Lengths o (p.note event) :=
  h.noted event hplain (fun q hq => (h.pending q hq).cons hsession hview) hok

/-- Without a pending proposal, a new session or view may come. -/
theorem renew (event : Event) (hplain : event.plain = true)
    (hnone : p.proposal = none) (hok : EventOk o event p.log) : Lengths o (p.note event) := by
  refine h.noted event hplain (fun q hq => ?_) hok
  rw [hnone] at hq
  cases hq

omit h in
theorem builds_append (ops : List Op) (op : Op) (p : Pool) :
    builds { p with ops := ops ++ [op] } =
      builds { p with ops := ops } + if op.buildsFor = some p.generation then 1 else 0 := by
  simp [builds, countP_append, countP_cons]

/-- A provider takes an operation that builds nothing. -/
theorem ask {op : Op} (hnone : op.buildsFor = none) : Lengths o (p.ask op) := by
  have hbuilds : (p.ask op).builds = p.builds := by
    have hadded := builds_append p.ops op p
    rw [hnone, if_neg nofun] at hadded
    exact hadded
  refine { h with older := ?_, fits := ?_, single := hbuilds ▸ h.single, idle := ?_ }
  · refine forall_mem_append.mpr ⟨h.older, forall_mem_singleton.mpr ?_⟩
    rw [hnone]
    nofun
  · refine forall_mem_append.mpr ⟨h.fits, forall_mem_singleton.mpr fun hbuilding => ?_⟩
    rw [hnone] at hbuilding
    cases hbuilding
  · rw [hbuilds]
    exact h.idle

/-- A provider takes the one build that runs. -/
theorem askBuild {op : Op} (hfor : op.buildsFor = some p.generation)
    (hfree : p.builds = 0) (hbuilding : p.building = true)
    (hfits : ∀ hops ∈ op.hops, Fits o p.log hops) : Lengths o (p.ask op) := by
  have hbuilds : (p.ask op).builds = 1 := by
    have hadded := builds_append p.ops op p
    rw [if_pos hfor] at hadded
    exact hadded.trans (congrArg (· + 1) hfree)
  refine { h with older := ?_, fits := ?_, single := hbuilds ▸ Nat.le_refl 1, idle := ?_ }
  · refine forall_mem_append.mpr ⟨h.older, forall_mem_singleton.mpr ?_⟩
    rw [hfor]
    rintro _ ⟨⟩
    exact Nat.le_refl _
  · exact forall_mem_append.mpr ⟨h.fits, forall_mem_singleton.mpr fun _ => hfits⟩
  · intro hidle
    exact absurd (hbuilding.symm.trans hidle) (by decide)

/-- With no build running the flag may say so, or that one is about to run. -/
theorem mark (hfree : p.builds = 0) (building : Bool) : Lengths o { p with building := building } :=
  { h with idle := fun _ => hfree }

/-- Another length in use, and the proposal withdrawn or kept. -/
theorem use (hfits : hops = 0 ∨ Fits o p.log hops) : Lengths o { p with currentHops := hops } :=
  { h with current := hfits }

theorem withdraw : Lengths o { p with proposal := none } :=
  { h with pending := nofun }

theorem discardProposal : Lengths o (p.discardProposal o) := by
  unfold Pool.discardProposal
  split
  · exact (h.withdraw.use (.inr (fits_configured p.log))).frame rfl
  · exact h.withdraw

theorem offer (hops : Nat) (route : List RouteNode) :
    Lengths o (p.offer credentials hops route) := by
  have hnoted := h.note (.proposed
    ⟨proposalId credentials.digest hops route p.serial, hops, p.serial, route.map (·.name)⟩)
    rfl nofun nofun trivial
  refine { hnoted with pending := ?_ }
  rintro q ⟨⟩
  exact ⟨[], p.log, rfl, not_mem_nil, not_mem_nil⟩

/-- A shorter length is used at once only where it fits. -/
theorem fits_of_allowedMin (hle : p.allowedMin o ≤ hops) : Fits o p.log hops := by
  unfold allowedMin at hle
  split at hle
  · rename_i hne
    refine ⟨?_, fun hrestored => absurd (h.regained hrestored) hne⟩
    rcases Nat.le_total o.minHops p.acceptedHops with hmin | hmin
    · rw [Nat.min_eq_left hmin] at hle
      exact .inr (.inl hle)
    rw [Nat.min_eq_right hmin] at hle
    obtain ⟨q, hq, hhops⟩ := h.accepted.resolve_left hne
    exact .inr (.inr ⟨q, hq, hhops ▸ hle⟩)
  · exact ⟨.inr (.inl hle), fun _ => hle⟩

/-- An operation that completes leaves its provider. -/
theorem take (index : Nat) : Lengths o { p with ops := p.ops.eraseIdx index } := by
  have hle : builds { p with ops := p.ops.eraseIdx index } ≤ p.builds :=
    (eraseIdx_sublist _ _).countP_le
  refine { h with older := ?_, fits := ?_, single := Nat.le_trans hle h.single, idle := ?_ }
  · exact fun op hop => h.older op (mem_of_mem_eraseIdx hop)
  · exact fun op hop => h.fits op (mem_of_mem_eraseIdx hop)
  intro hidle
  have hzero := h.idle hidle
  omega

/-- The build that completes was the only one. -/
theorem builds_take {index : Nat} (hop : p.ops[index]? = some op)
    (hfor : op.buildsFor = some p.generation) :
    builds { p with ops := p.ops.eraseIdx index } = 0 ∧ p.building = true := by
  obtain ⟨hlt, rfl⟩ := List.getElem?_eq_some_iff.mp hop
  have hperm := (getElem_cons_eraseIdx_perm hlt).countP_eq
    fun op => op.buildsFor == some p.generation
  rw [countP_cons_of_pos (by simp [hfor])] at hperm
  have hsingle := h.single
  have hidle := h.idle
  unfold builds at *
  refine ⟨by dsimp only; omega, ?_⟩
  cases hbuilding : p.building with
  | true => rfl
  | false =>
    have := hidle hbuilding
    omega

end Lengths

@[simp] theorem discardProposal_proposal : (p.discardProposal o).proposal = none := by
  unfold discardProposal
  split <;> rfl

namespace Plain

theorem trans (h : Plain p p') (h' : Plain p' p'') : Plain p p'' := by
  obtain ⟨tasks, hstack, hpop⟩ := h.stack
  obtain ⟨tasks', hstack', hpop'⟩ := h'.stack
  obtain ⟨events, hlog, hsilent⟩ := h.log
  obtain ⟨events', hlog', hsilent'⟩ := h'.log
  refine ⟨h'.calls.trans h.calls, h'.closed.trans h.closed,
    fun waiter hw => h.kept waiter (h'.kept waiter hw), ⟨tasks' ++ tasks, ?_, ?_⟩,
    fun call => (h'.owned call).trans (h.owned call), ⟨events' ++ events, ?_, ?_⟩⟩
  · rw [hstack', hstack, append_assoc]
  · simp [hpop, hpop']
  · rw [hlog', hlog, append_assoc]
  exact forall_mem_append.mpr ⟨hsilent', hsilent⟩

/-- What touches neither the opens nor the stack. -/
theorem frame (hsame : p'.called = p.called) : Plain p p' := by
  simp only [Pool.called, Prod.mk.injEq] at hsame
  obtain ⟨hcalls, hclosed, hwaiters, hstack, hops, hlog⟩ := hsame
  exact ⟨hcalls, hclosed, hwaiters ▸ fun _ hw => hw, ⟨[], hstack, not_mem_nil⟩,
    by simp only [Pool.owned, hwaiters, hstack, hops, hlog, implies_true], ⟨[], hlog, nofun⟩⟩

theorem refl (p : Pool) : Plain p p := frame rfl

variable (h : Plain p p')
include h

theorem push {tasks : List Task} (hcalls : ∀ task ∈ tasks, task.calls = [])
    (hpop : .popFront ∉ tasks) : Plain p (p'.push tasks) := by
  refine h.trans ⟨rfl, rfl, fun _ hw => hw, ⟨tasks, rfl, hpop⟩, fun call => ?_, ⟨[], rfl, nofun⟩⟩
  have hzero : weigh (fun task => task.calls.count call) tasks = 0 :=
    weigh_eq_zero fun task htask => by simp [hcalls task htask]
  simp [Pool.owned, Pool.push, hzero]

theorem pushPump : Plain p (p'.push [.pump]) :=
  h.push (by simp [Task.calls]) (by simp)

theorem note (event : Event) (hsilent : event.silent = true) : Plain p (p'.note event) := by
  refine h.trans ⟨rfl, rfl, fun _ hw => hw, ⟨[], rfl, not_mem_nil⟩, fun call => ?_,
    ⟨[event], rfl, by simpa using hsilent⟩⟩
  simp [Pool.owned, Pool.note, Event.silent_calls hsilent]

theorem ask {op : Op} (hnone : op.waiter = none) : Plain p (p'.ask op) := by
  refine h.trans ⟨rfl, rfl, fun _ hw => hw, ⟨[.outside], rfl, by simp⟩, fun call => ?_,
    ⟨[], rfl, nofun⟩⟩
  simp [Pool.owned, Pool.ask, Task.calls, Op.calls, hnone]

theorem failWaiters (outcome : Outcome) : Plain p (p'.failWaiters outcome) := by
  refine h.trans ⟨rfl, rfl, nofun, ⟨[.settleAll p'.waiters outcome], rfl, by simp⟩,
    fun call => ?_, ⟨[], rfl, nofun⟩⟩
  simp [Pool.owned, Pool.failWaiters, Task.calls, count_flatMap, weigh, Function.comp_def]

theorem discardProposal : Plain p (p'.discardProposal o) := by
  refine h.trans ?_
  unfold Pool.discardProposal
  split <;> exact frame rfl

theorem pump : Plain p (p'.pump w) := by
  unfold Pool.pump
  split
  · exact h.failWaiters _
  refine h.trans ⟨rfl, rfl, fun _ hw => mem_of_mem_filter hw, ⟨_, rfl, by simp⟩,
    fun call => ?_, ⟨[], rfl, nofun⟩⟩
  have hsplit := weigh_perm (f := fun waiter => waiter.calls.count call)
    (filter_append_perm (fun waiter => w.cancelled waiter.call) p'.waiters)
  rw [weigh_append] at hsplit
  simp only [Pool.owned, Pool.push, Task.calls, weigh_append, weigh_cons, weigh_nil,
    count_flatMap, count_nil, Function.comp_def]
  simp only [weigh] at hsplit ⊢
  omega

end Plain

/-- What the code outside the queue makes of a pool: what it uses fits its
history, and the opens are left where they were. -/
structure Kept (o : CircuitPoolOptions) (p p' : Pool) : Prop where
  lengths : Lengths o p'
  plain : Plain p p'

namespace Kept

theorem refl (h : Lengths o p) : Kept o p p := ⟨h, .refl p⟩

section

variable (h : Kept o p p')
include h

/-- What touches neither the opens nor the stack, with the lengths it leaves. -/
theorem change (hlengths : Lengths o p'') (hsame : p''.called = p'.called) : Kept o p p'' :=
  ⟨hlengths, h.plain.trans (.frame hsame)⟩

theorem frame (hmeasured : p''.measured = p'.measured)
    (hcalled : p''.called = p'.called) : Kept o p p'' :=
  h.change (h.lengths.frame hmeasured) hcalled

theorem pushPump : Kept o p (p'.push [.pump]) :=
  ⟨h.lengths.push _, h.plain.pushPump⟩

theorem ask {op : Op} (hbuilds : op.buildsFor = none)
    (hwaiter : op.waiter = none) : Kept o p (p'.ask op) :=
  ⟨h.lengths.ask hbuilds, h.plain.ask hwaiter⟩

theorem failWaiters (outcome : Outcome) : Kept o p (p'.failWaiters outcome) :=
  ⟨h.lengths.frame rfl, h.plain.failWaiters outcome⟩

theorem discardProposal : Kept o p (p'.discardProposal o) :=
  ⟨h.lengths.discardProposal, h.plain.discardProposal⟩

theorem offer (hops : Nat) (route : List RouteNode) :
    Kept o p (p'.offer credentials hops route) := by
  refine ⟨h.lengths.offer hops route, (h.plain.note (.proposed ⟨proposalId credentials.digest hops
    route p'.serial, hops, p'.serial, route.map (·.name)⟩) rfl).trans ?_⟩
  exact .frame rfl

theorem propose (hops : Nat) : Kept o p (Pool.propose credentials w hops p') := by
  have hnone : Kept o p { p' with proposal := none } := h.change h.lengths.withdraw rfl
  induction hops with
  | zero => exact hnone
  | succ hops ih =>
    unfold Pool.propose
    split
    · exact hnone
    split
    · exact h.offer 1 _
    split
    · exact h.offer _ _
    · exact ih

theorem lengthFailedBy {retry : Pool → Pool}
    (hretry : ∀ p'', Kept o p p'' → p''.building = p'.building → Fits o p''.log (hops - 1) →
      Kept o p (retry p'')) :
    Kept o p (Pool.lengthFailedBy o credentials w retry hops p') := by
  unfold Pool.lengthFailedBy
  dsimp only
  split
  · rename_i hshorter
    have hfits := h.lengths.fits_of_allowedMin hshorter.2
    have hused : Kept o p { p' with
        attempts := 0, currentHops := hops - 1, nextRecheck := some (w.now + o.recheck) } :=
      h.change ((h.lengths.use (.inr hfits)).frame rfl) rfl
    split
    · exact hretry _ hused rfl hfits
    · exact hused.pushPump
  · have hnone : Kept o p { p' with attempts := 0, currentHops := 0 } :=
      h.change ((h.lengths.use (.inl rfl)).frame rfl) rfl
    exact (hnone.propose _).failWaiters _

theorem startBuild (hops : Nat) (probe : Bool) (hidle : p'.building = false)
    (hfits : Fits o p'.log hops) : Kept o p (startBuild o credentials w hops probe p') := by
  induction hops generalizing probe p' with
  | zero => exact h
  | succ hops ih =>
    unfold startBuild
    split
    · split
      · rename_i route _
        have hfree := h.lengths.idle hidle
        have hmarked : Kept o p { p' with building := true } :=
          h.change (h.lengths.mark hfree true) rfl
        refine ⟨hmarked.lengths.askBuild rfl hfree rfl ?_, hmarked.plain.ask rfl⟩
        rintro _ ⟨⟩
        rw [route.2]
        exact hfits
      split
      · exact h
      exact h.lengthFailedBy fun p'' hp'' hbuilding hshorter =>
        ih hp'' false (hbuilding.trans hidle) hshorter
    · exact h

theorem lengthFailed (hidle : p'.building = false) (hops : Nat) :
    Kept o p (lengthFailed o credentials w hops p') :=
  h.lengthFailedBy fun _ hp'' hbuilding hshorter =>
    hp''.startBuild _ _ (hbuilding.trans hidle) hshorter

theorem buildFailed (hidle : p'.building = false) (probe : Bool)
    (hfits : Fits o p'.log route.length) :
    Kept o p (Pool.buildFailed o credentials w route probe p') := by
  have htried : Kept o p { p' with attempts := p'.attempts + 1 } := h.frame rfl rfl
  unfold Pool.buildFailed
  split
  · exact h.pushPump
  split
  · refine pushPump ?_
    exact h.frame rfl rfl
  split
  · exact htried.startBuild _ _ hidle hfits
  · exact htried.lengthFailed hidle _

/-- A finished build: the length it takes over fits, whatever was in use. -/
theorem built (hidle : p'.building = false) (circuit : Nat) (probe : Bool)
    (hfits : Fits o p'.log route.length) : Kept o p (Pool.built circuit route probe p') := by
  have hlengths := h.lengths
  have hnobuild : ∀ op ∈ p'.ops, op.buildsFor ≠ some p'.generation := by
    intro op hop hfor
    have hzero := countP_eq_zero.mp (hlengths.idle hidle) op hop
    simp [hfor] at hzero
  have hnoted := h.plain.note (.built route.length probe p'.currentHops) rfl
  unfold Pool.built
  refine pushPump ⟨?_, hnoted.trans ?_⟩
  · dsimp only
    split
    · refine ⟨.inr ⟨hfits.allowed.cons _, fun hrestored => ?_⟩, .inl rfl, fun _ => rfl,
        hlengths.older, fun op hop hfor => absurd hfor (hnobuild op hop), hlengths.single,
        hlengths.idle, nofun, ⟨trivial, hlengths.history⟩⟩
      simp only [restored, Bool.or_eq_true, decide_eq_true_eq] at hrestored
      rcases hrestored with ⟨hconfigured, -⟩ | hearlier
      · exact hconfigured ▸ o.minHops_le
      · exact hfits.restored hearlier
    rename_i hkept
    have hsame : restored o (.built route.length probe p'.currentHops :: p'.log) =
        restored o p'.log := by
      simp only [restored, hkept, and_false, decide_false, Bool.false_or]
    refine ⟨hlengths.current.imp_right fun hcurrent => ⟨hcurrent.allowed.cons _, ?_⟩,
      hlengths.accepted.imp_right fun ⟨q, hq, hhops⟩ => ⟨q, mem_cons_of_mem _ hq, hhops⟩,
      ?_, hlengths.older, fun op hop hfor => absurd hfor (hnobuild op hop), hlengths.single,
      hlengths.idle, fun q hq => (hlengths.pending q hq).cons nofun nofun,
      ⟨trivial, hlengths.history⟩⟩
    · rw [hsame]
      exact hcurrent.restored
    rw [hsame]
    exact hlengths.regained
  · dsimp only
    split <;> exact .frame rfl

theorem fetchView : Kept o p (p'.fetchView o) := by
  refine ask ?_ rfl rfl
  exact h.discardProposal.frame rfl rfl

theorem viewFailed (message : String) : Kept o p (p'.viewFailed o message) := by
  refine failWaiters ?_ _
  exact h.discardProposal.frame rfl rfl

theorem viewReceived (served : Served) : Kept o p (p'.viewReceived o served) := by
  unfold Pool.viewReceived
  cases served with
  | refused message => exact h.discardProposal.viewFailed message
  | accepted =>
    have hview : Kept o p ((p'.discardProposal o).note .view) :=
      ⟨h.lengths.discardProposal.renew .view rfl discardProposal_proposal trivial,
        h.plain.discardProposal.note .view rfl⟩
    dsimp only
    split
    · refine pushPump ?_
      exact hview.frame rfl rfl
    refine viewFailed ?_ _
    exact hview.frame rfl rfl

theorem pump : Kept o p (p'.pump w) := by
  refine ⟨?_, h.plain.pump⟩
  unfold Pool.pump
  split <;> exact h.lengths.frame rfl

theorem resume : Kept o p (p'.resume o w) := by
  unfold Pool.resume
  split
  · exact h
  split
  · exact h.failWaiters _
  split
  · exact h.fetchView
  · exact h
  · exact h.failWaiters _
  · exact ⟨h.lengths.push _, h.plain.push (by simp [Task.calls]) (by simp)⟩

theorem afterLoop (now : Nat) : Kept o p (p'.afterLoop o credentials w now) := by
  unfold Pool.afterLoop
  dsimp only
  split
  · rename_i hbuild
    have htwo := hbuild.2.2
    exact h.startBuild _ _ hbuild.2.1 (h.lengths.current.resolve_left (by omega))
  · exact h

/-- The user's acceptance is the one event that lowers what is allowed. -/
theorem accept (id : Bytes) : Kept o p (p'.accept o w id).2 := by
  unfold Pool.accept
  split
  · split
    · rename_i q hq
      split
      · refine pushPump ⟨⟨.inr ⟨.inr (.inr ⟨q, mem_cons_self, Nat.le_refl _⟩), nofun⟩,
          .inr ⟨q, mem_cons_self, rfl⟩, nofun, h.lengths.older, ?_, h.lengths.single,
          h.lengths.idle, nofun, ⟨h.lengths.pending q hq, h.lengths.history⟩⟩,
          (h.plain.note (.accepted q) rfl).trans (.frame rfl)⟩
        intro op hop hfor hops hhops
        exact ⟨(h.lengths.fits op hop hfor hops hhops).allowed.cons _, nofun⟩
      · exact h
    · exact h
  · exact h.discardProposal

theorem refresh : Kept o p (p'.refresh o w) := by
  have hidle : Kept o p { p'.discardProposal o with view := .idle } :=
    h.discardProposal.frame rfl rfl
  unfold Pool.refresh
  split
  · exact hidle
  split
  · exact hidle
  · exact h

theorem maintain : Kept o p (p'.maintain o credentials w) := by
  have hrefresh := h.pushPump.refresh (w := w)
  unfold Pool.maintain
  dsimp only
  split
  · rename_i hdue
    have hnext : Kept o p { (p'.push [.pump]).refresh o w with
        nextRecheck := some (w.now + o.recheck) } := hrefresh.frame rfl rfl
    split
    · exact hnext.startBuild _ _ hdue.2.1 (fits_configured _)
    · exact hnext
  · exact hrefresh

/-- The callbacks of the operations that hold no open: the build that runs for the
session in force is the only one, and its length fits. -/
theorem complete (hwaiter : op.waiter = none)
    (hbuild : ∀ generation ∈ op.buildsFor, p'.current generation = true →
      generation = p'.generation ∧ p'.builds = 0 ∧ p'.building = true ∧
        ∀ hops ∈ op.hops, Fits o p'.log hops) (reply : Reply) :
    Kept o p (p'.complete o credentials w op reply) := by
  have hidle : p'.builds = 0 → Kept o p { p' with building := false } := fun hfree =>
    h.change (h.lengths.mark hfree false) rfl
  unfold Pool.complete
  split
  · split
    · split
      · exact h.viewFailed _
      · exact h.ask rfl rfl
    · exact h
  · split
    · split
      · exact h.viewFailed _
      · exact h.viewReceived _
      · split
        · exact h.viewFailed _
        · exact h.ask rfl rfl
      · exact h.ask rfl rfl
    · exact h
  · cases hwaiter
  · cases hwaiter
  · split
    · rename_i hcurrent
      obtain ⟨hgeneration, hfree, hbuilding, hfits⟩ := hbuild _ rfl hcurrent
      split
      · split
        · have hmade : Kept o p { p' with circuits := p'.circuits + 1 } := h.frame rfl rfl
          refine ⟨hmade.lengths.askBuild (congrArg some hgeneration) hfree hbuilding ?_,
            hmade.plain.ask rfl⟩
          rintro _ ⟨⟩
          exact hfits _ rfl
        · exact (hidle hfree).buildFailed rfl _ (hfits _ rfl)
      · exact (hidle hfree).buildFailed rfl _ (hfits _ rfl)
    · exact h
  · split
    · rename_i hcurrent
      obtain ⟨_, hfree, _, hfits⟩ := hbuild _ rfl hcurrent
      split
      · exact (hidle hfree).built rfl _ _ (hfits _ rfl)
      · exact (hidle hfree).buildFailed rfl _ (hfits _ rfl)
    · exact h

end

/-- An operation that holds no open, taken from its provider. -/
theorem completed (h : Lengths o p) {index : Nat} (hop : p.ops[index]? = some op)
    (hwaiter : op.waiter = none) (reply : Reply) :
    Kept o { p with ops := p.ops.eraseIdx index }
      (Pool.complete o credentials w { p with ops := p.ops.eraseIdx index } op reply) := by
  refine (refl (h.take index)).complete hwaiter (fun generation hfor hcurrent => ?_) reply
  simp only [Pool.current, Bool.and_eq_true, beq_iff_eq] at hcurrent
  obtain rfl := hcurrent.1
  obtain ⟨hfree, hbuilding⟩ := h.builds_take hop hfor
  exact ⟨rfl, hfree, hbuilding, h.fits op (mem_of_getElem? hop) hfor⟩

end Kept

/-- A provider that ends an open has its completion invoked. -/
theorem complete_waiter {waiter : Waiter} (h : op.waiter = some waiter) (reply : Reply) :
    p.complete o credentials w op reply = p.settle waiter (.provider (reply == .ok)) := by
  cases op with
  | direct | stream =>
    cases h
    rfl
  | _ => cases h

theorem moved_of_step {move : Move} (h : step o credentials p move = some p') :
    Moved o credentials p p' := by
  cases move with
  | run w =>
    simp only [step] at h
    split at h <;> cases h
    exact .run ‹_›
  | back =>
    simp only [step] at h
    split at h <;> cases h
    exact .back ‹_›
  | call w request =>
    simp only [step] at h
    split at h <;> cases h
    exact .call request ‹_›
  | complete w index reply =>
    simp only [step] at h
    split at h
    · obtain ⟨op, hop, rfl⟩ := Option.map_eq_some_iff.mp h
      exact .complete reply ‹_› hop
    · cases h

end

end Yume.CircuitPool
