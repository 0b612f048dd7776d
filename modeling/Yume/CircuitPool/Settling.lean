/-
What becomes of the opens.  Every open is at each moment in one place: it waits,
it is about to be settled, a provider has it, it was settled, or it was lost.
An open is lost only where the pump settles the front waiter and pops the front
afterwards, and only if the settled completion came back into the pool.
-/
import Yume.CircuitPool.Consent

namespace Yume.CircuitPool

open Yume.Lib Pool List

section

variable {o : CircuitPoolOptions} {credentials : Credentials} {w : World} {p p' p'' : Pool}
  {waiter : Waiter} {rest : List Waiter} {move : Move}

namespace Plain

theorem setSession (h : Plain p p') (next : Option Nat) : Plain p (p'.setSession o next) := by
  unfold Pool.setSession
  split
  · exact h
  have hsession : Plain p { p' with generation := p'.generation + 1, session := next } :=
    h.trans (frame rfl)
  have hlogged := (hsession.discardProposal (o := o)).note .session rfl
  refine Plain.pushPump (hlogged.trans (frame ?_))
  unfold Pool.discardProposal
  split <;> rfl

end Plain

/-! ### Where an open is -/

theorem owned_push (tasks : List Task) (call : Nat) :
    (p.push tasks).owned call = p.owned call + weigh (fun task => task.calls.count call) tasks := by
  simp only [owned, push, weigh_append]
  omega

theorem owned_settle (waiter : Waiter) (outcome : Outcome) (call : Nat) :
    (p.settle waiter outcome).owned call = p.owned call + waiter.calls.count call := by
  unfold settle Waiter.calls
  split
  · rw [owned_push]
    simp only [owned, note, weigh_cons, weigh_nil, Event.settledCall, Event.lostCall,
      Task.calls, count_nil]
    omega
  · simp

theorem owned_streamed (via : Via) (op : Op) (call : Nat) :
    ((p.note (.streamed via p.currentHops)).ask op).owned call =
      p.owned call + op.calls.count call := by
  simp [owned, note, ask, Task.calls, Event.settledCall, Event.lostCall]
  omega

theorem owned_openDirect (waiter : Waiter) (call : Nat) :
    (p.openDirect waiter).owned call = p.owned call + waiter.calls.count call := by
  unfold openDirect
  split
  · exact owned_settle _ _ _
  · exact owned_streamed _ (.direct waiter) _

theorem owned_openOn (entry : Entry) (waiter : Waiter) (call : Nat) :
    (p.openOn entry waiter).owned call = p.owned call + waiter.calls.count call := by
  unfold openOn
  split
  · exact owned_streamed _ (.stream waiter) _
  · exact owned_settle _ _ _

theorem owned_front (hwaiters : p.waiters = waiter :: rest) (call : Nat) :
    p.owned call = owned call { p with waiters := rest } + waiter.calls.count call := by
  simp only [owned, hwaiters, weigh_cons]
  omega

theorem owned_settleFront
    (hwaiters : p.waiters = waiter :: rest) (now : Nat) (outcome : Outcome) (call : Nat) :
    (p.settleFront now waiter rest outcome).owned call = p.owned call := by
  unfold settleFront
  rw [owned_settle, owned_push]
  simp only [owned, hwaiters, weigh_cons, weigh_nil, Task.calls, Waiter.calls,
    count_nil, Bool.false_eq_true, if_false]
  omega

theorem owned_popFront (call : Nat) : p.popFront.owned call = p.owned call := by
  unfold popFront
  cases hwaiters : p.waiters with
  | nil =>
    simp [owned, note, hwaiters, Event.settledCall, Event.lostCall]
  | cons waiter rest =>
    rw [owned_front hwaiters]
    by_cases hdone : waiter.done = true
    · simp only [hdone, if_true, owned, note, weigh_cons, Event.settledCall,
        Event.lostCall, Waiter.calls, count_nil]
      omega
    · simp [hdone, Waiter.calls]

theorem owned_loop (h : Lengths o p) (now : Nat) (call : Nat) :
    (p.loop o credentials w now).owned call = p.owned call := by
  have hafter : (p.afterLoop o credentials w now).owned call = p.owned call :=
    ((Kept.refl h).afterLoop now).plain.owned call
  unfold loop
  split
  · exact hafter
  rename_i hwaiters
  split
  · exact owned_settleFront hwaiters _ _ _
  split
  · exact ((Plain.refl p).failWaiters _).owned call
  split
  · rw [owned_openDirect, owned_push, owned_front hwaiters]
    simp [Task.calls]
  split
  · exact owned_settleFront hwaiters _ _ _
  split
  · exact hafter
  rw [owned_openOn, owned_push, owned_front hwaiters]
  simp [Task.calls, owned]

/-- The code at a point accounts for the opens that point had. -/
theorem owned_exec (h : Lengths o p) (task : Task) (call : Nat) :
    (p.exec o credentials w task).owned call = p.owned call + task.calls.count call := by
  cases task with
  | outside => rfl
  | pump => exact (Kept.refl h).pump.plain.owned call
  | resume => exact (Kept.refl h).resume.plain.owned call
  | loop now => exact owned_loop h now call
  | popFront => exact owned_popFront call
  | settleAll waiters outcome =>
    cases waiters with
    | nil => rfl
    | cons waiter rest =>
      simp only [exec, owned_settle, owned_push, weigh_cons, weigh_nil, Task.calls,
        flatMap_cons, count_append]
      omega

theorem owned_open (destination : Destination) (registered : Bool) (call : Nat) :
    (p.open destination registered).owned call =
      p.owned call + if call = p.calls then 1 else 0 := by
  have hcount : (Waiter.calls ⟨p.calls, destination, true⟩).count call =
      if call = p.calls then 1 else 0 := by
    by_cases hcall : call = p.calls
    · simp [Waiter.calls, hcall]
    · simp [Waiter.calls, hcall, Ne.symm hcall]
  unfold Pool.open
  split
  · rw [owned_push]
    simp only [owned, weigh_append, weigh_cons, weigh_nil, hcount, Task.calls,
      Event.settledCall, Event.lostCall, count_nil]
    omega
  rw [owned_settle, hcount]
  simp only [owned, weigh_cons, Event.settledCall, Event.lostCall, count_nil]
  omega

theorem close_plain (hopen : p.closed = false) : Plain { p with closed := true } (p.close o) := by
  unfold close
  rw [if_neg (by simp [hopen])]
  have hdiscarded : Plain { p with closed := true } (discardProposal o { p with closed := true }) :=
    (Plain.refl _).discardProposal
  refine Plain.failWaiters (hdiscarded.trans ?_) _
  exact Plain.frame rfl

theorem owned_close (call : Nat) : (p.close o).owned call = p.owned call := by
  cases hclosed : p.closed with
  | true => simp [close, hclosed]
  | false => exact (close_plain hclosed).owned call

/-- Every open of the pool is in exactly one place, and no other call is. -/
def Accounted (p : Pool) : Prop := ∀ call, p.owned call = if call < p.calls then 1 else 0

theorem Plain.accounted (h : Plain p p') (haccounted : Accounted p) : Accounted p' := by
  intro call
  rw [h.owned, h.calls]
  exact haccounted call

theorem Accounted.call (h : Accounted p) (hlengths : Lengths o p) (request : Call) :
    Accounted (p.call o credentials w request) := by
  cases request with
  | setSession next => exact ((Plain.refl p).setSession next).accounted h
  | accept id => exact ((Kept.refl hlengths).accept id).plain.accounted h
  | posted => exact ((Plain.refl p).pushPump).accounted h
  | tick =>
    unfold Pool.call
    dsimp only
    split
    · exact h
    · exact (Kept.refl hlengths).maintain.plain.accounted h
  | close =>
    intro call
    have hcalls : (p.close o).calls = p.calls := by
      cases hclosed : p.closed with
      | true => simp [Pool.close, hclosed]
      | false => exact (close_plain hclosed).calls
    simp only [Pool.call, hcalls, owned_close]
    exact h call
  | «open» destination registered =>
    intro call
    have hcalls : (p.open destination registered).calls = p.calls + 1 := by
      unfold Pool.open Pool.settle
      dsimp only
      split <;> rfl
    have hbefore := h call
    simp only [Pool.call, hcalls, owned_open, hbefore]
    split_ifs <;> omega

theorem settle_calls (waiter : Waiter) (outcome : Outcome) :
    (p.settle waiter outcome).calls = p.calls := by
  unfold settle
  split <;> rfl

theorem exec_calls (h : Lengths o p) (task : Task) :
    (p.exec o credentials w task).calls = p.calls := by
  cases task with
  | outside => rfl
  | pump => exact (Kept.refl h).pump.plain.calls
  | resume => exact (Kept.refl h).resume.plain.calls
  | popFront =>
    simp only [exec, popFront]
    split
    · rfl
    · split <;> rfl
  | settleAll waiters =>
    cases waiters with
    | nil => rfl
    | cons => exact settle_calls _ _
  | loop now =>
    have hafter : (p.afterLoop o credentials w now).calls = p.calls :=
      ((Kept.refl h).afterLoop now).plain.calls
    simp only [exec, loop]
    split
    · exact hafter
    split
    · exact settle_calls _ _
    split
    · rfl
    split
    · unfold openDirect
      split
      · exact settle_calls _ _
      · rfl
    split
    · exact settle_calls _ _
    split
    · exact hafter
    unfold openOn
    split
    · rfl
    · exact settle_calls _ _

theorem Accounted.step (h : Accounted p) (hlengths : Lengths o p)
    (hstep : step o credentials p move = some p') : Accounted p' := by
  cases moved_of_step hstep with
  | run hstack =>
    rename_i below
    have hbelow : Lengths o { p with stack := below } := hlengths.frame rfl
    intro call
    rw [exec_calls hbelow, owned_exec hbelow, ← h call]
    simp only [owned, hstack, weigh_cons]
    omega
  | back hstack =>
    intro call
    have hbefore := h call
    simp only [owned, hstack, weigh_cons, Task.calls, count_nil] at hbefore ⊢
    omega
  | call request => exact h.call hlengths request
  | complete reply hfree hop =>
    rename_i index op
    obtain ⟨hlt, hget⟩ := List.getElem?_eq_some_iff.mp hop
    have htaken : ∀ call, p.owned call =
        owned call { p with ops := p.ops.eraseIdx index } + op.calls.count call := by
      intro call
      have hperm := weigh_perm (f := fun op => op.calls.count call) (getElem_cons_eraseIdx_perm hlt)
      rw [hget, weigh_cons] at hperm
      simp only [owned]
      omega
    cases hwaiter : op.waiter with
    | none =>
      refine (Kept.completed hlengths hop hwaiter reply).plain.accounted fun call => ?_
      have hbefore := h call
      have hnone : op.calls = [] := by simp [Op.calls, hwaiter]
      rw [htaken, hnone] at hbefore
      exact hbefore
    | some waiter =>
      intro call
      have hbefore := h call
      have hcalls : op.calls = waiter.calls := by simp [Op.calls, hwaiter]
      rw [complete_waiter hwaiter, settle_calls, owned_settle, ← hcalls, ← htaken]
      exact hbefore

theorem Accounted.start (o : CircuitPoolOptions) : Accounted (start o) := fun call => by
  simp [owned, CircuitPool.start]

/-! ### Pools whose settled completions do not come back -/

/-- An event that shows no defect of the queue. -/
def Event.sound : Event → Bool
  | .lost _ => false
  | .emptyPop => false
  | _ => true

/-- Between two rounds of a pump: whoever waits has a completion. -/
structure Tidy (p : Pool) : Prop where
  done : ∀ waiter ∈ p.waiters, waiter.done = true
  noPop : .popFront ∉ p.stack
  sound : ∀ event ∈ p.log, event.sound = true

/-- The front waiter was settled and is about to be popped. -/
structure AtFront (p : Pool) (below : List Task) (rest : List Waiter) : Prop where
  front : ∃ waiter, p.waiters = waiter :: rest ∧ waiter.done = false
  done : ∀ waiter ∈ rest, waiter.done = true
  noPop : .popFront ∉ below
  sound : ∀ event ∈ p.log, event.sound = true
  notClosed : p.closed = false

/-- A closed pool's queue is empty. -/
def Drained (p : Pool) : Prop := p.closed = true → p.waiters = []

/-- The queue at any moment: a closed pool is drained or about to pump, and the
front waiter has lost its completion only while the pump is about to pop it. -/
inductive Ordered (p : Pool) : Prop where
  | between (tidy : Tidy p) (drained : Drained p ∨ ∃ below, p.stack = .pump :: below)
  | front {below rest} (atFront : AtFront p below rest)
    (stack : p.stack = .popFront :: below ∨ p.stack = .outside :: .popFront :: below)

/-- While the completion of a waiter the pump is about to pop runs, nothing calls
the pool. -/
def calm (p : Pool) (move : Move) : Bool :=
  match p.stack, move with
  | .outside :: .popFront :: _, .back => true
  | .outside :: .popFront :: _, _ => false
  | _, _ => true

theorem Event.sound_of_silent {event : Event} (h : event.silent = true) : event.sound = true := by
  cases event <;> first | rfl | cases h

theorem Plain.tidy (h : Plain p p') (htidy : Tidy p) : Tidy p' := by
  obtain ⟨tasks, hstack, hpop⟩ := h.stack
  obtain ⟨events, hlog, hsilent⟩ := h.log
  refine ⟨fun waiter hw => htidy.done waiter (h.kept waiter hw), ?_, ?_⟩
  · rw [hstack]
    simp [hpop, htidy.noPop]
  rw [hlog]
  exact forall_mem_append.mpr
    ⟨fun event hmem => Event.sound_of_silent (hsilent event hmem), htidy.sound⟩

theorem Plain.drained (h : Plain p p') (hdrained : Drained p) : Drained p' := by
  intro hclosed
  have hnone := hdrained (h.closed ▸ hclosed)
  refine eq_nil_iff_forall_not_mem.mpr fun waiter hw => ?_
  have hmem := h.kept waiter hw
  rw [hnone] at hmem
  cases hmem

theorem Plain.ordered (h : Plain p p') (htidy : Tidy p) (hdrained : Drained p) : Ordered p' :=
  .between (h.tidy htidy) (.inl (h.drained hdrained))

theorem Tidy.settle (h : Tidy p) (waiter : Waiter) (outcome : Outcome) :
    Tidy (p.settle waiter outcome) := by
  unfold Pool.settle
  split
  · refine ⟨h.done, ?_, ?_⟩
    · simpa [Pool.push, Pool.note] using h.noPop
    exact forall_mem_cons.mpr ⟨rfl, h.sound⟩
  · exact h

theorem Drained.settle (h : Drained p) (waiter : Waiter) (outcome : Outcome) :
    Drained (p.settle waiter outcome) := by
  unfold Pool.settle
  split <;> exact h

theorem ordered_settle (htidy : Tidy p) (hdrained : Drained p) (waiter : Waiter)
    (outcome : Outcome) : Ordered (p.settle waiter outcome) :=
  .between (htidy.settle _ _) (.inl (hdrained.settle _ _))

theorem ordered_ask (htidy : Tidy p) (hdrained : Drained p) (via : Via) (op : Op) :
    Ordered ((p.note (.streamed via p.currentHops)).ask op) := by
  refine .between ⟨htidy.done, ?_, ?_⟩ (.inl hdrained)
  · simpa [ask, note] using htidy.noPop
  exact forall_mem_cons.mpr ⟨rfl, htidy.sound⟩

/-- A waiter that has left the queue for a provider, with the loop to go on. -/
theorem Tidy.leave (h : Tidy p)
    (hwaiters : p.waiters = waiter :: rest) (entries : List Entry) (now : Nat) :
    Tidy ({ p with waiters := rest, entries := entries }.push [.loop now]) where
  done := fun other hother => h.done other (hwaiters ▸ mem_cons_of_mem _ hother)
  noPop := by simpa [push] using h.noPop
  sound := h.sound

theorem ordered_settleFront (h : Tidy p)
    (hwaiters : p.waiters = waiter :: rest) (hopen : p.closed = false) (now : Nat)
    (outcome : Outcome) : Ordered (p.settleFront now waiter rest outcome) := by
  have hdone : waiter.done = true := h.done waiter (hwaiters ▸ mem_cons_self)
  unfold settleFront settle
  rw [if_pos hdone]
  refine .front (?_ : AtFront _ (.loop now :: p.stack) rest) (.inr rfl)
  refine ⟨⟨_, rfl, rfl⟩, fun other hother => h.done other (hwaiters ▸ mem_cons_of_mem _ hother),
    ?_, ?_, hopen⟩
  · simpa using h.noPop
  exact forall_mem_cons.mpr ⟨rfl, h.sound⟩

theorem ordered_loop (htidy : Tidy p) (hlengths : Lengths o p) (hdrained : Drained p) (now : Nat) :
    Ordered (p.loop o credentials w now) := by
  have hafter : Ordered (p.afterLoop o credentials w now) :=
    ((Kept.refl hlengths).afterLoop now).plain.ordered htidy hdrained
  unfold loop
  split
  · exact hafter
  rename_i rest hwaiters
  have hopen : p.closed = false := by
    cases hclosed : p.closed with
    | false => rfl
    | true => cases hwaiters.symm.trans (hdrained hclosed)
  have hleft : ∀ entries, Drained
      ({ p with waiters := rest, entries := entries }.push [.loop now]) := fun _ hclosed =>
    absurd (hopen.symm.trans hclosed) (by decide)
  split
  · exact ordered_settleFront htidy hwaiters hopen _ _
  split
  · exact ((Plain.refl p).failWaiters _).ordered htidy hdrained
  split
  · unfold openDirect
    split
    · exact ordered_settle (htidy.leave hwaiters p.entries now) (hleft _) _ _
    · exact ordered_ask (htidy.leave hwaiters p.entries now) (hleft _) _ _
  split
  · exact ordered_settleFront htidy hwaiters hopen _ _
  split
  · exact hafter
  unfold openOn
  split
  · exact ordered_ask (htidy.leave hwaiters _ now) (hleft _) _ _
  · exact ordered_settle (htidy.leave hwaiters _ now) (hleft _) _ _

/-- The code at any point but the pop, on a tidy queue. -/
theorem ordered_exec {task : Task} (htidy : Tidy p) (hlengths : Lengths o p)
    (hdrained : Drained p ∨ task = .pump) (hpop : task ≠ .popFront) :
    Ordered (p.exec o credentials w task) := by
  cases task with
  | pump =>
    refine .between ((Kept.refl hlengths).pump.plain.tidy htidy) (.inl ?_)
    intro hclosed
    have hbefore : p.closed = true := (Kept.refl hlengths).pump.plain.closed.symm.trans hclosed
    simp [exec, pump, hbefore, failWaiters]
  | popFront => exact absurd rfl hpop
  | outside => exact .between htidy (hdrained.imp_right (by simp))
  | resume => exact (Kept.refl hlengths).resume.plain.ordered htidy (by simpa using hdrained)
  | loop now => exact ordered_loop htidy hlengths (by simpa using hdrained) now
  | settleAll waiters outcome =>
    have hempty : Drained p := by simpa using hdrained
    cases waiters with
    | nil => exact .between htidy (.inl hempty)
    | cons waiter rest =>
      refine ordered_settle (p := p.push [.settleAll rest outcome])
        ⟨htidy.done, ?_, htidy.sound⟩ hempty _ _
      simpa [push] using htidy.noPop

theorem ordered_call (htidy : Tidy p) (hlengths : Lengths o p) (hdrained : Drained p)
    (request : Call) : Ordered (p.call o credentials w request) := by
  cases request with
  | setSession next => exact ((Plain.refl p).setSession next).ordered htidy hdrained
  | accept id => exact ((Kept.refl hlengths).accept id).plain.ordered htidy hdrained
  | posted => exact ((Plain.refl p).pushPump).ordered htidy hdrained
  | tick =>
    unfold call
    dsimp only
    split
    · exact .between htidy (.inl hdrained)
    · exact (Kept.refl hlengths).maintain.plain.ordered htidy hdrained
  | close =>
    cases hclosed : p.closed with
    | true =>
      simp only [call, close, hclosed, if_true]
      exact .between htidy (.inl hdrained)
    | false =>
      refine .between ((close_plain hclosed).tidy { htidy with }) (.inl fun _ => ?_)
      simp [call, close, hclosed, failWaiters]
  | «open» =>
    have hcalled : Tidy { p with calls := p.calls + 1, log := .opened p.calls :: p.log } :=
      ⟨htidy.done, htidy.noPop, forall_mem_cons.mpr ⟨rfl, htidy.sound⟩⟩
    simp only [call, Pool.open]
    split
    · refine .between ⟨?_, ?_, hcalled.sound⟩ (.inr ⟨p.stack, rfl⟩)
      · exact forall_mem_append.mpr ⟨htidy.done, forall_mem_singleton.mpr rfl⟩
      · simpa [push] using htidy.noPop
    · exact ordered_settle hcalled hdrained _ _

/-- The pop of a settled front: the waiter that leaves has no completion. -/
theorem AtFront.popFront {below : List Task} (h : AtFront p below rest) :
    Ordered (Pool.popFront { p with stack := below }) := by
  obtain ⟨waiter, hwaiters, hdone⟩ := h.front
  unfold Pool.popFront
  simp only [hwaiters, hdone, Bool.false_eq_true, if_false]
  refine .between { h with } (.inl fun hclosed => ?_)
  exact absurd (h.notClosed.symm.trans hclosed) (by decide)

theorem drained_of_free (hfree : p.free = true)
    (h : Drained p ∨ ∃ below, p.stack = .pump :: below) : Drained p := by
  refine h.resolve_right ?_
  rintro ⟨below, hstack⟩
  simp [free, hstack] at hfree

/-- A move between two rounds of a pump. -/
theorem Tidy.step (htidy : Tidy p) (hlengths : Lengths o p)
    (hdrained : Drained p ∨ ∃ below, p.stack = .pump :: below)
    (hstep : step o credentials p move = some p') : Ordered p' := by
  cases moved_of_step hstep with
  | run hstack =>
    have hpop := htidy.noPop
    rw [hstack, mem_cons, not_or] at hpop
    refine ordered_exec ⟨htidy.done, hpop.2, htidy.sound⟩ (hlengths.frame rfl) ?_ (Ne.symm hpop.1)
    refine hdrained.imp id ?_
    rintro ⟨below, hpump⟩
    exact (List.cons.inj (hstack.symm.trans hpump)).1
  | back hstack =>
    have hempty : Drained p := drained_of_free (by simp [free, hstack]) hdrained
    refine .between ⟨htidy.done, fun hmem => htidy.noPop ?_, htidy.sound⟩ (.inl hempty)
    rw [hstack]
    exact mem_cons_of_mem _ hmem
  | call request hfree =>
    exact ordered_call htidy hlengths (drained_of_free hfree hdrained) request
  | complete reply hfree hop =>
    rename_i index op
    have hempty := drained_of_free hfree hdrained
    have htaken : Tidy { p with ops := p.ops.eraseIdx index } :=
      { htidy with }
    cases hwaiter : op.waiter with
    | none => exact (Kept.completed hlengths hop hwaiter reply).plain.ordered htaken hempty
    | some =>
      rw [complete_waiter hwaiter]
      exact ordered_settle htaken hempty _ _

/-- One calm move keeps the queue in order. -/
theorem Ordered.step (h : Ordered p) (hlengths : Lengths o p) (hcalm : calm p move = true)
    (hstep : step o credentials p move = some p') : Ordered p' := by
  obtain ⟨htidy, hdrained⟩ | ⟨hfront, hstack | hstack⟩ := h
  · exact htidy.step hlengths hdrained hstep
  · cases move with
    | run =>
      simp only [CircuitPool.step, hstack, Option.some.injEq] at hstep
      rw [← hstep]
      exact hfront.popFront
    | _ => simp [CircuitPool.step, hstack, free] at hstep
  cases move with
  | back =>
    simp only [CircuitPool.step, hstack, Option.some.injEq] at hstep
    rw [← hstep]
    exact .front { hfront with } (.inl rfl)
  | run => simp [CircuitPool.step, hstack] at hstep
  | _ => simp [calm, hstack] at hcalm

theorem Ordered.start (o : CircuitPoolOptions) : Ordered (start o) :=
  .between ⟨nofun, not_mem_nil, nofun⟩ (.inl fun _ => rfl)

theorem count_calls {α : Type} (f : α → List Nat) (l : List α) (call : Nat) :
    (l.flatMap f).count call = weigh (fun a => (f a).count call) l := by
  simp [count_flatMap, weigh, Function.comp_def]

/-- The opens of a pool, each where it is. -/
theorem Accounted.perm (h : Accounted p) :
    (p.unsettled ++ p.settledCalls ++ p.lostCalls).Perm (List.range p.calls) := by
  refine perm_iff_count.mpr fun call => ?_
  have howned := h call
  have hsum : weigh (fun event => event.settledCall.count call + event.lostCall.count call) p.log =
      weigh (fun event => event.settledCall.count call) p.log +
        weigh (fun event => event.lostCall.count call) p.log := by
    simp [weigh, sum_map_add]
  have hrange : (List.range p.calls).count call = if call < p.calls then 1 else 0 := by
    rw [nodup_range.count]
    simp only [mem_range]
  rw [hrange, ← howned]
  simp only [unsettled, settledCalls, lostCalls, count_append, count_calls, owned, hsum]
  omega

/-- In every run in which no completion the pump settles at the front of the
queue comes back into the pool, every open is in exactly one place: it waits, is
about to be settled, is with a provider, or its completion was invoked, once.
No waiter leaves the queue with its completion, no empty queue is popped, and a
closed pool that is not running keeps nobody waiting. -/
theorem opens_settle_exactly_once
    (h : Reaches (step o credentials) (fun p move => calm p move = true) (start o) p) :
    (p.unsettled ++ p.settledCalls).Perm (List.range p.calls) ∧ p.settledCalls.Nodup ∧
      (∀ call, .lost call ∉ p.log) ∧ .emptyPop ∉ p.log ∧
      (p.closed = true → p.stack = [] → p.waiters = []) := by
  have haccounted : Accounted p :=
    h.invariant (Accounted.start o) fun _ _ _ hreach hbefore _ hstep =>
      hbefore.step (.reached hreach) hstep
  have hordered : Ordered p :=
    h.invariant (Ordered.start o) fun _ _ _ hreach hbefore hcalm hstep =>
      hbefore.step (.reached hreach) hcalm hstep
  have hsound : ∀ event ∈ p.log, event.sound = true := by
    cases hordered with
    | between htidy => exact htidy.sound
    | front hfront => exact hfront.sound
  have hlost : p.lostCalls = [] := by
    refine flatMap_eq_nil_iff.mpr fun event hevent => ?_
    have := hsound event hevent
    cases event <;> first | rfl | cases this
  have hperm := haccounted.perm
  rw [hlost, append_nil] at hperm
  refine ⟨hperm, ?_, fun call hmem => ?_, fun hmem => ?_, fun hclosed hidle => ?_⟩
  · exact (nodup_append.mp (hperm.nodup_iff.mpr nodup_range)).2.1
  · exact absurd (hsound _ hmem) (by simp [Event.sound])
  · exact absurd (hsound _ hmem) (by simp [Event.sound])
  cases hordered with
  | between _ hdrained =>
    refine (hdrained.resolve_right ?_) hclosed
    rintro ⟨below, hpump⟩
    cases hidle.symm.trans hpump
  | front _ hstack =>
    rcases hstack with hpop | hpop
    · cases hidle.symm.trans hpop
    · cases hidle.symm.trans hpop

end

/-- A session with its view, and the build of a circuit that has not ended. -/
def buildingMoves : List Move :=
  let w := { threeHopWorld with hasStreamCapacity := fun _ => false }
  [.call w (.setSession (some 1)), .run w, .run w, .run w, .complete w 0 .ok,
    .complete w 0 (.ended (.accepted 100 7 true)), .run w, .run w, .run w, .run w, .back, .back,
    .back]

/-- An open of plain HTTP is refused, and its completion opens another stream. -/
def reopeningMoves : List Move :=
  let w := { threeHopWorld with hasStreamCapacity := fun _ => false }
  [.call w (.open ⟨80, true⟩ true), .run w, .run w, .run w, .run w,
    .call w (.open ⟨443, true⟩ true), .run w, .run w, .run w, .run w, .run w, .run w, .back,
    .run w]

/-- The second open is popped in the place of the first: it waits nowhere, no
provider has it, and its completion was never invoked. -/
theorem reopened_stream_lost :
    ∃ p, Reaches (step sampleOptions sampleCredentials) (fun _ _ => True)
        (start sampleOptions) p ∧
      .opened 1 ∈ p.log ∧ .lost 1 ∈ p.log ∧ 1 ∉ p.unsettled ∧ 1 ∉ p.settledCalls := by
  obtain ⟨p, hreach, hcheck⟩ := reached_of_sampleRun (buildingMoves ++ reopeningMoves)
    (fun p => decide (.opened 1 ∈ p.log ∧ .lost 1 ∈ p.log ∧ 1 ∉ p.unsettled ∧
      1 ∉ p.settledCalls))
    (by decide)
  exact ⟨p, hreach, of_decide_eq_true hcheck⟩

/-- An open of plain HTTP is refused, its completion returns, and then another
stream is opened, which waits for the build. -/
def refusedMoves : List Move :=
  let w := { threeHopWorld with hasStreamCapacity := fun _ => false }
  [.call w (.open ⟨80, true⟩ true), .run w, .run w, .run w, .run w, .back, .run w, .run w,
    .call w (.open ⟨443, true⟩ true), .run w, .run w, .run w, .run w]

theorem opens_settle_exactly_once_sample :
    ∃ p : Pool, p.calls = 2 ∧ 0 ∈ p.settledCalls ∧ 1 ∈ p.unsettled ∧
      (p.unsettled ++ p.settledCalls).Perm (List.range p.calls) := by
  have hrun : (runChecked (step sampleOptions sampleCredentials) calm (start sampleOptions)
      (buildingMoves ++ refusedMoves)).any
      (fun p => decide (p.calls = 2 ∧ 0 ∈ p.settledCalls ∧ 1 ∈ p.unsettled)) = true := by
    decide
  obtain ⟨p, hreach, htest⟩ := Reaches.exists_of_runChecked (fun _ _ hcalm => hcalm) _ _ hrun
  obtain ⟨hcalls, hsettled, hwaits⟩ := of_decide_eq_true htest
  exact ⟨p, hcalls, hsettled, hwaits, (opens_settle_exactly_once hreach).1⟩

end Yume.CircuitPool
