/-
The credits of the records a bridge receives.  A record's credit is held, about
to be released or released, once in all; a bridge that has not ended never loses
the record it holds, so a credit is released early only by one that has.
-/
import Yume.RouteBridge.Flow

namespace Yume.RouteBridge

open Yume.Lib Bridge List Bool

variable {limits : Limits} {b after : Bridge} {result : Bridge × List Task} {task : Task}
  {l m others : List Task}

/-- The tasks that go on with a record. -/
def Task.routeIssuer : Task → Nat
  | .issueRouteWrite => 1
  | _ => 0

def Task.releasing (record : Nat) : Task → Nat
  | .release other => if other = record then 1 else 0
  | _ => 0

open RouteBridge.Task (failing forwardDriver installer opener releasing routeIssuer routeWriter)

attribute [simp] routeIssuer releasing

/-! ### A bridge that has not ended goes on -/

structure Alive (b : Bridge) (tasks : List Task) : Prop where
  /-- The opening of the route is under way until it is open. -/
  opening : b.terminal = false → b.routeOpen = false → 0 < weigh opener tasks + b.opens +
    weigh installer tasks + weigh failing tasks
  /-- A record is on its way to an open route. -/
  writing : b.terminal = false → b.routeOpen = true → b.pending.isSome = true →
    0 < weigh routeIssuer tasks + weigh routeWriter tasks + b.routeWrites +
      weigh failing tasks
  inflight : b.terminal = false →
    b.routeWriteInflight.toNat = weigh routeWriter tasks + b.routeWrites

def Bridge.living (b : Bridge) :=
  (b.terminal, b.routeOpen, b.pending.isSome, b.routeWriteInflight, b.opens, b.routeWrites)

namespace Alive

theorem frame (h : Alive b l) (hsame : after.living = b.living)
    (hopener : weigh opener m = weigh opener l)
    (hinstaller : weigh installer m = weigh installer l)
    (hissuer : weigh routeIssuer m = weigh routeIssuer l)
    (hwriter : weigh routeWriter m = weigh routeWriter l)
    (hfailing : weigh failing l ≤ weigh failing m) : Alive after m := by
  simp only [living, Prod.mk.injEq] at hsame
  obtain ⟨e1, e2, e3, e4, e5, e6⟩ := hsame
  refine ⟨?_, ?_, ?_⟩
  · rw [e1, e2, e5, hopener, hinstaller]
    intro hterminal hopen
    have hpos := h.opening hterminal hopen
    omega
  · rw [e1, e2, e3, e6, hissuer, hwriter]
    intro hterminal hopen hsome
    have hpos := h.writing hterminal hopen hsome
    omega
  · rw [e1, e4, e6, hwriter]
    exact h.inflight

theorem perm (h : Alive b l) (hperm : l.Perm m) : Alive b m :=
  h.frame rfl (weigh_perm hperm.symm) (weigh_perm hperm.symm) (weigh_perm hperm.symm)
    (weigh_perm hperm.symm) (Nat.le_of_eq (weigh_perm hperm))

/-- Nothing is asked of a bridge that has ended. -/
theorem of_terminal (hterminal : b.terminal = true) : Alive b l := by
  constructor <;> simp [hterminal]

/-- A bridge that holds a record and has nothing left to do has ended. -/
theorem terminal_of_quiet (h : Alive b []) (hidle : b.idle = true)
    (hsome : b.pending.isSome = true) : b.terminal = true := by
  simp only [idle, and_eq_true, beq_iff_eq] at hidle
  by_contra hterminal
  rw [not_eq_true] at hterminal
  cases hopen : b.routeOpen with
  | false =>
    have hpos := h.opening hterminal hopen
    simp [hidle] at hpos
  | true =>
    have hpos := h.writing hterminal hopen hsome
    simp [hidle] at hpos

theorem completeOpen {result : OpenResult} (hsettled : b.openSettled = false)
    (h : Alive b (.completeOpen result :: others)) :
    Kept Alive (b.completeOpen limits result) others := by
  obtain ⟨h1, h2, h3⟩ := h
  unfold Bridge.completeOpen
  cases result <;> (repeat' split) <;> constructor <;> simp_all

theorem install (h : Alive b (.install :: others)) : Kept Alive b.install others := by
  obtain ⟨h1, h2, h3⟩ := h
  unfold Bridge.install Bridge.afterInstall
  (repeat' split) <;> constructor <;> simp_all

/-- A record that is not being written is taken up. -/
theorem issueRouteWrite (hdrivers : Drivers b (.issueRouteWrite :: others))
    (h : Alive b (.issueRouteWrite :: others)) :
    Kept Alive (b.issueRouteWrite limits) others := by
  have hforward := hdrivers.forward
  simp only [weigh_cons, forwardDriver, routeWriter] at hforward
  have hidle : weigh routeWriter others = 0 := by omega
  have hwrites : b.routeWrites = 0 := by omega
  obtain ⟨h1, h2, h3⟩ := h
  unfold Bridge.issueRouteWrite
  (repeat' split) <;> constructor <;> simp_all
  -- The section returns only when the bridge has ended or the route is not open.
  intro hterminal hopen
  simp_all

theorem takeChunk {offset size : Nat} (hdrivers : Drivers b (.takeChunk offset size :: others))
    (h : Alive b (.takeChunk offset size :: others)) :
    Kept Alive (b.takeChunk offset size) others := by
  obtain ⟨hwrites, hothers, -⟩ := Forward.idle_beside hdrivers rfl
  obtain ⟨h1, h2, h3⟩ := h
  unfold Bridge.takeChunk
  (repeat' split) <;> constructor <;> simp_all

theorem exec (ok : Bool) (hdrivers : Drivers b (task :: others)) (h : Alive b (task :: others)) :
    Kept Alive (b.exec limits ok task) others := by
  cases task with
  | completeOpen => exact h.completeOpen hdrivers.not_settled
  | install => exact h.install
  | issueRouteWrite => exact h.issueRouteWrite hdrivers
  | takeChunk => exact h.takeChunk hdrivers
  | fail =>
    refine of_terminal ?_
    simp only [exec, fail]
    split <;> simp_all
  | checkStart | checkRouteWrite =>
    obtain ⟨h1, h2, h3⟩ := h
    simp only [exec]
    split <;> constructor <;> simp_all
  | callOpen =>
    obtain ⟨h1, h2, h3⟩ := h
    constructor <;> simp_all [exec]
  | callRouteWrite chunk =>
    obtain ⟨h1, h2, h3⟩ := h
    constructor <;> simp_all [exec]
    omega
  | finishIfGraceful =>
    simp only [exec, finishIfGraceful, routeClose]
    split
    · exact h.frame rfl (by simp) (by simp) (by simp) (by simp) (by simp)
    · exact of_terminal rfl
  | _ =>
    simp only [exec, issueStreamRead, issueRouteRead, callRouteRead,
      propagateStreamEof, propagateRouteEof, afterShutdown,
      completeAcceptance]
    (repeat' split) <;> exact h.frame rfl (by simp) (by simp) (by simp) (by simp) (by simp)

theorem complete (hdone : Completion limits b result) (hdrivers : Drivers b others)
    (hforward : Forward b others) (h : Alive b others) : Kept Alive result others := by
  cases hdone with
  | opened result =>
    obtain ⟨h1, h2, h3⟩ := h
    cases result <;> constructor <;> simp_all [System.deliver]
  | streamRead result hread =>
    obtain ⟨hflight, hnone⟩ := hforward.read_beside hdrivers hread
    obtain ⟨h1, h2, h3⟩ := h
    unfold completeStreamRead receive
    cases result <;> dsimp only <;> (repeat' split) <;> constructor <;> simp_all
  | routeWrote ok transferred hwrite =>
    have hroute := hdrivers.routeWrite
    have hle := toNat_le b.routeWriteInflight
    have hflight : b.routeWriteInflight = true := toNat_eq_one.mp (by omega)
    have hone : b.routeWrites = 1 := by omega
    have hothers : weigh routeWriter others = 0 := by omega
    obtain ⟨h1, h2, h3⟩ := h
    unfold completeRouteWrite
    (repeat' split) <;> constructor <;> simp_all
  | routeRead result =>
    unfold completeRouteRead
    cases result <;> dsimp only <;> (repeat' split) <;>
      exact h.frame rfl (by simp) (by simp) (by simp) (by simp) (by simp)
  | streamWrote =>
    unfold completeStreamWrite
    (repeat' split) <;> exact h.frame rfl (by simp) (by simp) (by simp) (by simp) (by simp)

theorem destroy (h : Alive b others) : Alive b.destroy others := by
  obtain ⟨h1, h2, h3⟩ := h
  unfold Bridge.destroy
  split <;> constructor <;> simp_all

end Alive

/-! ### Credits -/

/-- Whether the credit of a record is held. -/
def Bridge.holding (b : Bridge) (record : Nat) : Nat :=
  match b.pending with
  | some pending => if pending.record = record then 1 else 0
  | none => 0

structure Credits (b : Bridge) (tasks : List Task) : Prop where
  once : ∀ record, weigh (releasing record) tasks + b.released.count record +
    b.holding record = if record < b.ends.length then 1 else 0
  /-- The record that is held is the last one received. -/
  last : ∀ pending, b.pending = some pending → b.ends[pending.record]? = some b.fromStream.length
  written : b.terminal = false → weigh failing tasks = 0 → ∀ record,
    0 < weigh (releasing record) tasks + b.released.count record →
    ∃ stop, b.ends[record]? = some stop ∧ stop ≤ b.routeWritten

def Bridge.crediting (b : Bridge) :=
  (b.terminal, b.released, b.ends, b.pending, b.fromStream, b.routeWritten)

namespace Credits

theorem frame (h : Credits b l) (hsame : after.crediting = b.crediting)
    (hreleasing : ∀ record, weigh (releasing record) m = weigh (releasing record) l)
    (hfailing : weigh failing l ≤ weigh failing m) : Credits after m := by
  simp only [crediting, Prod.mk.injEq] at hsame
  obtain ⟨e1, e2, e3, e4, e5, e6⟩ := hsame
  refine ⟨?_, ?_, ?_⟩
  · intro record
    rw [hreleasing, holding, e2, e3, e4]
    exact h.once record
  · rw [e3, e4, e5]
    exact h.last
  rw [e1, e2, e3, e6]
  intro hterminal hnone record hpos
  exact h.written hterminal (by omega) record (hreleasing record ▸ hpos)

theorem perm (h : Credits b l) (hperm : l.Perm m) : Credits b m :=
  h.frame rfl (fun _ => weigh_perm hperm.symm) (Nat.le_of_eq (weigh_perm hperm))

theorem holding_of_pending {pending : PendingStreamRecord} (hpending : b.pending = some pending)
    (record : Nat) : b.holding record = if pending.record = record then 1 else 0 := by
  rw [holding, hpending]

/-- The bridge gives up the record it holds: because it has ended, because it is
about to, or because the record is written. -/
theorem giveUp {pending : PendingStreamRecord} (h : Credits b l)
    (hpending : b.pending = some pending)
    (hsame : (after.released, after.ends, after.pending) = (b.released, b.ends, none))
    (hreleasing : ∀ record, weigh (releasing record) m =
      weigh (releasing record) l + if pending.record = record then 1 else 0)
    (hgrown : b.routeWritten ≤ after.routeWritten)
    (hdone : after.terminal = false → weigh failing m = 0 →
      b.terminal = false ∧ weigh failing l = 0 ∧
        b.fromStream.length ≤ after.routeWritten) : Credits after m := by
  simp only [Prod.mk.injEq] at hsame
  obtain ⟨e1, e2, e3⟩ := hsame
  refine ⟨?_, by simp [e3], ?_⟩
  · intro record
    have honce := h.once record
    rw [holding_of_pending hpending] at honce
    rw [hreleasing, holding, e1, e2, e3]
    dsimp only
    omega
  intro hterminal hnone record hpos
  obtain ⟨hbefore, hfailing, hwritten⟩ := hdone hterminal hnone
  rw [e2]
  by_cases hrecord : pending.record = record
  · subst hrecord
    exact ⟨_, h.last pending hpending, hwritten⟩
  rw [hreleasing, if_neg hrecord, e1] at hpos
  obtain ⟨stop, hstop, hle⟩ := h.written hbefore hfailing record (by omega)
  exact ⟨stop, hstop, Nat.le_trans hle hgrown⟩

@[simp] theorem releasing_routeClose (b : Bridge) (record : Nat) :
    weigh (releasing record) b.routeClose = 0 := by
  unfold routeClose
  split <;> simp

theorem fail (h : Credits b (.fail :: others)) : Kept Credits b.fail others := by
  unfold Bridge.fail
  split
  · rename_i hterminal
    exact ⟨by simpa using h.once, h.last, by simp [hterminal]⟩
  -- The record is dropped unless the route has a part of it.
  cases hpending : b.pending with
  | none =>
    refine ⟨?_, by simp, by simp⟩
    simpa [holding, dropped, hpending] using h.once
  | some =>
    cases hflight : b.routeWriteInflight with
    | false =>
      refine h.giveUp hpending (by simp) ?_ (Nat.le_refl _) (by simp)
      intro record
      simp [dropped, hpending, hflight, Nat.add_comm]
    | true =>
      refine ⟨?_, by simpa [hpending] using h.last, by simp⟩
      simpa [holding, dropped, hpending, hflight] using h.once

theorem takeChunk {offset size : Nat} (h : Credits b (.takeChunk offset size :: others)) :
    Kept Credits (b.takeChunk offset size) others := by
  unfold Bridge.takeChunk
  split
  · exact h.frame rfl (by simp) (by simp)
  rename_i pending hpending
  split
  · rename_i hterminal
    exact h.giveUp hpending rfl (by simp [Nat.add_comm]) (Nat.le_refl _) (by simp [hterminal])
  · exact h.frame rfl (by simp) (by simp)

theorem release {record : Nat} (h : Credits b (.release record :: others)) :
    Credits { b with released := record :: b.released } others := by
  have hmoved : ∀ other, weigh (releasing other) (.release record :: others) +
      b.released.count other =
      weigh (releasing other) others + (record :: b.released).count other := by
    intro other
    by_cases hsame : record = other
    · simp only [weigh_cons, releasing, hsame, if_true, count_cons_self]
      omega
    · simp [hsame]
  refine ⟨?_, h.last, ?_⟩
  · intro other
    rw [← hmoved]
    exact h.once other
  intro hterminal hnone other hpos
  dsimp only at hpos
  rw [← hmoved] at hpos
  exact h.written hterminal (by simpa using hnone) other hpos

theorem exec (ok : Bool) (h : Credits b (task :: others)) :
    Kept Credits (b.exec limits ok task) others := by
  cases task with
  | fail => exact h.fail
  | takeChunk => exact h.takeChunk
  | release => exact h.release
  | finishIfGraceful =>
    simp only [exec, finishIfGraceful, routeClose]
    (repeat' split)
    · exact h.frame rfl (by simp) (by simp)
    all_goals exact ⟨by simpa [holding] using h.once, h.last, by simp⟩
  | _ =>
    simp only [exec, issueStreamRead, completeOpen, install,
      afterInstall, issueRouteWrite, issueRouteRead, callRouteRead,
      propagateStreamEof, propagateRouteEof, afterShutdown,
      completeAcceptance]
    (repeat' split) <;> exact h.frame rfl (by simp) (by simp)

/-- A record is numbered by how many came before it. -/
theorem completeStreamRead (result : StreamResult) (hflight : b.streamReadInflight = true)
    (hnone : b.pending = none) (h : Credits b others) :
    Kept Credits
      ({ b with streamReads := b.streamReads - 1 }.completeStreamRead result) others := by
  have hcount : ∀ record length, (if b.ends.length = record then 1 else 0) +
      weigh (releasing record) others + b.released.count record =
      if record < (b.ends ++ [length]).length then 1 else 0 := by
    intro record length
    have hrecord := h.once record
    rw [holding, hnone, Nat.add_zero] at hrecord
    rw [length_append, length_singleton]
    split <;> split at hrecord <;> split <;> omega
  unfold Bridge.completeStreamRead Bridge.receive
  simp only [hflight, Bool.not_true, Bool.false_or]
  cases result with
  | record payload =>
    dsimp only
    split
    · rename_i hterminal
      refine ⟨?_, by simp [hnone], by simp [hterminal]⟩
      intro record
      have hrecord := hcount record (b.fromStream.length + payload.length)
      simp only [holding, hnone, cons_append, nil_append, weigh_cons, releasing]
      omega
    split
    · refine ⟨?_, by simp [hnone], by simp⟩
      intro record
      have hrecord := hcount record (b.fromStream.length + payload.length)
      simp only [holding, hnone, cons_append, nil_append, weigh_cons, releasing]
      omega
    have hmade : ∀ record, weigh (releasing record)
        ((if b.routeOpen = true then [Task.issueRouteWrite] else []) ++ others) =
        weigh (releasing record) others := by
      intro record
      split <;> simp
    refine ⟨?_, ?_, ?_⟩
    · intro record
      have hrecord := hcount record (b.fromStream.length + payload.length)
      rw [hmade]
      simp only [holding]
      omega
    · rintro pending ⟨⟩
      simp
    intro hterminal hfail record hpos
    rw [hmade] at hpos
    obtain ⟨stop, hstop, hle⟩ := h.written hterminal
      (by revert hfail; split <;> simp) record hpos
    refine ⟨stop, ?_, hle⟩
    rw [getElem?_append_left (List.getElem?_eq_some_iff.mp hstop).1]
    exact hstop
  | endOfStream =>
    dsimp only
    (repeat' split) <;> exact h.frame rfl (by simp) (by simp)
  | failed =>
    dsimp only
    split <;> exact h.frame rfl (by simp) (by simp)

theorem completeRouteWrite (ok : Bool) (transferred : Nat) (hforward : Forward b others)
    (hwrite : b.routeWrites ≠ 0) (h : Credits b others) :
    Kept Credits
      ({ b with routeWrites := b.routeWrites - 1 }.completeRouteWrite ok transferred) others := by
  obtain ⟨pending, hpending, hpos, hfits⟩ := hforward.writing (by omega)
  obtain ⟨done, hfrom, hoffset, hwritten, -⟩ := hforward.holds pending hpending
  unfold Bridge.completeRouteWrite
  simp only [hpending]
  split
  · exact h.frame (by simp [crediting, hpending]) (by simp) (by simp)
  split
  · rename_i hterminal
    exact h.giveUp hpending rfl (by simp [Nat.add_comm]) (Nat.le_refl _) (by simp [hterminal])
  rename_i hterminal
  rw [not_eq_true] at hterminal
  split
  · exact h.giveUp hpending rfl (by simp [Nat.add_comm]) (Nat.le_refl _) (by simp)
  split
  · rename_i hall
    refine h.giveUp hpending rfl (by simp [Nat.add_comm]) (Nat.le_add_right _ _) ?_
    intro _ hnone
    refine ⟨hterminal, by simpa using hnone, ?_⟩
    rw [hfrom, length_append]
    dsimp only
    omega
  split
  · refine ⟨?_, ?_, ?_⟩
    · intro record
      have honce := h.once record
      rw [holding_of_pending hpending] at honce
      simpa [holding] using honce
    · rintro record ⟨⟩
      exact h.last pending hpending
    intro _ hnone record hreleased
    obtain ⟨stop, hstop, hle⟩ := h.written hterminal (by simpa using hnone) record
      (by simpa using hreleased)
    exact ⟨stop, hstop, Nat.le_trans hle (Nat.le_add_right _ _)⟩
  · exact h.giveUp hpending rfl (by simp [Nat.add_comm]) (Nat.le_refl _) (by simp)

theorem complete (hdone : Completion limits b result) (hdrivers : Drivers b others)
    (hforward : Forward b others) (h : Credits b others) : Kept Credits result others := by
  cases hdone with
  | opened result => cases result <;> exact h.frame rfl (by simp) (by simp)
  | streamRead result hread =>
    obtain ⟨hflight, hnone⟩ := hforward.read_beside hdrivers hread
    exact h.completeStreamRead result hflight hnone
  | routeWrote ok transferred hwrite => exact h.completeRouteWrite ok transferred hforward hwrite
  | routeRead result =>
    unfold completeRouteRead
    cases result <;> dsimp only <;> (repeat' split) <;> exact h.frame rfl (by simp) (by simp)
  | streamWrote =>
    unfold completeStreamWrite
    (repeat' split) <;> exact h.frame rfl (by simp) (by simp)

/-- The bridge is destroyed with a record only after it has ended. -/
theorem destroy (halive : Alive b []) (hidle : b.idle = true) (h : Credits b []) :
    Credits b.destroy [] := by
  unfold Bridge.destroy
  split
  · rename_i hpending
    have hterminal := halive.terminal_of_quiet hidle (by simp [hpending])
    refine ⟨?_, by simp, by simp [hterminal]⟩
    intro record
    have honce := h.once record
    rw [holding_of_pending hpending] at honce
    simpa [holding, count_cons, beq_iff_eq] using honce
  · exact h

end Credits

end Yume.RouteBridge
