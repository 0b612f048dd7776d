/-
What the flags of a bridge count.  Every operation in flight is one task or one
outstanding call, each direction has at most one driver, and every call that may
be made once is made, pending or still to come.
-/
import Yume.RouteBridge.Model
import Mathlib.Tactic.Common

namespace Yume.RouteBridge

open Yume.Lib Bridge Bool

namespace Task

/-! ### What the pending tasks stand for -/

def streamReader : Task → Nat
  | .callStreamRead => 1
  | _ => 0

def routeWriter : Task → Nat
  | .takeChunk _ _ => 1
  | .checkRouteWrite _ => 1
  | .callRouteWrite _ => 1
  | _ => 0

def routeReader : Task → Nat
  | .callRouteRead => 1
  | _ => 0

def streamWriter : Task → Nat
  | .callStreamWrite _ => 1
  | _ => 0

/-- Tasks that will read from the stream or go on with its record. -/
def forwardDriver : Task → Nat
  | .issueStreamRead => 1
  | .issueRouteWrite => 1
  | _ => 0

def backwardDriver : Task → Nat
  | .issueRouteRead => 1
  | _ => 0

def opener : Task → Nat
  | .checkStart => 1
  | .callOpen => 1
  | .completeOpen _ => 1
  | _ => 0

def installer : Task → Nat
  | .install => 1
  | _ => 0

def streamEof : Task → Nat
  | .propagateStreamEof => 1
  | _ => 0

def routeEof : Task → Nat
  | .propagateRouteEof => 1
  | _ => 0

def routeShutdown : Task → Nat
  | .callRouteShutdown => 1
  | _ => 0

def streamShutdown : Task → Nat
  | .callStreamShutdown => 1
  | _ => 0

def failing : Task → Nat
  | .fail => 1
  | _ => 0

def acceptor : Task → Nat
  | .completeAcceptance _ => 1
  | _ => 0

def invoker : Task → Nat
  | .invokeAcceptance _ => 1
  | _ => 0

/-- Tasks that report success to the acceptance. -/
def succeeding : Task → Nat
  | .completeAcceptance true => 1
  | .invokeAcceptance true => 1
  | _ => 0

def closer : Task → Nat
  | .closeRoute => 1
  | _ => 0

/-- Tasks that hold a connection which is not installed. -/
def connection : Task → Nat
  | .completeOpen (.connection _) => 1
  | .install => 1
  | .closeConnection => 1
  | _ => 0

end Task

attribute [simp] Task.streamReader Task.routeWriter Task.routeReader Task.streamWriter
  Task.forwardDriver Task.backwardDriver Task.opener Task.installer Task.streamEof Task.routeEof
  Task.routeShutdown Task.streamShutdown Task.failing Task.acceptor Task.invoker Task.succeeding
  Task.closer Task.connection

/-- A property of a bridge and its tasks, after a step that made tasks before the
others. -/
abbrev Kept (P : Bridge → List Task → Prop) (result : Bridge × List Task) (others : List Task) :
    Prop :=
  P result.1 (result.2 ++ others)

/-- The completion of an operation that is outstanding. -/
inductive Completion (limits : Limits) (b : Bridge) : Bridge × List Task → Prop
  | opened (result : OpenResult) : b.opens ≠ 0 →
    Completion limits b (System.deliver b result, [.completeOpen result])
  | streamRead (result : StreamResult) : b.streamReads ≠ 0 →
    Completion limits b ({ b with streamReads := b.streamReads - 1 }.completeStreamRead result)
  | routeWrote (ok : Bool) (transferred : Nat) : b.routeWrites ≠ 0 →
    Completion limits b
      ({ b with routeWrites := b.routeWrites - 1 }.completeRouteWrite ok transferred)
  | routeRead (result : RouteResult) : b.routeReads ≠ 0 →
    Completion limits b ({ b with routeReads := b.routeReads - 1 }.completeRouteRead limits result)
  | streamWrote (ok : Bool) (transferred : Nat) : b.streamWrites ≠ 0 →
    Completion limits b
      ({ b with streamWrites := b.streamWrites - 1 }.completeStreamWrite ok transferred)

/-- A record that waits for the route to open. -/
def Bridge.parked (b : Bridge) : Nat := (b.pending.isSome && !b.routeOpen).toNat

/-- Who drives the two directions. -/
@[mk_iff]
structure Drivers (b : Bridge) (tasks : List Task) : Prop where
  streamRead : weigh Task.streamReader tasks + b.streamReads = b.streamReadInflight.toNat
  routeWrite : weigh Task.routeWriter tasks + b.routeWrites ≤ b.routeWriteInflight.toNat
  routeRead : weigh Task.routeReader tasks + b.routeReads = b.routeReadInflight.toNat
  streamWrite : weigh Task.streamWriter tasks + b.streamWrites = b.streamWriteInflight.toNat
  forward : weigh Task.forwardDriver tasks + b.streamReadInflight.toNat +
    (weigh Task.routeWriter tasks + b.routeWrites) + b.parked + b.streamInputEof.toNat ≤ 1
  backward : weigh Task.opener tasks + b.opens + weigh Task.installer tasks +
    weigh Task.backwardDriver tasks + b.routeReadInflight.toNat + b.streamWriteInflight.toNat +
    b.routeInputEof.toNat ≤ 1
  settled : weigh Task.opener tasks + b.opens + b.openSettled.toNat ≤ 1
  installed : weigh Task.installer tasks + b.routeOpen.toNat ≤ b.openSettled.toNat

theorem Drivers.perm {b : Bridge} {l m : List Task} (h : Drivers b l) (hperm : l.Perm m) :
    Drivers b m := by
  obtain ⟨h1, h2, h3, h4, h5, h6, h7, h8⟩ := h
  simp only [weigh_perm hperm] at *
  exact ⟨h1, h2, h3, h4, h5, h6, h7, h8⟩

/-- The members that say who drives a direction. -/
def Bridge.driving (b : Bridge) :=
  (b.streamReadInflight, b.routeWriteInflight, b.routeReadInflight, b.streamWriteInflight,
    b.openSettled, b.routeOpen, b.streamInputEof, b.routeInputEof, b.pending.isSome, b.opens,
    b.streamReads, b.routeWrites, b.routeReads, b.streamWrites)

/-- A task that drives nothing. -/
def Task.Passive (task : Task) : Prop :=
  task.streamReader = 0 ∧ task.routeWriter = 0 ∧ task.routeReader = 0 ∧ task.streamWriter = 0 ∧
    task.forwardDriver = 0 ∧ task.backwardDriver = 0 ∧ task.opener = 0 ∧ task.installer = 0

namespace Drivers

variable {limits : Limits} {b after : Bridge} {task : Task} {made others : List Task}

theorem drop (h : Drivers b (task :: others)) (hpassive : task.Passive) : Drivers b others := by
  obtain ⟨h1, h2, h3, h4, h5, h6, h7, h8⟩ := h
  obtain ⟨p1, p2, p3, p4, p5, p6, p7, p8⟩ := hpassive
  simp only [weigh_cons, p1, p2, p3, p4, p5, p6, p7, p8, Nat.zero_add] at *
  exact ⟨h1, h2, h3, h4, h5, h6, h7, h8⟩

theorem add (h : Drivers b others) (hpassive : ∀ task ∈ made, task.Passive) :
    Drivers b (made ++ others) := by
  induction made with
  | nil => exact h
  | cons task made ih =>
    obtain ⟨h1, h2, h3, h4, h5, h6, h7, h8⟩ := ih fun t ht => hpassive t (.tail _ ht)
    obtain ⟨p1, p2, p3, p4, p5, p6, p7, p8⟩ := hpassive task (.head _)
    constructor <;>
      simpa only [List.cons_append, weigh_cons, p1, p2, p3, p4, p5, p6, p7, p8, Nat.zero_add]

theorem congr (h : Drivers b others) (hsame : after.driving = b.driving) :
    Drivers after others := by
  simp only [driving, Prod.mk.injEq] at hsame
  obtain ⟨e1, e2, e3, e4, e5, e6, e7, e8, e9, e10, e11, e12, e13, e14⟩ := hsame
  obtain ⟨h1, h2, h3, h4, h5, h6, h7, h8⟩ := h
  constructor <;>
    simpa only [parked, e1, e2, e3, e4, e5, e6, e7, e8, e9, e10, e11, e12, e13, e14]

/-- A task that drives nothing and makes only such tasks. -/
theorem frame (h : Drivers b (task :: others)) (htask : task.Passive)
    (hsame : after.driving = b.driving) (hmade : ∀ task ∈ made, task.Passive) :
    Drivers after (made ++ others) :=
  ((h.drop htask).congr hsame).add hmade

theorem not_settled {result : OpenResult} (h : Drivers b (.completeOpen result :: others)) :
    b.openSettled = false := by
  have hsettled := h.settled
  simp only [weigh_cons, Task.opener] at hsettled
  exact toNat_eq_zero.mp (by omega)

/-- There is one connection to install, so none is installed yet. -/
theorem not_open (h : Drivers b (.install :: others)) : b.routeOpen = false := by
  have hinstalled := h.installed
  have hle := toNat_le b.openSettled
  simp only [weigh_cons, Task.installer] at hinstalled
  exact toNat_eq_zero.mp (by omega)

theorem completeOpen {result : OpenResult} (h : Drivers b (.completeOpen result :: others)) :
    Kept Drivers (b.completeOpen limits result) others := by
  simp only [drivers_iff, weigh_cons, Kept, Bridge.completeOpen, parked] at h ⊢
  cases result <;> (repeat' split) <;> simp [*] at h ⊢ <;> omega

theorem install (h : Drivers b (.install :: others)) : Kept Drivers b.install others := by
  have hclosed := h.not_open
  simp only [drivers_iff, weigh_cons, Kept, Bridge.install, Bridge.afterInstall, parked] at h ⊢
  (repeat' split) <;> simp [*, -toNat_eq_zero] at h ⊢ <;> omega

theorem issueRouteWrite (h : Drivers b (.issueRouteWrite :: others)) :
    Kept Drivers (b.issueRouteWrite limits) others := by
  simp only [drivers_iff, weigh_cons, Kept, Bridge.issueRouteWrite, parked] at h ⊢
  (repeat' split) <;> simp [*] at h ⊢ <;> omega

theorem takeChunk {offset size : Nat} (h : Drivers b (.takeChunk offset size :: others)) :
    Kept Drivers (b.takeChunk offset size) others := by
  simp only [drivers_iff, weigh_cons, Kept, Bridge.takeChunk, parked] at h ⊢
  (repeat' split) <;> simp [*] at h ⊢ <;> omega

theorem fail (h : Drivers b (.fail :: others)) : Kept Drivers b.fail others := by
  simp only [drivers_iff, weigh_cons, Kept, Bridge.fail, Bridge.dropped, Bridge.routeClose,
    parked] at h ⊢
  (repeat' split) <;> simp [*] at h ⊢ <;> omega

theorem exec (ok : Bool) (h : Drivers b (task :: others)) :
    Kept Drivers (b.exec limits ok task) others := by
  cases task with
  | completeOpen => exact h.completeOpen
  | install => exact h.install
  | issueRouteWrite => exact h.issueRouteWrite
  | takeChunk => exact h.takeChunk
  | fail => exact h.fail
  | issueStreamRead | callStreamRead | checkStart | callOpen | checkRouteWrite | callRouteWrite
  | issueRouteRead | callRouteRead | callStreamWrite =>
    have hle := toNat_le b.routeReadInflight
    simp only [drivers_iff, weigh_cons, exec, issueStreamRead, issueRouteRead, callRouteRead,
      Kept, parked] at h ⊢
    (repeat' split) <;> simp [*] at h ⊢ <;> omega
  | propagateStreamEof =>
    simp only [exec, propagateStreamEof]
    split <;> exact h.frame (by simp [Task.Passive]) rfl (by simp [Task.Passive])
  | propagateRouteEof =>
    simp only [exec, propagateRouteEof]
    split <;> exact h.frame (by simp [Task.Passive]) rfl (by simp [Task.Passive])
  | callRouteShutdown | callStreamShutdown =>
    simp only [exec, afterShutdown]
    split <;> exact h.frame (by simp [Task.Passive]) rfl (by simp [Task.Passive])
  | finishIfGraceful =>
    simp only [exec, finishIfGraceful, routeClose]
    (repeat' split) <;> exact h.frame (by simp [Task.Passive]) rfl (by simp [Task.Passive])
  | completeAcceptance =>
    simp only [exec, completeAcceptance]
    split <;> exact h.frame (by simp [Task.Passive]) rfl (by simp [Task.Passive])
  | invokeAcceptance | release | closeRoute | closeConnection | closeStream =>
    exact h.drop (by simp [Task.Passive]) |>.congr rfl

/-! ### Completions -/

/-- A flag that counts an outstanding call is set. -/
theorem inflight {flag : Bool} {n k : Nat} (hle : n + k ≤ flag.toNat) (hk : k ≠ 0) : flag = true :=
  toNat_eq_one.mp (Nat.le_antisymm (toNat_le flag) (by omega))

/-- A read of the stream that is outstanding is in flight, and it is the only
driver of its direction. -/
theorem streamRead_inflight (h : Drivers b others) (hread : b.streamReads ≠ 0) :
    b.streamReadInflight = true ∧ b.parked = 0 ∧ b.streamInputEof = false := by
  have h1 := h.streamRead
  have h5 := h.forward
  exact ⟨inflight h1.le hread, by omega, toNat_eq_zero.mp (by omega)⟩

theorem routeRead_inflight (h : Drivers b others) (hread : b.routeReads ≠ 0) :
    b.routeReadInflight = true ∧ b.streamWriteInflight = false ∧ b.routeInputEof = false := by
  have h3 := h.routeRead
  have h6 := h.backward
  exact ⟨inflight h3.le hread, toNat_eq_zero.mp (by omega), toNat_eq_zero.mp (by omega)⟩

theorem completeStreamRead {result : StreamResult} (h : Drivers b others)
    (hread : b.streamReads ≠ 0) : Kept Drivers
      ({ b with streamReads := b.streamReads - 1 }.completeStreamRead result) others := by
  obtain ⟨hflight, hparked, heof⟩ := h.streamRead_inflight hread
  simp only [drivers_iff, Kept, Bridge.completeStreamRead, Bridge.receive, parked] at h ⊢
  cases result <;> dsimp only <;> (repeat' split) <;> simp [*, -toNat_eq_zero] at h ⊢ <;> omega

theorem complete {result : Bridge × List Task} (hdone : Completion limits b result)
    (h : Drivers b others) : Kept Drivers result others := by
  cases hdone with
  | opened result hopen =>
    simp only [drivers_iff, Kept, parked, weigh_append] at h ⊢
    cases result <;> simp [System.deliver] at h ⊢ <;> omega
  | streamRead result hread => exact h.completeStreamRead hread
  | routeWrote ok transferred hwrite =>
    have hflight := inflight h.routeWrite hwrite
    simp only [drivers_iff, Kept, completeRouteWrite, parked] at h ⊢
    (repeat' split) <;> simp [*, -toNat_eq_zero] at h ⊢ <;> omega
  | routeRead result hread =>
    obtain ⟨hflight, hwrite, heof⟩ := h.routeRead_inflight hread
    simp only [drivers_iff, Kept, completeRouteRead, parked] at h ⊢
    cases result <;> dsimp only <;> (repeat' split) <;>
      simp [*, -toNat_eq_zero] at h ⊢ <;> omega
  | streamWrote ok transferred hwrite =>
    have hflight := inflight h.streamWrite.le hwrite
    simp only [drivers_iff, Kept, completeStreamWrite, parked, hflight, Bool.not_true,
      false_eq_true, if_false] at h ⊢
    (repeat' split) <;> simp [*, -toNat_eq_zero] at h ⊢ <;> omega

theorem destroy (h : Drivers b others) : Drivers b.destroy others := by
  obtain ⟨h1, h2, h3, h4, h5, h6, h7, h8⟩ := h
  unfold Bridge.destroy
  split <;> constructor <;> simp_all [Bridge.parked]
  omega

end Drivers

end Yume.RouteBridge
