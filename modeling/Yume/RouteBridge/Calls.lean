/-
The calls a bridge makes once: the shutdown of each side, the acceptance, the
close of the route.  Each is made, pending or still possible, and never two of
these.
-/
import Yume.RouteBridge.Tokens

namespace Yume.RouteBridge

open Yume.Lib Bridge

variable {had : Bool} {limits : Limits} {b after : Bridge} {result : Bridge × List Task}
  {task : Task} {l m others : List Task}

/-! ### Shutdowns -/

/-- A side is shut down once, and only after the end of the other side's input. -/
structure Shutdowns (b : Bridge) (tasks : List Task) : Prop where
  route : weigh Task.routeShutdown tasks + b.routeShutdowns = b.routeWriteShutdown.toNat
  stream : weigh Task.streamShutdown tasks + b.streamShutdowns = b.streamWriteShutdown.toNat
  streamEof : weigh Task.streamEof tasks + b.routeWriteShutdown.toNat ≤ b.streamInputEof.toNat
  streamEofOpen : weigh Task.streamEof tasks + b.routeWriteShutdown.toNat ≤ b.routeOpen.toNat
  routeEof : weigh Task.routeEof tasks + b.streamWriteShutdown.toNat ≤ b.routeInputEof.toNat

def Bridge.shuttingDown (b : Bridge) :=
  (b.routeShutdowns, b.streamShutdowns, b.routeWriteShutdown, b.streamWriteShutdown,
    b.streamInputEof, b.routeInputEof, b.routeOpen)

namespace Shutdowns

/-- A step that neither shuts a side down nor makes a task that does. -/
theorem frame (h : Shutdowns b l) (hsame : after.shuttingDown = b.shuttingDown)
    (hroute : weigh Task.routeShutdown m = weigh Task.routeShutdown l)
    (hstream : weigh Task.streamShutdown m = weigh Task.streamShutdown l)
    (hstreamEof : weigh Task.streamEof m = weigh Task.streamEof l)
    (hrouteEof : weigh Task.routeEof m = weigh Task.routeEof l) : Shutdowns after m := by
  simp only [shuttingDown, Prod.mk.injEq] at hsame
  obtain ⟨e1, e2, e3, e4, e5, e6, e7⟩ := hsame
  obtain ⟨h1, h2, h3, h4, h5⟩ := h
  constructor <;> simpa only [e1, e2, e3, e4, e5, e6, e7, hroute, hstream, hstreamEof, hrouteEof]

theorem perm (h : Shutdowns b l) (hperm : l.Perm m) : Shutdowns b m :=
  h.frame rfl (weigh_perm hperm.symm) (weigh_perm hperm.symm) (weigh_perm hperm.symm)
    (weigh_perm hperm.symm)

theorem open_of_shutdown (h : Shutdowns b l) (hshutdown : b.routeWriteShutdown = true) :
    b.routeOpen = true := by
  have hle := h.streamEofOpen
  rw [hshutdown, Bool.toNat_true] at hle
  have hone := Bool.toNat_le b.routeOpen
  exact Bool.toNat_eq_one.mp (by omega)

theorem install (hclosed : b.routeOpen = false) (h : Shutdowns b (.install :: others)) :
    Kept Shutdowns b.install others := by
  obtain ⟨h1, h2, h3, h4, h5⟩ := h
  unfold Bridge.install Bridge.afterInstall
  (repeat' split) <;> constructor <;> simp_all

theorem exec (ok : Bool) (hdrivers : Drivers b (task :: others))
    (h : Shutdowns b (task :: others)) :
    Kept Shutdowns (b.exec limits ok task) others := by
  cases task with
  | install => exact h.install hdrivers.not_open
  | propagateStreamEof | propagateRouteEof | callRouteShutdown | callStreamShutdown =>
    obtain ⟨h1, h2, h3, h4, h5⟩ := h
    simp only [exec, propagateStreamEof, propagateRouteEof, afterShutdown]
    split <;> constructor <;> simp_all <;> omega
  | _ =>
    simp only [exec, issueStreamRead, completeOpen, issueRouteWrite,
      takeChunk, issueRouteRead, callRouteRead, finishIfGraceful,
      completeAcceptance, fail, dropped, routeClose]
    (repeat' split) <;> exact h.frame rfl (by simp) (by simp) (by simp) (by simp)

theorem complete (hdone : Completion limits b result) (hdrivers : Drivers b others)
    (h : Shutdowns b others) : Kept Shutdowns result others := by
  cases hdone with
  | opened result =>
    cases result <;> exact h.frame rfl (by simp) (by simp) (by simp) (by simp)
  | streamRead result hread =>
    have heof := (hdrivers.streamRead_inflight hread).2.2
    obtain ⟨h1, h2, h3, h4, h5⟩ := h
    unfold completeStreamRead receive
    cases result <;> dsimp only <;> (repeat' split) <;> constructor <;> simp_all
  | routeRead result hread =>
    have heof := (hdrivers.routeRead_inflight hread).2.2
    obtain ⟨h1, h2, h3, h4, h5⟩ := h
    unfold completeRouteRead
    cases result <;> dsimp only <;> (repeat' split) <;> constructor <;> simp_all
  | routeWrote | streamWrote =>
    simp only [completeRouteWrite, completeStreamWrite]
    (repeat' split) <;> exact h.frame rfl (by simp) (by simp) (by simp) (by simp)

theorem destroy (h : Shutdowns b others) : Shutdowns b.destroy others := by
  unfold Bridge.destroy
  split
  · exact h.frame rfl rfl rfl rfl rfl
  · exact h

end Shutdowns

/-! ### Acceptance -/

/-- The acceptance is completed once, with success only for an open route.
`had` says whether the bridge was made with one. -/
structure Acceptance (had : Bool) (b : Bridge) (tasks : List Task) : Prop where
  once : weigh Task.invoker tasks + b.acceptances.length + b.acceptance.toNat = had.toNat
  /-- Something that will complete it is under way. -/
  settling : b.acceptance = true → 0 < weigh Task.acceptor tasks ∨
    (b.terminal = false ∧ b.routeOpen = false ∧ 0 < weigh Task.opener tasks + b.opens +
      weigh Task.installer tasks + weigh Task.failing tasks)
  success : 0 < weigh Task.succeeding tasks + b.acceptances.count true → b.routeOpen = true

def Bridge.accepting (b : Bridge) :=
  (b.acceptances, b.acceptance, b.terminal, b.routeOpen, b.opens)

namespace Acceptance

/-- A step that does nothing about the acceptance; it may make a task that fails. -/
theorem frame (h : Acceptance had b l) (hsame : after.accepting = b.accepting)
    (hinvoker : weigh Task.invoker m = weigh Task.invoker l)
    (hacceptor : weigh Task.acceptor m = weigh Task.acceptor l)
    (hopener : weigh Task.opener m = weigh Task.opener l)
    (hinstaller : weigh Task.installer m = weigh Task.installer l)
    (hsucceeding : weigh Task.succeeding m = weigh Task.succeeding l)
    (hfailing : weigh Task.failing l ≤ weigh Task.failing m) : Acceptance had after m := by
  simp only [accepting, Prod.mk.injEq] at hsame
  obtain ⟨e1, e2, e3, e4, e5⟩ := hsame
  obtain ⟨h1, h2, h3⟩ := h
  refine ⟨?_, ?_, ?_⟩
  · simpa only [e1, e2, hinvoker]
  · intro hacc
    rw [e2] at hacc
    rw [e3, e4, e5, hacceptor, hopener, hinstaller]
    exact (h2 hacc).imp id fun ⟨ht, hr, hpos⟩ => ⟨ht, hr, by omega⟩
  · simpa only [e1, e4, hsucceeding]

theorem perm (h : Acceptance had b l) (hperm : l.Perm m) : Acceptance had b m :=
  h.frame rfl (weigh_perm hperm.symm) (weigh_perm hperm.symm) (weigh_perm hperm.symm)
    (weigh_perm hperm.symm) (weigh_perm hperm.symm) (Nat.le_of_eq (weigh_perm hperm))

theorem completeOpen {result : OpenResult} (hsettled : b.openSettled = false)
    (h : Acceptance had b (.completeOpen result :: others)) :
    Kept (Acceptance had) (b.completeOpen limits result) others := by
  obtain ⟨h1, h2, h3⟩ := h
  unfold Bridge.completeOpen
  cases result <;> (repeat' split) <;> constructor <;> simp_all

/-- A bridge that ends gracefully has an open route, so its acceptance is
completed or about to be. -/
theorem finishIfGraceful (hopen : b.routeWriteShutdown = true → b.routeOpen = true)
    (h : Acceptance had b (.finishIfGraceful :: others)) :
    Kept (Acceptance had) b.finishIfGraceful others := by
  obtain ⟨h1, h2, h3⟩ := h
  unfold Bridge.finishIfGraceful Bridge.routeClose
  (repeat' split) <;> constructor <;> simp_all

theorem exec (ok : Bool) (hdrivers : Drivers b (task :: others))
    (hshutdowns : Shutdowns b (task :: others)) (h : Acceptance had b (task :: others)) :
    Kept (Acceptance had) (b.exec limits ok task) others := by
  cases task with
  | completeOpen => exact h.completeOpen hdrivers.not_settled
  | finishIfGraceful => exact h.finishIfGraceful hshutdowns.open_of_shutdown
  -- A start that finds the bridge ended leaves the acceptance to what ended it.
  | callOpen | checkStart | install | fail =>
    obtain ⟨h1, h2, h3⟩ := h
    simp only [exec, install, afterInstall, fail, dropped, routeClose]
    (repeat' split) <;> constructor <;> simp_all
  | completeAcceptance success | invokeAcceptance success =>
    obtain ⟨h1, h2, h3⟩ := h
    simp only [exec, completeAcceptance]
    cases success <;> (repeat' split) <;> constructor <;> simp_all <;> omega
  | _ =>
    simp only [exec, issueStreamRead, issueRouteWrite, takeChunk,
      issueRouteRead, callRouteRead, propagateStreamEof,
      propagateRouteEof, afterShutdown]
    (repeat' split) <;>
      exact h.frame rfl (by simp) (by simp) (by simp) (by simp) (by simp) (by simp)

theorem complete (hdone : Completion limits b result) (h : Acceptance had b others) :
    Kept (Acceptance had) result others := by
  cases hdone with
  | opened result =>
    have hsettling : b.acceptance = true → 0 < weigh Task.acceptor others ∨
        (b.terminal = false ∧ b.routeOpen = false) :=
      fun hacc => (h.settling hacc).imp id fun hopening => ⟨hopening.1, hopening.2.1⟩
    cases result <;>
      exact ⟨by simpa [System.deliver] using h.once, by simpa [System.deliver] using hsettling,
        by simpa [System.deliver] using h.success⟩
  | streamRead result | routeRead result =>
    cases result <;> simp only [completeStreamRead, receive,
      completeRouteRead] <;> (repeat' split) <;>
      exact h.frame rfl (by simp) (by simp) (by simp) (by simp) (by simp) (by simp)
  | routeWrote | streamWrote =>
    simp only [completeRouteWrite, completeStreamWrite]
    (repeat' split) <;>
      exact h.frame rfl (by simp) (by simp) (by simp) (by simp) (by simp) (by simp)

theorem destroy (h : Acceptance had b others) : Acceptance had b.destroy others := by
  unfold Bridge.destroy
  split
  · exact h.frame rfl rfl rfl rfl rfl rfl (Nat.le_refl _)
  · exact h

end Acceptance

/-! ### Closing -/

/-- The route is closed once, when the bridge ends, and a connection that was
delivered is installed or closed. -/
structure Closing (b : Bridge) (tasks : List Task) : Prop where
  issued : b.routeCloseIssued = b.terminal
  closes : weigh Task.closer tasks + b.routeCloses = (b.terminal && b.routeOpen).toNat
  connections : weigh Task.connection tasks + b.discarded + b.routeOpen.toNat = b.delivered

def Bridge.closing (b : Bridge) :=
  (b.routeCloseIssued, b.terminal, b.routeOpen, b.routeCloses, b.discarded, b.delivered)

namespace Closing

theorem frame (h : Closing b l) (hsame : after.closing = b.closing)
    (hcloser : weigh Task.closer m = weigh Task.closer l)
    (hconnection : weigh Task.connection m = weigh Task.connection l) : Closing after m := by
  simp only [closing, Prod.mk.injEq] at hsame
  obtain ⟨e1, e2, e3, e4, e5, e6⟩ := hsame
  obtain ⟨h1, h2, h3⟩ := h
  constructor <;> simpa only [e1, e2, e3, e4, e5, e6, hcloser, hconnection]

theorem perm (h : Closing b l) (hperm : l.Perm m) : Closing b m :=
  h.frame rfl (weigh_perm hperm.symm) (weigh_perm hperm.symm)

theorem install (hclosed : b.routeOpen = false) (h : Closing b (.install :: others)) :
    Kept Closing b.install others := by
  obtain ⟨h1, h2, h3⟩ := h
  unfold Bridge.install Bridge.afterInstall
  (repeat' split) <;> constructor <;> simp_all <;> omega

theorem exec (ok : Bool) (hdrivers : Drivers b (task :: others)) (h : Closing b (task :: others)) :
    Kept Closing (b.exec limits ok task) others := by
  cases task with
  | install => exact h.install hdrivers.not_open
  | completeOpen result =>
    obtain ⟨h1, h2, h3⟩ := h
    simp only [exec, completeOpen]
    cases result <;> (repeat' split) <;> constructor <;> simp_all
  | finishIfGraceful | fail | closeRoute | closeConnection =>
    obtain ⟨h1, h2, h3⟩ := h
    simp only [exec, finishIfGraceful, fail, dropped, routeClose]
    (repeat' split) <;> constructor <;> simp_all <;> omega
  | _ =>
    simp only [exec, issueStreamRead, issueRouteWrite, takeChunk,
      issueRouteRead, callRouteRead, propagateStreamEof,
      propagateRouteEof, afterShutdown, completeAcceptance]
    (repeat' split) <;> exact h.frame rfl (by simp) (by simp)

theorem complete (hdone : Completion limits b result) (h : Closing b others) :
    Kept Closing result others := by
  cases hdone with
  | opened result =>
    obtain ⟨h1, h2, h3⟩ := h
    cases result <;> constructor <;> simp_all [System.deliver]
    omega
  | streamRead result | routeRead result =>
    cases result <;> simp only [completeStreamRead, receive,
      completeRouteRead] <;> (repeat' split) <;> exact h.frame rfl (by simp) (by simp)
  | routeWrote | streamWrote =>
    simp only [completeRouteWrite, completeStreamWrite]
    (repeat' split) <;> exact h.frame rfl (by simp) (by simp)

theorem destroy (h : Closing b others) : Closing b.destroy others := by
  unfold Bridge.destroy
  split
  · exact h.frame rfl rfl rfl
  · exact h

end Closing

end Yume.RouteBridge
