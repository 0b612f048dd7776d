/-
The bytes of a bridge.  What the route was handed is a part of what was read
from the stream, up to the chunk that is being written, and likewise the other
way; a direction reads again only when everything it read is written.
-/
import Yume.RouteBridge.Tokens

namespace Yume.RouteBridge

open Yume.Lib Bridge List

variable {limits : Limits} {b after : Bridge} {result : Bridge × List Task} {task : Task}
  {l m others : List Task}

/-- The tasks that start a read of the stream. -/
def Task.streamIssuer : Task → Nat
  | .issueStreamRead => 1
  | _ => 0

open RouteBridge.Task (backwardDriver forwardDriver installer opener routeWriter streamIssuer
  streamWriter)

attribute [simp] streamIssuer

/-- The part of the pending record that is with the route. -/
def Bridge.handing (b : Bridge) : Nat := if b.routeWrites = 0 then 0 else b.routeWriteExpected

/-- What is left of a pending record, against the bytes read and written. -/
def Bridge.Holds (b : Bridge) (pending : PendingStreamRecord) : Prop :=
  ∃ done, b.fromStream = done ++ pending.payload ∧ pending.offset < pending.payload.length ∧
    b.routeWritten = done.length + pending.offset ∧
    b.toRoute = done ++ pending.payload.take (pending.offset + b.handing)

/-- What a task of a route write carries. -/
def Bridge.Carries (b : Bridge) (pending : PendingStreamRecord) : Task → Prop
  | .takeChunk offset size => offset = pending.offset ∧ size = b.routeWriteExpected
  | .checkRouteWrite chunk =>
    chunk = (pending.payload.drop pending.offset).take b.routeWriteExpected
  | .callRouteWrite chunk =>
    chunk = (pending.payload.drop pending.offset).take b.routeWriteExpected
  | _ => True

/-- From the stream to the route. -/
structure Forward (b : Bridge) (tasks : List Task) : Prop where
  handed : b.toRoute <+: b.fromStream
  reading : 0 < weigh streamIssuer tasks + b.streamReadInflight.toNat +
    b.streamInputEof.toNat →
    b.pending = none ∧ b.toRoute = b.fromStream ∧ b.routeWritten = b.fromStream.length
  holds : ∀ pending, b.pending = some pending → b.Holds pending
  writing : 0 < weigh routeWriter tasks + b.routeWrites →
    ∃ pending, b.pending = some pending ∧ 0 < b.routeWriteExpected ∧
      pending.offset + b.routeWriteExpected ≤ pending.payload.length
  carries : ∀ task ∈ tasks, ∀ pending, b.pending = some pending → b.Carries pending task

def Bridge.forwarding (b : Bridge) :=
  (b.toRoute, b.fromStream, b.routeWritten, b.pending, b.routeWrites, b.routeWriteExpected,
    b.streamReadInflight, b.streamInputEof)

theorem Bridge.carries_of_passive {pending : PendingStreamRecord}
    (hpassive : task.routeWriter = 0) : b.Carries pending task := by
  cases task <;> simp_all [Carries]

theorem Bridge.Carries.congr {pending : PendingStreamRecord} (h : b.Carries pending task)
    (hsame : after.routeWriteExpected = b.routeWriteExpected) : after.Carries pending task := by
  cases task <;> simp_all [Carries]

namespace Forward

theorem frame (h : Forward b l) (hsame : after.forwarding = b.forwarding)
    (hissuer : weigh streamIssuer m ≤ weigh streamIssuer l)
    (hwriter : weigh routeWriter m ≤ weigh routeWriter l)
    (hmem : ∀ task ∈ m, task.routeWriter = 0 ∨ task ∈ l) : Forward after m := by
  simp only [forwarding, Prod.mk.injEq] at hsame
  obtain ⟨e1, e2, e3, e4, e5, e6, e7, e8⟩ := hsame
  refine ⟨by rw [e1, e2]; exact h.handed, ?_, ?_, ?_, ?_⟩
  · rw [e1, e2, e3, e4, e7, e8]
    exact fun hpos => h.reading (by omega)
  · intro pending hpending
    rw [e4] at hpending
    simpa only [Holds, handing, e1, e2, e3, e5, e6] using h.holds pending hpending
  · rw [e4, e5, e6]
    exact fun hpos => h.writing (by omega)
  intro task htask pending hpending
  rw [e4] at hpending
  rcases hmem task htask with hpassive | hold
  · exact carries_of_passive hpassive
  · exact (h.carries task hold pending hpending).congr e6

theorem perm (h : Forward b l) (hperm : l.Perm m) : Forward b m :=
  h.frame rfl (Nat.le_of_eq (weigh_perm hperm.symm)) (Nat.le_of_eq (weigh_perm hperm.symm))
    fun _ htask => .inr (hperm.mem_iff.mpr htask)

/-- A bridge in which nothing reads the stream or writes to the route. -/
theorem of_idle (handed : b.toRoute <+: b.fromStream)
    (hreading : weigh streamIssuer l + b.streamReadInflight.toNat + b.streamInputEof.toNat = 0)
    (holds : ∀ pending, b.pending = some pending → b.Holds pending)
    (hwriting : weigh routeWriter l + b.routeWrites = 0) : Forward b l :=
  ⟨handed, fun hpos => by omega, holds, fun hpos => by omega, fun task htask _ _ => by
      have hle := le_weigh_of_mem (f := routeWriter) htask
      exact carries_of_passive (by omega)⟩

theorem streamIssuer_le (l : List Task) : weigh streamIssuer l ≤ weigh forwardDriver l :=
  weigh_mono fun task _ => by cases task <;> simp

theorem issueStreamRead (h : Forward b (.issueStreamRead :: others)) :
    Kept Forward b.issueStreamRead others := by
  have hread := h.reading (by simp only [weigh_cons, streamIssuer]; omega)
  unfold Bridge.issueStreamRead
  split
  · exact h.frame rfl (by simp) (by simp) (by simp +contextual)
  refine ⟨h.handed, fun _ => hread, h.holds, ?_, ?_⟩
  · simpa using h.writing
  intro task htask pending hpending
  simp [hread.1] at hpending

theorem issueRouteWrite (hdrivers : Drivers b (.issueRouteWrite :: others))
    (h : Forward b (.issueRouteWrite :: others)) :
    Kept Forward (b.issueRouteWrite limits) others := by
  have hforward := hdrivers.forward
  simp only [weigh_cons, forwardDriver, routeWriter] at hforward
  have hissuer := streamIssuer_le others
  unfold Bridge.issueRouteWrite
  split
  · exact h.frame rfl (by simp) (by simp) (by simp +contextual)
  rename_i pending hpending
  split
  · exact h.frame rfl (by simp) (by simp) (by simp +contextual)
  split
  · exact h.frame rfl (by simp) (by simp) (by simp +contextual)
  rename_i hroom
  simp only [Bool.or_eq_true, decide_eq_true_eq, beq_iff_eq, not_or] at hroom
  have hidle : b.routeWrites = 0 := by omega
  refine ⟨h.handed, ?_, ?_, ?_, ?_⟩
  · simp only [cons_append, nil_append, weigh_cons, streamIssuer]
    omega
  · intro record hrecord
    have hholds := h.holds record hrecord
    simpa only [Holds, handing, hidle, if_true] using hholds
  · intro _
    exact ⟨pending, hpending, by dsimp only; omega, by dsimp only; omega⟩
  intro task htask record hrecord
  obtain rfl : pending = record := Option.some.inj (hpending.symm.trans hrecord)
  rcases mem_append.mp htask with hmade | hother
  · rw [mem_singleton] at hmade
    subst hmade
    exact ⟨rfl, rfl⟩
  have hle := le_weigh_of_mem (f := routeWriter) hother
  exact Bridge.carries_of_passive (by omega)

/-- What a write token says about the rest of the bridge. -/
theorem idle_beside (hdrivers : Drivers b (task :: others)) (htask : task.routeWriter = 1) :
    b.routeWrites = 0 ∧ weigh routeWriter others = 0 ∧
      weigh streamIssuer others + b.streamReadInflight.toNat + b.streamInputEof.toNat = 0 := by
  have hforward := hdrivers.forward
  have hissuer := streamIssuer_le others
  simp only [weigh_cons, htask] at hforward
  omega

theorem takeChunk {offset size : Nat} (hdrivers : Drivers b (.takeChunk offset size :: others))
    (h : Forward b (.takeChunk offset size :: others)) :
    Kept Forward (b.takeChunk offset size) others := by
  obtain ⟨hwrites, hothers, hreading⟩ := idle_beside hdrivers rfl
  unfold Bridge.takeChunk
  split
  · rename_i hnone
    exact of_idle h.handed (by simpa using hreading) (by simp [hnone]) (by simp; omega)
  rename_i pending hpending
  split
  · exact of_idle h.handed (by simpa using hreading) (by simp) (by simp; omega)
  obtain ⟨rfl, rfl⟩ := h.carries _ mem_cons_self pending hpending
  refine ⟨h.handed, fun hpos => h.reading (by simpa using hpos), h.holds,
    fun _ => h.writing (by simp), ?_⟩
  intro task htask record hrecord
  obtain rfl : pending = record := Option.some.inj (hpending.symm.trans hrecord)
  rcases mem_append.mp htask with hmade | hother
  · rw [mem_singleton] at hmade
    subst hmade
    rfl
  · exact h.carries task (.tail _ hother) pending hpending

theorem checkRouteWrite {chunk : Bytes} (h : Forward b (.checkRouteWrite chunk :: others)) :
    Forward b others ∧ Forward b (.callRouteWrite chunk :: others) := by
  refine ⟨h.frame rfl (by simp) (by simp) fun t ht => .inr (.tail _ ht), h.handed,
    fun hpos => h.reading (by simpa using hpos), h.holds,
    fun _ => h.writing (by simp), ?_⟩
  intro task htask pending hpending
  rcases mem_cons.mp htask with rfl | hother
  · exact h.carries _ mem_cons_self pending hpending
  · exact h.carries task (.tail _ hother) pending hpending

theorem callRouteWrite {chunk : Bytes} (hdrivers : Drivers b (.callRouteWrite chunk :: others))
    (h : Forward b (.callRouteWrite chunk :: others)) :
    Forward { b with routeWrites := b.routeWrites + 1, toRoute := b.toRoute ++ chunk } others := by
  obtain ⟨hwrites, hothers, hreading⟩ := idle_beside hdrivers rfl
  obtain ⟨pending, hpending, hpos, hfits⟩ := h.writing (by simp)
  obtain rfl := h.carries _ mem_cons_self pending hpending
  obtain ⟨done, hfrom, hoffset, hwritten, hto⟩ := h.holds pending hpending
  have hholds : b.toRoute ++ (pending.payload.drop pending.offset).take b.routeWriteExpected =
      done ++ pending.payload.take (pending.offset + b.routeWriteExpected) := by
    rw [hto, handing, if_pos hwrites, Nat.add_zero, append_assoc, ← take_add]
  refine ⟨?_, fun hread => by dsimp only at hread; omega, ?_,
    fun _ => ⟨pending, hpending, hpos, hfits⟩, ?_⟩
  · dsimp only
    rw [hholds, hfrom]
    exact (prefix_append_right_inj done).mpr (List.take_prefix _ _)
  · intro record hrecord
    obtain rfl : pending = record := Option.some.inj (hpending.symm.trans hrecord)
    refine ⟨done, hfrom, hoffset, hwritten, ?_⟩
    simpa [handing] using hholds
  · intro task htask record _
    have hle := le_weigh_of_mem (f := routeWriter) htask
    exact carries_of_passive (by omega)

/-- A record that is dropped while no write of the route is under way. -/
theorem forget (h : Forward b l) (hidle : weigh routeWriter l + b.routeWrites = 0)
    (hsame : after.forwarding = { b with pending := none }.forwarding) : Forward after l := by
  have hforgotten : Forward { b with pending := none } l :=
    ⟨h.handed, fun hpos => ⟨rfl, (h.reading hpos).2⟩, by simp,
      fun hpos => by dsimp only at hpos; omega, by simp⟩
  exact hforgotten.frame hsame (Nat.le_refl _) (Nat.le_refl _) fun _ htask => .inr htask

theorem fail (hdrivers : Drivers b (.fail :: others)) (h : Forward b (.fail :: others)) :
    Kept Forward b.fail others := by
  have hissuer : weigh streamIssuer b.fail.2 = 0 := by
    unfold Bridge.fail dropped Bridge.routeClose
    (repeat' split) <;> simp
  have hpassive : ∀ task ∈ b.fail.2, task.routeWriter = 0 := by
    unfold Bridge.fail dropped Bridge.routeClose
    (repeat' split) <;> simp
  have hwriter := weigh_eq_zero hpassive
  have hkeep : Forward b (b.fail.2 ++ others) :=
    h.frame rfl (by simp [hissuer]) (by simp [hwriter]) fun task htask =>
      (mem_append.mp htask).imp (hpassive task) (.tail _)
  have hidle := hdrivers.routeWrite
  simp only [weigh_cons, routeWriter, Nat.zero_add] at hidle
  -- The record stays as long as the route has a part of it.
  cases hflight : b.routeWriteInflight with
  | false =>
    rw [hflight, Bool.toNat_false] at hidle
    cases hterminal : b.terminal with
    | false =>
      exact hkeep.forget (by simp [hwriter]; omega)
        (by simp [Bridge.fail, forwarding, hterminal, hflight])
    | true =>
      exact hkeep.frame (by simp [Bridge.fail, hterminal]) (Nat.le_refl _) (Nat.le_refl _)
        fun _ => .inr
  | true =>
    refine hkeep.frame ?_ (Nat.le_refl _) (Nat.le_refl _) fun _ => .inr
    cases hterminal : b.terminal <;> simp [Bridge.fail, forwarding, hterminal, hflight]

theorem exec (ok : Bool) (hdrivers : Drivers b (task :: others)) (h : Forward b (task :: others)) :
    Kept Forward (b.exec limits ok task) others := by
  cases task with
  | issueStreamRead => exact h.issueStreamRead
  | issueRouteWrite => exact h.issueRouteWrite hdrivers
  | takeChunk => exact h.takeChunk hdrivers
  | checkRouteWrite =>
    simp only [exec]
    split
    · exact h.checkRouteWrite.1
    · exact h.checkRouteWrite.2
  | callRouteWrite => exact h.callRouteWrite hdrivers
  | fail => exact h.fail hdrivers
  | _ =>
    simp only [exec, completeOpen, install, afterInstall,
      issueRouteRead, callRouteRead, propagateStreamEof,
      propagateRouteEof, afterShutdown, finishIfGraceful,
      completeAcceptance, routeClose]
    (repeat' split) <;> exact h.frame rfl (by simp) (by simp) (by simp +contextual)

/-- While a read of the stream is outstanding no record is held. -/
theorem read_beside (hdrivers : Drivers b others) (hread : b.streamReads ≠ 0)
    (h : Forward b others) : b.streamReadInflight = true ∧ b.pending = none := by
  have hflight := (hdrivers.streamRead_inflight hread).1
  exact ⟨hflight, (h.reading (by rw [hflight, Bool.toNat_true]; omega)).1⟩

/-- A record that arrives follows everything that was written. -/
theorem completeStreamRead (result : StreamResult) (hdrivers : Drivers b others)
    (hread : b.streamReads ≠ 0) (h : Forward b others) :
    Kept Forward
      ({ b with streamReads := b.streamReads - 1 }.completeStreamRead result) others := by
  obtain ⟨hflight, -, heof⟩ := hdrivers.streamRead_inflight hread
  obtain ⟨hnone, hto, hwritten⟩ := h.reading (by rw [hflight, Bool.toNat_true]; omega)
  have hforward := hdrivers.forward
  have hissuer := streamIssuer_le others
  rw [hflight, Bool.toNat_true] at hforward
  have hidle : weigh routeWriter others + b.routeWrites = 0 := by omega
  have hissuers : weigh streamIssuer others = 0 := by omega
  unfold Bridge.completeStreamRead Bridge.receive
  cases result with
  | record payload =>
    have hgrown : b.toRoute <+: b.fromStream ++ payload := hto ▸ prefix_append _ _
    dsimp only
    split
    · exact of_idle hgrown (by simp [hissuers, heof]) (by simp [hnone]) (by simpa using hidle)
    split
    · exact of_idle hgrown (by simp [hissuers, heof]) (by simp [hnone]) (by simpa using hidle)
    rename_i hnonempty
    refine of_idle hgrown (by split <;> simp [hissuers, heof]) ?_
      (by split <;> simpa using hidle)
    rintro pending ⟨⟩
    refine ⟨b.fromStream, rfl, ?_, by simpa using hwritten, ?_⟩
    · exact length_pos_iff.mpr (by simpa using hnonempty)
    have hzero : b.routeWrites = 0 := by omega
    simp [handing, hzero, hto]
  | endOfStream =>
    dsimp only
    split
    · exact of_idle h.handed (by simp [hissuers, heof]) (by simp [hnone]) (by simpa using hidle)
    refine ⟨h.handed, fun _ => ⟨hnone, hto, hwritten⟩, by simp [hnone], fun hpos => ?_,
      by simp [hnone]⟩
    split at hpos <;> simp at hpos <;> omega
  | failed =>
    dsimp only
    split <;>
      exact of_idle h.handed (by simp [hissuers, heof]) (by simp [hnone]) (by simpa using hidle)

theorem completeRouteWrite (ok : Bool) (transferred : Nat) (hdrivers : Drivers b others)
    (hwrite : b.routeWrites ≠ 0) (h : Forward b others) :
    Kept Forward
      ({ b with routeWrites := b.routeWrites - 1 }.completeRouteWrite ok transferred) others := by
  obtain ⟨pending, hpending, hpos, hfits⟩ := h.writing (by omega)
  obtain ⟨done, hfrom, hoffset, hwritten, hto⟩ := h.holds pending hpending
  rw [handing, if_neg hwrite] at hto
  have hroute := hdrivers.routeWrite
  have hforward := hdrivers.forward
  have hissuer := streamIssuer_le others
  have hle := Bool.toNat_le b.routeWriteInflight
  have hflight : b.routeWriteInflight = true := Bool.toNat_eq_one.mp (by omega)
  have hidle : weigh routeWriter others + (b.routeWrites - 1) = 0 := by omega
  have hreading : weigh streamIssuer others + b.streamReadInflight.toNat +
      b.streamInputEof.toNat = 0 := by omega
  unfold Bridge.completeRouteWrite
  simp only [hflight, hpending, Bool.not_true, Bool.false_eq_true, if_false]
  split
  · exact of_idle h.handed (by simpa using hreading) (by simp) (by simpa using hidle)
  split
  · exact of_idle h.handed (by simpa using hreading) (by simp) (by simpa using hidle)
  split
  · rename_i hall
    have hdone : b.toRoute = b.fromStream := by rw [hto, hall, take_length, hfrom]
    have hlength : b.routeWritten + b.routeWriteExpected = b.fromStream.length := by
      rw [hwritten, hfrom, length_append]
      omega
    exact ⟨h.handed, fun _ => ⟨rfl, hdone, hlength⟩, by simp,
      fun hmore => by simp at hmore; omega, by simp⟩
  split
  · rename_i hmore
    refine of_idle h.handed (by simpa using hreading) ?_ (by simpa using hidle)
    rintro record ⟨⟩
    have hzero : b.routeWrites - 1 = 0 := by omega
    refine ⟨done, hfrom, hmore, ?_, ?_⟩
    · dsimp only
      omega
    · simpa [handing, hzero] using hto
  · omega

theorem complete (hdone : Completion limits b result) (hdrivers : Drivers b others)
    (h : Forward b others) : Kept Forward result others := by
  cases hdone with
  | opened result => cases result <;> exact h.frame rfl (by simp) (by simp) (by simp +contextual)
  | streamRead result hread => exact h.completeStreamRead result hdrivers hread
  | routeWrote ok transferred hwrite => exact h.completeRouteWrite ok transferred hdrivers hwrite
  | routeRead result =>
    unfold completeRouteRead
    cases result <;> dsimp only <;> (repeat' split) <;>
      exact h.frame rfl (by simp) (by simp) (by simp +contextual)
  | streamWrote =>
    unfold completeStreamWrite
    (repeat' split) <;> exact h.frame rfl (by simp) (by simp) (by simp +contextual)

theorem destroy (hidle : weigh routeWriter others + b.routeWrites = 0)
    (h : Forward b others) : Forward b.destroy others := by
  unfold Bridge.destroy
  split
  · exact h.forget hidle rfl
  · exact h

end Forward

/-- What opens the route, reads it or has read all of it. -/
def Bridge.routeReaders (b : Bridge) (tasks : List Task) : Nat :=
  weigh opener tasks + b.opens + weigh installer tasks +
    weigh backwardDriver tasks + b.routeReadInflight.toNat + b.routeInputEof.toNat

/-- From the route to the stream. -/
structure Backward (b : Bridge) (tasks : List Task) : Prop where
  handed : b.toStream <+: b.fromRoute
  reading : 0 < b.routeReaders tasks →
    b.toStream = b.fromRoute ∧ b.streamWritten = b.fromRoute.length
  carries : ∀ payload, Task.callStreamWrite payload ∈ tasks →
    b.fromRoute = b.toStream ++ payload ∧ b.streamWritten = b.toStream.length ∧
      payload.length = b.streamWriteExpected
  writing : 0 < b.streamWrites →
    b.toStream = b.fromRoute ∧ b.streamWritten + b.streamWriteExpected = b.fromRoute.length

def Bridge.returning (b : Bridge) :=
  (b.toStream, b.fromRoute, b.streamWritten, b.streamWriteExpected, b.streamWrites)

namespace Backward

theorem frame (h : Backward b l) (hsame : after.returning = b.returning)
    (hreaders : after.routeReaders m ≤ b.routeReaders l)
    (hmem : ∀ payload, Task.callStreamWrite payload ∈ m → Task.callStreamWrite payload ∈ l) :
    Backward after m := by
  simp only [returning, Prod.mk.injEq] at hsame
  obtain ⟨e1, e2, e3, e4, e5⟩ := hsame
  refine ⟨by rw [e1, e2]; exact h.handed, ?_, ?_, ?_⟩
  · rw [e1, e2, e3]
    exact fun hpos => h.reading (by omega)
  · rw [e1, e2, e3, e4]
    exact fun payload hpayload => h.carries payload (hmem payload hpayload)
  rw [e1, e2, e3, e4, e5]
  exact h.writing

theorem perm (h : Backward b l) (hperm : l.Perm m) : Backward b m := by
  refine h.frame rfl (Nat.le_of_eq ?_) fun payload => hperm.mem_iff.mpr
  simp only [routeReaders, weigh_perm hperm]

/-- A bridge in which nothing reads the route or writes to the stream. -/
theorem of_idle (handed : b.toStream <+: b.fromRoute) (hreaders : b.routeReaders l = 0)
    (hwriter : weigh streamWriter l + b.streamWrites = 0) : Backward b l :=
  ⟨handed, fun hpos => by omega, fun payload hpayload => by
      have hle := le_weigh_of_mem (f := streamWriter) hpayload
      simp only [streamWriter] at hle
      omega,
    fun hpos => by omega⟩

theorem callStreamWrite {payload : Bytes} (hdrivers : Drivers b (.callStreamWrite payload :: others))
    (h : Backward b (.callStreamWrite payload :: others)) :
    Backward { b with streamWrites := b.streamWrites + 1, toStream := b.toStream ++ payload }
      others := by
  obtain ⟨hfrom, hwritten, hlength⟩ := h.carries payload mem_cons_self
  have hwrite := hdrivers.streamWrite
  have hbackward := hdrivers.backward
  have hle := Bool.toNat_le b.streamWriteInflight
  simp only [weigh_cons, streamWriter, opener, installer, backwardDriver]
    at hwrite hbackward
  refine ⟨?_, ?_, ?_, ?_⟩
  · exact hfrom ▸ prefix_refl _
  · intro hpos
    simp only [routeReaders] at hpos
    omega
  · intro other hother
    have hmem := le_weigh_of_mem (f := streamWriter) hother
    simp only [streamWriter] at hmem
    omega
  intro _
  refine ⟨hfrom.symm, ?_⟩
  dsimp only
  rw [hfrom, length_append]
  omega

theorem exec (ok : Bool) (hdrivers : Drivers b (task :: others)) (h : Backward b (task :: others)) :
    Kept Backward (b.exec limits ok task) others := by
  cases task with
  | callStreamWrite => exact h.callStreamWrite hdrivers
  | issueRouteRead =>
    simp only [exec, issueRouteRead]
    split
    · exact h.frame rfl (by simp [routeReaders]) (by simp)
    refine h.frame rfl ?_ (by simp)
    simp only [routeReaders, cons_append, nil_append, weigh_cons, opener,
      installer, backwardDriver, Bool.toNat_true]
    omega
  | callRouteRead =>
    simp only [exec, callRouteRead]
    split
    · exact h.frame rfl (by simp [routeReaders]) (by simp)
    · exact h.frame rfl (by simp [routeReaders]) (by simp)
  | _ =>
    simp only [exec, issueStreamRead, completeOpen, install,
      afterInstall, issueRouteWrite, takeChunk, propagateStreamEof,
      propagateRouteEof, afterShutdown, finishIfGraceful,
      completeAcceptance, fail, dropped, routeClose]
    (repeat' split) <;>
      exact h.frame rfl
        (by simp only [routeReaders, weigh_append, weigh_cons, weigh_nil, opener,
              installer, backwardDriver]
            omega)
        (by simp)

/-- Bytes that arrive follow everything that was written. -/
theorem completeRouteRead (result : RouteResult) (hdrivers : Drivers b others)
    (hread : b.routeReads ≠ 0) (h : Backward b others) :
    Kept Backward
      ({ b with routeReads := b.routeReads - 1 }.completeRouteRead limits result) others := by
  obtain ⟨hflight, hwriting, heof⟩ := hdrivers.routeRead_inflight hread
  obtain ⟨hto, hwritten⟩ := h.reading (by simp [routeReaders, hflight])
  have hbackward := hdrivers.backward
  have hwrite := hdrivers.streamWrite
  rw [hwriting, Bool.toNat_false] at hwrite
  rw [hflight, Bool.toNat_true, heof, Bool.toNat_false] at hbackward
  have hidle : weigh opener others + b.opens + weigh installer others +
      weigh backwardDriver others = 0 := by omega
  unfold Bridge.completeRouteRead
  cases result with
  | bytes payload =>
    have hgrown : b.toStream <+: b.fromRoute ++ payload := hto ▸ prefix_append _ _
    dsimp only
    split
    · exact of_idle hgrown (by simpa [routeReaders, heof] using hidle)
        (by simpa using hwrite)
    split
    · exact of_idle hgrown (by simpa [routeReaders, heof] using hidle)
        (by simpa using hwrite)
    refine ⟨hgrown, fun hpos => ?_, ?_, fun hpos => ?_⟩
    · simp [routeReaders, heof] at hpos
      omega
    · intro other hother
      rcases mem_append.mp hother with hmade | hold
      · obtain ⟨⟩ := mem_singleton.mp hmade
        exact ⟨by rw [hto], by rw [hto]; exact hwritten, rfl⟩
      have hmem := le_weigh_of_mem (f := streamWriter) hold
      simp only [streamWriter] at hmem
      omega
    · dsimp only at hpos
      omega
  | closed =>
    dsimp only
    split
    · exact of_idle h.handed (by simpa [routeReaders, heof] using hidle)
        (by simpa using hwrite)
    refine h.frame rfl ?_ (by simp)
    simp [routeReaders, hflight, heof]
  | failed =>
    dsimp only
    split <;>
      exact of_idle h.handed (by simpa [routeReaders, heof] using hidle)
        (by simpa using hwrite)

theorem completeStreamWrite (ok : Bool) (transferred : Nat) (hdrivers : Drivers b others)
    (hwrite : b.streamWrites ≠ 0) (h : Backward b others) :
    Kept Backward
      ({ b with streamWrites := b.streamWrites - 1 }.completeStreamWrite ok transferred) others := by
  obtain ⟨hto, hwritten⟩ := h.writing (Nat.pos_of_ne_zero hwrite)
  have hbackward := hdrivers.backward
  have hwriter := hdrivers.streamWrite
  have hle := Bool.toNat_le b.streamWriteInflight
  have hflight : b.streamWriteInflight = true := Bool.toNat_eq_one.mp (by omega)
  have hidle : weigh streamWriter others + (b.streamWrites - 1) = 0 := by omega
  have hreaders : b.routeReaders others = 0 := by
    rw [hflight, Bool.toNat_true] at hbackward
    unfold routeReaders
    omega
  unfold Bridge.completeStreamWrite
  simp only [hflight, Bool.not_true, Bool.false_eq_true, if_false]
  split
  · exact of_idle h.handed hreaders (by simpa using hidle)
  split
  · exact of_idle h.handed (by simpa [routeReaders] using hreaders) (by simpa using hidle)
  refine ⟨h.handed, fun _ => ⟨hto, hwritten⟩, ?_, fun hpos => ?_⟩
  · intro other hother
    have hmem := le_weigh_of_mem (f := streamWriter) hother
    simp at hmem
    omega
  dsimp only at hpos
  omega

theorem complete (hdone : Completion limits b result) (hdrivers : Drivers b others)
    (h : Backward b others) : Kept Backward result others := by
  cases hdone with
  | opened result hopen =>
    cases result <;>
      exact h.frame rfl (by simp [routeReaders, System.deliver]; omega) (by simp)
  | streamRead result =>
    unfold completeStreamRead receive
    cases result <;> dsimp only <;> (repeat' split) <;>
      exact h.frame rfl (by simp [routeReaders]) (by simp)
  | routeWrote =>
    unfold completeRouteWrite
    (repeat' split) <;> exact h.frame rfl (by simp [routeReaders]) (by simp)
  | routeRead result hread => exact h.completeRouteRead result hdrivers hread
  | streamWrote ok transferred hwrite => exact h.completeStreamWrite ok transferred hdrivers hwrite

theorem destroy (h : Backward b others) : Backward b.destroy others := by
  unfold Bridge.destroy
  split
  · exact h.frame rfl (Nat.le_refl _) fun _ => id
  · exact h

end Backward

end Yume.RouteBridge
