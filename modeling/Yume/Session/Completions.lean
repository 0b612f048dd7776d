/-
Who holds a pending completion: the opener, the reader and the writers of each
stream, and what a section that takes no completion from a stream leaves alone.
-/
import Yume.Session.Targets

namespace Yume.Session

open Yume.Lib Engine

section Table

variable {e reserved admitted : Engine} {id : Nat} {update : Stream → Stream}
  {control next : EngineControl}

/-- What a section leaves alone when it takes no completion from a stream: the
completions, and the payloads that arrived for its reader. -/
structure Holdings where
  id : Nat
  closed : Bool
  opener : List Operation
  pendingRead : Option Nat
  pendingWrites : List PendingWrite
  arrived : List Buffer

/-- The payloads the reader took, and those that wait for it. -/
def Stream.arrived (stream : Stream) : List Buffer := stream.delivered ++ stream.inbound

def Stream.holdings (stream : Stream) : Holdings :=
  ⟨stream.id, stream.closed, stream.opener, stream.pendingRead, stream.pendingWrites,
    stream.arrived⟩

def Engine.holdings (e : Engine) : List Holdings := e.streams.map Stream.holdings

theorem modify_holdings (h : ∀ s : Stream, (update s).holdings = s.holdings) :
    (e.modify id update).holdings = e.holdings := by
  simp only [Engine.holdings, Engine.modify, List.map_map]
  refine List.map_congr_left fun s _ => ?_
  simp only [Function.comp_apply]
  split
  · exact h s
  · rfl

theorem Stream.refundWrite_holdings (size operationId : Nat) (stream : Stream) :
    (stream.refundWrite size operationId).holdings = stream.holdings := by
  simp only [Stream.refundWrite, Stream.endPublication, Stream.forget, Stream.holdings,
    Stream.opener, Stream.arrived]
  rfl

theorem Stream.acceptLocally_holdings (increment window : Nat) (record : Record) (stream : Stream) :
    (((stream.receiveCredit increment).acceptLocally window).noteReceived record).holdings =
      stream.holdings := by
  simp only [Stream.receiveCredit, Stream.acceptLocally, Stream.openWindow,
    Stream.noteReceived, Stream.holdings, Stream.opener, Stream.arrived]
  rfl

theorem reserveControl_holdings (h : e.reserveControl control = .ok (reserved, next)) :
    reserved.holdings = e.holdings := by
  cases reserveControl_reserves h with
  | stream => exact modify_holdings fun _ => rfl
  | _ => rfl

theorem admitControl_holdings (h : e.admitControl control = .ok admitted) :
    admitted.holdings = e.holdings := by
  cases admitControl_admits h with
  | stream => exact modify_holdings fun _ => rfl
  | _ => rfl

theorem collectStreamCredit_holdings (e : Engine) (id : Nat) (now : Time) :
    (e.collectStreamCredit id now).holdings = e.holdings := by
  unfold collectStreamCredit
  split
  · rfl
  · exact modify_holdings fun _ => rfl

theorem retireStream_holdings (e : Engine) (id : Nat) :
    (e.retireStream id).holdings = e.holdings := by
  refine modify_holdings fun s => ?_
  split <;> rfl

theorem completeControl_holdings (e : Engine) (control : EngineControl) (flag : Bool) (now : Time) :
    (e.completeControl control flag now).holdings = e.holdings := by
  have hcompleted : (e.completed control flag).holdings = e.holdings :=
    modify_holdings fun _ => rfl
  unfold completeControl
  split
  · rfl
  split
  · rfl
  split
  · rfl
  dsimp only
  rw [retireStream_holdings]
  split
  · rw [collectStreamCredit_holdings, hcompleted]
  · exact hcompleted

theorem failDeferred_holdings (e : Engine) (deferred : DeferredRecord) (now : Time) :
    (e.failDeferred deferred now).holdings = e.holdings := by
  unfold failDeferred forgetWrite
  refine .trans (modify_holdings fun s => ?_) (completeControl_holdings ..)
  rfl

theorem forgetWrites_holdings (e : Engine) (rest : List DeferredRecord) :
    (rest.foldl forgetWrite e).holdings = e.holdings := by
  induction rest generalizing e with
  | nil => rfl
  | cons deferred rest ih =>
    rw [List.foldl_cons, ih]
    exact modify_holdings fun _ => rfl

theorem returnToStream_holdings (e : Engine) (id bytes : Nat) (now : Time) :
    (e.returnToStream id bytes now).holdings = e.holdings := by
  unfold returnToStream
  split
  · rfl
  rw [collectStreamCredit_holdings]
  exact modify_holdings fun _ => rfl

end Table

end Yume.Session
