/-
What the shared operations of the critical sections leave unchanged, and how
streams are found and updated in the engine's table.
-/
import Yume.Session.CallGraph

namespace Yume.Session

namespace Engine

variable {e : Engine} {id : Nat}

theorem stop_terminal (e : Engine) (reason : Status) (failed : Bool) :
    (e.stop reason failed).terminal = true := by
  unfold stop
  split
  · assumption
  · cases failed <;> rfl

theorem fail_terminal (e : Engine) (status : Status) : (e.fail status).terminal = true :=
  stop_terminal _ _ _

end Engine

/-- What few sections change: the configuration, the end of the session, the
cursor of the write schedule and a repeated drain. -/
structure Fixed (e : Engine) (call : Call) (e' : Engine) : Prop where
  config : e'.config = e.config
  terminal : e.terminal = true → e'.terminal = true
  cursor : e'.lastScheduledStreamId = e.lastScheduledStreamId ∨ call = .selectWrite
  again : e.controlsDrainAgain = true →
    e'.controlsDrainAgain = true ∨ call = .selectControl ∨
      (call = .drainControls ∧ e.controlsDraining = false)

theorem Effect.fixed {e e' : Engine} {choice : Choice} {call : Call}
    {made : List Call} (h : Effect e choice call e' made) : Fixed e call e' := by
  cases h with
  | tokenFails | controlsFailed | stops =>
    exact ⟨rfl, fun _ => Engine.stop_terminal .., .inl rfl, .inl⟩
  | activates hstate => exact ⟨rfl, by simp [Engine.terminal, hstate], .inl rfl, .inl⟩
  | writeTaken => exact ⟨rfl, id, .inr rfl, .inl⟩
  | drainAgain => exact ⟨rfl, id, .inl rfl, fun _ => .inl rfl⟩
  | drainStarts _ hidle => exact ⟨rfl, id, .inl rfl, fun _ => .inr (.inr ⟨rfl, hidle⟩)⟩
  | drainSelects => exact ⟨rfl, id, .inl rfl, fun _ => .inr (.inl rfl)⟩
  | _ => exact ⟨rfl, id, .inl rfl, .inl⟩

end Yume.Session
