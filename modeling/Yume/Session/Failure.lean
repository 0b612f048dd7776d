/-
A session that has failed, or that a pending section is about to fail, stays
so: terminal states are never left, and a pending failure is never forgotten.
-/
import Yume.Session.Roles

namespace Yume.Session

variable {e e' : Engine} {choice : Choice} {emitted taken : Option Wire}

/-- Sections that are bound to fail the session. -/
def Call.failing : Call → Bool
  | .stopSession _ failed => failed
  | .controlsFail _ | .flushAbandon _ _ _ => true
  | .tokenLost request owner status =>
    request.protect || (owner == .rekeyAck && !status.isOk)
  | _ => false

/-- The session is terminal or about to fail. -/
def Doomed (e : Engine) (frames : List Call) : Prop :=
  e.terminal = true ∨ ∃ call ∈ frames, call.failing = true

/-- A live session is neither terminal nor about to fail. -/
def Live (e : Engine) (frames : List Call) : Prop :=
  e.terminal = false ∧ ∀ call ∈ frames, call.failing = false

theorem Live.not_doomed {e : Engine} {frames : List Call}
    (h : Live e frames) : ¬ Doomed e frames := by
  rintro (hterminal | ⟨call, hcall, hfailing⟩)
  · exact absurd hterminal (by simp [h.1])
  · exact absurd hfailing (by simp [h.2 call hcall])

theorem doomed_receiveFailed (e : Engine) (status : Status) : Doomed e (receiveFailed status) :=
  .inr ⟨failCall status, by simp [receiveFailed], rfl⟩

theorem Call.passive_not_failing {call : Call} (h : call.passive = true) :
    call.failing = false := by
  cases call <;> first | rfl | cases h

theorem Call.receiving_not_failing {call : Call} (h : call.receiving = true) :
    call.failing = false := by
  cases call <;> first | rfl | cases h

section Kept

variable {e e' : Engine} {choice : Choice} {call : Call} {made : List Call}

/-- A section that fails the session does so, or passes the failure on. -/
theorem Effect.failing_kept (h : Effect e choice call e' made)
    (hfailing : call.failing = true) : Doomed e' made := by
  cases h with
  | idle hc => exact absurd hfailing (by simp [call.passive_not_failing hc])
  | receiveFailing hc =>
    exact absurd hfailing (by simp [call.receiving_not_failing hc])
  | tokenFails | controlsFailed => exact .inl (Engine.fail_terminal _ _)
  | @bareLost _ _ status hbare =>
    simp only [Call.failing, hbare, Bool.false_or, Bool.and_eq_true, beq_iff_eq,
      Bool.not_eq_true'] at hfailing
    obtain ⟨rfl, hstatus⟩ := hfailing
    exact .inr ⟨failCall status, by simp [Owner.resume, hstatus, receiveFailed],
      rfl⟩
  | flushAbandons => exact doomed_receiveFailed ..
  | stops => exact .inl (Engine.stop_terminal _ _ _)
  | _ => cases hfailing

end Kept

theorem Move.terminal_kept {used made : List Call} (h : Move e choice used e' made emitted taken)
    (hterminal : e.terminal = true) : e'.terminal = true := by
  cases h with
  | run heffect => exact heffect.fixed.terminal hterminal
  | _ => exact hterminal

/-- A session that is not terminal after a move was not so before it. -/
theorem Move.live_before {used made : List Call} (h : Move e choice used e' made emitted taken)
    (hlive : e'.terminal = false) : e.terminal = false :=
  eq_false_of_ne_true fun hstop => by simp [h.terminal_kept hstop] at hlive

/-- What is doomed stays doomed. -/
theorem Move.doomed_kept {pre used made post : List Call}
    (h : Move e choice used e' made emitted taken)
    (hdoomed : Doomed e (pre ++ (used ++ post))) :
    Doomed e' (pre ++ (made ++ post)) := by
  rcases hdoomed with hterminal | ⟨call, hcall, hfailing⟩
  · exact .inl (h.terminal_kept hterminal)
  have hother : call ∈ pre ∨ call ∈ post → Doomed e' (pre ++ (made ++ post)) :=
    fun hc => .inr ⟨call, by simp only [List.mem_append]; tauto, hfailing⟩
  simp only [List.mem_append] at hcall
  rcases hcall with hcall | hcall | hcall
  · exact hother (.inl hcall)
  · cases h with
    | run heffect =>
      rw [List.mem_singleton] at hcall
      subst hcall
      rcases heffect.failing_kept hfailing with hterminal | ⟨c, hc, hf⟩
      · exact .inl hterminal
      · exact .inr ⟨c, by simp only [List.mem_append]; tauto, hf⟩
    | _ => cases hcall
  · exact hother (.inr hcall)

end Yume.Session
