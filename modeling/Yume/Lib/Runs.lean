/-
Runs of a labelled transition system whose steps all meet a condition, and the
induction that carries an invariant along them.
-/
import Mathlib.Tactic.Common

namespace Yume.Lib

variable {σ ℓ ε : Type*}

/-- The states reached from `start` by steps that meet `ok`. -/
inductive Reaches (step : σ → ℓ → Option σ) (ok : σ → ℓ → Prop) (start : σ) :
    σ → Prop where
  | refl : Reaches step ok start start
  | tail {before after : σ} {label : ℓ} : Reaches step ok start before →
    ok before label → step before label = some after →
    Reaches step ok start after

/-- The run that takes the labels in order, as long as each meets a check. -/
def runChecked (step : σ → ℓ → Option σ) (check : σ → ℓ → Bool) : σ → List ℓ → Option σ
  | state, [] => some state
  | state, label :: rest =>
    if check state label then
      (step state label).bind fun next => runChecked step check next rest
    else none

namespace Reaches

variable {step : σ → ℓ → Option σ} {ok ok' : σ → ℓ → Prop} {start state : σ}

/-- What holds at the start and is kept by every step holds in every state
reached.  A step may use that its source was reached. -/
theorem invariant {P : σ → Prop} (hstart : P start)
    (hstep : ∀ before label after, Reaches step ok start before → P before →
      ok before label → step before label = some after → P after)
    (h : Reaches step ok start state) : P state := by
  induction h with
  | refl => exact hstart
  | tail hreach hok hnext ih => exact hstep _ _ _ hreach ih hok hnext

/-- Steps that meet one condition may meet another because of where they start. -/
theorem strengthen (himp : ∀ before label, Reaches step ok start before →
      ok before label → ok' before label)
    (h : Reaches step ok start state) : Reaches step ok' start state := by
  induction h with
  | refl => exact .refl
  | tail hreach hok hnext ih => exact .tail ih (himp _ _ hreach hok) hnext

theorem trans {middle : σ} (h₁ : Reaches step ok start middle)
    (h₂ : Reaches step ok middle state) : Reaches step ok start state := by
  induction h₂ with
  | refl => exact h₁
  | tail _ hok hnext ih => exact .tail ih hok hnext

/-- A checked run of labels reaches its last state. -/
theorem of_runChecked {check : σ → ℓ → Bool} {labels : List ℓ}
    (hok : ∀ before label, check before label = true → ok before label)
    (h : runChecked step check start labels = some state) :
    Reaches step ok start state := by
  induction labels generalizing start with
  | nil =>
    cases h
    exact .refl
  | cons label rest ih =>
    simp only [runChecked] at h
    split at h
    · rename_i hcheck
      obtain ⟨next, hnext, hrest⟩ := Option.bind_eq_some_iff.mp h
      exact (Reaches.tail .refl (hok _ _ hcheck) hnext).trans (ih hrest)
    · cases h

/-- What a test finds at the end of a checked run holds of a reached state. -/
theorem exists_of_runChecked {check : σ → ℓ → Bool}
    (hok : ∀ before label, check before label = true → ok before label) (labels : List ℓ)
    (test : σ → Bool) (h : (runChecked step check start labels).any test = true) :
    ∃ state, Reaches step ok start state ∧ test state = true := by
  cases hrun : runChecked step check start labels with
  | none => simp [hrun] at h
  | some state =>
    rw [hrun] at h
    exact ⟨state, .of_runChecked hok hrun, h⟩

end Reaches

/-- The states reached from `start` by steps that meet `ok`, each with what the
steps on the way showed. -/
inductive Traces (step : σ → ℓ → Option σ) (ok : σ → ℓ → Prop)
    (observe : σ → ℓ → List ε) (start : σ) : List ε → σ → Prop where
  | refl : Traces step ok observe start [] start
  | tail {seen : List ε} {before after : σ} {label : ℓ} :
    Traces step ok observe start seen before → ok before label →
    step before label = some after →
    Traces step ok observe start (seen ++ observe before label) after

/-- The checked run of the labels, with what its steps showed. -/
def runObserved (step : σ → ℓ → Option σ) (check : σ → ℓ → Bool)
    (observe : σ → ℓ → List ε) : σ → List ℓ → Option (List ε × σ)
  | state, [] => some ([], state)
  | state, label :: rest =>
    if check state label then
      (step state label).bind fun next =>
        (runObserved step check observe next rest).map fun result =>
          (observe state label ++ result.1, result.2)
    else none

namespace Traces

variable {step : σ → ℓ → Option σ} {ok : σ → ℓ → Prop}
  {observe : σ → ℓ → List ε} {start state : σ} {seen : List ε}

theorem reaches (h : Traces step ok observe start seen state) : Reaches step ok start state := by
  induction h with
  | refl => exact .refl
  | tail _ hok hnext ih => exact .tail ih hok hnext

/-- What holds at the start and is kept by every step holds of every state
reached and of what was seen on the way to it. -/
theorem invariant {P : List ε → σ → Prop} (hstart : P [] start)
    (hstep : ∀ seen before label after, Traces step ok observe start seen before → P seen before →
      ok before label → step before label = some after →
      P (seen ++ observe before label) after)
    (h : Traces step ok observe start seen state) : P seen state := by
  induction h with
  | refl => exact hstart
  | tail htrace hok hnext ih => exact hstep _ _ _ _ htrace ih hok hnext

theorem trans {middle : σ} {later : List ε} (h₁ : Traces step ok observe start seen middle)
    (h₂ : Traces step ok observe middle later state) :
    Traces step ok observe start (seen ++ later) state := by
  induction h₂ with
  | refl =>
    rw [List.append_nil]
    exact h₁
  | tail _ hok hnext ih =>
    rw [← List.append_assoc]
    exact .tail ih hok hnext

/-- An observed run of labels is a trace. -/
theorem of_runObserved {check : σ → ℓ → Bool} {labels : List ℓ}
    (hok : ∀ before label, check before label = true → ok before label)
    (h : runObserved step check observe start labels = some (seen, state)) :
    Traces step ok observe start seen state := by
  induction labels generalizing start seen with
  | nil =>
    cases h
    exact .refl
  | cons label rest ih =>
    simp only [runObserved] at h
    split at h
    · rename_i hcheck
      obtain ⟨next, hnext, hrest⟩ := Option.bind_eq_some_iff.mp h
      obtain ⟨⟨later, last⟩, hlater, hresult⟩ := Option.map_eq_some_iff.mp hrest
      cases hresult
      exact (Traces.tail .refl (hok _ _ hcheck) hnext).trans (ih hlater)
    · cases h

end Traces

end Yume.Lib
