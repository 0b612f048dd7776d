import Mathlib.Logic.Basic
import Mathlib.Logic.Function.Basic

/-!
Loops that take one step after another until none is left.

A loop is a partial step with a measure that every step lowers.  Three rules say
what a whole run does: a relation that the steps of two loops keep relates their
results, an invariant of the steps is one of the run, and an operation that no
step minds may be applied before the run or after it.
-/

namespace Yume.Lib

universe u v

structure Loop (σ : Type u) where
  step : σ → Option σ
  measure : σ → Nat
  lowers : ∀ {s t}, step s = some t → measure t < measure s

namespace Loop

variable {σ : Type u} {τ : Type v} (loop : Loop σ)

def run (s : σ) : σ :=
  match _h : loop.step s with
  | none => s
  | some t => run t
termination_by loop.measure s
decreasing_by exact loop.lowers _h

variable {loop} {s t : σ}

theorem run_of_none (h : loop.step s = none) : loop.run s = s := by
  rw [run]
  split
  · rfl
  rename_i h'
  cases h.symm.trans h'

theorem run_of_some (h : loop.step s = some t) : loop.run s = loop.run t := by
  rw [run]
  split
  · rename_i h'
    cases h.symm.trans h'
  rename_i h'
  cases h.symm.trans h'
  rfl

variable (loop) in
/-- Induction along a run. -/
theorem run_induction {motive : σ → Prop} (settled : ∀ s, loop.step s = none → motive s)
    (moved : ∀ s t, loop.step s = some t → motive t → motive s) (s : σ) : motive s := by
  generalize hsize : loop.measure s = size
  induction size using Nat.strongRecOn generalizing s with
  | ind size ih =>
    cases hstep : loop.step s with
    | none => exact settled s hstep
    | some t => exact moved s t hstep (ih _ (hsize ▸ loop.lowers hstep) t rfl)

theorem run_invariant {P : σ → Prop} (kept : ∀ s t, P s → loop.step s = some t → P t)
    (h : P s) : P (loop.run s) := by
  induction s using run_induction loop with
  | settled s hstep => rwa [run_of_none hstep]
  | moved s t hstep ih => rw [run_of_some hstep]; exact ih (kept s t h hstep)

/-- Two loops whose steps keep a relation end in related states. -/
theorem run_related {other : Loop τ} {R : σ → τ → Prop} {x : τ}
    (stays : ∀ s x, R s x → loop.step s = none → other.step x = none)
    (moves : ∀ s t x, R s x → loop.step s = some t → ∃ y, other.step x = some y ∧ R t y)
    (h : R s x) : R (loop.run s) (other.run x) := by
  induction s using run_induction loop generalizing x with
  | settled s hstep => rwa [run_of_none hstep, run_of_none (stays s x h hstep)]
  | moved s t hstep ih =>
    obtain ⟨y, hy, hrel⟩ := moves s t x h hstep
    rw [run_of_some hstep, run_of_some hy]
    exact ih hrel

/-- An operation that every step commutes with may come before the run or after. -/
theorem run_commute {f : σ → σ} (commutes : ∀ s t, loop.step s = some t →
    loop.step (f s) = some (f t)) (s : σ) : loop.run (f s) = loop.run (f (loop.run s)) := by
  induction s using run_induction loop with
  | settled s hstep => rw [run_of_none hstep]
  | moved s t hstep ih => rw [run_of_some hstep, run_of_some (commutes s t hstep), ih]

end Loop

end Yume.Lib
