/-
Interleaved call stacks.  Running one stack replaces its head; every weight of
the pending frames changes by what the head is replaced with.
-/
import Mathlib.Algebra.BigOperators.Group.List.Basic
import Mathlib.Algebra.Order.BigOperators.Group.List
import Mathlib.Algebra.Order.Ring.Nat

namespace Yume.Lib

open List

variable {α : Type*}

/-- The total weight of a list of frames. -/
def weigh (f : α → Nat) (frames : List α) : Nat := (frames.map f).sum

@[simp] theorem weigh_nil (f : α → Nat) : weigh f [] = 0 := rfl

@[simp] theorem weigh_cons (f : α → Nat) (a : α) (l : List α) :
    weigh f (a :: l) = f a + weigh f l := by simp [weigh]

@[simp] theorem weigh_append (f : α → Nat) (l m : List α) :
    weigh f (l ++ m) = weigh f l + weigh f m := by simp [weigh]

variable {f : α → Nat} {l : List α}

theorem le_weigh_of_mem {a : α} (h : a ∈ l) : f a ≤ weigh f l := by
  obtain ⟨pre, post, rfl⟩ := append_of_mem h
  simp only [weigh_append, weigh_cons]
  omega

theorem weigh_eq_zero (h : ∀ a ∈ l, f a = 0) : weigh f l = 0 := by
  induction l with
  | nil => rfl
  | cons a l ih => simp_all

theorem weigh_mono {g : α → Nat} (h : ∀ a ∈ l, f a ≤ g a) : weigh f l ≤ weigh g l := sum_le_sum h

theorem weigh_perm {m : List α} (h : l.Perm m) : weigh f l = weigh f m := (h.map f).sum_eq

theorem weigh_le_of_sublist {m : List α} (h : l.Sublist m) : weigh f l ≤ weigh f m := by
  induction h with
  | slnil => exact Nat.le_refl _
  | cons a _ ih => exact Nat.le_trans ih (by simp)
  | cons_cons a _ ih =>
    simp only [weigh_cons]
    exact Nat.add_le_add_left ih _

/-- Replacing one element, seen in the weight of all. -/
theorem weigh_set {i : Nat} {a : α} (h : l[i]? = some a) (b : α) (f : α → Nat) :
    weigh f (l.set i b) + f a = weigh f l + f b := by
  induction l generalizing i with
  | nil => simp at h
  | cons first rest ih =>
    cases i with
    | zero =>
      simp only [getElem?_cons_zero, Option.some.injEq] at h
      subst h
      simp only [set_cons_zero, weigh_cons]
      omega
    | succ i =>
      simp only [getElem?_cons_succ] at h
      have hrest := ih h
      simp only [set_cons_succ, weigh_cons]
      omega

/-- Replacing the head of one stack, seen in the flattened list of frames. -/
theorem flatten_set_cons {threads : List (List α)} {i : Nat} {head : α}
    {rest : List α} (h : threads[i]? = some (head :: rest)) :
    ∃ pre post, threads.flatten = pre ++ head :: post ∧
      ∀ made, (threads.set i (made ++ rest)).flatten = pre ++ (made ++ post) := by
  induction threads generalizing i with
  | nil => simp at h
  | cons thread threads ih =>
    cases i with
    | zero =>
      simp only [getElem?_cons_zero, Option.some.injEq] at h
      subst h
      exact ⟨[], rest ++ threads.flatten, by simp, by simp⟩
    | succ =>
      simp only [getElem?_cons_succ] at h
      obtain ⟨pre, post, hflat, hset⟩ := ih h
      exact ⟨thread ++ pre, post, by simp [hflat], fun made => by
        simp [hset made]⟩

end Yume.Lib
