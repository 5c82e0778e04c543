import Mathlib.Algebra.Group.Nat.Even
import Mathlib.Order.Monotone.Basic

/-!
# Exponential backoff

What a loop that retries does is written down as a log of its successes and of the delays that
follow its failures, the latest first.  `Follows policy log` says that every delay is the one that
the policy gives for the number of failures before it since the last success.  Whatever bounds the
policy bounds the delays, and a monotone policy makes them grow up to the next success.

`doubling` is the policy that doubles the delay up to a ceiling.
-/

set_option autoImplicit false

namespace Backoff

universe u

variable {δ : Type u}

/-- What a retrying loop does. -/
inductive Event (δ : Type u)
  | success
  | slept (delay : δ)
deriving DecidableEq, Repr

/-- The failures since the last success. -/
def failures : List (Event δ) → ℕ
  | [] => 0
  | .success :: _ => 0
  | .slept _ :: log => failures log + 1

@[simp] theorem failures_nil : failures ([] : List (Event δ)) = 0 := rfl

@[simp] theorem failures_success (log : List (Event δ)) : failures (.success :: log) = 0 := rfl

@[simp] theorem failures_slept (d : δ) (log : List (Event δ)) :
    failures (.slept d :: log) = failures log + 1 := rfl

/-- Without a success, failures add up. -/
theorem failures_le_append {between : List (Event δ)} (h : .success ∉ between)
    (older : List (Event δ)) : failures older ≤ failures (between ++ older) := by
  induction between with
  | nil => exact le_rfl
  | cons event between ih =>
    rw [List.mem_cons, not_or] at h
    cases event with
    | success => exact absurd rfl h.1
    | slept d => exact (ih h.2).trans (Nat.le_succ _)

/-! ## Policies -/

/-- Every delay is what the policy says after the failures before it. -/
def Follows (policy : ℕ → δ) (log : List (Event δ)) : Prop :=
  ∀ newer d older, log = newer ++ .slept d :: older → d = policy (failures older)

namespace Follows

variable {policy : ℕ → δ} {log : List (Event δ)}

theorem nil : Follows policy [] := by
  intro newer d older h
  simp at h

theorem success (h : Follows policy log) : Follows policy (.success :: log) := by
  intro newer d older heq
  cases newer with
  | nil => cases heq
  | cons event newer =>
    rw [List.cons_append] at heq
    exact h newer d older (List.cons.inj heq).2

theorem slept (h : Follows policy log) {d : δ} (hd : d = policy (failures log)) :
    Follows policy (.slept d :: log) := by
  intro newer d' older heq
  cases newer with
  | nil =>
    cases heq
    exact hd
  | cons event newer =>
    rw [List.cons_append] at heq
    exact h newer d' older (List.cons.inj heq).2

theorem mem (h : Follows policy log) {d : δ} (hd : .slept d ∈ log) : ∃ n, d = policy n := by
  obtain ⟨newer, older, rfl⟩ := List.append_of_mem hd
  exact ⟨_, h newer d older rfl⟩

/-- The delays do not shrink up to the next success. -/
theorem nondecreasing [Preorder δ] (hpolicy : Monotone policy) (h : Follows policy log)
    {newer between older : List (Event δ)} {d d' : δ}
    (hlog : log = newer ++ .slept d' :: (between ++ .slept d :: older))
    (hbetween : .success ∉ between) : d ≤ d' := by
  have hcount : failures older ≤ failures (between ++ .slept d :: older) :=
    (Nat.le_succ _).trans (failures_le_append hbetween (.slept d :: older))
  calc d = policy (failures older) := h (newer ++ .slept d' :: between) d older (by simp [hlog])
    _ ≤ policy (failures (between ++ .slept d :: older)) := hpolicy hcount
    _ = d' := (h newer d' _ hlog).symm

end Follows

/-! ## Doubling -/

/-- The delay doubles with every failure, up to a ceiling. -/
def doubling (low high n : ℕ) : ℕ := min (low * 2 ^ n) high

variable {low high : ℕ}

theorem doubling_zero (h : low ≤ high) : doubling low high 0 = low := by
  rw [doubling, pow_zero, mul_one, min_eq_left h]

theorem doubling_succ (low high n : ℕ) :
    doubling low high (n + 1) = min (doubling low high n * 2) high := by
  rw [doubling, doubling, pow_succ, ← mul_assoc]
  omega

theorem doubling_le (low high n : ℕ) : doubling low high n ≤ high := min_le_right _ _

theorem doubling_monotone (low high : ℕ) : Monotone (doubling low high) := by
  refine monotone_nat_of_le_succ fun n => ?_
  rw [doubling_succ]
  exact le_min (by omega) (doubling_le low high n)

theorem le_doubling (h : low ≤ high) (n : ℕ) : low ≤ doubling low high n :=
  (doubling_zero h).ge.trans (doubling_monotone low high (Nat.zero_le n))

end Backoff
