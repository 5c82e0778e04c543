import Mathlib.Algebra.Order.Group.Nat

/-!
# Ranked parties

Some labels of a machine belong to one party, and a rank says how far that party is from being done.
If its own steps lower the rank, the steps of others do not raise it, and the party can take a step
as long as the rank is not zero, then nobody can keep it from getting done: a run holds at most as
many of its steps as the rank says (`Ranked.count_le`), and those that are missing can be taken from
anywhere (`Ranked.settles`).
-/

set_option autoImplicit false

namespace Machine

universe u v

variable {σ : Type u} {α : Type v}

/-- The steps of the party lower the rank, and those of others do not raise it. -/
structure Ranked (step : σ → α → Option σ) (own other : α → Bool) (inv : σ → Prop)
    (rank : σ → ℕ) : Prop where
  keeps : ∀ s a t, inv s → own a || other a → step s a = some t → inv t
  own_lt : ∀ s a t, inv s → own a → step s a = some t → rank t < rank s
  other_le : ∀ s a t, inv s → other a → step s a = some t → rank t ≤ rank s
  progress : ∀ s, inv s → rank s ≠ 0 → ∃ a t, own a ∧ step s a = some t

namespace Ranked

variable {step : σ → α → Option σ} {own other : α → Bool} {inv : σ → Prop} {rank : σ → ℕ}

/-- **The party is not put off.**  Each of its steps uses up some of the rank. -/
theorem count_le (h : Ranked step own other inv rank) : ∀ {as : List α} {s t : σ}, inv s →
    (∀ a ∈ as, own a || other a) → as.foldlM step s = some t →
    as.countP own + rank t ≤ rank s
  | [], s, t, _, _, hrun => by
    cases hrun
    simp
  | a :: as, s, t, hs, hlabels, hrun => by
    rw [List.forall_mem_cons] at hlabels
    rw [List.foldlM_cons] at hrun
    obtain ⟨u, hu, hrun⟩ := Option.bind_eq_some_iff.1 hrun
    have hrest := count_le h (h.keeps s a u hs hlabels.1 hu) hlabels.2 hrun
    rw [List.countP_cons]
    split
    · rename_i hown
      have := h.own_lt s a u hs hown hu
      omega
    · rename_i hown
      have hother : other a = true := by simpa [hown] using hlabels.1
      have := h.other_le s a u hs hother hu
      omega

/-- **The party can get done**, in as many steps of its own as the rank says. -/
theorem settles (h : Ranked step own other inv rank) (s : σ) (hs : inv s) :
    ∃ (as : List α) (t : σ), (∀ a ∈ as, own a) ∧ as.length ≤ rank s ∧
      as.foldlM step s = some t ∧ inv t ∧ rank t = 0 := by
  induction hn : rank s using Nat.strongRecOn generalizing s with
  | ind n ih =>
    by_cases hzero : rank s = 0
    · exact ⟨[], s, fun _ h => absurd h List.not_mem_nil, Nat.zero_le _, rfl, hs, hzero⟩
    · obtain ⟨a, u, hown, hu⟩ := h.progress s hs hzero
      have hlt := h.own_lt s a u hs hown hu
      obtain ⟨as, t, has, hlength, hrun, ht⟩ :=
        ih (rank u) (hn ▸ hlt) u (h.keeps s a u hs (by simp [hown]) hu) rfl
      refine ⟨a :: as, t, List.forall_mem_cons.2 ⟨hown, has⟩, ?_, ?_, ht⟩
      · rw [List.length_cons]
        omega
      · rw [List.foldlM_cons, hu]
        exact hrun

end Ranked
end Machine
