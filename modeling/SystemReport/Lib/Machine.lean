import Mathlib.Data.Option.Basic

/-!
# Labelled machines with a partial step

A machine is a step function `σ → α → Option σ`: a label is either enabled in a state, and then
leads to exactly one state, or it is not.  Whatever a program's environment decides (which branch
is taken, what a call returns) is written into the label, so that a run is a list of labels.

* `Reach step C s₀ s` says that `s` is reached from `s₀` by steps that all meet the condition `C`;
  with `C := fun _ _ => True` these are all runs.
* `Reach.invariant` is the induction principle of safety proofs, and `Reach.along` the same with
  another invariant already at hand.
* `execWhile` runs a list of labels and checks the condition on the way, so that a concrete run
  can be turned into a `Reach` by evaluation (`Reach.of_execWhile`).
* `Reach.map` carries the runs of one machine to the runs of another.
* `logged` adds a log of what the steps do, for properties that look back at a whole run;
  `Reach.logged_invariant` is its induction principle.
-/

set_option autoImplicit false

namespace Machine

universe u v w x

variable {σ : Type u} {α : Type v} {τ : Type w} {β : Type x}

/-! ## Runs -/

/-- Run a list of labels; `none` as soon as one of them is not enabled or breaks `C`. -/
def execWhile (step : σ → α → Option σ) (C : σ → α → Prop) [∀ s a, Decidable (C s a)] :
    σ → List α → Option σ
  | s, [] => some s
  | s, a :: as => if C s a then (step s a).bind fun t => execWhile step C t as else none

/-- The states reached from `s₀` by steps that all meet the condition `C`. -/
inductive Reach (step : σ → α → Option σ) (C : σ → α → Prop) (s₀ : σ) : σ → Prop
  | refl : Reach step C s₀ s₀
  | snoc {s t : σ} {a : α} (h : Reach step C s₀ s) (hc : C s a) (hs : step s a = some t) :
      Reach step C s₀ t

/-- The states reached by any run at all. -/
abbrev Reachable (step : σ → α → Option σ) : σ → σ → Prop := Reach step fun _ _ => True

variable {step : σ → α → Option σ} {C D : σ → α → Prop} {s₀ s t : σ}

theorem Reach.single {a : α} (hc : C s a) (hs : step s a = some t) : Reach step C s t :=
  Reach.refl.snoc hc hs

theorem Reach.trans (h : Reach step C s₀ s) (h' : Reach step C s t) : Reach step C s₀ t := by
  induction h' with
  | refl => exact h
  | snoc _ hc hs ih => exact ih.snoc hc hs

theorem Reach.mono (h : Reach step C s₀ s) (hCD : ∀ s a, C s a → D s a) : Reach step D s₀ s := by
  induction h with
  | refl => exact .refl
  | snoc _ hc hs ih => exact ih.snoc (hCD _ _ hc) hs

theorem Reach.of_execWhile [∀ s a, Decidable (C s a)] {as : List α} :
    ∀ {s : σ}, execWhile step C s as = some t → Reach step C s t := by
  induction as with
  | nil =>
    intro s h
    cases h
    exact .refl
  | cons a as ih =>
    intro s h
    rw [execWhile] at h
    split at h
    · rename_i hc
      obtain ⟨u, hu, h⟩ := Option.bind_eq_some_iff.1 h
      exact (Reach.single hc hu).trans (ih h)
    · cases h

theorem Reach.of_foldlM {as : List α} :
    ∀ {s : σ}, (∀ a ∈ as, ∀ s, C s a) → as.foldlM step s = some t → Reach step C s t := by
  induction as with
  | nil =>
    intro s _ h
    cases h
    exact .refl
  | cons a as ih =>
    intro s hC h
    rw [List.forall_mem_cons] at hC
    rw [List.foldlM_cons] at h
    obtain ⟨u, hu, h⟩ := Option.bind_eq_some_iff.1 h
    exact (Reach.single (hC.1 s) hu).trans (ih hC.2 h)

/-- The state in which a list of labels ends, once it is known to run. -/
theorem Reach.of_isSome [∀ s a, Decidable (C s a)] {as : List α}
    (h : (execWhile step C s as).isSome = true) :
    Reach step C s ((execWhile step C s as).get h) :=
  Reach.of_execWhile (Option.eq_some_of_isSome h)

/-! ## Invariants -/

/-- **Safety by induction.**  What holds initially and is kept by every step that meets the
condition holds in every state reached. -/
theorem Reach.invariant {I : σ → Prop} (h0 : I s₀)
    (hstep : ∀ s a t, I s → C s a → step s a = some t → I t) (h : Reach step C s₀ s) : I s := by
  induction h with
  | refl => exact h0
  | snoc _ hc hs ih => exact hstep _ _ _ ih hc hs

/-- Safety by induction along runs on which `J` is already known to hold. -/
theorem Reach.along {I J : σ → Prop} (hJ : ∀ s, Reach step C s₀ s → J s) (h0 : I s₀)
    (hstep : ∀ s a t, J s → I s → C s a → step s a = some t → I t) (h : Reach step C s₀ s) :
    I s := by
  induction h with
  | refl => exact h0
  | snoc hr hc hs ih => exact hstep _ _ _ (hJ _ hr) ih hc hs

/-! ## Simulation -/

/-- **Runs carry over.**  If each step of the first machine, from a state in which `J` holds, is
matched by a run of the second between the images of its ends, so is each run. -/
theorem Reach.map {step' : τ → β → Option τ} {D : τ → β → Prop} {J : σ → Prop} (f : σ → τ)
    (hJ : ∀ s, Reach step C s₀ s → J s)
    (hstep : ∀ s a t, J s → C s a → step s a = some t → Reach step' D (f s) (f t))
    (h : Reach step C s₀ s) : Reach step' D (f s₀) (f s) := by
  induction h with
  | refl => exact .refl
  | snoc hr hc hs ih => exact ih.trans (hstep _ _ _ (hJ _ hr) hc hs)

/-! ## Logs -/

/-- The machine that also writes down what its steps do, the latest first.  A log is never read by a
step, but a condition on a run may look at it. -/
def logged (step : σ → α → Option σ) (observe : σ → α → σ → List β) (p : σ × List β) (a : α) :
    Option (σ × List β) :=
  (step p.1 a).map fun t => (t, observe p.1 a t ++ p.2)

variable {observe : σ → α → σ → List β} {E : σ × List β → α → Prop} {p q : σ × List β}

theorem logged_eq_some {a : α} :
    logged step observe p a = some q ↔
      ∃ t, step p.1 a = some t ∧ q = (t, observe p.1 a t ++ p.2) := by
  rw [logged, Option.map_eq_some_iff]
  exact exists_congr fun t => and_congr_right fun _ => eq_comm

/-- A run of it is a run of the machine. -/
theorem Reach.of_logged (hE : ∀ p a, E p a → C p.1 a) (h : Reach (logged step observe) E p q) :
    Reach step C p.1 q.1 := by
  refine h.map Prod.fst (fun _ _ => trivial) fun p' a q' _ hc hs => ?_
  obtain ⟨t, ht, rfl⟩ := logged_eq_some.1 hs
  exact .single (hE _ _ hc) ht

/-- And a run of the machine can be written down. -/
theorem Reach.exists_logged (observe : σ → α → σ → List β) (log₀ : List β)
    (h : Reach step C s₀ s) :
    ∃ log, Reach (logged step observe) (fun p => C p.1) (s₀, log₀) (s, log) := by
  induction h with
  | refl => exact ⟨log₀, .refl⟩
  | snoc _ hc hs ih =>
    obtain ⟨log, hlog⟩ := ih
    exact ⟨_, hlog.snoc hc (logged_eq_some.2 ⟨_, hs, rfl⟩)⟩

/-- **Safety by induction, with a log.** -/
theorem Reach.logged_invariant {I : σ → List β → Prop} (hE : ∀ p a, E p a → C p.1 a)
    (h0 : I p.1 p.2)
    (hstep : ∀ s log a t, Reach step C p.1 s → I s log → E (s, log) a → step s a = some t →
      I t (observe s a t ++ log))
    (h : Reach (logged step observe) E p q) : I q.1 q.2 := by
  refine h.along (I := fun q => I q.1 q.2) (fun q hq => hq.of_logged hE) h0 ?_
  rintro ⟨s, log⟩ a q' hr hi hc hs
  obtain ⟨t, ht, rfl⟩ := logged_eq_some.1 hs
  exact hstep s log a t hr hi hc ht

end Machine
