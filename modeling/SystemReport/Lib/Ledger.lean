import Mathlib.Algebra.Order.Group.Multiset
import Mathlib.Data.Multiset.Basic
import SystemReport.Lib.Machine

/-!
# Ledgers of tickets

A ledger keeps account of requests that each wait for one answer.  A ticket is opened once; an open
ticket is either closed with a value or dropped without one.  The three columns always add up to
the tickets ever opened (`Ledger.Balanced`), so no ticket is closed twice, whatever the order of
the entries (`Ledger.closed_nodup`).
-/

set_option autoImplicit false

open Machine

/-- An account of tickets `ρ` closed with values `ν`. -/
structure Ledger (ρ ν : Type*) where
  opened : List ρ
  waiting : Multiset ρ
  closed : List (ρ × ν)
  dropped : Multiset ρ

namespace Ledger

/-- What can be entered in a ledger. -/
inductive Entry (ρ ν : Type*)
  | opens (r : ρ)
  | closes (r : ρ) (v : ν)
  | drops (r : ρ)

variable {ρ ν : Type*}

/-- The empty ledger. -/
def empty : Ledger ρ ν := ⟨[], 0, [], 0⟩

/-- Every ticket ever opened waits, is closed or is dropped, and none was opened twice. -/
structure Balanced (l : Ledger ρ ν) : Prop where
  nodup : l.opened.Nodup
  sum : l.waiting + (l.closed.map Prod.fst : List ρ) + l.dropped = (l.opened : Multiset ρ)

theorem balanced_empty : Balanced (empty : Ledger ρ ν) := ⟨List.nodup_nil, by simp [empty]⟩

variable [DecidableEq ρ]

/-- Make an entry: only a new ticket can be opened, and only a waiting one closed or dropped. -/
def step (l : Ledger ρ ν) : Entry ρ ν → Option (Ledger ρ ν)
  | .opens r =>
    if r ∈ l.opened then none
    else some { l with opened := l.opened ++ [r], waiting := r ::ₘ l.waiting }
  | .closes r v =>
    if r ∈ l.waiting then
      some { l with waiting := l.waiting.erase r, closed := l.closed ++ [(r, v)] }
    else none
  | .drops r =>
    if r ∈ l.waiting then
      some { l with waiting := l.waiting.erase r, dropped := r ::ₘ l.dropped }
    else none

theorem Balanced.step {l l' : Ledger ρ ν} {e : Entry ρ ν} (h : l.Balanced)
    (hs : l.step e = some l') : l'.Balanced := by
  cases e with
  | opens r =>
    rw [Ledger.step] at hs
    split at hs
    · cases hs
    · rename_i hr
      cases hs
      refine ⟨List.nodup_append.2 ⟨h.nodup, List.nodup_singleton r, ?_⟩, ?_⟩
      · rintro a ha b hb rfl
        exact hr (List.mem_singleton.1 hb ▸ ha)
      · simp only [← Multiset.coe_add, ← h.sum, Multiset.coe_singleton, Multiset.cons_add]
        rw [add_comm _ ({r} : Multiset ρ), Multiset.singleton_add]
  | closes r v =>
    rw [Ledger.step] at hs
    split at hs
    · rename_i hr
      cases hs
      refine ⟨h.nodup, ?_⟩
      rw [← h.sum, ← Multiset.cons_erase hr]
      simp only [List.map_append, List.map_cons, List.map_nil, ← Multiset.coe_add,
        Multiset.coe_singleton, Multiset.erase_cons_head, Multiset.cons_add]
      rw [← add_assoc, add_comm _ ({r} : Multiset ρ), Multiset.singleton_add, Multiset.cons_add]
    · cases hs
  | drops r =>
    rw [Ledger.step] at hs
    split at hs
    · rename_i hr
      cases hs
      refine ⟨h.nodup, ?_⟩
      rw [← h.sum, ← Multiset.cons_erase hr]
      simp only [Multiset.erase_cons_head, Multiset.cons_add, Multiset.add_cons]
    · cases hs

/-! ## Runs -/

/-- The states of a ledger that starts empty. -/
abbrev Kept (l : Ledger ρ ν) : Prop := Reachable Ledger.step empty l

theorem Kept.balanced {l : Ledger ρ ν} (h : l.Kept) : l.Balanced :=
  h.invariant balanced_empty fun _ _ _ hb _ hs => hb.step hs

/-- **No ticket is closed twice.** -/
theorem closed_nodup {l : Ledger ρ ν} (h : l.Kept) : (l.closed.map Prod.fst).Nodup := by
  have hle : ((l.closed.map Prod.fst : List ρ) : Multiset ρ) ≤ (l.opened : Multiset ρ) := by
    rw [← h.balanced.sum, add_comm l.waiting, add_assoc]
    exact Multiset.le_add_right _ _
  exact Multiset.coe_nodup.1 (Multiset.nodup_of_le hle (Multiset.coe_nodup.2 h.balanced.nodup))

/-- Any number of waiting tickets can be closed with the same value. -/
theorem reach_closes (v : ν) : ∀ (rs : List ρ) (l : Ledger ρ ν), (rs : Multiset ρ) ≤ l.waiting →
    Reachable Ledger.step l
      { l with waiting := l.waiting - rs, closed := l.closed ++ rs.map fun r => (r, v) }
  | [], l, _ => by simpa using Reach.refl
  | r :: rs, l, h => by
    have hr : r ∈ l.waiting := Multiset.mem_of_le h (by simp)
    have hrs : (rs : Multiset ρ) ≤ l.waiting.erase r := by
      rw [← Multiset.cons_coe] at h
      simpa using Multiset.erase_le_erase r h
    have hstep : l.step (.closes r v)
        = some { l with waiting := l.waiting.erase r, closed := l.closed ++ [(r, v)] } := by
      rw [step, if_pos hr]
    refine (Reach.single trivial hstep).trans ?_
    have ih := reach_closes v rs { l with waiting := l.waiting.erase r,
                                          closed := l.closed ++ [(r, v)] } hrs
    rw [← Multiset.cons_coe, Multiset.sub_cons, List.map_cons,
      List.append_cons l.closed (r, v) (rs.map fun r => (r, v))]
    exact ih

/-- Any number of waiting tickets can be dropped. -/
theorem reach_drops : ∀ (rs : List ρ) (l : Ledger ρ ν), (rs : Multiset ρ) ≤ l.waiting →
    Reachable Ledger.step l { l with waiting := l.waiting - rs, dropped := rs + l.dropped }
  | [], l, _ => by simpa using Reach.refl
  | r :: rs, l, h => by
    have hr : r ∈ l.waiting := Multiset.mem_of_le h (by simp)
    have hrs : (rs : Multiset ρ) ≤ l.waiting.erase r := by
      rw [← Multiset.cons_coe] at h
      simpa using Multiset.erase_le_erase r h
    have hstep : l.step (.drops r)
        = some { l with waiting := l.waiting.erase r, dropped := r ::ₘ l.dropped } := by
      rw [step, if_pos hr]
    refine (Reach.single trivial hstep).trans ?_
    have ih := reach_drops rs { l with waiting := l.waiting.erase r,
                                       dropped := r ::ₘ l.dropped } hrs
    rw [← Multiset.cons_coe, Multiset.sub_cons, Multiset.cons_add, ← Multiset.add_cons]
    exact ih

end Ledger
