import Mathlib.Data.List.Basic
import Mathlib.Data.List.Infix

/-!
# Searching for a part of a list

`First part text before after` is the specification of a search: the first occurrence of `part` in
`text` has `before` before it and `after` behind it.  To show that something is the first occurrence,
one goes through what is before it piece by piece: `Skips part pre post` says that no occurrence
starts in the piece `pre` when `post` comes after it, and `skips_append` puts pieces together.

An occurrence remains the first one whatever is put behind it (`First.replace`).
-/

set_option autoImplicit false

namespace Search

universe u

variable {α : Type u} {part text pre post before after : List α}

/-! ## Pieces without an occurrence -/

/-- No occurrence of `part` starts in `pre` if `post` follows. -/
def Skips (part pre post : List α) : Prop :=
  ∀ a b, pre = a ++ b → b ≠ [] → ¬ part <+: b ++ post

theorem skips_nil : Skips part [] post := by
  intro a b h hb
  exact absurd (List.append_eq_nil_iff.1 h.symm).2 hb

theorem skips_cons {c : α} :
    Skips part (c :: pre) post ↔ ¬ part <+: c :: (pre ++ post) ∧ Skips part pre post := by
  constructor
  · intro h
    exact ⟨h [] (c :: pre) rfl (by simp), fun a b hab => h (c :: a) b (by rw [hab]; rfl)⟩
  · rintro ⟨hc, h⟩ a b hab hb
    cases a with
    | nil =>
      obtain rfl : c :: pre = b := hab
      exact hc
    | cons c' a =>
      rw [List.cons_append] at hab
      exact h a b (List.cons.inj hab).2 hb

theorem skips_append {pre' : List α} :
    Skips part (pre ++ pre') post ↔ Skips part pre (pre' ++ post) ∧ Skips part pre' post := by
  induction pre with
  | nil => simp [skips_nil]
  | cons c pre ih => rw [List.cons_append, skips_cons, skips_cons, ih, List.append_assoc, and_assoc]

/-- An occurrence starts with the first element of the part. -/
theorem skips_of_ne {x : α} {xs : List α} (h : ∀ c ∈ pre, c ≠ x) :
    Skips (x :: xs) pre post := by
  rintro a b rfl hb hpart
  cases b with
  | nil => exact hb rfl
  | cons c b =>
    rw [List.cons_append, List.cons_prefix_cons] at hpart
    exact h c (by simp) hpart.1.symm

theorem skips_iff_not_occurs (hpart : part ≠ []) : Skips part text [] ↔ ¬ part <:+: text := by
  constructor
  · rintro h ⟨a, b, hab⟩
    have hrest : part ++ b ≠ [] := fun hnil => hpart (List.append_eq_nil_iff.1 hnil).1
    refine h a (part ++ b) (by rw [← hab, List.append_assoc]) hrest ?_
    rw [List.append_nil]
    exact List.prefix_append part b
  · intro h a b hab _ hb
    rw [List.append_nil] at hb
    rw [hab] at h
    exact h (hb.isInfix.trans (List.suffix_append a b).isInfix)

/-! ## The first occurrence -/

/-- The first occurrence of `part` in `text` is between `before` and `after`. -/
structure First (part text before after : List α) : Prop where
  split : text = before ++ part ++ after
  least : ∀ b a, text = b ++ part ++ a → before.length ≤ b.length

theorem Skips.first (h : Skips part pre (part ++ post)) :
    First part (pre ++ part ++ post) pre post := by
  refine ⟨rfl, fun b a hab => ?_⟩
  by_contra hlt
  rw [not_le] at hlt
  rw [List.append_assoc, List.append_assoc, List.append_eq_append_iff] at hab
  rcases hab with ⟨c, hb, -⟩ | ⟨c, hpre, hc⟩
  · rw [hb, List.length_append] at hlt
    omega
  · refine h b c hpre ?_ ⟨a, hc⟩
    rintro rfl
    rw [hpre, List.append_nil] at hlt
    omega

theorem First.skips (h : First part text before after) : Skips part before (part ++ after) := by
  rintro a b hab hb ⟨rest, hrest⟩
  have hle := h.least a rest (by rw [h.split, hab]; simp [← hrest])
  have hpos := List.length_pos_iff.2 hb
  rw [hab, List.length_append] at hle
  omega

theorem First.unique {before' after' : List α} (h : First part text before after)
    (h' : First part text before' after') : before = before' ∧ after = after' := by
  have hlength := le_antisymm (h.least _ _ h'.split) (h'.least _ _ h.split)
  have hsplit := h.split.symm.trans h'.split
  rw [List.append_assoc, List.append_assoc] at hsplit
  obtain ⟨hbefore, hrest⟩ := List.append_inj hsplit hlength
  exact ⟨hbefore, List.append_cancel_left hrest⟩

/-- Behind what has no occurrence, the first one is the first one of the rest. -/
theorem First.skip (h : First part text before after) (hpre : Skips part pre text) :
    First part (pre ++ text) (pre ++ before) after := by
  rw [h.split, List.append_assoc] at hpre
  have hskips : Skips part (pre ++ before) (part ++ after) := skips_append.2 ⟨hpre, h.skips⟩
  have hfirst := hskips.first
  rwa [List.append_assoc, List.append_assoc, ← List.append_assoc before, ← h.split] at hfirst

/-- Nothing that comes after an occurrence matters. -/
theorem First.replace (h : First part text before after) (after' : List α) :
    First part (before ++ part ++ after') before after' := by
  refine ⟨rfl, fun b a hab => ?_⟩
  by_contra hlt
  rw [not_le] at hlt
  -- an earlier occurrence would end before this one does
  have hends : b ++ part <+: before ++ part := by
    refine List.prefix_of_prefix_length_le ⟨a, hab.symm⟩ ⟨after', rfl⟩ ?_
    simp only [List.length_append]
    omega
  obtain ⟨more, hmore⟩ := hends
  have hle := h.least b (more ++ after) (by rw [h.split, ← hmore]; simp)
  omega

theorem First.occurs (h : First part text before after) : part <:+: text :=
  ⟨before, after, h.split.symm⟩

theorem First.start_within {start : List α} (h : First part text before after)
    (hstart : start <+: text) (hle : start.length ≤ (before ++ part).length) :
    start <+: before ++ part :=
  List.prefix_of_prefix_length_le hstart ⟨after, h.split.symm⟩ hle

end Search
