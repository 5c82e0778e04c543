import Mathlib.Data.List.AList

/-!
# Counting and removing entries of an association list

Facts about `AList` that its own API does not state: what `erase` takes away, as a permutation of
the entries, and how many entries are left.  For a plain list of pairs with unique keys, `lookup` is
membership.
-/

set_option autoImplicit false

universe u v

/-- Looking a key up in a list with unique keys finds its entry. -/
theorem AssocList.lookup_eq_some_iff_mem {α : Type u} {β : Type v} [DecidableEq α]
    {entries : List (α × β)} (h : (entries.map Prod.fst).Nodup) {a : α} {b : β} :
    entries.lookup a = some b ↔ (a, b) ∈ entries := by
  induction entries with
  | nil => simp
  | cons e entries ih =>
    obtain ⟨key, old⟩ := e
    rw [List.map_cons, List.nodup_cons] at h
    by_cases hkey : a = key
    · subst hkey
      have hnot : (a, b) ∉ entries := fun hmem => h.1 (List.mem_map.2 ⟨_, hmem, rfl⟩)
      simp [hnot, eq_comm]
    · rw [List.lookup_cons, beq_false_of_ne hkey, List.mem_cons, ih h.2]
      simp [hkey]

namespace AList

variable {α : Type u} {β : α → Type v} [DecidableEq α]

/-- Erasing a key takes away exactly the entry found under it. -/
theorem perm_cons_erase {s : AList β} {a : α} {b : β a} (h : s.lookup a = some b) :
    s.entries.Perm (⟨a, b⟩ :: (s.erase a).entries) := by
  have ha : a ∈ s := by
    rw [← lookup_isSome, h]
    rfl
  obtain ⟨b', l₁, l₂, -, hl, hk⟩ := List.exists_of_kerase ha
  have hb' : s.lookup a = some b' := by
    rw [← Option.mem_def, mem_lookup_iff, hl]
    exact List.mem_append_right _ List.mem_cons_self
  have hbb : b' = b := Option.some.inj (hb'.symm.trans h)
  rw [hl, hbb, show (s.erase a).entries = l₁ ++ l₂ from hk]
  exact List.perm_middle

theorem length_erase_le (s : AList β) (a : α) :
    (s.erase a).entries.length ≤ s.entries.length :=
  (List.kerase_sublist a s.entries).length_le

theorem length_insert_of_notMem {s : AList β} {a : α} (h : a ∉ s) (b : β a) :
    (s.insert a b).entries.length = s.entries.length + 1 := by
  rw [entries_insert_of_notMem h, List.length_cons]

theorem erase_of_notMem {s : AList β} {a : α} (h : a ∉ s) : s.erase a = s :=
  ext (List.kerase_of_notMem_keys h)

end AList
