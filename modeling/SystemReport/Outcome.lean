import Mathlib.Data.Option.Basic

/-!
# What a call can come to

A function of the program returns a value, returns an error, or panics.  `Outcome` keeps the three
apart, so that the absence of panics is something to prove: every `unwrap()`, `expect()` and
`unreachable!()` of the source is an `unwrap` or a `panicked` here.
-/

set_option autoImplicit false

namespace SystemReport

universe u v

/-- A value, an error or a panic. -/
inductive Outcome (ε : Type u) (α : Type v)
  | ok (a : α)
  | err (e : ε)
  | panicked
deriving DecidableEq, Repr

namespace Outcome

variable {ε : Type u} {α β : Type v}

/-- The `?` operator. -/
def bind (x : Outcome ε α) (f : α → Outcome ε β) : Outcome ε β :=
  match x with
  | .ok a => f a
  | .err e => .err e
  | .panicked => .panicked

instance : Monad (Outcome ε) where
  pure := .ok
  bind := bind

/-- `unwrap()` and `expect()`. -/
def unwrap : Option α → Outcome ε α
  | some a => .ok a
  | none => .panicked

/-- `ok_or_else`. -/
def okOr (e : ε) : Option α → Outcome ε α
  | some a => .ok a
  | none => .err e

/-- `return Err(e)` unless the condition holds. -/
def ensure (c : Bool) (e : ε) : Outcome ε PUnit := if c then .ok ⟨⟩ else .err e

/-- `for` over a list, up to the first error. -/
def forEach {γ : Type u} (f : γ → Outcome ε PUnit.{v + 1}) : List γ → Outcome ε PUnit.{v + 1}
  | [] => .ok ⟨⟩
  | x :: xs => (f x).bind fun _ => forEach f xs

/-- `map` and `collect` over a list, up to the first error. -/
def mapM {γ : Type u} (f : γ → Outcome ε α) : List γ → Outcome ε (List α)
  | [] => .ok []
  | x :: xs => (f x).bind fun y => (mapM f xs).bind fun ys => .ok (y :: ys)

/-- `map_err`. -/
def mapErr {δ : Type u} (f : ε → δ) : Outcome ε α → Outcome δ α
  | .ok a => .ok a
  | .err e => .err (f e)
  | .panicked => .panicked

/-- The call returns a value. -/
def isOk : Outcome ε α → Bool
  | .ok _ => true
  | _ => false

theorem isOk_iff {x : Outcome ε α} : x.isOk = true ↔ ∃ a, x = .ok a := by
  cases x with
  | ok a => exact ⟨fun _ => ⟨a, rfl⟩, fun _ => rfl⟩
  | err e => exact ⟨nofun, nofun⟩
  | panicked => exact ⟨nofun, nofun⟩

@[simp] theorem ok_bind (a : α) (f : α → Outcome ε β) : (Outcome.ok a >>= f) = f a := rfl

@[simp] theorem unwrap_some (a : α) : (unwrap (some a) : Outcome ε α) = .ok a := rfl

theorem unwrap_eq_ok {x : Option α} {a : α} : (unwrap x : Outcome ε α) = .ok a ↔ x = some a := by
  cases x with
  | none => simp [unwrap]
  | some b => simp

/-- A computation in steps returns a value exactly if each step does. -/
theorem bind_eq_ok {x : Outcome ε α} {f : α → Outcome ε β} {b : β} :
    (x >>= f) = .ok b ↔ ∃ a, x = .ok a ∧ f a = .ok b := by
  cases x with
  | ok a => exact ⟨fun h => ⟨a, rfl, h⟩, fun ⟨a', ha, h⟩ => by cases ha; exact h⟩
  | err e => exact ⟨nofun, fun ⟨_, ha, _⟩ => nomatch ha⟩
  | panicked => exact ⟨nofun, fun ⟨_, ha, _⟩ => nomatch ha⟩

/-- It panics nowhere if no step panics. -/
theorem bind_ne_panicked {x : Outcome ε α} {f : α → Outcome ε β} (hx : x ≠ .panicked)
    (hf : ∀ a, x = .ok a → f a ≠ .panicked) : (x >>= f) ≠ .panicked := by
  cases x with
  | ok a => exact hf a rfl
  | err e => exact nofun
  | panicked => exact absurd rfl hx

/-- An `unwrap` of a value that is there. -/
theorem unwrap_bind_ne_panicked {x : Option α} {f : α → Outcome ε β} (hx : ∃ a, x = some a)
    (hf : ∀ a, f a ≠ .panicked) : (unwrap x >>= f) ≠ .panicked := by
  obtain ⟨a, rfl⟩ := hx
  exact hf a

theorem unwrap_bind_returns {x : Option α} {f : α → Outcome ε β} (hx : ∃ a, x = some a)
    (hf : ∀ a, x = some a → ∃ b, f a = .ok b) : ∃ b, (unwrap x >>= f) = .ok b := by
  obtain ⟨a, rfl⟩ := hx
  exact hf a rfl

theorem ensure_eq_ok {c : Bool} {e : ε} : (ensure c e : Outcome ε PUnit) = .ok ⟨⟩ ↔ c = true := by
  rw [ensure]
  split
  · exact ⟨fun _ => by assumption, fun _ => rfl⟩
  · exact ⟨nofun, fun h => by contradiction⟩

theorem ensure_ne_panicked (c : Bool) (e : ε) : (ensure c e : Outcome ε PUnit) ≠ .panicked := by
  rw [ensure]
  split <;> exact nofun

theorem mapErr_eq_ok {δ : Type u} {f : ε → δ} {x : Outcome ε α} {a : α} :
    mapErr f x = .ok a ↔ x = .ok a := by
  cases x <;> simp [mapErr]

theorem mapErr_ne_panicked {δ : Type u} {f : ε → δ} {x : Outcome ε α} (hx : x ≠ .panicked) :
    mapErr f x ≠ .panicked := by
  cases x with
  | panicked => exact absurd rfl hx
  | ok | err => exact nofun

theorem okOr_eq_ok {e : ε} {x : Option α} {a : α} : okOr e x = .ok a ↔ x = some a := by
  cases x <;> simp [okOr]

theorem okOr_ne_panicked (e : ε) (x : Option α) : okOr e x ≠ .panicked := by
  cases x <;> exact nofun

theorem forEach_eq_ok {γ : Type u} {f : γ → Outcome ε PUnit.{v + 1}} {xs : List γ} :
    forEach f xs = .ok ⟨⟩ ↔ ∀ x ∈ xs, f x = .ok ⟨⟩ := by
  induction xs with
  | nil => exact ⟨fun _ _ h => absurd h List.not_mem_nil, fun _ => rfl⟩
  | cons x xs ih =>
    rw [List.forall_mem_cons, ← ih, forEach]
    exact bind_eq_ok.trans ⟨fun ⟨_, h, h'⟩ => ⟨h, h'⟩, fun ⟨h, h'⟩ => ⟨⟨⟩, h, h'⟩⟩

theorem forEach_ne_panicked {γ : Type u} {f : γ → Outcome ε PUnit.{v + 1}} {xs : List γ}
    (h : ∀ x ∈ xs, f x ≠ .panicked) : forEach f xs ≠ .panicked := by
  induction xs with
  | nil => exact nofun
  | cons x xs ih =>
    rw [List.forall_mem_cons] at h
    exact bind_ne_panicked h.1 fun _ _ => ih h.2

theorem mapM_eq_ok {γ : Type u} {f : γ → Outcome ε α} {g : γ → α} {xs : List γ}
    (h : ∀ x ∈ xs, f x = .ok (g x)) : mapM f xs = .ok (xs.map g) := by
  induction xs with
  | nil => rfl
  | cons x xs ih =>
    rw [List.forall_mem_cons] at h
    rw [mapM, h.1, ih h.2]
    rfl

theorem mem_of_mapM {γ : Type u} {f : γ → Outcome ε α} : ∀ {xs : List γ} {ys : List α},
    mapM f xs = .ok ys → ∀ {y : α}, y ∈ ys → ∃ x ∈ xs, f x = .ok y
  | [], _, h, y, hy => by
    cases h
    exact absurd hy List.not_mem_nil
  | x :: xs, _, h, y, hy => by
    obtain ⟨y', hx, h⟩ := bind_eq_ok.1 h
    obtain ⟨ys', hxs, h⟩ := bind_eq_ok.1 h
    cases h
    rcases List.mem_cons.1 hy with rfl | hy
    · exact ⟨x, List.mem_cons_self, hx⟩
    · obtain ⟨x', hx', hy⟩ := mem_of_mapM hxs hy
      exact ⟨x', List.mem_cons_of_mem _ hx', hy⟩

theorem mapM_ne_panicked {γ : Type u} {f : γ → Outcome ε α} {xs : List γ}
    (h : ∀ x ∈ xs, f x ≠ .panicked) : mapM f xs ≠ .panicked := by
  induction xs with
  | nil => exact nofun
  | cons x xs ih =>
    rw [List.forall_mem_cons] at h
    exact bind_ne_panicked h.1 fun _ _ => bind_ne_panicked (ih h.2) fun _ _ => nofun

/-- Two outcomes that cannot be told apart, as long as `R` relates what they return. -/
inductive Alike {γ : Type v} (R : α → γ → Prop) : Outcome ε α → Outcome ε γ → Prop
  | ok {a : α} {c : γ} (h : R a c) : Alike R (.ok a) (.ok c)
  | err (e : ε) : Alike R (.err e) (.err e)
  | panicked : Alike R .panicked .panicked

theorem Alike.bind {γ δ : Type v} {R : α → γ → Prop} {S : β → δ → Prop} {x : Outcome ε α}
    {y : Outcome ε γ} {f : α → Outcome ε β} {g : γ → Outcome ε δ} (h : Alike R x y)
    (hfg : ∀ a c, R a c → Alike S (f a) (g c)) : Alike S (x >>= f) (y >>= g) := by
  cases h with
  | ok h => exact hfg _ _ h
  | err e => exact .err e
  | panicked => exact .panicked

theorem Alike.imp {γ : Type v} {R S : α → γ → Prop} {x : Outcome ε α} {y : Outcome ε γ}
    (h : Alike R x y) (hRS : ∀ a c, x = .ok a → y = .ok c → R a c → S a c) : Alike S x y := by
  cases h with
  | ok h => exact .ok (hRS _ _ rfl rfl h)
  | err e => exact .err e
  | panicked => exact .panicked

theorem Alike.mapErr {γ : Type v} {δ : Type u} {R : α → γ → Prop} {x : Outcome ε α}
    {y : Outcome ε γ} (h : Alike R x y) (f : ε → δ) : Alike R (x.mapErr f) (y.mapErr f) := by
  cases h with
  | ok h => exact .ok h
  | err e => exact .err _
  | panicked => exact .panicked

theorem Alike.of_eq {x y : Outcome ε α} (h : x = y) : Alike (· = ·) x y := by
  subst h
  cases x with
  | ok a => exact .ok rfl
  | err e => exact .err e
  | panicked => exact .panicked

end Outcome
end SystemReport
