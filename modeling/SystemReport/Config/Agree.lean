import SystemReport.Config.Redact

/-!
# Documents that agree up to secrets

Two values agree (`Agree`) if they differ in nothing but what is stored under `password`, where both
are set.  With `deep`, such values may also differ inside a mapping that is itself a key of another
mapping.

* Every accessor reads the same from two agreeing values, except under `password`.
* Without `deep`, two values agree exactly if their redacted trees are equal.
* `agree_deepMerge`: agreeing documents stay so when they are merged into the same defaults, and
  the merge pushes the same warnings.
-/

set_option autoImplicit false

open Yaml

namespace SystemReport
namespace Config

mutual

/-- Two values that differ in nothing but what is stored under `password`. -/
inductive Agree (deep : Bool) : Value → Value → Prop
  | null : Agree deep .null .null
  | bool (b : Bool) : Agree deep (.bool b) (.bool b)
  | number (n : Number) : Agree deep (.number n) (.number n)
  | string (s : String) : Agree deep (.string s) (.string s)
  | sequence {vs ws : List Value} (h : AgreeAll deep vs ws) : Agree deep (.sequence vs) (.sequence ws)
  | mapping {es fs : List (Value × Value)} (h : AgreeEntries deep es fs) :
      Agree deep (.mapping es) (.mapping fs)
  | tagged (tag : String) {v w : Value} (h : Agree deep v w) :
      Agree deep (.tagged tag v) (.tagged tag w)

inductive AgreeAll (deep : Bool) : List Value → List Value → Prop
  | nil : AgreeAll deep [] []
  | cons {v w : Value} {vs ws : List Value} (h : Agree deep v w) (hs : AgreeAll deep vs ws) :
      AgreeAll deep (v :: vs) (w :: ws)

/-- Two keys: equal, or with `deep` only up to secrets inside them. -/
inductive AgreeKey (deep : Bool) : Value → Value → Prop
  | same (k : Value) : AgreeKey deep k k
  | inside {k l : Value} (hdeep : deep = true) (h : Agree deep k l) : AgreeKey deep k l

/-- Two values stored under a key. -/
inductive AgreeUnder (deep : Bool) : Value → Value → Value → Prop
  | agree {k v w : Value} (h : Agree deep v w) : AgreeUnder deep k v w
  | secret {k v w : Value} (hk : k.asStr = some "password") (hv : v.isNull = false)
      (hw : w.isNull = false) : AgreeUnder deep k v w

inductive AgreeEntries (deep : Bool) : List (Value × Value) → List (Value × Value) → Prop
  | nil : AgreeEntries deep [] []
  | cons {k l v w : Value} {es fs : List (Value × Value)} (hk : AgreeKey deep k l)
      (hv : AgreeUnder deep k v w) (hs : AgreeEntries deep es fs) :
      AgreeEntries deep ((k, v) :: es) ((l, w) :: fs)

end

variable {deep : Bool}

/-! ## What agreeing values have in common -/

theorem Agree.untag : ∀ {v w : Value}, Agree deep v w → Agree deep v.untag w.untag
  | _, _, .tagged _ h => h.untag
  | _, _, .null => .null
  | _, _, .bool b => .bool b
  | _, _, .number n => .number n
  | _, _, .string s => .string s
  | _, _, .sequence h => .sequence h
  | _, _, .mapping h => .mapping h

/-- An accessor that looks through tags, and not into sequences and mappings, sees the same. -/
theorem Agree.congr {α : Type} {f : Value → α} (htag : ∀ tag v, f (.tagged tag v) = f v)
    (hseq : ∀ vs ws, f (.sequence vs) = f (.sequence ws))
    (hmap : ∀ es fs, f (.mapping es) = f (.mapping fs)) : ∀ {v w : Value}, Agree deep v w → f v = f w
  | _, _, .tagged _ h => by rw [htag, htag, h.congr htag hseq hmap]
  | _, _, .sequence _ => hseq _ _
  | _, _, .mapping _ => hmap _ _
  | _, _, .null | _, _, .bool _ | _, _, .number _ | _, _, .string _ => rfl

theorem Agree.asStr {v w : Value} (h : Agree deep v w) : v.asStr = w.asStr :=
  h.congr (fun _ _ => rfl) (fun _ _ => rfl) fun _ _ => rfl

theorem Agree.asBool {v w : Value} (h : Agree deep v w) : v.asBool = w.asBool :=
  h.congr (fun _ _ => rfl) (fun _ _ => rfl) fun _ _ => rfl

theorem Agree.asU64 {v w : Value} (h : Agree deep v w) : v.asU64 = w.asU64 :=
  h.congr (fun _ _ => rfl) (fun _ _ => rfl) fun _ _ => rfl

theorem Agree.asF64 {v w : Value} (h : Agree deep v w) : v.asF64 = w.asF64 :=
  h.congr (fun _ _ => rfl) (fun _ _ => rfl) fun _ _ => rfl

theorem Agree.isNull {v w : Value} (h : Agree deep v w) : v.isNull = w.isNull :=
  h.congr (fun _ _ => rfl) (fun _ _ => rfl) fun _ _ => rfl

theorem Agree.isMapping {v w : Value} (h : Agree deep v w) : v.isMapping = w.isMapping :=
  h.congr (fun _ _ => rfl) (fun _ _ => rfl) fun _ _ => rfl

theorem Agree.asMapping {v w : Value} (h : Agree deep v w) :
    (v.asMapping = none ∧ w.asMapping = none) ∨
      ∃ es fs, v.asMapping = some es ∧ w.asMapping = some fs ∧ AgreeEntries deep es fs := by
  have h := h.untag
  rw [Value.asMapping, Value.asMapping]
  generalize v.untag = v, w.untag = w at h
  cases h with
  | mapping h => exact .inr ⟨_, _, rfl, rfl, h⟩
  | _ => exact .inl ⟨rfl, rfl⟩

/-- A value that agrees with a mapping is a mapping whose entries agree with its own. -/
theorem Agree.entries {v w : Value} {es : Mapping} (h : Agree deep v w)
    (hes : v.asMapping = some es) : ∃ fs, w.asMapping = some fs ∧ AgreeEntries deep es fs := by
  rcases h.asMapping with ⟨hnone, -⟩ | ⟨es', fs, hes', hfs, hef⟩
  · rw [hes] at hnone
    cases hnone
  · obtain rfl := Option.some.inj (hes.symm.trans hes')
    exact ⟨fs, hfs, hef⟩

/-- Two mappings agree without `deep` if they agree with it and their entries do without. -/
theorem Agree.of_entries : ∀ {v w : Value} {es fs : Mapping}, Agree deep v w →
    v.asMapping = some es → w.asMapping = some fs → AgreeEntries false es fs → Agree false v w
  | _, _, _, _, .tagged tag h, hes, hfs, hef => .tagged tag (h.of_entries hes hfs hef)
  | _, _, _, _, .mapping _, rfl, rfl, hef => .mapping hef

/-- The strings of two sequences. -/
theorem AgreeAll.map_asStr : ∀ {vs ws : List Value}, AgreeAll deep vs ws →
    vs.map Value.asStr = ws.map Value.asStr
  | _, _, .nil => rfl
  | _, _, .cons h hs => by rw [List.map_cons, List.map_cons, h.asStr, hs.map_asStr]

theorem Agree.asSequence {v w : Value} (h : Agree deep v w) :
    (v.asSequence.map (List.map Value.asStr)) = w.asSequence.map (List.map Value.asStr) := by
  have h := h.untag
  rw [Value.asSequence, Value.asSequence]
  generalize v.untag = v, w.untag = w at h
  cases h with
  | sequence h => exact congrArg some h.map_asStr
  | _ => rfl

/-- Strings agree only if they are equal, tags included. -/
theorem Agree.eq_of_asStr : ∀ {v w : Value} {s : String}, Agree deep v w → v.asStr = some s → v = w
  | _, _, _, .tagged _ h, hs => by rw [h.eq_of_asStr hs]
  | _, _, _, .null, _ | _, _, _, .bool _, _ | _, _, _, .number _, _ | _, _, _, .string _, _ => rfl
  | _, _, _, .sequence _, hs | _, _, _, .mapping _, hs => nomatch hs

/-- Null agrees only with itself. -/
theorem Agree.eq_of_isNull : ∀ {v w : Value}, Agree deep v w → v.isNull = true → v = w
  | _, _, .tagged _ h, hn => by rw [h.eq_of_isNull hn]
  | _, _, .null, _ | _, _, .bool _, _ | _, _, .number _, _ | _, _, .string _, _ => rfl
  | _, _, .sequence _, hn | _, _, .mapping _, hn => nomatch hn

theorem AgreeKey.asStr {k l : Value} (h : AgreeKey deep k l) : k.asStr = l.asStr := by
  cases h with
  | same => rfl
  | inside _ h => exact h.asStr

/-- Without `deep`, keys agree only if they are equal. -/
theorem AgreeKey.eq : ∀ {k l : Value}, AgreeKey false k l → k = l
  | _, _, .same _ => rfl

theorem AgreeKey.eq_of_asStr {k l : Value} {s : String} (h : AgreeKey deep k l)
    (hs : k.asStr = some s) : k = l := by
  cases h with
  | same => rfl
  | inside _ h => exact h.eq_of_asStr hs

/-- Agreeing keys match the same strings. -/
theorem AgreeKey.beq_right {k l e : Value} {s : String} (h : AgreeKey deep k l)
    (he : e.asStr = some s) : k.beq e = l.beq e := by
  by_cases hk : k.asStr = some s
  · rw [h.eq_of_asStr hk]
  · have hl : l.asStr ≠ some s := by rwa [← h.asStr]
    have hno : ∀ {m : Value}, m.asStr ≠ some s → m.beq e = false := fun {m} hm => by
      by_contra hbeq
      exact hm ((Value.asStr_of_beq (by simpa using hbeq)).trans he)
    rw [hno hk, hno hl]

theorem AgreeUnder.agree_of_ne {k v w : Value} (h : AgreeUnder deep k v w)
    (hk : k.asStr ≠ some "password") : Agree deep v w := by
  cases h with
  | agree h => exact h
  | secret hk' => exact absurd hk' hk

theorem AgreeUnder.isNull {k v w : Value} (h : AgreeUnder deep k v w) : v.isNull = w.isNull := by
  cases h with
  | agree h => exact h.isNull
  | secret _ hv hw => rw [hv, hw]

theorem AgreeUnder.of_asStr {k l v w : Value} (h : AgreeUnder deep k v w)
    (hkl : k.asStr = l.asStr) : AgreeUnder deep l v w := by
  cases h with
  | agree h => exact .agree h
  | secret hk hv hw => exact .secret (hkl ▸ hk) hv hw

theorem AgreeEntries.append : ∀ {es es' fs fs' : Mapping}, AgreeEntries deep es fs →
    AgreeEntries deep es' fs' → AgreeEntries deep (es ++ es') (fs ++ fs')
  | _, _, _, _, .nil, h' => h'
  | _, _, _, _, .cons hk hv hs, h' => .cons hk hv (hs.append h')

/-- What two mappings have for one and the same string. -/
theorem AgreeEntries.find? {e : Value} {s : String} (he : e.asStr = some s) :
    ∀ {es fs : Mapping}, AgreeEntries deep es fs →
      ((es.find? fun o => o.1.beq e) = none ∧ (fs.find? fun o => o.1.beq e) = none) ∨
        ∃ k v w, (es.find? fun o => o.1.beq e) = some (k, v) ∧
          (fs.find? fun o => o.1.beq e) = some (k, w) ∧ AgreeUnder deep k v w
  | _, _, .nil => .inl ⟨rfl, rfl⟩
  | _, _, .cons (k := k) (l := l) (v := v) (w := w) hk hv hs => by
    have hbeq := hk.beq_right he
    cases h : k.beq e with
    | true =>
      have hkl : k = l := hk.eq_of_asStr ((Value.asStr_of_beq h).trans he)
      subst hkl
      right
      refine ⟨k, v, w, ?_, ?_, hv⟩ <;> rw [List.find?_cons, h]
    | false =>
      rw [List.find?_cons, List.find?_cons, h, ← hbeq, h]
      exact hs.find? he

/-- What two mappings hold under one string. -/
theorem AgreeEntries.get {es fs : Mapping} (h : AgreeEntries deep es fs) (key : String) :
    (Mapping.get es (.string key) = none ∧ Mapping.get fs (.string key) = none) ∨
      ∃ v w, Mapping.get es (.string key) = some v ∧ Mapping.get fs (.string key) = some w ∧
        AgreeUnder deep (.string key) v w := by
  have hget : ∀ m : Mapping,
      Mapping.get m (.string key) = (m.find? fun o => o.1.beq (.string key)).map Prod.snd := by
    intro m
    simp only [Mapping.get, Value.string_beq]
  rw [hget, hget]
  rcases h.find? (e := .string key) rfl with ⟨hes, hfs⟩ | ⟨k, v, w, hes, hfs, hvw⟩
  · rw [hes, hfs]
    exact .inl ⟨rfl, rfl⟩
  · rw [hes, hfs]
    have hk : k = .string key := Value.beq_string'.1 (by simpa using List.find?_some hes)
    exact .inr ⟨v, w, rfl, rfl, hk ▸ hvw⟩

theorem Agree.index {v w : Value} (h : Agree deep v w) (key : String) :
    AgreeUnder deep (.string key) (v.index key) (w.index key) := by
  rcases h.asMapping with ⟨hv, hw⟩ | ⟨es, fs, hv, hw, hef⟩
  · rw [Value.index, Value.index, hv, hw]
    exact .agree .null
  · rw [Value.index_of_asMapping hv, Value.index_of_asMapping hw]
    rcases hef.get key with ⟨hes, hfs⟩ | ⟨x, y, hes, hfs, hxy⟩
    · rw [hes, hfs]
      exact .agree .null
    · rw [hes, hfs]
      exact hxy

theorem Agree.index_of_ne {v w : Value} (h : Agree deep v w) {key : String}
    (hkey : key ≠ "password") : Agree deep (v.index key) (w.index key) :=
  (h.index key).agree_of_ne fun hk => hkey (Option.some.inj hk)

/-! ## Redaction -/

mutual

theorem Agree.redact : ∀ {v w : Value}, Agree false v w → redactPasswords v = redactPasswords w
  | _, _, .null | _, _, .bool _ | _, _, .number _ | _, _, .string _ => rfl
  | _, _, .sequence h => congrArg Value.sequence h.redact
  | _, _, .mapping h => congrArg Value.mapping h.redact
  | _, _, .tagged tag h => congrArg (Value.tagged tag) h.redact

theorem AgreeAll.redact : ∀ {vs ws : List Value}, AgreeAll false vs ws →
    redactAll vs = redactAll ws
  | _, _, .nil => rfl
  | _, _, .cons h hs => by rw [redactAll, redactAll, h.redact, hs.redact]

theorem AgreeUnder.redact : ∀ {k v w : Value}, AgreeUnder false k v w →
    redactValue k v = redactValue k w
  | _, _, _, .agree h => by rw [redactValue, redactValue, isSecret, isSecret, h.isNull, h.redact]
  | _, _, _, .secret hk hv hw => by
    rw [redactValue, redactValue, isSecret, isSecret, hk, hv, hw]
    rfl

theorem AgreeEntries.redact : ∀ {es fs : List (Value × Value)}, AgreeEntries false es fs →
    redactEntries es = redactEntries fs
  | _, _, .nil => rfl
  | _, _, .cons (.same k) hv hs => congrArg₂ (fun x y => (k, x) :: y) hv.redact hs.redact

end

mutual

/-- Documents that agree up to secrets anywhere, and whose redacted trees are equal, have the same
keys. -/
theorem Agree.shallow : ∀ {v w : Value}, Agree deep v w →
    redactPasswords v = redactPasswords w → Agree false v w
  | _, _, .null, _ => .null
  | _, _, .bool b, _ => .bool b
  | _, _, .number n, _ => .number n
  | _, _, .string s, _ => .string s
  | _, _, .sequence h, heq => .sequence (h.shallow (Value.sequence.inj heq))
  | _, _, .mapping h, heq => .mapping (h.shallow (Value.mapping.inj heq))
  | _, _, .tagged tag h, heq => .tagged tag (h.shallow (Value.tagged.inj heq).2)

theorem AgreeAll.shallow : ∀ {vs ws : List Value}, AgreeAll deep vs ws →
    redactAll vs = redactAll ws → AgreeAll false vs ws
  | _, _, .nil, _ => .nil
  | _, _, .cons h hs, heq => .cons (h.shallow (List.cons.inj heq).1) (hs.shallow (List.cons.inj heq).2)

theorem AgreeUnder.shallow : ∀ {k v w : Value}, AgreeUnder deep k v w →
    redactValue k v = redactValue k w → AgreeUnder false k v w
  | _, _, _, .secret hk hv hw, _ => .secret hk hv hw
  | k, v, w, .agree h, heq => by
    by_cases hsecret : isSecret k v = true
    · rw [isSecret, Bool.and_eq_true, beq_iff_eq, Bool.not_eq_true'] at hsecret
      exact .secret hsecret.1 hsecret.2 (h.isNull ▸ hsecret.2)
    · have hsecret' : isSecret k w = isSecret k v := by rw [isSecret, isSecret, h.isNull]
      rw [redactValue, redactValue, hsecret', if_neg hsecret, if_neg hsecret] at heq
      exact .agree (h.shallow heq)

theorem AgreeEntries.shallow : ∀ {es fs : List (Value × Value)}, AgreeEntries deep es fs →
    redactEntries es = redactEntries fs → AgreeEntries false es fs
  | _, _, .nil, _ => .nil
  | _, _, .cons _ hv hs, heq => by
    obtain ⟨hhead, htail⟩ := List.cons.inj heq
    obtain ⟨hkey, hvalue⟩ := Prod.mk.inj hhead
    subst hkey
    exact .cons (.same _) (hv.shallow hvalue) (hs.shallow htail)

end

mutual

theorem Agree.refl : ∀ v : Value, Agree deep v v
  | .null => .null
  | .bool b => .bool b
  | .number n => .number n
  | .string s => .string s
  | .sequence vs => .sequence (AgreeAll.refl vs)
  | .mapping es => .mapping (AgreeEntries.refl es)
  | .tagged tag v => .tagged tag (Agree.refl v)

theorem AgreeAll.refl : ∀ vs : List Value, AgreeAll deep vs vs
  | [] => .nil
  | v :: vs => .cons (Agree.refl v) (AgreeAll.refl vs)

theorem AgreeEntries.refl : ∀ es : List (Value × Value), AgreeEntries deep es es
  | [] => .nil
  | (k, v) :: es => .cons (.same k) (.agree (Agree.refl v)) (AgreeEntries.refl es)

end

/-! ## Merging -/

/-- A tree that documents are merged into: its keys are strings, it has no tags, and redaction
leaves it as it is. -/
structure Base (v : Value) : Prop where
  builtIn : builtIn v = true
  wf : v.wf = true
  bare : Bare v

theorem base_defaults : Base defaults := ⟨builtIn_defaults, wf_defaults, bare_defaults⟩

theorem builtInEntries_of_mem : ∀ {m : Mapping} {e : Value × Value}, builtInEntries m = true →
    e ∈ m → (∃ s, e.1.asStr = some s) ∧ Config.builtIn e.2 = true
  | (k, v) :: m, e, h, he => by
    simp only [builtInEntries, Bool.and_eq_true] at h
    rcases List.mem_cons.1 he with rfl | he
    · exact ⟨Option.isSome_iff_exists.1 h.1.1, h.1.2⟩
    · exact builtInEntries_of_mem h.2 he

/-- An entry of a base: a string, and a base unless it is a secret. -/
structure BaseEntry (e : Value × Value) : Prop where
  key : ∃ s, e.1.asStr = some s
  builtIn : Config.builtIn e.2 = true
  wf : e.2.wf = true
  bare : redactEntry e = e

theorem Base.entry {v : Value} (h : Base v) {m : Mapping} (hm : v.asMapping = some m)
    {e : Value × Value} (he : e ∈ m) : BaseEntry e := by
  have hentries : builtInEntries m = true := by
    have hb := h.builtIn
    cases v with
    | mapping es =>
      obtain rfl := Option.some.inj hm
      exact hb
    | tagged => cases hb
    | _ => cases hm
  obtain ⟨hkey, hbuiltIn⟩ := builtInEntries_of_mem hentries he
  exact ⟨hkey, hbuiltIn, (Value.wfEntries_of_mem (Value.wf_of_asMapping h.wf hm) he).2,
    h.bare.entry hm he⟩

/-- The value of an entry that is not a secret is a base itself. -/
theorem BaseEntry.base {e : Value × Value} (h : BaseEntry e) (hne : e.1.asStr ≠ some "password") :
    Base e.2 := by
  refine ⟨h.builtIn, h.wf, ?_⟩
  have hv : redactValue e.1 e.2 = e.2 := congrArg Prod.snd h.bare
  rwa [redactValue_of_ne hne] at hv

/-- Merging keeps agreement with `v`, and pushes the same warnings. -/
def MergeAgrees (deep : Bool) (v : Value) : Prop :=
  ∀ (w base : Value) (path : String), Agree deep v w → Base base → v.wf = true → w.wf = true →
    Agree deep (deepMerge base v path).1 (deepMerge base w path).1 ∧
      (deepMerge base v path).2 = (deepMerge base w path).2

theorem agreeUnder_merge {e : Value × Value} {k v w : Value} (path : String) (he : BaseEntry e)
    (hke : k.beq e.1 = true) (h : AgreeUnder deep k v w) (hv : v.wf = true) (hw : w.wf = true)
    (ih : MergeAgrees deep v) :
    AgreeUnder deep e.1 (deepMerge e.2 v path).1 (deepMerge e.2 w path).1 ∧
      (deepMerge e.2 v path).2 = (deepMerge e.2 w path).2 := by
  have hstr : k.asStr = e.1.asStr := Value.asStr_of_beq hke
  by_cases hsecret : e.1.asStr = some "password"
  · -- a value under `password` is replaced, not merged
    have hnot : e.2.isMapping = false := isMapping_of_secret he.bare hsecret
    have hreplace : ∀ x, deepMerge e.2 x path = (x, []) := fun x =>
      deepMerge_of_not_mapping (by rw [hnot, Bool.false_and])
    rw [hreplace, hreplace]
    exact ⟨h.of_asStr hstr, rfl⟩
  · obtain ⟨hmerged, hwarn⟩ := ih w e.2 path (h.agree_of_ne (hstr ▸ hsecret)) (he.base hsecret) hv hw
    exact ⟨.agree hmerged, hwarn⟩

theorem agreeUnder_mergedEntry {es fs : Mapping} {e : Value × Value} (path : String)
    (h : AgreeEntries deep es fs) (he : BaseEntry e) (hes : ∀ o ∈ es, o.2.wf = true)
    (hfs : ∀ o ∈ fs, o.2.wf = true) (ih : ∀ o ∈ es, MergeAgrees deep o.2) :
    AgreeUnder deep e.1 (mergedEntry es path e).2 (mergedEntry fs path e).2 := by
  obtain ⟨s, hs⟩ := he.key
  rw [mergedEntry, mergedEntry]
  rcases h.find? hs with ⟨hnone, hnone'⟩ | ⟨k, v, w, hsome, hsome', hvw⟩
  · rw [hnone, hnone']
    exact .agree (.refl _)
  · rw [hsome, hsome']
    have hmem := List.mem_of_find?_eq_some hsome
    have hke : k.beq e.1 = true := by simpa using List.find?_some hsome
    exact (agreeUnder_merge _ he hke hvw (hes _ hmem)
      (hfs _ (List.mem_of_find?_eq_some hsome')) (ih _ hmem)).1

/-- The entries of the base, merged with agreeing overlays. -/
theorem agreeEntries_merged {es fs : Mapping} (path : String) (h : AgreeEntries deep es fs)
    (hes : ∀ o ∈ es, o.2.wf = true) (hfs : ∀ o ∈ fs, o.2.wf = true)
    (ih : ∀ o ∈ es, MergeAgrees deep o.2) : ∀ {old : Mapping}, (∀ e ∈ old, BaseEntry e) →
    AgreeEntries deep (old.map (mergedEntry es path)) (old.map (mergedEntry fs path))
  | [], _ => .nil
  | e :: old, hold => by
    rw [List.forall_mem_cons] at hold
    have hhead := agreeUnder_mergedEntry path h hold.1 hes hfs ih
    have htail := agreeEntries_merged path h hes hfs ih hold.2
    rw [List.map_cons, List.map_cons]
    have hes' : mergedEntry es path e = (e.1, (mergedEntry es path e).2) :=
      Prod.ext (mergedEntry_fst es path e) rfl
    have hfs' : mergedEntry fs path e = (e.1, (mergedEntry fs path e).2) :=
      Prod.ext (mergedEntry_fst fs path e) rfl
    rw [hes', hfs']
    exact .cons (.same _) hhead htail

theorem agree_withMapping {es fs : Mapping} : ∀ v : Value, AgreeEntries deep es fs →
    Agree deep (v.withMapping es) (v.withMapping fs)
  | .tagged tag v, h => .tagged tag (agree_withMapping v h)
  | .null, h | .bool _, h | .number _, h | .string _, h | .sequence _, h | .mapping _, h =>
    .mapping h

theorem get_of_agreeKey {old : Mapping} (hold : ∀ e ∈ old, BaseEntry e) {k l : Value}
    (h : AgreeKey deep k l) : Mapping.get old k = Mapping.get old l :=
  Mapping.get_congr fun e he => h.beq_right (hold e he).key.choose_spec

/-- The overlay's new entries. -/
theorem agreeEntries_new {old : Mapping} (hold : ∀ e ∈ old, BaseEntry e) :
    ∀ {es fs : Mapping}, AgreeEntries deep es fs →
      AgreeEntries deep (es.filter fun o => (Mapping.get old o.1).isNone)
        (fs.filter fun o => (Mapping.get old o.1).isNone)
  | _, _, .nil => .nil
  | _, _, .cons (k := k) (l := l) hk hv hs => by
    rw [List.filter_cons, List.filter_cons, get_of_agreeKey hold hk]
    split
    · exact .cons hk hv (agreeEntries_new hold hs)
    · exact agreeEntries_new hold hs

theorem warnings_of_agree {old : Mapping} {path : String} (hold : ∀ e ∈ old, BaseEntry e)
    {es : Mapping} : ∀ {fs : Mapping}, AgreeEntries deep es fs → (∀ o ∈ es, o.2.wf = true) →
      (∀ o ∈ fs, o.2.wf = true) → (∀ o ∈ es, MergeAgrees deep o.2) →
      es.flatMap (entryWarnings old path) = fs.flatMap (entryWarnings old path) := by
  induction es with
  | nil =>
    intro fs h _ _ _
    cases h
    rfl
  | cons e es ihes =>
    intro fs h hes hfs ih
    cases h with
    | cons hk hv hs =>
      rename_i k l v w fs
      rw [List.forall_mem_cons] at hes hfs ih
      rw [List.flatMap_cons, List.flatMap_cons, ihes hs hes.2 hfs.2 ih.2]
      congr 1
      rw [entryWarnings, entryWarnings, get_of_agreeKey hold hk]
      have hname : keyName k = keyName l := by rw [keyName, keyName, hk.asStr]
      cases hget : Mapping.get old l with
      | none => rw [hname]
      | some x =>
        obtain ⟨e, he, hbeq, rfl⟩ := Mapping.mem_of_get hget
        obtain ⟨s, hs⟩ := (hold e he).key
        dsimp only
        rw [hname]
        exact (agreeUnder_merge _ (hold e he) ((hk.beq_right hs).trans hbeq) hv hes.1 hfs.1 ih.1).2

/-- **Agreeing documents agree after the merge**, and the merge warns about the same keys. -/
theorem agree_deepMerge (v : Value) : MergeAgrees deep v := by
  intro w base
  induction base, v using deepMerge_induction generalizing w with
  | taken base v hnot =>
    intro path h _ _ _
    rw [deepMerge_of_not_mapping hnot, deepMerge_of_not_mapping (by rw [← h.isMapping, hnot])]
    exact ⟨h, rfl⟩
  | merged base v old es hold hes ih =>
    intro path h hbase hv hw
    obtain ⟨fs, hfs, hef⟩ := h.entries hes
    have heswf := Value.wf_of_asMapping hv hes
    have hfswf := Value.wf_of_asMapping hw hfs
    have hentry : ∀ e ∈ old, BaseEntry e := fun e he => hbase.entry hold he
    have hes' : ∀ o ∈ es, o.2.wf = true := fun o ho => (Value.wfEntries_of_mem heswf ho).2
    have hfs' : ∀ o ∈ fs, o.2.wf = true := fun o ho => (Value.wfEntries_of_mem hfswf ho).2
    have hd := Mapping.distinct_of_wf (Value.wf_of_asMapping hbase.wf hold)
    have hmerge : ∀ o ∈ es, MergeAgrees deep o.2 := fun o ho w b => ih o ho b w
    rw [deepMerge_of_mapping base _ path hold hes, deepMerge_of_mapping base _ path hold hfs,
      mergeEntries_eq path hd (Mapping.distinct_of_wf heswf),
      mergeEntries_eq path hd (Mapping.distinct_of_wf hfswf)]
    refine ⟨?_, warnings_of_agree hentry hef hes' hfs' hmerge⟩
    exact agree_withMapping base
      ((agreeEntries_merged path hef hes' hfs' hmerge hentry).append (agreeEntries_new hentry hef))

/-- Agreeing documents are merged into agreeing trees, with the same warnings. -/
theorem agree_mergeDefaults {v w : Value} (h : Agree deep v w) (hv : v.wf = true)
    (hw : w.wf = true) :
    Agree deep (mergeDefaults defaults v).1 (mergeDefaults defaults w).1 ∧
      (mergeDefaults defaults v).2 = (mergeDefaults defaults w).2 := by
  rw [mergeDefaults, mergeDefaults, h.isNull]
  split
  · exact ⟨.refl _, rfl⟩
  · exact agree_deepMerge v w defaults "" h base_defaults hv hw

/-! ## The merge hides nothing -/

theorem AgreeEntries.length : ∀ {es fs : Mapping}, AgreeEntries deep es fs → es.length = fs.length
  | _, _, .nil => rfl
  | _, _, .cons _ _ hs => congrArg (· + 1) hs.length

theorem AgreeEntries.of_append : ∀ {es es' fs fs' : Mapping}, es.length = es'.length →
    AgreeEntries deep (es ++ fs) (es' ++ fs') → AgreeEntries deep es es' ∧ AgreeEntries deep fs fs'
  | [], [], _, _, _, h => ⟨.nil, h⟩
  | e :: es, e' :: es', _, _, hlen, h => by
    cases h with
    | cons hk hv hs =>
      obtain ⟨hes, hfs⟩ := hs.of_append (Nat.succ.inj hlen)
      exact ⟨.cons hk hv hes, hfs⟩

theorem agreeEntries_of_withMapping {es fs : Mapping} : ∀ v : Value,
    Agree deep (v.withMapping es) (v.withMapping fs) → AgreeEntries deep es fs
  | .tagged _ v, .tagged _ h => agreeEntries_of_withMapping v h
  | .null, .mapping h | .bool _, .mapping h | .number _, .mapping h | .string _, .mapping h
  | .sequence _, .mapping h | .mapping _, .mapping h => h

theorem agreeUnder_of_map {f g : Value × Value → Value × Value} (hf : ∀ e, (f e).1 = e.1) :
    ∀ {old : Mapping}, AgreeEntries deep (old.map f) (old.map g) →
      ∀ e ∈ old, AgreeUnder deep e.1 (f e).2 (g e).2
  | d :: old, h, e, he => by
    rw [List.map_cons, List.map_cons] at h
    generalize hfd : f d = x, hgd : g d = y at h
    cases h with
    | cons hk hv hs =>
      rcases List.mem_cons.1 he with rfl | he
      · rw [hfd, hgd, ← hf e, hfd]
        exact hv
      · exact agreeUnder_of_map hf hs e he

/-- Agreement after the merge without `deep` goes back to agreement of `v` itself. -/
def MergeReflects (deep : Bool) (v : Value) : Prop :=
  ∀ (w base : Value) (path : String), Agree deep v w → Base base → v.wf = true → w.wf = true →
    Agree false (deepMerge base v path).1 (deepMerge base w path).1 → Agree false v w

theorem agreeUnder_of_merge {e : Value × Value} {k v w : Value} {path : String}
    (he : BaseEntry e) (hke : k.beq e.1 = true) (h : AgreeUnder deep k v w) (hv : v.wf = true)
    (hw : w.wf = true) (ih : MergeReflects deep v)
    (hmerged : AgreeUnder false e.1 (deepMerge e.2 v path).1 (deepMerge e.2 w path).1) :
    AgreeUnder false k v w := by
  have hstr : k.asStr = e.1.asStr := Value.asStr_of_beq hke
  by_cases hsecret : e.1.asStr = some "password"
  · have hnot : e.2.isMapping = false := isMapping_of_secret he.bare hsecret
    have hreplace : ∀ x, deepMerge e.2 x path = (x, []) := fun x =>
      deepMerge_of_not_mapping (by rw [hnot, Bool.false_and])
    rw [hreplace, hreplace] at hmerged
    exact hmerged.of_asStr hstr.symm
  · exact .agree (ih w e.2 path (h.agree_of_ne (hstr ▸ hsecret)) (he.base hsecret) hv hw
      (hmerged.agree_of_ne hsecret))

/-- The entries of two overlays, from what the merge makes of the known ones and from the new
ones. -/
theorem agreeEntries_of_merged {old : Mapping} (path : String) (hold : ∀ e ∈ old, BaseEntry e) :
    ∀ {es fs : Mapping}, AgreeEntries deep es fs → (∀ o ∈ es, o.2.wf = true) →
      (∀ o ∈ fs, o.2.wf = true) → (∀ o ∈ es, MergeReflects deep o.2) →
      (∀ e ∈ old, ∀ o ∈ es, ∀ o' ∈ fs, o.1.beq e.1 = true → o'.1.beq e.1 = true →
        AgreeUnder false e.1 (deepMerge e.2 o.2 (joinPath path (keyName o.1))).1
          (deepMerge e.2 o'.2 (joinPath path (keyName o'.1))).1) →
      AgreeEntries false (es.filter fun o => (Mapping.get old o.1).isNone)
        (fs.filter fun o => (Mapping.get old o.1).isNone) →
      AgreeEntries false es fs
  | _, _, .nil, _, _, _, _, _ => .nil
  | _, _, .cons (k := k) (l := l) (v := v) (w := w) hk hv hs, hes, hfs, ih, hknown, hnew => by
    rw [List.forall_mem_cons] at hes hfs ih
    have htail := agreeEntries_of_merged path hold hs hes.2 hfs.2 ih.2
      fun e he o ho o' ho' => hknown e he o (List.mem_cons_of_mem _ ho) o'
        (List.mem_cons_of_mem _ ho')
    rw [List.filter_cons, List.filter_cons, get_of_agreeKey hold hk] at hnew
    cases hget : Mapping.get old l with
    | none =>
      rw [hget] at hnew
      cases hnew with
      | cons hk' hv' hs' => exact .cons hk' hv' (htail hs')
    | some x =>
      rw [hget] at hnew
      obtain ⟨e, he, hbeq, -⟩ := Mapping.mem_of_get hget
      obtain ⟨s, hs'⟩ := (hold e he).key
      have hke : k.beq e.1 = true := (hk.beq_right hs').trans hbeq
      obtain rfl := hk.eq_of_asStr ((Value.asStr_of_beq hke).trans hs')
      have hmerged := hknown e he _ List.mem_cons_self _ List.mem_cons_self hke hbeq
      exact .cons (.same k) (agreeUnder_of_merge (hold e he) hke hv hes.1 hfs.1 ih.1 hmerged)
        (htail hnew)

theorem agree_of_deepMerge (v : Value) : MergeReflects deep v := by
  intro w base
  induction base, v using deepMerge_induction generalizing w with
  | taken base v hnot =>
    intro path h _ _ _ hmerged
    rwa [deepMerge_of_not_mapping hnot,
      deepMerge_of_not_mapping (by rw [← h.isMapping, hnot])] at hmerged
  | merged base v old es hold hes ih =>
    intro path h hbase hv hw hmerged
    obtain ⟨fs, hfs, hef⟩ := h.entries hes
    have heswf := Value.wf_of_asMapping hv hes
    have hfswf := Value.wf_of_asMapping hw hfs
    have hentry : ∀ e ∈ old, BaseEntry e := fun e he => hbase.entry hold he
    have holdwf := Value.wf_of_asMapping hbase.wf hold
    have hd := Mapping.distinct_of_wf holdwf
    have hdes := Mapping.distinct_of_wf heswf
    have hdfs := Mapping.distinct_of_wf hfswf
    rw [deepMerge_of_mapping base _ path hold hes, deepMerge_of_mapping base _ path hold hfs,
      mergeEntries_eq path hd hdes, mergeEntries_eq path hd hdfs] at hmerged
    obtain ⟨hknown, hnew⟩ := (agreeEntries_of_withMapping base hmerged).of_append (by simp)
    refine h.of_entries hes hfs (agreeEntries_of_merged path hentry hef
      (fun o ho => (Value.wfEntries_of_mem heswf ho).2)
      (fun o ho => (Value.wfEntries_of_mem hfswf ho).2) (fun o ho w b => ih o ho b w) ?_ hnew)
    intro e he o ho o' ho' hoe hoe'
    have hewf := (Value.wfEntries_of_mem holdwf he).1
    have := agreeUnder_of_map (mergedEntry_fst es path) hknown e he
    rwa [mergedEntry_of_mem hdes hewf ho hoe, mergedEntry_of_mem hdfs hewf ho' hoe'] at this

/-- **The redacted merged trees are equal exactly if the documents have the same keys.** -/
theorem redact_mergeDefaults_eq_iff {v w : Value} (h : Agree deep v w) (hv : v.wf = true)
    (hw : w.wf = true) :
    redactPasswords (mergeDefaults defaults v).1 = redactPasswords (mergeDefaults defaults w).1 ↔
      Agree false v w := by
  refine ⟨fun heq => ?_, fun h' => (agree_mergeDefaults h' hv hw).1.redact⟩
  have hmerged := (agree_mergeDefaults h hv hw).1.shallow heq
  by_cases hnull : v.isNull = true
  · rw [← h.eq_of_isNull hnull]
    exact .refl v
  · rw [mergeDefaults, mergeDefaults, ← h.isNull, if_neg hnull, if_neg hnull] at hmerged
    exact agree_of_deepMerge v w defaults "" h base_defaults hv hw hmerged

end Config
end SystemReport
