import SystemReport.Config.Print
import SystemReport.Lib.JsonPath

/-!
# Reading what is printed

What `--print-config` writes is read back path by path: a path of names leads to the setting that is
in effect there, as JSON, and to the placeholder where a password is (`shown_of_printConfig`).
-/

set_option autoImplicit false

open Yaml

namespace SystemReport
namespace Config

open Json (IsName FloatText)

/-! ## Redaction, path by path -/

theorem spelledAt_redact_name {key : String} (hkey : key ≠ "password") (path : List String)
    (ih : ∀ v : Value, (redactPasswords v).spelledAt path = (v.spelledAt path).map redactPasswords)
    (v : Value) :
    (redactPasswords v).spelledAt (key :: path) =
      (v.spelledAt (key :: path)).map redactPasswords := by
  have hvalue : ∀ w, redactValue (.string key) w = redactPasswords w := fun w =>
    redactValue_of_ne fun h => hkey (Option.some.inj h)
  cases v with
  | mapping es =>
    rw [redactPasswords, redactEntries_eq_map, Value.spelledAt, Value.spelledAt, get_redact]
    cases Mapping.get es (.string key) with
    | none => rfl
    | some w =>
      rw [Option.map_some, Option.bind_some, Option.bind_some, hvalue]
      exact ih w
  | tagged tag v =>
    rw [redactPasswords, Value.spelledAt, Value.spelledAt]
    split
    · exact ih v
    · rfl
  | null | bool | number | string | sequence => rfl

/-- A path that does not name a password leads to what was there, redacted. -/
theorem spelledAt_redact {path : List String} (hpath : "password" ∉ path) : ∀ v : Value,
    (redactPasswords v).spelledAt path = (v.spelledAt path).map redactPasswords := by
  induction path with
  | nil => exact fun _ => rfl
  | cons key path ih =>
    rw [List.mem_cons, not_or] at hpath
    exact spelledAt_redact_name (Ne.symm hpath.1) path (ih hpath.2)

/-- A path that ends at a password leads to the placeholder. -/
theorem spelledAt_password {path : List String} (hpath : "password" ∉ path) (v : Value) :
    (redactPasswords v).spelledAt (path ++ ["password"]) =
      (v.spelledAt (path ++ ["password"])).map (redactValue (.string "password")) := by
  rw [Value.spelledAt_append, Value.spelledAt_append, spelledAt_redact hpath]
  cases v.spelledAt path with
  | none => rfl
  | some w =>
    rw [Option.map_some, Option.bind_some, Option.bind_some]
    cases w with
    | mapping es =>
      rw [redactPasswords, redactEntries_eq_map, Value.spelledAt, Value.spelledAt, get_redact]
      cases Mapping.get es (.string "password") <;> rfl
    | tagged tag w =>
      have hne : "password" ≠ "!" ++ tag := by simp [← String.toList_inj]
      simp only [redactPasswords, Value.spelledAt, if_neg hne, Option.map_none]
    | null | bool | number | string | sequence => rfl

/-! ## The printed text -/

/-- The JSON of a configuration shows its settings, and hides its passwords. -/
structure Shows (floatText : ℚ → String) (cfg : Config) (json : Json) : Prop where
  /-- A path leads to the setting in effect, in which passwords are redacted. -/
  setting : ∀ path : List String, (∀ key ∈ path, IsName key) → "password" ∉ path →
    json.at path = (cfg.data.spelledAt path).bind fun v => (redactPasswords v).toJson floatText
  /-- At the end of a path, a password is not shown, unless it is null. -/
  password : ∀ path : List String, (∀ key ∈ path, IsName key) → "password" ∉ path →
    json.at (path ++ ["password"]) = (cfg.data.spelledAt (path ++ ["password"])).bind fun v =>
      if v.isNull then (redactPasswords v).toJson floatText else some (.string redactedText)

theorem shown_of_printConfig {write : Json → String} (hwrite : Json.RoundTrips write)
    {floatText : ℚ → String} (hfloat : ∀ q, FloatText (floatText q)) {cfg : Config} {json : Json}
    (h : cfg.printConfig floatText = .ok json) :
    Json.parse (write json) = some json ∧ Shows floatText cfg json := by
  have hjson : (redactPasswords cfg.data).toJson floatText = some json := Outcome.unwrap_eq_ok.1 h
  refine ⟨hwrite json (Value.numeric_toJson hfloat hjson), ?_, ?_⟩
  · intro path hnames hpath
    rw [Value.at_toJson hfloat hnames hjson, spelledAt_redact hpath, Option.bind_map]
    rfl
  · intro path hnames hpath
    have hnames' : ∀ key ∈ path ++ ["password"], IsName key := by
      intro key hkey
      rcases List.mem_append.1 hkey with hkey | hkey
      · exact hnames key hkey
      · rw [List.mem_singleton.1 hkey]
        rfl
    rw [Value.at_toJson hfloat hnames' hjson, spelledAt_password hpath, Option.bind_map]
    refine congrArg _ (funext fun v => ?_)
    rw [Function.comp_apply, redactValue, isSecret]
    cases v.isNull <;> rfl

end Config
end SystemReport
