import SystemReport.Config.Defaults
import SystemReport.Config.Template

/-!
# Validation

`validate_shape` and `validate` in `src/config.rs`.  The shape of a valid configuration is read off
the built-in defaults: every key that the defaults have is checked against the default's type.

`validateShape_field` takes the check of the whole tree apart into the checks of its fields, and
`Shaped` says what they leave at a path.
-/

set_option autoImplicit false

open Yaml

namespace SystemReport
namespace Config

/-! ## The checks -/

/-- `dig`: follow a dotted path. -/
def dig (data : Value) (path : String) : Value := (Text.split path '.').foldl Value.index data

/-- The bounds of the integer at a path. -/
def bounds (path : String) : ℕ × ℕ :=
  if path = "mqtt.port" then (1, 65535)
  else if path = "mqtt.keepalive_secs" then (5, 65535)
  else if path = "mqtt.qos" then (0, 2)
  else if path = "mqtt.recreate_client_after_secs" ∨ path = "mqtt.max_queued_messages" then
    (0, 18446744073709551615)
  else (1, 18446744073709551615)

/-- A string that is not blank. -/
def isText (v : Value) : Bool := v.asStr.any fun s => !Text.isBlank s

/-- What `validate_shape` demands of a value whose default is not a mapping. -/
def fits (path : String) (value : Value) : (default : Value) → Bool
  | .null => value.isNull || isText value
  | .bool _ => value.isBool
  | .number (.float _) => value.asF64.any fun n => n.isFinite && F64.le (.ofRat (1 / 10)) n
  | .number _ =>
    value.asU64.any fun n => decide ((bounds path).1 ≤ n.toNat ∧ n.toNat ≤ (bounds path).2)
  | .string _ =>
    -- `password_env` is a nullable string despite its default
    (path == "mqtt.password_env" && value.isNull) ||
      value.asStr.any fun s => path == "topics.prefix" || !Text.isBlank s
  | .sequence _ => value.asSequence.any fun vs => !vs.isEmpty && vs.all isText
  | _ => false

/-- What `validate_shape` says about a value that does not fit. -/
def expected (path : String) : (default : Value) → String
  | .null => "expected a non-empty string or null"
  | .bool _ => "expected true/false"
  | .number (.float _) => "expected a finite number >= 0.1"
  | .number _ =>
    "expected an integer in " ++ toString (bounds path).1 ++ "..=" ++ toString (bounds path).2
  | .string _ => "expected a non-empty string"
  | .sequence _ => "expected a non-empty list of non-empty field names"
  | _ => "expected a mapping"

mutual

/-- `validate_shape`. -/
def validateShape : (value default : Value) → (path : String) → Outcome ConfigError PUnit
  | value, .mapping entries, path =>
    if value.isMapping then validateEntries value entries path
    else .err (fail path (expected path (.mapping entries)))
  -- `unreachable!("built-in defaults contain no YAML tags")`
  | _, .tagged _ _, _ => .panicked
  | value, default, path => .ensure (fits path value default) (fail path (expected path default))

/-- The loop over the entries of a default mapping. -/
def validateEntries : (value : Value) → (entries : List (Value × Value)) → (path : String) →
    Outcome ConfigError PUnit
  | _, [], _ => .ok ⟨⟩
  | value, (key, default) :: rest, path => do
    let key ← .unwrap key.asStr
    validateShape (value.index key) default (joinPath path key)
    validateEntries value rest path

end

/-- `<` of two options: `None` comes first. -/
def optionLt : Option UInt64 → Option UInt64 → Bool
  | some a, some b => decide (a < b)
  | none, some _ => true
  | _, none => false

/-- The checks of `validate` that are about more than the type of a field. -/
def crossChecks (data : Value) : Outcome ConfigError PUnit := do
  .ensure (!optionLt ((data.index "mqtt").index "reconnect_max_delay_secs").asU64
      ((data.index "mqtt").index "reconnect_min_delay_secs").asU64)
    (fail "mqtt.reconnect_max_delay_secs" "must be >= mqtt.reconnect_min_delay_secs")
  .forEach (fun key => do
      let topic ← .unwrap (dig data key).asStr
      checkTopic topic key)
    ["topics.status", "topics.json", "metrics.uptime_minutes.topic", "metrics.meminfo.topic"]
  let topic ← .unwrap (dig data "metrics.meminfo.topic").asStr
  .ensure (Text.contains topic "\x7bname\x7d")
    (fail "metrics.meminfo.topic" "must contain \x7bname\x7d so each field gets its own topic")
  .forEach (fun (part, first, second) =>
      .ensure (!((dig data first).asBool == some false && (dig data second).asBool == some false))
        (fail part "both outputs are disabled; nothing would be reported"))
    [("metrics", "metrics.uptime_minutes.enabled", "metrics.meminfo.enabled"),
      ("report", "report.publish_plain", "report.publish_json")]

/-- `validate`. -/
def validate (data defaults : Value) : Outcome ConfigError PUnit := do
  validateShape data defaults ""
  crossChecks data

/-! ## Built-in trees -/

mutual

/-- A tree of defaults: its keys are strings and it has no tags. -/
def builtIn : Value → Bool
  | .mapping es => builtInEntries es
  | .tagged _ _ => false
  | _ => true

def builtInEntries : List (Value × Value) → Bool
  | [] => true
  | (key, v) :: es => key.asStr.isSome && builtIn v && builtInEntries es

end

theorem builtIn_defaults : builtIn defaults = true := by decide

mutual

/-- Against a built-in tree, the `expect` and the `unreachable!` are never hit. -/
theorem validateShape_ne_panicked : ∀ (value : Value) {default : Value} (path : String),
    builtIn default = true → validateShape value default path ≠ .panicked
  | value, .mapping entries, path, h => by
    rw [validateShape]
    split
    · exact validateEntries_ne_panicked value path h
    · exact nofun
  | _, .null, _, _ | _, .bool _, _, _ | _, .number _, _, _ | _, .string _, _, _
  | _, .sequence _, _, _ => Outcome.ensure_ne_panicked _ _

theorem validateEntries_ne_panicked : ∀ (value : Value) {entries : List (Value × Value)}
    (path : String), builtInEntries entries = true →
    validateEntries value entries path ≠ .panicked
  | _, [], _, _ => nofun
  | value, (key, default) :: rest, path, h => by
    simp only [builtInEntries, Bool.and_eq_true] at h
    obtain ⟨⟨hkey, hdefault⟩, hrest⟩ := h
    obtain ⟨s, hs⟩ := Option.isSome_iff_exists.1 hkey
    rw [validateEntries, hs, Outcome.unwrap_some, Outcome.ok_bind]
    exact Outcome.bind_ne_panicked
      (validateShape_ne_panicked _ _ hdefault) fun _ _ =>
        validateEntries_ne_panicked value path hrest

end

/-! ## What the check of a tree says about a field -/

theorem validateEntries_eq_ok {value : Value} {path : String} : ∀ {entries : Mapping},
    validateEntries value entries path = .ok ⟨⟩ ↔ ∀ e ∈ entries, ∃ key, e.1.asStr = some key ∧
      validateShape (value.index key) e.2 (joinPath path key) = .ok ⟨⟩
  | [] => ⟨fun _ _ h => absurd h List.not_mem_nil, fun _ => rfl⟩
  | (key, default) :: rest => by
    rw [List.forall_mem_cons, ← validateEntries_eq_ok, validateEntries]
    cases hkey : key.asStr with
    | none => exact ⟨nofun, fun ⟨⟨_, h, _⟩, _⟩ => nomatch h⟩
    | some s =>
      rw [Outcome.unwrap_some, Outcome.ok_bind, Outcome.bind_eq_ok]
      constructor
      · rintro ⟨_, h, hrest⟩
        exact ⟨⟨s, rfl, h⟩, hrest⟩
      · rintro ⟨⟨_, hs, h⟩, hrest⟩
        obtain rfl := Option.some.inj hs
        exact ⟨⟨⟩, h, hrest⟩

theorem validateShape_mapping {value : Value} {entries : Mapping} {path : String} :
    validateShape value (.mapping entries) path = .ok ⟨⟩ ↔
      value.isMapping = true ∧ validateEntries value entries path = .ok ⟨⟩ := by
  rw [validateShape]
  split
  · rename_i h
    simp [h]
  · rename_i h
    exact ⟨nofun, fun h' => absurd h'.1 h⟩

/-- The default of the field that a list of keys leads to. -/
def fieldAt : (default : Value) → List String → Option Value
  | default, [] => some default
  | .mapping es, key :: keys =>
    (es.find? fun e => e.1.asStr == some key).bind fun e => fieldAt e.2 keys
  | _, _ :: _ => none

/-- **Every field is checked against its own default**, wherever it is in the tree. -/
theorem validateShape_field : ∀ (keys : List String) {value default field : Value} {path : String},
    validateShape value default path = .ok ⟨⟩ → fieldAt default keys = some field →
    validateShape (keys.foldl Value.index value) field (keys.foldl joinPath path) = .ok ⟨⟩
  | [], _, _, _, _, h, hfield => by
    obtain rfl := Option.some.inj hfield
    exact h
  | key :: keys, value, default, field, path, h, hfield => by
    cases default with
    | mapping es =>
      obtain ⟨e, he, hrest⟩ := Option.bind_eq_some_iff.1 hfield
      have hkey : e.1.asStr = some key := by simpa using List.find?_some he
      obtain ⟨_, hkey', hshape⟩ :=
        validateEntries_eq_ok.1 (validateShape_mapping.1 h).2 e (List.mem_of_find?_eq_some he)
      obtain rfl := Option.some.inj (hkey'.symm.trans hkey)
      exact validateShape_field keys hshape hrest
    | _ => cases hfield

/-- A tree that has passed `validate_shape`. -/
def Shaped (data : Value) : Prop := validateShape data defaults "" = .ok ⟨⟩

namespace Shaped

variable {data : Value}

theorem bool (h : Shaped data) (keys : List String) {b : Bool}
    (hfield : fieldAt defaults keys = some (.bool b)) :
    ∃ b', (keys.foldl Value.index data).asBool = some b' := by
  have hfits := Outcome.ensure_eq_ok.1 (validateShape_field keys h hfield)
  exact Option.isSome_iff_exists.1 hfits

theorem u64 (h : Shaped data) (keys : List String) {n : UInt64}
    (hfield : fieldAt defaults keys = some (int n)) :
    ∃ n', (keys.foldl Value.index data).asU64 = some n' ∧
      (bounds (keys.foldl joinPath "")).1 ≤ n'.toNat ∧
      n'.toNat ≤ (bounds (keys.foldl joinPath "")).2 := by
  have hfits := Outcome.ensure_eq_ok.1 (validateShape_field keys h hfield)
  obtain ⟨n', hn, hbounds⟩ := (Option.any_eq_true _ _).1 hfits
  exact ⟨n', hn, by simpa using hbounds⟩

theorem f64 (h : Shaped data) (keys : List String) {f : F64}
    (hfield : fieldAt defaults keys = some (.number (.float f))) :
    ∃ f', (keys.foldl Value.index data).asF64 = some f' ∧ f'.isFinite = true ∧
      F64.le (.ofRat (1 / 10)) f' = true := by
  have hfits := Outcome.ensure_eq_ok.1 (validateShape_field keys h hfield)
  obtain ⟨f', hf, hrange⟩ := (Option.any_eq_true _ _).1 hfits
  exact ⟨f', hf, by simpa using hrange⟩

/-- A field with a string as default is a string, and not blank, except that `password_env` may be
null and the topic prefix blank. -/
theorem text (h : Shaped data) (keys : List String) {s : String}
    (hfield : fieldAt defaults keys = some (.string s))
    (henv : keys.foldl joinPath "" ≠ "mqtt.password_env") :
    ∃ s', (keys.foldl Value.index data).asStr = some s' ∧
      (keys.foldl joinPath "" = "topics.prefix" ∨ Text.isBlank s' = false) := by
  have hfits := Outcome.ensure_eq_ok.1 (validateShape_field keys h hfield)
  rw [fits, beq_false_of_ne henv, Bool.false_and, Bool.false_or] at hfits
  obtain ⟨s', hs, hblank⟩ := (Option.any_eq_true _ _).1 hfits
  exact ⟨s', hs, by simpa using hblank⟩

/-- A field with null as default is null or a string that is not blank. -/
theorem nullable (h : Shaped data) (keys : List String)
    (hfield : fieldAt defaults keys = some .null) {s : String}
    (hs : (keys.foldl Value.index data).asStr = some s) : Text.isBlank s = false := by
  have hfits := Outcome.ensure_eq_ok.1 (validateShape_field keys h hfield)
  rw [fits, Bool.or_eq_true] at hfits
  rcases hfits with hnull | htext
  · rw [Value.asStr] at hs
    rw [Value.isNull] at hnull
    split at hnull
    · rename_i huntag
      rw [huntag] at hs
      cases hs
    · cases hnull
  · obtain ⟨s', hs', hblank⟩ := (Option.any_eq_true _ _).1 htext
    obtain rfl := Option.some.inj (hs.symm.trans hs')
    simpa using hblank

theorem fields (h : Shaped data) (keys : List String) {vs : List Value}
    (hfield : fieldAt defaults keys = some (.sequence vs)) :
    ∃ vs', (keys.foldl Value.index data).asSequence = some vs' ∧ vs' ≠ [] ∧
      ∀ v ∈ vs', ∃ s, v.asStr = some s ∧ Text.isBlank s = false := by
  have hfits := Outcome.ensure_eq_ok.1 (validateShape_field keys h hfield)
  obtain ⟨vs', hvs, hall⟩ := (Option.any_eq_true _ _).1 hfits
  rw [Bool.and_eq_true, List.all_eq_true] at hall
  refine ⟨vs', hvs, by simpa using hall.1, fun v hv => ?_⟩
  obtain ⟨s, hs, hblank⟩ := (Option.any_eq_true _ _).1 (hall.2 v hv)
  exact ⟨s, hs, by simpa using hblank⟩

theorem isU64 (h : Shaped data) (keys : List String) {n : UInt64}
    (hfield : fieldAt defaults keys = some (int n)) :
    ∃ n', (keys.foldl Value.index data).asU64 = some n' :=
  (h.u64 keys hfield).imp fun _ => And.left

theorem isF64 (h : Shaped data) (keys : List String) {f : F64}
    (hfield : fieldAt defaults keys = some (.number (.float f))) :
    ∃ f', (keys.foldl Value.index data).asF64 = some f' :=
  (h.f64 keys hfield).imp fun _ => And.left

theorem isText (h : Shaped data) (keys : List String) {s : String}
    (hfield : fieldAt defaults keys = some (.string s))
    (hpath : keys.foldl joinPath "" ≠ "mqtt.password_env") :
    ∃ s', (keys.foldl Value.index data).asStr = some s' :=
  (h.text keys hfield hpath).imp fun _ => And.left

end Shaped

/-! ## `validate` -/

theorem shaped_of_validate {data : Value} (h : validate data defaults = .ok ⟨⟩) : Shaped data := by
  obtain ⟨_, h, -⟩ := Outcome.bind_eq_ok.1 h
  exact h

theorem validate_ne_panicked (data : Value) : validate data defaults ≠ .panicked := by
  refine Outcome.bind_ne_panicked (validateShape_ne_panicked _ _ builtIn_defaults) fun _ h => ?_
  have h : Shaped data := h
  have htopic : ∀ key ∈ ["topics.status", "topics.json", "metrics.uptime_minutes.topic",
      "metrics.meminfo.topic"], ∃ topic, (dig data key).asStr = some topic := by
    simp only [List.mem_cons, List.not_mem_nil, or_false]
    rintro _ (rfl | rfl | rfl | rfl)
    · exact h.isText ["topics", "status"] rfl (by decide)
    · exact h.isText ["topics", "json"] rfl (by decide)
    · exact h.isText ["metrics", "uptime_minutes", "topic"] rfl (by decide)
    · exact h.isText ["metrics", "meminfo", "topic"] rfl (by decide)
  refine Outcome.bind_ne_panicked (Outcome.ensure_ne_panicked _ _) fun _ _ => ?_
  refine Outcome.bind_ne_panicked (Outcome.forEach_ne_panicked fun key hkey => ?_) fun _ _ => ?_
  · obtain ⟨topic, ht⟩ := htopic key hkey
    rw [ht]
    exact checkTopic_ne_panicked _ _
  · obtain ⟨topic, ht⟩ := htopic "metrics.meminfo.topic" (by decide)
    rw [ht, Outcome.unwrap_some, Outcome.ok_bind]
    refine Outcome.bind_ne_panicked (Outcome.ensure_ne_panicked _ _) fun _ _ => ?_
    exact Outcome.forEach_ne_panicked fun _ _ => Outcome.ensure_ne_panicked _ _

end Config
end SystemReport
