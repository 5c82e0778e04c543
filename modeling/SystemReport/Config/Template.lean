import SystemReport.Outcome
import SystemReport.Text

/-!
# Topic templates

`format_template`, `check_topic` and the errors of `src/config.rs`, and the leaf names of
`src/consts.rs`.  A template is read once from left to right; what is inserted is not read again.
-/

set_option autoImplicit false

namespace SystemReport
namespace Config

/-- `ConfigError`. -/
structure ConfigError where
  text : String
deriving DecidableEq, Repr

/-- `fail`: an error about one key. -/
def fail (key message : String) : ConfigError := ⟨"config key '" ++ key ++ "': " ++ message⟩

/-- The path of an entry. -/
def joinPath (path name : String) : String := if path.isEmpty then name else path ++ "." ++ name

/-- What a placeholder stands for. -/
def expand (key hostname pre : String) (name : Option String) (field : String) :
    Outcome ConfigError String :=
  if field = "hostname" then .ok hostname
  else if field = "prefix" then .ok pre
  else if field = "name" then .okOr (fail key "name is only valid in a meminfo topic") name
  else .err (fail key "unknown placeholder (expected hostname, prefix or name)")

/-- The loops of `format_template`: what they append to the result.  `field` is what the inner loop
has read of a placeholder, if that is where the reading stands. -/
def formatChars (key hostname pre : String) (name : Option String) :
    (field : Option (List Char)) → List Char → Outcome ConfigError (List Char)
  | none, [] => .ok []
  | none, '\x7b' :: '\x7b' :: rest => do
    let result ← formatChars key hostname pre name none rest
    .ok ('\x7b' :: result)
  | none, '\x7d' :: '\x7d' :: rest => do
    let result ← formatChars key hostname pre name none rest
    .ok ('\x7d' :: result)
  | none, '\x7b' :: rest => formatChars key hostname pre name (some []) rest
  | none, '\x7d' :: _ => .err (fail key "unmatched closing brace")
  | none, c :: rest => do
    let result ← formatChars key hostname pre name none rest
    .ok (c :: result)
  | some _, [] => .err (fail key "unclosed placeholder")
  | some field, '\x7d' :: rest => do
    let value ← expand key hostname pre name (.ofList field)
    let result ← formatChars key hostname pre name none rest
    .ok (value.toList ++ result)
  | some field, c :: rest => formatChars key hostname pre name (some (field ++ [c])) rest

/-- `format_template`. -/
def formatTemplate (template key hostname pre : String) (name : Option String) :
    Outcome ConfigError String := do
  let result ← formatChars key hostname pre name none template.toList
  .ok (.ofList result)

/-- `check_topic`. -/
def checkTopic (topic key : String) : Outcome ConfigError PUnit :=
  if topic.isEmpty then .err (fail key "resolved to an empty topic")
  else if topic.toList.any fun c => c == '+' || c == '#' || c == '\x00' then
    .err (fail key "publish topics cannot contain +, # or NUL")
  else .ok ⟨⟩

/-- A topic that can be published to. -/
def PublishTopic (topic : String) : Prop :=
  topic ≠ "" ∧ ∀ c ∈ topic.toList, c ≠ '+' ∧ c ≠ '#' ∧ c ≠ '\x00'

/-! ## Neither panics -/

theorem expand_ne_panicked (key hostname pre : String) (name : Option String) (field : String) :
    expand key hostname pre name field ≠ .panicked := by
  rw [expand]
  split
  · exact nofun
  · split
    · exact nofun
    · split
      · exact Outcome.okOr_ne_panicked _ _
      · exact nofun

theorem formatChars_ne_panicked (key hostname pre : String) (name : Option String)
    (field : Option (List Char)) (cs : List Char) :
    formatChars key hostname pre name field cs ≠ .panicked := by
  fun_induction formatChars key hostname pre name field cs with
  | case1 => exact nofun
  | case2 rest ih | case3 rest ih => exact Outcome.bind_ne_panicked ih fun _ _ => nofun
  | case4 rest _ ih => exact ih
  | case5 => exact nofun
  | case6 c rest _ _ _ _ ih => exact Outcome.bind_ne_panicked ih fun _ _ => nofun
  | case7 => exact nofun
  | case8 field rest ih =>
    exact Outcome.bind_ne_panicked (expand_ne_panicked _ _ _ _ _) fun _ _ =>
      Outcome.bind_ne_panicked ih fun _ _ => nofun
  | case9 field c rest _ ih => exact ih

theorem formatTemplate_ne_panicked (template key hostname pre : String) (name : Option String) :
    formatTemplate template key hostname pre name ≠ .panicked :=
  Outcome.bind_ne_panicked (formatChars_ne_panicked _ _ _ _ _ _) fun _ _ => nofun

/-- `check_topic` accepts exactly the topics that can be published to. -/
theorem checkTopic_eq_ok {topic key : String} :
    checkTopic topic key = .ok ⟨⟩ ↔ PublishTopic topic := by
  rw [checkTopic, PublishTopic]
  split
  · rename_i h
    exact ⟨nofun, fun h' => absurd (by simpa using h) h'.1⟩
  · rename_i h
    have hne : topic ≠ "" := by simpa using h
    split
    · rename_i hany
      refine ⟨nofun, fun h' => ?_⟩
      obtain ⟨c, hc, hbad⟩ := List.any_eq_true.1 hany
      obtain ⟨hplus, hhash, hnul⟩ := h'.2 c hc
      simp only [Bool.or_eq_true, beq_iff_eq] at hbad
      rcases hbad with (h | h) | h
      · exact absurd h hplus
      · exact absurd h hhash
      · exact absurd h hnul
    · rename_i hany
      refine ⟨fun _ => ⟨hne, fun c hc => ?_⟩, fun _ => rfl⟩
      by_contra hbad
      refine hany (List.any_eq_true.2 ⟨c, hc, ?_⟩)
      simp only [Bool.or_eq_true, beq_iff_eq]
      by_contra hno
      exact hbad ⟨fun h => hno (.inl (.inl h)), fun h => hno (.inl (.inr h)), fun h => hno (.inr h)⟩

theorem checkTopic_ne_panicked (topic key : String) : checkTopic topic key ≠ .panicked := by
  rw [checkTopic]
  split
  · exact nofun
  · split <;> exact nofun

/-! ## Leaf names -/

/-- `MEMINFO_TOPIC_NAMES`. -/
def meminfoTopicNames : List (String × String) :=
  [("MemTotal", "mem_total_kb"), ("MemFree", "mem_free_kb"), ("MemAvailable", "mem_available_kb"),
    ("Buffers", "buffers_kb"), ("Cached", "cached_kb"), ("SwapCached", "swap_cached_kb"),
    ("SwapTotal", "swap_total_kb"), ("SwapFree", "swap_free_kb"), ("Shmem", "shmem_kb"),
    ("Slab", "slab_kb"), ("SReclaimable", "sreclaimable_kb"), ("SUnreclaim", "sunreclaim_kb"),
    ("KernelStack", "kernel_stack_kb"), ("PageTables", "page_tables_kb"),
    ("VmallocUsed", "vmalloc_used_kb"), ("Committed_AS", "committed_as_kb"), ("Dirty", "dirty_kb"),
    ("Writeback", "writeback_kb"), ("Mapped", "mapped_kb"), ("Active", "active_kb"),
    ("Inactive", "inactive_kb")]

/-- The loop of `meminfo_topic_name`: an underscore between a lowercase letter or a digit and an
uppercase letter. -/
def splitWords : (previous : Option Char) → List Char → List Char
  | _, [] => []
  | previous, c :: cs =>
    if previous.any (fun p => p.isLower || p.isDigit) && c.isUpper then
      '_' :: c :: splitWords (some c) cs
    else c :: splitWords (some c) cs

/-- `name.replace("__", "_")`. -/
def mergeUnderscores : List Char → List Char
  | '_' :: '_' :: cs => '_' :: mergeUnderscores cs
  | c :: cs => c :: mergeUnderscores cs
  | [] => []

/-- `meminfo_topic_name`, with `str::to_lowercase` as a parameter. -/
def meminfoTopicName (toLowercase : String → String) (field : String) : String :=
  match meminfoTopicNames.find? fun e => e.1 == field with
  | some (_, name) => name
  | none => toLowercase (.ofList (mergeUnderscores (splitWords none field.toList))) ++ "_kb"

end Config
end SystemReport
