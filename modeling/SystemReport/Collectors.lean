import Mathlib.Data.List.AList
import SystemReport.Lib.Json
import SystemReport.Text
import SystemReport.Config.Template

/-!
# Collectors

`src/collectors.rs`: reading `/proc/uptime` and `/proc/meminfo` into a snapshot, and the snapshot as
a JSON object.

`parse_meminfo` takes a requested field out of what it has parsed, so that it reports every field
once, in the order in which it is first requested (`select_eq`).
-/

set_option autoImplicit false

namespace SystemReport
namespace Collectors

/-- `PROC_UPTIME`. -/
def procUptime : String := "/proc/uptime"

/-- `PROC_MEMINFO`. -/
def procMeminfo : String := "/proc/meminfo"

/-- `VERSION`. -/
def version : String := "1.0.0"

/-! ## Parsing -/

/-- `parse_uptime_seconds`. -/
def parseUptimeSeconds (text : String) : Except String F64 :=
  match Text.splitWhitespace text with
  | [] => .error "missing uptime seconds"
  | field :: _ =>
    match F64.parse field with
    | none => .error "invalid uptime seconds"
    | some seconds =>
      if !seconds.isFinite || seconds.lt (.finite 0) ||
          (F64.ofRat 18446744073709551615).le seconds then
        .error "uptime seconds must be finite, nonnegative and fit in u64"
      else .ok seconds

/-- `(seconds / 60.0) as u64`. -/
def wholeMinutes (seconds : F64) : ℕ := (seconds.divPos 60).toU64

/-- `parse_uptime_minutes`. -/
def parseUptimeMinutes (text : String) : Except String ℕ :=
  (parseUptimeSeconds text).map wholeMinutes

/-- Ordered pairs of a field and its value. -/
abbrev Meminfo := List (String × ℤ)

/-- What `parse_meminfo` has read: the last value of each field. -/
abbrev Parsed := AList fun _ : String => ℤ

/-- A line of `/proc/meminfo`. -/
def parseLine (line : String) : Option (String × ℤ) :=
  match Text.splitWhitespace line with
  | key :: value :: _ => do
    let key ← Text.stripSuffix key ":"
    let value ← Text.parseI64 value
    some (key, value)
  | _ => none

/-- The loop over the lines. -/
def parseLines (text : String) : Parsed :=
  (Text.lines text).foldl (fun parsed line =>
    match parseLine line with
    | some (key, value) => parsed.insert key value
    | none => parsed) ∅

/-- `parsed.remove` for each of the requested fields. -/
def select : Parsed → List String → Meminfo
  | _, [] => []
  | parsed, field :: fields =>
    match parsed.lookup field with
    | some value => (field, value) :: select (parsed.erase field) fields
    | none => select parsed fields

/-- `parse_meminfo`. -/
def parseMeminfo (text : String) (fields : Option (List String)) : Meminfo :=
  match fields with
  | none =>
    ((parseLines text).entries.map fun e => (e.1, e.2)).mergeSort fun a b => decide (a.1 ≤ b.1)
  | some fields => select (parseLines text) fields

/-! ## Snapshots -/

/-- `Snapshot`.  The time is kept as the text into which it is formatted. -/
structure Snapshot where
  ts : String
  hostname : Option String
  uptimeS : Option F64
  uptimeMinutes : Option ℕ
  meminfo : Meminfo
  errors : List String

/-- `CollectOptions`. -/
structure CollectOptions where
  fields : List String
  wantUptime : Bool
  wantMeminfo : Bool
  hostname : Option String
  now : Option String

/-- What the collectors ask of the host: the time, the name of the host, and the files below
`/proc`, each read at most once for a snapshot. -/
structure Host where
  now : String
  hostname : Except String String
  reader : String → Except String String

/-- The uptime part of `collect_with_reader`. -/
def collectUptime (host : Host) (snapshot : Snapshot) : Snapshot :=
  match (host.reader procUptime).bind parseUptimeSeconds with
  | .ok seconds =>
    { snapshot with uptimeS := some seconds, uptimeMinutes := some (wholeMinutes seconds) }
  | .error e => { snapshot with errors := snapshot.errors ++ [procUptime ++ ": " ++ e] }

/-- The meminfo part of `collect_with_reader`. -/
def collectMeminfo (fields : List String) (host : Host) (snapshot : Snapshot) : Snapshot :=
  match host.reader procMeminfo with
  | .ok text =>
    let meminfo := parseMeminfo text (some fields)
    let missing := fields.filter fun field => !meminfo.any fun e => e.1 == field
    { snapshot with
      meminfo := meminfo
      errors := snapshot.errors ++
        if missing.isEmpty then []
        else [procMeminfo ++ ": fields not present in this kernel: " ++
          String.intercalate ", " missing] }
  | .error e => { snapshot with errors := snapshot.errors ++ [procMeminfo ++ ": " ++ e] }

/-- The hostname part of `collect_with_reader`. -/
def collectHostname (hostname : Option String) (host : Host) (snapshot : Snapshot) :
    Snapshot :=
  match hostname.filter (· ≠ "") with
  | some name => { snapshot with hostname := some name }
  | none =>
    match host.hostname with
    | .ok name => { snapshot with hostname := some name }
    | .error e => { snapshot with errors := snapshot.errors ++ ["hostname: " ++ e] }

/-- `collect_with_reader`. -/
def collectWithReader (options : CollectOptions) (host : Host) : Snapshot :=
  let snapshot : Snapshot := ⟨options.now.getD host.now, none, none, none, [], []⟩
  let snapshot := if options.wantUptime then collectUptime host snapshot else snapshot
  let snapshot :=
    if options.wantMeminfo then collectMeminfo options.fields host snapshot else snapshot
  collectHostname options.hostname host snapshot

/-- `to_json_dict`. -/
def toJsonDict (toLowercase : String → String) (snapshot : Snapshot) (includeHostname : Bool) :
    List (String × Json) :=
  let out : List (String × Json) := []
  let out := Json.insertField out "ts" (.string snapshot.ts)
  let out := Json.insertField out "version" (.string version)
  let out :=
    match if includeHostname then snapshot.hostname else none with
    | some name => Json.insertField out "hostname" (.string name)
    | none => out
  let out :=
    match snapshot.uptimeS with
    | some seconds =>
      let out := Json.insertField out "uptime_s" (.int seconds.toU64)
      Json.insertField out "uptime_minutes"
        (match snapshot.uptimeMinutes with
          | some minutes => .int minutes
          | none => .null)
    | none => out
  let out := snapshot.meminfo.foldl (fun out (field, value) =>
    Json.insertField out (Config.meminfoTopicName toLowercase field) (.int value)) out
  if snapshot.errors.isEmpty then out
  else Json.insertField out "errors" (.array (snapshot.errors.map .string))

/-! ## What a snapshot holds -/

/-- A field that has been taken out is not found again. -/
theorem select_filter {field : String} : ∀ {parsed rest : Parsed} {fields : List String},
    rest.lookup field = none → (∀ other, other ≠ field → rest.lookup other = parsed.lookup other) →
    select rest fields = select parsed (fields.filter fun other => !other == field)
  | _, _, [], _, _ => rfl
  | parsed, rest, other :: fields, hnone, hsame => by
    by_cases h : other = field
    · subst h
      rw [select, hnone, List.filter_cons_of_neg (by simp)]
      exact select_filter hnone hsame
    · rw [List.filter_cons_of_pos (by simpa using h), select, select, hsame other h]
      cases parsed.lookup other with
      | none => exact select_filter hnone hsame
      | some value =>
        have hnone' : (rest.erase other).lookup field = none := by
          rw [AList.lookup_erase_ne (Ne.symm h), hnone]
        refine congrArg ((other, value) :: ·) (select_filter hnone' fun g hg => ?_)
        by_cases hother : g = other
        · rw [hother, AList.lookup_erase, AList.lookup_erase]
        · rw [AList.lookup_erase_ne hother, AList.lookup_erase_ne hother, hsame g hg]

/-- **Every field that is present is reported once**, in the order of the first requests. -/
theorem select_eq (parsed : Parsed) : ∀ fields : List String,
    select parsed fields =
      fields.eraseDups.filterMap fun field => (parsed.lookup field).map fun value => (field, value)
  | [] => by simp [select]
  | field :: fields => by
    have ih := select_eq parsed (fields.filter fun other => !other == field)
    rw [List.eraseDups_cons, List.filterMap_cons, select]
    cases h : parsed.lookup field with
    | none =>
      rw [select_filter h fun _ _ => rfl, ih]
      rfl
    | some value =>
      rw [select_filter (AList.lookup_erase _ _) fun _ hne => AList.lookup_erase_ne hne, ih]
      rfl
termination_by fields => fields.length
decreasing_by
  have := List.length_filter_le (fun other => !other == field) fields
  simp only [List.length_cons]
  omega

/-- The whole minutes of uptime, where the uptime can be read. -/
def uptimeOf (host : Host) : Option ℕ :=
  match (host.reader procUptime).bind parseUptimeSeconds with
  | .ok seconds => some (wholeMinutes seconds)
  | .error _ => none

/-- Those of some fields that `/proc/meminfo` has, with their values. -/
def presentIn (host : Host) (fields : List String) : Meminfo :=
  match host.reader procMeminfo with
  | .ok text =>
    fields.eraseDups.filterMap fun field =>
      ((parseLines text).lookup field).map fun value => (field, value)
  | .error _ => []

theorem mem_of_presentIn {host : Host} {fields : List String} {e : String × ℤ}
    (h : e ∈ presentIn host fields) : e.1 ∈ fields := by
  rw [presentIn] at h
  split at h
  · obtain ⟨field, hfield, he⟩ := List.mem_filterMap.1 h
    obtain ⟨value, -, rfl⟩ := Option.map_eq_some_iff.1 he
    exact List.mem_eraseDups.1 hfield
  · cases h

/-! The parts of `collect_with_reader` do not disturb each other. -/

theorem uptimeMinutes_collectUptime (host : Host) {s : Snapshot} (h : s.uptimeMinutes = none) :
    (collectUptime host s).uptimeMinutes = uptimeOf host := by
  rw [collectUptime, uptimeOf]
  cases (host.reader procUptime).bind parseUptimeSeconds with
  | ok seconds => rfl
  | error e => exact h

@[simp] theorem meminfo_collectUptime (host : Host) (s : Snapshot) :
    (collectUptime host s).meminfo = s.meminfo := by
  rw [collectUptime]
  split <;> rfl

@[simp] theorem uptimeMinutes_collectMeminfo (fields : List String) (host : Host) (s : Snapshot) :
    (collectMeminfo fields host s).uptimeMinutes = s.uptimeMinutes := by
  rw [collectMeminfo]
  split <;> rfl

theorem meminfo_collectMeminfo (fields : List String) (host : Host) {s : Snapshot}
    (h : s.meminfo = []) : (collectMeminfo fields host s).meminfo = presentIn host fields := by
  rw [collectMeminfo, presentIn]
  split
  · exact select_eq _ _
  · exact h

@[simp] theorem uptimeMinutes_collectHostname (name : Option String) (host : Host) (s : Snapshot) :
    (collectHostname name host s).uptimeMinutes = s.uptimeMinutes := by
  rw [collectHostname]
  split
  · rfl
  · split <;> rfl

@[simp] theorem meminfo_collectHostname (name : Option String) (host : Host) (s : Snapshot) :
    (collectHostname name host s).meminfo = s.meminfo := by
  rw [collectHostname]
  split
  · rfl
  · split <;> rfl

theorem uptimeMinutes_collect (options : CollectOptions) (host : Host) :
    (collectWithReader options host).uptimeMinutes =
      if options.wantUptime then uptimeOf host else none := by
  rw [collectWithReader, uptimeMinutes_collectHostname, apply_ite Snapshot.uptimeMinutes,
    uptimeMinutes_collectMeminfo, ite_self, apply_ite Snapshot.uptimeMinutes,
    uptimeMinutes_collectUptime host rfl]

theorem meminfo_collect (options : CollectOptions) (host : Host) :
    (collectWithReader options host).meminfo =
      if options.wantMeminfo then presentIn host options.fields else [] := by
  have hempty : ∀ s : Snapshot, s.meminfo = [] →
      (if options.wantUptime then collectUptime host s else s).meminfo = [] := by
    intro s hs
    rw [apply_ite Snapshot.meminfo, meminfo_collectUptime, hs, ite_self]
  rw [collectWithReader, meminfo_collectHostname, apply_ite Snapshot.meminfo,
    meminfo_collectMeminfo _ _ (hempty _ rfl), hempty _ rfl]

end Collectors
end SystemReport
