import SystemReport.Collectors
import SystemReport.Lib.AssocList

/-!
# What a snapshot says about `/proc`

`parse_meminfo` puts the lines it understands into a map and takes the requested fields out of it.
Here its result is described without the map: a field has the value that the last line about it
gives (`lookup_parseLines`), and a snapshot lists the requested fields that have one.

The errors of a snapshot come from three places that do not look at each other.  `errorsAbout` tells
them apart by the path with which they begin.
-/

set_option autoImplicit false

namespace SystemReport
namespace Collectors

/-! ## Lines -/

/-- A line of `/proc/meminfo` gives a field a value: it begins with the field and a colon, and goes
on with a decimal number that fits in an `i64`. -/
def Gives (line field : String) (value : ℤ) : Prop :=
  ∃ token rest, Text.splitWhitespace line = (field ++ ":") :: token :: rest ∧
    Text.parseI64 token = some value

/-- The last of some lines that gives a field a value gives it this one. -/
def LastGives (lines : List String) (field : String) (value : ℤ) : Prop :=
  ∃ before line after, lines = before ++ line :: after ∧ Gives line field value ∧
    ∀ other ∈ after, ∀ v, ¬ Gives other field v

theorem stripSuffix_eq_some {s part rest : String} :
    Text.stripSuffix s part = some rest ↔ s = rest ++ part := by
  rw [Text.stripSuffix]
  constructor
  · intro h
    split at h
    · rename_i hsuffix
      obtain ⟨before, hbefore⟩ := List.isSuffixOf_iff_suffix.1 hsuffix
      cases h
      apply String.toList_inj.1
      rw [String.toList_append, String.toList_ofList, ← hbefore]
      simp
    · cases h
  · rintro rfl
    have hsuffix : part.toList <:+ (rest ++ part).toList := by
      rw [String.toList_append]
      exact List.suffix_append _ _
    rw [if_pos (List.isSuffixOf_iff_suffix.2 hsuffix)]
    simp

theorem parseLine_eq_some {line field : String} {value : ℤ} :
    parseLine line = some (field, value) ↔ Gives line field value := by
  rw [parseLine, Gives]
  constructor
  · intro h
    split at h
    · rename_i key token rest hsplit
      obtain ⟨name, hname, h⟩ := Option.bind_eq_some_iff.1 h
      obtain ⟨v, hv, h⟩ := Option.bind_eq_some_iff.1 h
      cases h
      rw [stripSuffix_eq_some] at hname
      exact ⟨token, rest, by rw [hsplit, hname], hv⟩
    · cases h
  · rintro ⟨token, rest, hsplit, hv⟩
    rw [hsplit]
    simp only [stripSuffix_eq_some.2 rfl, hv, Option.bind_eq_bind, Option.bind_some]

/-- The value that a line gives a field. -/
def valueIn (field line : String) : Option ℤ :=
  (parseLine line).bind fun e => if e.1 = field then some e.2 else none

theorem valueIn_eq_some {field line : String} {value : ℤ} :
    valueIn field line = some value ↔ Gives line field value := by
  rw [← parseLine_eq_some, valueIn, Option.bind_eq_some_iff]
  constructor
  · rintro ⟨⟨name, v⟩, he, h⟩
    split_ifs at h with hname
    cases h
    rw [he, ← hname]
  · intro h
    exact ⟨(field, value), h, if_pos rfl⟩

theorem valueIn_eq_none {field line : String} :
    valueIn field line = none ↔ ∀ v, ¬ Gives line field v := by
  rw [Option.eq_none_iff_forall_ne_some]
  exact forall_congr' fun v => not_congr valueIn_eq_some

/-- A map that has read some lines holds, for each field, what the last line about it says. -/
theorem lookup_foldl (field : String) (lines : List String) :
    (lines.foldl (fun parsed line =>
      match parseLine line with
      | some (key, value) => parsed.insert key value
      | none => parsed) (∅ : Parsed)).lookup field = lines.reverse.findSome? (valueIn field) := by
  induction lines using List.reverseRecOn with
  | nil => simp
  | append_singleton lines line ih =>
    rw [List.foldl_append, List.foldl_cons, List.foldl_nil, List.reverse_append,
      List.reverse_singleton, List.singleton_append, List.findSome?_cons, ← ih, valueIn]
    cases parseLine line with
    | none => simp
    | some e =>
      by_cases hfield : e.1 = field
      · simp [hfield]
      · simp [hfield, AList.lookup_insert_ne (Ne.symm hfield)]

theorem lookup_eq_findSome (text field : String) :
    (parseLines text).lookup field = (Text.lines text).reverse.findSome? (valueIn field) :=
  lookup_foldl field (Text.lines text)

/-- **The last line about a field decides.** -/
theorem lookup_parseLines {text field : String} {value : ℤ} :
    (parseLines text).lookup field = some value ↔ LastGives (Text.lines text) field value := by
  rw [lookup_eq_findSome, List.findSome?_eq_some_iff, LastGives]
  constructor
  · rintro ⟨after, line, before, hlines, hvalue, hafter⟩
    refine ⟨before.reverse, line, after.reverse, ?_, valueIn_eq_some.1 hvalue, ?_⟩
    · simpa using congrArg List.reverse hlines
    · intro other hother
      exact valueIn_eq_none.1 (hafter other (List.mem_reverse.1 hother))
  · rintro ⟨before, line, after, hlines, hgives, hafter⟩
    refine ⟨after.reverse, line, before.reverse, ?_, valueIn_eq_some.2 hgives, ?_⟩
    · simp [hlines]
    · intro other hother
      exact valueIn_eq_none.2 (hafter other (List.mem_reverse.1 hother))

/-! ## All fields, sorted -/

theorem perm_parseMeminfo (text : String) :
    (parseMeminfo text none).Perm ((parseLines text).entries.map fun e => (e.1, e.2)) :=
  List.mergeSort_perm _ _

/-- The names are in strict order. -/
theorem pairwise_parseMeminfo (text : String) :
    (parseMeminfo text none).Pairwise fun a b => a.1 < b.1 := by
  have hle : (parseMeminfo text none).Pairwise fun a b => decide (a.1 ≤ b.1) = true := by
    refine List.pairwise_mergeSort ?_ ?_ _
    · intro a b c hab hbc
      exact decide_eq_true (String.le_trans (of_decide_eq_true hab) (of_decide_eq_true hbc))
    · intro a b
      rw [Bool.or_eq_true, decide_eq_true_eq, decide_eq_true_eq]
      exact String.le_total a.1 b.1
  have hne : (parseMeminfo text none).Pairwise fun a b => a.1 ≠ b.1 := by
    have hkeys : ((parseMeminfo text none).map Prod.fst).Nodup := by
      rw [((perm_parseMeminfo text).map Prod.fst).nodup_iff, List.map_map]
      exact (parseLines text).nodupKeys
    exact List.pairwise_map.1 hkeys
  refine hle.imp₂ ?_ hne
  intro a b hab hab'
  exact String.not_le.1 fun h => hab' (String.le_antisymm (of_decide_eq_true hab) h)

/-- **The list of all fields is the map**, so the filtered and the unfiltered path agree. -/
theorem lookup_parseMeminfo (text field : String) :
    (parseMeminfo text none).lookup field = (parseLines text).lookup field := by
  have hkeys : ((parseMeminfo text none).map Prod.fst).Nodup := by
    refine List.pairwise_map.2 ((pairwise_parseMeminfo text).imp ?_)
    intro a b hlt heq
    exact String.lt_irrefl _ (heq ▸ hlt)
  apply Option.ext
  intro value
  rw [AssocList.lookup_eq_some_iff_mem hkeys, (perm_parseMeminfo text).mem_iff, ← Option.mem_def,
    AList.mem_lookup_iff]
  simp

/-! ## Errors -/

/-- The error of the uptime part. -/
def uptimeErrors (host : Host) : List String :=
  match (host.reader procUptime).bind parseUptimeSeconds with
  | .ok _ => []
  | .error e => [procUptime ++ ": " ++ e]

/-- The error of the meminfo part. -/
def meminfoErrors (fields : List String) (host : Host) : List String :=
  match host.reader procMeminfo with
  | .ok text =>
    let missing := fields.filter fun field =>
      !(parseMeminfo text (some fields)).any fun e => e.1 == field
    if missing.isEmpty then []
    else [procMeminfo ++ ": fields not present in this kernel: " ++
      String.intercalate ", " missing]
  | .error e => [procMeminfo ++ ": " ++ e]

/-- The error of the hostname part. -/
def hostnameErrors (hostname : Option String) (host : Host) : List String :=
  match hostname.filter (· ≠ ""), host.hostname with
  | none, .error e => ["hostname: " ++ e]
  | _, _ => []

theorem errors_collectUptime (host : Host) (s : Snapshot) :
    (collectUptime host s).errors = s.errors ++ uptimeErrors host := by
  rw [collectUptime, uptimeErrors]
  cases (host.reader procUptime).bind parseUptimeSeconds <;> simp

theorem errors_collectMeminfo (fields : List String) (host : Host) (s : Snapshot) :
    (collectMeminfo fields host s).errors = s.errors ++ meminfoErrors fields host := by
  rw [collectMeminfo, meminfoErrors]
  cases host.reader procMeminfo <;> simp

theorem errors_collectHostname (hostname : Option String) (host : Host) (s : Snapshot) :
    (collectHostname hostname host s).errors = s.errors ++ hostnameErrors hostname host := by
  rw [collectHostname, hostnameErrors]
  cases hostname.filter (· ≠ "") with
  | some name => simp
  | none => cases host.hostname <;> simp

/-- The errors of a snapshot are those of its parts. -/
theorem errors_collect (options : CollectOptions) (host : Host) :
    (collectWithReader options host).errors =
      (if options.wantUptime then uptimeErrors host else []) ++
      (if options.wantMeminfo then meminfoErrors options.fields host else []) ++
      hostnameErrors options.hostname host := by
  rw [collectWithReader, errors_collectHostname, apply_ite Snapshot.errors,
    errors_collectMeminfo, apply_ite Snapshot.errors, errors_collectUptime]
  split_ifs <;> simp

/-- An error is about a file if it begins with its path. -/
def isAbout (path error : String) : Bool := (path ++ ": ").toList.isPrefixOf error.toList

/-- The errors of a snapshot that are about a file. -/
def errorsAbout (path : String) (snapshot : Snapshot) : List String :=
  snapshot.errors.filter (isAbout path)

theorem isAbout_append (path rest : String) : isAbout path (path ++ ": " ++ rest) = true := by
  simp [isAbout, List.isPrefixOf_iff_prefix]

theorem isAbout_of_mem_uptimeErrors {host : Host} {e : String} (h : e ∈ uptimeErrors host) :
    isAbout procUptime e = true ∧ isAbout procMeminfo e = false := by
  rw [uptimeErrors] at h
  split at h
  · simp at h
  · obtain rfl := List.mem_singleton.1 h
    refine ⟨isAbout_append _ _, ?_⟩
    simp only [isAbout, String.toList_append]
    rfl

theorem isAbout_of_mem_meminfoErrors {fields : List String} {host : Host} {e : String}
    (h : e ∈ meminfoErrors fields host) :
    isAbout procMeminfo e = true ∧ isAbout procUptime e = false := by
  have habout : ∀ rest, isAbout procUptime (procMeminfo ++ ": " ++ rest) = false := by
    intro rest
    simp only [isAbout, String.toList_append]
    rfl
  rw [meminfoErrors] at h
  split at h
  · dsimp only at h
    split_ifs at h
    · simp at h
    · obtain rfl := List.mem_singleton.1 h
      have hsplit : ∀ rest : String, procMeminfo ++ ": fields not present in this kernel: " ++ rest =
          procMeminfo ++ ": " ++ ("fields not present in this kernel: " ++ rest) := by
        intro rest
        rw [← String.append_assoc]
        rfl
      rw [hsplit]
      exact ⟨isAbout_append _ _, habout _⟩
  · obtain rfl := List.mem_singleton.1 h
    exact ⟨isAbout_append _ _, habout _⟩

theorem isAbout_of_mem_hostnameErrors {hostname : Option String} {host : Host} {e : String}
    (h : e ∈ hostnameErrors hostname host) :
    isAbout procUptime e = false ∧ isAbout procMeminfo e = false := by
  rw [hostnameErrors] at h
  split at h
  · obtain rfl := List.mem_singleton.1 h
    simp only [isAbout, String.toList_append]
    exact ⟨rfl, rfl⟩
  · simp at h

theorem errorsAbout_uptime (options : CollectOptions) (host : Host) :
    errorsAbout procUptime (collectWithReader options host) =
      if options.wantUptime then uptimeErrors host else [] := by
  have huptime : (uptimeErrors host).filter (isAbout procUptime) = uptimeErrors host :=
    List.filter_eq_self.2 fun _ h => (isAbout_of_mem_uptimeErrors h).1
  have hmeminfo : (meminfoErrors options.fields host).filter (isAbout procUptime) = [] :=
    List.filter_eq_nil_iff.2 fun _ h => by simp [(isAbout_of_mem_meminfoErrors h).2]
  have hhostname : (hostnameErrors options.hostname host).filter (isAbout procUptime) = [] :=
    List.filter_eq_nil_iff.2 fun _ h => by simp [(isAbout_of_mem_hostnameErrors h).1]
  rw [errorsAbout, errors_collect, List.filter_append, List.filter_append, hhostname]
  split_ifs <;> simp [huptime, hmeminfo]

theorem errorsAbout_meminfo (options : CollectOptions) (host : Host) :
    errorsAbout procMeminfo (collectWithReader options host) =
      if options.wantMeminfo then meminfoErrors options.fields host else [] := by
  have huptime : (uptimeErrors host).filter (isAbout procMeminfo) = [] :=
    List.filter_eq_nil_iff.2 fun _ h => by simp [(isAbout_of_mem_uptimeErrors h).2]
  have hmeminfo : (meminfoErrors options.fields host).filter (isAbout procMeminfo) =
      meminfoErrors options.fields host :=
    List.filter_eq_self.2 fun _ h => (isAbout_of_mem_meminfoErrors h).1
  have hhostname : (hostnameErrors options.hostname host).filter (isAbout procMeminfo) = [] :=
    List.filter_eq_nil_iff.2 fun _ h => by simp [(isAbout_of_mem_hostnameErrors h).2]
  rw [errorsAbout, errors_collect, List.filter_append, List.filter_append, hhostname]
  split_ifs <;> simp [huptime, hmeminfo]

/-! ## The two files -/

/-- The seconds of uptime, where they can be read. -/
def secondsOf (host : Host) : Option F64 :=
  ((host.reader procUptime).bind parseUptimeSeconds).toOption

theorem uptimeS_collect (options : CollectOptions) (host : Host) :
    (collectWithReader options host).uptimeS =
      if options.wantUptime then secondsOf host else none := by
  have huptime : ∀ s : Snapshot, s.uptimeS = none →
      (collectUptime host s).uptimeS = secondsOf host := by
    intro s hs
    rw [collectUptime, secondsOf]
    cases (host.reader procUptime).bind parseUptimeSeconds with
    | ok seconds => rfl
    | error e => exact hs
  have hmeminfo : ∀ s, (collectMeminfo options.fields host s).uptimeS = s.uptimeS := by
    intro s
    rw [collectMeminfo]
    split <;> rfl
  have hhostname : ∀ s, (collectHostname options.hostname host s).uptimeS = s.uptimeS := by
    intro s
    rw [collectHostname]
    split
    · rfl
    · split <;> rfl
  rw [collectWithReader, hhostname, apply_ite Snapshot.uptimeS, hmeminfo, ite_self,
    apply_ite Snapshot.uptimeS, huptime _ rfl]

/-- The host, except that the reader returns something else for one file. -/
def Host.replace (host : Host) (path : String) (result : Except String String) : Host :=
  { host with reader := Function.update host.reader path result }

/-- What a snapshot says about a readable `/proc/meminfo`, for some requested fields. -/
structure Collected (fields : List String) (text : String) (s : Snapshot) : Prop where
  /-- A field has the value that the last line about it gives. -/
  values : ∀ field value, (field, value) ∈ s.meminfo ↔
    field ∈ fields ∧ LastGives (Text.lines text) field value
  /-- The fields are in the order of the first requests, each once. -/
  order : (s.meminfo.map Prod.fst).Sublist fields.eraseDups
  /-- The same as looking the fields up among all fields. -/
  agrees : s.meminfo = fields.eraseDups.filterMap fun field =>
    ((parseMeminfo text none).lookup field).map fun value => (field, value)
  sorted : (parseMeminfo text none).Pairwise fun a b => a.1 < b.1
  /-- The other fields are those that the error names. -/
  partition : ∃ missing : List String,
    errorsAbout procMeminfo s = (if missing = [] then []
      else [procMeminfo ++ ": fields not present in this kernel: " ++
        String.intercalate ", " missing]) ∧
    ∀ field, field ∈ missing ↔ field ∈ fields ∧ field ∉ s.meminfo.map Prod.fst

theorem map_fst_filterMap_sublist (g : String → Option ℤ) (fields : List String) :
    ((fields.filterMap fun field => (g field).map fun value => (field, value)).map
      Prod.fst).Sublist fields := by
  induction fields with
  | nil => simp
  | cons field fields ih =>
    rw [List.filterMap_cons]
    cases g field with
    | none => exact ih.cons field
    | some value => exact ih.cons_cons field

/-- The missing fields are those that the snapshot does not have. -/
theorem partition_of_text {options : CollectOptions} {host : Host} {text : String}
    (hwant : options.wantMeminfo = true) (htext : host.reader procMeminfo = .ok text)
    (hmeminfo : (collectWithReader options host).meminfo =
      parseMeminfo text (some options.fields)) :
    ∃ missing : List String,
      errorsAbout procMeminfo (collectWithReader options host) = (if missing = [] then []
        else [procMeminfo ++ ": fields not present in this kernel: " ++
          String.intercalate ", " missing]) ∧
      ∀ field, field ∈ missing ↔ field ∈ options.fields ∧
        field ∉ (collectWithReader options host).meminfo.map Prod.fst := by
  refine ⟨options.fields.filter fun field =>
    !(parseMeminfo text (some options.fields)).any fun e => e.1 == field, ?_, ?_⟩
  · rw [errorsAbout_meminfo, if_pos hwant, meminfoErrors, htext]
    simp only [List.isEmpty_iff]
  · intro field
    have hmem : field ∈ (parseMeminfo text (some options.fields)).map Prod.fst ↔
        ((parseMeminfo text (some options.fields)).any fun e => e.1 == field) = true := by
      rw [List.any_eq_true, List.mem_map]
      simp only [beq_iff_eq]
    rw [hmeminfo, List.mem_filter, hmem, Bool.not_eq_true', Bool.not_eq_true]

/-- **Collection is exact.** -/
theorem collected_of_text {options : CollectOptions} {host : Host} {text : String}
    (hwant : options.wantMeminfo = true) (htext : host.reader procMeminfo = .ok text) :
    Collected options.fields text (collectWithReader options host) := by
  have hmeminfo : (collectWithReader options host).meminfo =
      options.fields.eraseDups.filterMap fun field =>
        ((parseLines text).lookup field).map fun value => (field, value) := by
    rw [meminfo_collect, if_pos hwant, presentIn, htext]
  refine ⟨?_, ?_, ?_, pairwise_parseMeminfo text, partition_of_text hwant htext ?_⟩
  · intro field value
    rw [hmeminfo, ← lookup_parseLines]
    simp
  · rw [hmeminfo]
    exact map_fst_filterMap_sublist _ _
  · simp only [hmeminfo, lookup_parseMeminfo]
  · rw [hmeminfo, parseMeminfo, select_eq]

/-- Without a text there is nothing to say. -/
theorem meminfo_of_no_text {options : CollectOptions} {host : Host}
    (h : options.wantMeminfo = false ∨ ∃ e, host.reader procMeminfo = .error e) :
    (collectWithReader options host).meminfo = [] := by
  rw [meminfo_collect]
  rcases h with hwant | ⟨e, he⟩
  · simp [hwant]
  · rw [presentIn, he, ite_self]

theorem reader_replace_ne {host : Host} {path other : String} (h : other ≠ path)
    (result : Except String String) : (host.replace path result).reader other = host.reader other :=
  Function.update_of_ne h _ _

/-- A host whose `/proc/meminfo` has a line that gives a field a value. -/
def Present (host : Host) (field : String) : Prop :=
  ∃ text, host.reader procMeminfo = .ok text ∧ ∃ line ∈ Text.lines text, ∃ value,
    Gives line field value

theorem mem_map_presentIn {host : Host} {fields : List String} {field : String} :
    field ∈ (presentIn host fields).map Prod.fst ↔ field ∈ fields ∧ Present host field := by
  rw [presentIn, Present]
  cases host.reader procMeminfo with
  | error e => simp
  | ok text =>
    have hsome : (∃ value, (parseLines text).lookup field = some value) ↔
        ∃ line ∈ Text.lines text, ∃ value, Gives line field value := by
      rw [← Option.isSome_iff_exists, lookup_eq_findSome, List.findSome?_isSome_iff]
      simp only [List.mem_reverse, Option.isSome_iff_exists, valueIn_eq_some]
    simp only [Except.ok.injEq, exists_eq_left', ← hsome]
    simp

theorem nodup_eraseDups : ∀ fields : List String, fields.eraseDups.Nodup
  | [] => by simp
  | field :: fields => by
    rw [List.eraseDups_cons, List.nodup_cons]
    refine ⟨?_, nodup_eraseDups _⟩
    intro h
    have hmem := List.mem_eraseDups.1 h
    simp at hmem
termination_by fields => fields.length
decreasing_by
  have := List.length_filter_le (fun other => !other == field) fields
  simp only [List.length_cons]
  omega

/-- A snapshot lists each field once. -/
theorem nodup_presentIn (host : Host) (fields : List String) :
    ((presentIn host fields).map Prod.fst).Nodup := by
  rw [presentIn]
  split
  · exact (map_fst_filterMap_sublist _ _).nodup (nodup_eraseDups _)
  · simp

/-- **Collection is exact, partitioned and isolated.** -/
theorem collection_exact (options : CollectOptions) (host : Host) :
    (∀ text, options.wantMeminfo = true → host.reader procMeminfo = .ok text →
      Collected options.fields text (collectWithReader options host)) ∧
    ((options.wantMeminfo = false ∨ ∃ e, host.reader procMeminfo = .error e) →
      (collectWithReader options host).meminfo = []) ∧
    (∀ result,
      (collectWithReader options (host.replace procUptime result)).meminfo =
        (collectWithReader options host).meminfo ∧
      errorsAbout procMeminfo (collectWithReader options (host.replace procUptime result)) =
        errorsAbout procMeminfo (collectWithReader options host)) ∧
    ∀ result,
      (collectWithReader options (host.replace procMeminfo result)).uptimeS =
        (collectWithReader options host).uptimeS ∧
      (collectWithReader options (host.replace procMeminfo result)).uptimeMinutes =
        (collectWithReader options host).uptimeMinutes ∧
      errorsAbout procUptime (collectWithReader options (host.replace procMeminfo result)) =
        errorsAbout procUptime (collectWithReader options host) := by
  refine ⟨fun _ => collected_of_text, meminfo_of_no_text, ?_, ?_⟩
  · intro result
    have hread : (host.replace procUptime result).reader procMeminfo = host.reader procMeminfo :=
      reader_replace_ne (by decide) result
    rw [meminfo_collect, meminfo_collect, presentIn, presentIn, errorsAbout_meminfo,
      errorsAbout_meminfo, meminfoErrors, meminfoErrors, hread]
    exact ⟨rfl, rfl⟩
  · intro result
    have hread : (host.replace procMeminfo result).reader procUptime = host.reader procUptime :=
      reader_replace_ne (by decide) result
    rw [uptimeS_collect, uptimeS_collect, uptimeMinutes_collect, uptimeMinutes_collect,
      errorsAbout_uptime, errorsAbout_uptime, secondsOf, secondsOf, uptimeOf, uptimeOf,
      uptimeErrors, uptimeErrors, hread]
    exact ⟨rfl, rfl, rfl⟩

/-- A field asked for twice, given twice, and a line that is not understood. -/
example : parseMeminfo "Slab: 1 kB\nSlab: 2 kB\nDirty 3\n" (some ["Slab", "Dirty", "Slab"]) =
    [("Slab", 2)] := by decide +kernel

end Collectors
end SystemReport
