import SystemReport.Collectors.Exact
import SystemReport.Reporter.Report

/-!
# The two outputs of a report

`messages_for` publishes each metric in a message of its own, and the whole snapshot as one JSON
document.  The document is a map, and a field is stored in it under its leaf name: `toJsonDict_eq`
lists what is inserted.  No leaf name is the key of another member (`suffix_of_meminfoTopicName`),
so all that can be lost is a field whose leaf name another reported field has as well.
-/

set_option autoImplicit false

namespace SystemReport
namespace Reporter

open Config Collectors Outcome

/-! ## What is inserted -/

/-- The members that are written before the fields. -/
def headMembers (snapshot : Snapshot) : List (String × Json) :=
  [("ts", .string snapshot.ts), ("version", .string version)] ++
  (snapshot.hostname.map fun name => ("hostname", Json.string name)).toList ++
  match snapshot.uptimeS with
  | some seconds =>
    [("uptime_s", .int seconds.toU64),
      ("uptime_minutes", match snapshot.uptimeMinutes with
        | some minutes => .int minutes
        | none => .null)]
  | none => []

/-- The members for the fields. -/
def fieldMembers (leaf : String → String) (snapshot : Snapshot) : List (String × Json) :=
  snapshot.meminfo.map fun e => (leaf e.1, .int e.2)

/-- The member that is written after the fields. -/
def errorMembers (snapshot : Snapshot) : List (String × Json) :=
  if snapshot.errors.isEmpty then [] else [("errors", .array (snapshot.errors.map .string))]

theorem toJsonDict_eq (toLowercase : String → String) (snapshot : Snapshot) :
    toJsonDict toLowercase snapshot true = Json.insertAll [] (headMembers snapshot ++
      fieldMembers (meminfoTopicName toLowercase) snapshot ++ errorMembers snapshot) := by
  have hfields : ∀ out, Json.insertAll out (fieldMembers (meminfoTopicName toLowercase) snapshot) =
      snapshot.meminfo.foldl (fun out e =>
        Json.insertField out (meminfoTopicName toLowercase e.1) (.int e.2)) out := by
    intro out
    rw [Json.insertAll, fieldMembers, List.foldl_map]
  rw [toJsonDict, Json.insertAll_append, Json.insertAll_append, hfields, errorMembers, headMembers]
  cases snapshot.hostname <;> cases snapshot.uptimeS <;> cases snapshot.errors.isEmpty <;> rfl

/-! ## The keys -/

/-- Every leaf name ends in `_kb`. -/
theorem suffix_of_meminfoTopicName (toLowercase : String → String) (field : String) :
    "_kb".toList <:+ (meminfoTopicName toLowercase field).toList := by
  rw [meminfoTopicName]
  split
  · rename_i known name hfind
    have htable : ∀ e ∈ meminfoTopicNames, "_kb".toList <:+ e.2.toList := by decide
    exact htable _ (List.mem_of_find?_eq_some hfind)
  · rw [String.toList_append]
    exact List.suffix_append _ _

/-- The keys of the other members. -/
def fixedKeys : List String :=
  ["ts", "version", "hostname", "uptime_s", "uptime_minutes", "errors"]

theorem keys_sublist (snapshot : Snapshot) :
    ((headMembers snapshot ++ errorMembers snapshot).map Prod.fst).Sublist fixedKeys := by
  rw [List.map_append, headMembers, errorMembers]
  cases snapshot.hostname <;> cases snapshot.uptimeS <;> cases snapshot.errors.isEmpty <;>
    simp only [Option.map_none, Option.map_some, Option.toList_none, Option.toList_some,
      List.map_append, List.map_cons, List.map_nil, if_true, Bool.false_eq_true, if_false] <;>
    decide

/-- No leaf name is the key of another member. -/
theorem meminfoTopicName_notMem (toLowercase : String → String) (field : String) :
    meminfoTopicName toLowercase field ∉ fixedKeys := by
  intro h
  have hfixed : ∀ key ∈ fixedKeys, ¬ "_kb".toList <:+ key.toList := by decide
  exact hfixed _ h (suffix_of_meminfoTopicName toLowercase field)

/-! ## Agreement -/

/-- The plain messages of a snapshot and the JSON members that they are to agree with: the topic of
each message, and the key of its member. -/
def metrics (platform : Platform) (cfg : Config) (snapshot : Snapshot) : List (String × String) :=
  (snapshot.uptimeMinutes.map fun _ => (cfg.uptimeTopic, "uptime_minutes")).toList ++
    snapshot.meminfo.map fun e =>
      (fieldTopic platform cfg e.1, meminfoTopicName platform.toLowercase e.1)

/-- The plain messages and the JSON members of a snapshot agree and lose nothing. -/
structure Agree (platform : Platform) (cfg : Config) (snapshot : Snapshot)
    (plain : List (String × String)) (members : List (String × Json)) : Prop where
  /-- A payload is the decimal text of the member for the same metric. -/
  payloads : plain.Forall₂ (fun message metric => message.1 = metric.1 ∧
    ∃ n : ℤ, members.lookup metric.2 = some (.int n) ∧ message.2 = toString n)
    (metrics platform cfg snapshot)
  /-- Every field has a member of its own with its value. -/
  own : (fieldMembers (meminfoTopicName platform.toLowercase) snapshot).Sublist members
  /-- No other member is overwritten. -/
  kept : ∀ e ∈ headMembers snapshot ++ errorMembers snapshot, members.lookup e.1 = some e.2

section

variable {platform : Platform} {cfg : Config} {snapshot : Snapshot}

theorem nodup_toJsonDict (toLowercase : String → String) (snapshot : Snapshot) :
    ((toJsonDict toLowercase snapshot true).map Prod.fst).Nodup := by
  rw [toJsonDict_eq]
  exact Json.nodup_insertAll (by simp)

theorem map_fst_fieldMembers (leaf : String → String) (snapshot : Snapshot) :
    (fieldMembers leaf snapshot).map Prod.fst = (snapshot.meminfo.map Prod.fst).map leaf := by
  simp [fieldMembers]

/-- A snapshot whose fields all have members of their own has fields with different leaf names. -/
theorem injOn_of_own {members : List (String × Json)} {leaf : String → String}
    (hmembers : (members.map Prod.fst).Nodup)
    (hown : (fieldMembers leaf snapshot).Sublist members) :
    Set.InjOn leaf {field | field ∈ snapshot.meminfo.map Prod.fst} := by
  have hnodup : ((snapshot.meminfo.map Prod.fst).map leaf).Nodup := by
    rw [← map_fst_fieldMembers]
    exact (hown.map Prod.fst).nodup hmembers
  intro field hfield field' hfield' heq
  exact List.inj_on_of_nodup_map hnodup hfield hfield' heq

/-- With different leaf names, the document lists everything that is inserted. -/
theorem toJsonDict_of_injOn {toLowercase : String → String}
    (hnodup : (snapshot.meminfo.map Prod.fst).Nodup)
    (h : Set.InjOn (meminfoTopicName toLowercase) {field | field ∈ snapshot.meminfo.map Prod.fst}) :
    toJsonDict toLowercase snapshot true = headMembers snapshot ++
      fieldMembers (meminfoTopicName toLowercase) snapshot ++ errorMembers snapshot := by
  rw [toJsonDict_eq, Json.insertAll_eq_append, List.nil_append]
  have hperm : (headMembers snapshot ++ fieldMembers (meminfoTopicName toLowercase) snapshot ++
      errorMembers snapshot).Perm (headMembers snapshot ++ errorMembers snapshot ++
        fieldMembers (meminfoTopicName toLowercase) snapshot) := by
    rw [List.append_assoc, List.append_assoc]
    exact List.perm_append_comm.append_left _
  rw [List.nil_append, (hperm.map Prod.fst).nodup_iff, List.map_append, map_fst_fieldMembers,
    List.nodup_append]
  refine ⟨(keys_sublist snapshot).nodup (by decide), hnodup.map_on ?_, ?_⟩
  · intro field hfield field' hfield' heq
    exact h hfield hfield' heq
  · rintro key hkey _ hleaf rfl
    obtain ⟨field, -, rfl⟩ := List.mem_map.1 hleaf
    exact meminfoTopicName_notMem toLowercase field ((keys_sublist snapshot).subset hkey)

/-- The other members are never overwritten. -/
theorem kept_toJsonDict (toLowercase : String → String) {e : String × Json}
    (he : e ∈ headMembers snapshot ++ errorMembers snapshot) :
    (toJsonDict toLowercase snapshot true).lookup e.1 = some e.2 := by
  have hfixed : e.1 ∈ fixedKeys := (keys_sublist snapshot).subset (List.mem_map_of_mem he)
  have hunique := (keys_sublist snapshot).nodup (by decide)
  rw [toJsonDict_eq]
  apply Json.lookup_insertAll
  · intro e' he' heq
    rw [List.append_assoc, List.mem_append, List.mem_append] at he'
    have hmember : e' ∈ headMembers snapshot ++ errorMembers snapshot := by
      rw [List.mem_append]
      rcases he' with he' | he' | he'
      · exact .inl he'
      · obtain ⟨field, -, rfl⟩ := List.mem_map.1 he'
        exact absurd (heq ▸ hfixed) (meminfoTopicName_notMem toLowercase _)
      · exact .inr he'
    rw [List.inj_on_of_nodup_map hunique hmember he heq]
  · left
    rw [List.append_assoc, List.mem_append, List.mem_append]
    rw [List.mem_append] at he
    tauto

/-- The plain messages about a snapshot. -/
def plainOf (platform : Platform) (cfg : Config) (snapshot : Snapshot) : List (String × String) :=
  (snapshot.uptimeMinutes.map fun minutes => (cfg.uptimeTopic, toString minutes)).toList ++
    snapshot.meminfo.map fun e => (fieldTopic platform cfg e.1, toString e.2)

theorem payloads_of_lookup {members : List (String × Json)}
    (huptime : ∀ minutes, snapshot.uptimeMinutes = some minutes →
      members.lookup "uptime_minutes" = some (.int minutes))
    (hfields : ∀ e ∈ snapshot.meminfo,
      members.lookup (meminfoTopicName platform.toLowercase e.1) = some (.int e.2)) :
    (plainOf platform cfg snapshot).Forall₂ (fun message metric => message.1 = metric.1 ∧
      ∃ n : ℤ, members.lookup metric.2 = some (.int n) ∧ message.2 = toString n)
      (metrics platform cfg snapshot) := by
  refine List.rel_append ?_ ?_
  · cases hminutes : snapshot.uptimeMinutes with
    | none => exact .nil
    | some minutes => exact .cons ⟨rfl, minutes, huptime minutes hminutes, rfl⟩ .nil
  · rw [List.forall₂_map_left_iff, List.forall₂_map_right_iff, List.forall₂_same]
    intro e he
    exact ⟨rfl, e.2, hfields e he, rfl⟩

/-- **The two outputs of a snapshot agree exactly if its fields have different leaf names.** -/
theorem agree_iff (hnodup : (snapshot.meminfo.map Prod.fst).Nodup)
    (huptime : snapshot.uptimeMinutes = snapshot.uptimeS.map wholeMinutes) :
    Agree platform cfg snapshot (plainOf platform cfg snapshot)
        (toJsonDict platform.toLowercase snapshot true) ↔
      Set.InjOn (meminfoTopicName platform.toLowercase)
        {field | field ∈ snapshot.meminfo.map Prod.fst} := by
  constructor
  · intro h
    exact injOn_of_own (nodup_toJsonDict _ _) h.own
  · intro h
    have hmembers := toJsonDict_of_injOn hnodup h
    refine ⟨payloads_of_lookup ?_ ?_, ?_, fun e => kept_toJsonDict _⟩
    · intro minutes hminutes
      obtain ⟨seconds, hseconds, -⟩ := Option.map_eq_some_iff.1 (huptime.symm.trans hminutes)
      have hmem : ("uptime_minutes", Json.int minutes) ∈
          headMembers snapshot ++ errorMembers snapshot := by
        rw [headMembers, hseconds, hminutes]
        simp
      exact kept_toJsonDict _ hmem
    · intro e he
      rw [AssocList.lookup_eq_some_iff_mem (nodup_toJsonDict _ _), hmembers]
      refine List.mem_append_left _ (List.mem_append_right _ ?_)
      exact List.mem_map.2 ⟨e, he, rfl⟩
    · rw [hmembers, List.append_assoc]
      exact (List.sublist_append_left _ _).trans (List.sublist_append_right _ _)

/-- What the collectors report under a plan. -/
theorem plain_of_plan {plan : Plan} (haccepted : Accepted platform cfg) (hplan : Plan.Of cfg plan)
    (hplain : plan.plain = true) (hjson : plan.json = true) (host : Host) :
    ∃ snapshot, collect cfg host = .ok snapshot ∧
      snapshot.meminfo = (if plan.meminfo then presentIn host plan.fields else []) ∧
      snapshot.uptimeMinutes = snapshot.uptimeS.map wholeMinutes ∧
      messagesFor platform cfg snapshot = .ok (plainOf platform cfg snapshot ++ [(cfg.jsonTopic,
        platform.json.toString (.object (toJsonDict platform.toLowercase snapshot true)))]) := by
  obtain ⟨snapshot, hcollect, hmessages⟩ := messagesFor_of_plan hplan host
    fun _ => meminfoTopic_of_plan haccepted hplan
  have hsnapshot := hcollect
  rw [collect_of_plan hplan host] at hsnapshot
  obtain rfl := Outcome.ok.inj hsnapshot
  refine ⟨_, hcollect, meminfo_collect _ _, ?_, ?_⟩
  · rw [uptimeMinutes_collect, uptimeS_collect, uptimeOf, secondsOf]
    cases plan.uptime
    · rfl
    · cases (host.reader procUptime).bind parseUptimeSeconds <;> rfl
  · rw [hmessages, Plan.messages, plainOf, uptimeMinutes_collect, meminfo_collect, hplain, hjson]
    cases plan.uptime <;> cases plan.meminfo <;> rfl

end

/-- **When the two outputs agree.**  With both outputs on, the plain messages and the JSON document
of every report of an accepted configuration agree and lose nothing, exactly if no two of the
configured fields that the host has share a leaf name. -/
theorem outputs_agree_iff (lib : SerdeYaml) (platform : Platform) (yaml hostname : String) (env : Env)
    (cfg : Config) (hcfg : fromYaml lib platform yaml hostname env = .ok cfg) (plan : Plan)
    (hplan : Plan.Of cfg plan) (hplain : plan.plain = true) (hjson : plan.json = true)
    (host : Host) :
    ∃ snapshot plain, collect cfg host = .ok snapshot ∧
      messagesFor platform cfg snapshot = .ok (plain ++ [(cfg.jsonTopic,
        platform.json.toString (.object (toJsonDict platform.toLowercase snapshot true)))]) ∧
      (Agree platform cfg snapshot plain (toJsonDict platform.toLowercase snapshot true) ↔
        Set.InjOn (meminfoTopicName platform.toLowercase)
          {field | plan.meminfo = true ∧ field ∈ plan.fields ∧ Present host field}) := by
  obtain ⟨haccepted, -⟩ := accepted_of_fromYaml hcfg
  obtain ⟨snapshot, hcollect, hmeminfo, huptime, hmessages⟩ :=
    plain_of_plan haccepted hplan hplain hjson host
  have hnodup : (snapshot.meminfo.map Prod.fst).Nodup := by
    rw [hmeminfo]
    split_ifs
    · exact nodup_presentIn host plan.fields
    · simp
  have hreported : {field | field ∈ snapshot.meminfo.map Prod.fst} =
      {field | plan.meminfo = true ∧ field ∈ plan.fields ∧ Present host field} := by
    ext field
    rw [Set.mem_ofPred_eq, Set.mem_ofPred_eq, hmeminfo]
    by_cases hmem : plan.meminfo = true
    · rw [if_pos hmem, mem_map_presentIn]
      simp [hmem]
    · simp [hmem]
  refine ⟨snapshot, _, hcollect, hmessages, ?_⟩
  rw [← hreported]
  exact agree_iff hnodup huptime

/-- The plan of the defaults. -/
def defaultPlan : Plan where
  plain := true
  json := true
  uptime := true
  meminfo := true
  fields := ["MemTotal", "MemFree", "MemAvailable", "Buffers", "Cached", "Shmem", "Slab",
    "SReclaimable", "SUnreclaim", "KernelStack", "PageTables", "VmallocUsed", "SwapTotal",
    "SwapFree"]

/-- A host with two of the fields of the defaults. -/
def slabHost : Host where
  now := "2026-09-20T12:34:56Z"
  hostname := .ok "host"
  reader path := if path = procMeminfo then .ok "Slab: 61204 kB\nMemFree: 1024 kB\n" else .error "nope"

/-- Both are reported, in the order of the configuration, and the outputs agree. -/
theorem outputs_agree_iff_slab : ∃ cfg snapshot plain,
    fromYaml .defaultsOnly .empty "" "host" (fun _ => none) = .ok cfg ∧
      collect cfg slabHost = .ok snapshot ∧
      snapshot.meminfo = [("MemFree", 1024), ("Slab", 61204)] ∧
      messagesFor .empty cfg snapshot = .ok (plain ++ [(cfg.jsonTopic,
        Platform.empty.json.toString
          (.object (toJsonDict Platform.empty.toLowercase snapshot true)))]) ∧
      Agree .empty cfg snapshot plain (toJsonDict Platform.empty.toLowercase snapshot true) := by
  obtain ⟨cfg, hcfg, hdata⟩ := fromYaml_defaultsOnly
  have hplan : Plan.Of cfg defaultPlan := by
    constructor
    · rw [hdata]
      rfl
    · rw [hdata]
      rfl
    · rw [uptimeEnabled, hdata]
      rfl
    · rw [meminfoEnabled, hdata]
      rfl
    · rw [meminfoFields, hdata]
      rfl
  obtain ⟨snapshot, plain, hcollect, hmessages, hagree⟩ :=
    outputs_agree_iff _ _ _ _ _ cfg hcfg _ hplan rfl rfl slabHost
  have hpresent : presentIn slabHost defaultPlan.fields = [("MemFree", 1024), ("Slab", 61204)] := by
    decide
  have hmeminfo : snapshot.meminfo = [("MemFree", 1024), ("Slab", 61204)] := by
    rw [collect_of_plan hplan slabHost] at hcollect
    obtain rfl := Outcome.ok.inj hcollect
    rw [meminfo_collect]
    exact hpresent
  refine ⟨cfg, snapshot, plain, hcfg, hcollect, hmeminfo, hmessages, hagree.2 ?_⟩
  rintro field ⟨-, hfield, -⟩ field' ⟨-, hfield', -⟩
  revert field field'
  decide

/-- A document that configures two fields with one leaf name. -/
def twoFields : Yaml.Document :=
  ⟨.mapping [entry "metrics" (.mapping [entry "meminfo" (.mapping [
    entry "fields" (.sequence [.string "FooBar", .string "Foo_Bar"])])])], rfl⟩

/-- A parser that knows it. -/
def twoFieldsYaml : SerdeYaml :=
  .knowing [("metrics: \x7bmeminfo: \x7bfields: [FooBar, Foo_Bar]\x7d\x7d", twoFields)]

/-- A host with both fields. -/
def twoFieldsHost : Host where
  now := "2026-09-20T12:34:56Z"
  hostname := .ok "host"
  reader path := if path = procMeminfo then .ok "FooBar: 1 kB\nFoo_Bar: 2 kB\n" else .error "nope"

/-- The first field is published as 1, and its member in the document is 2. -/
def disagrees (cfg : Config) : Outcome ConfigError PUnit := do
  let snapshot ← collect cfg twoFieldsHost
  let messages ← messagesFor .empty cfg snapshot
  let plain ← .unwrap ((cfg.data.index "report").index "publish_plain").asBool
  let json ← .unwrap ((cfg.data.index "report").index "publish_json").asBool
  .ensure (decide (plain = true ∧ json = true ∧ ("FooBar", 1) ∈ snapshot.meminfo ∧
      ("/host/oper_state/foo_bar_kb", "1") ∈ messages) &&
    match (toJsonDict Platform.empty.toLowercase snapshot true).lookup "foo_bar_kb" with
    | some (.int n) => n == 2
    | _ => false) (fail "" "")

/-- With one leaf name, the second field overwrites the first in the document. -/
theorem twoFields_disagree : ∃ cfg snapshot messages,
    fromYaml twoFieldsYaml .empty "metrics: \x7bmeminfo: \x7bfields: [FooBar, Foo_Bar]\x7d\x7d" "host"
      (fun _ => none) = .ok cfg ∧
    ((cfg.data.index "report").index "publish_plain").asBool = some true ∧
    ((cfg.data.index "report").index "publish_json").asBool = some true ∧
    collect cfg twoFieldsHost = .ok snapshot ∧ ("FooBar", 1) ∈ snapshot.meminfo ∧
    messagesFor .empty cfg snapshot = .ok messages ∧
    ("/host/oper_state/foo_bar_kb", "1") ∈ messages ∧
    meminfoTopicName Platform.empty.toLowercase "FooBar" = "foo_bar_kb" ∧
    (toJsonDict Platform.empty.toLowercase snapshot true).lookup "foo_bar_kb" = some (.int 2) := by
  rw [twoFieldsYaml, fromYaml_knowing (by decide +kernel) rfl rfl]
  have hok : ((fromDocument .empty defaults twoFields.value "host" fun _ => none) >>=
      disagrees).isOk = true := by
    decide +kernel
  obtain ⟨_, hdisagrees⟩ := isOk_iff.1 hok
  obtain ⟨cfg, hcfg, hdisagrees⟩ := bind_eq_ok.1 hdisagrees
  obtain ⟨snapshot, hcollect, hdisagrees⟩ := bind_eq_ok.1 hdisagrees
  obtain ⟨messages, hmessages, hdisagrees⟩ := bind_eq_ok.1 hdisagrees
  obtain ⟨plain, hplain, hdisagrees⟩ := bind_eq_ok.1 hdisagrees
  obtain ⟨json, hjson, hdisagrees⟩ := bind_eq_ok.1 hdisagrees
  obtain ⟨hdecide, hmember⟩ := (Bool.and_eq_true _ _).mp (ensure_eq_ok.1 hdisagrees)
  obtain ⟨rfl, rfl, hfield, hmessage⟩ := of_decide_eq_true hdecide
  refine ⟨cfg, snapshot, messages, hcfg, unwrap_eq_ok.1 hplain, unwrap_eq_ok.1 hjson, hcollect, hfield,
    hmessages, hmessage, by decide, ?_⟩
  split at hmember
  · rename_i n hn
    rw [hn, beq_iff_eq.1 hmember]
  · cases hmember

end Reporter
end SystemReport
