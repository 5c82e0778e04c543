import SystemReport.Lib.JsonText
import SystemReport.Reporter.Agreement

/-!
# What a subscriber reads

The payloads of a report are JSON texts: a number for each metric, and an object for the snapshot.
`reads_of_plan` says what a reader finds in them, in terms of the files below `/proc`.
-/

set_option autoImplicit false

namespace SystemReport
namespace Reporter

open Config Collectors Outcome

/-! ## The numbers -/

/-- The fields that are reported. -/
def Plan.reported (plan : Plan) (host : Host) : Meminfo :=
  if plan.meminfo then presentIn host plan.fields else []

/-- The minutes of uptime that are reported. -/
def Plan.minutes (plan : Plan) (host : Host) : Option ℕ :=
  if plan.uptime then uptimeOf host else none

/-- The name of the host in the document. -/
def hostnameIn (cfg : Config) (host : Host) : Option String :=
  if cfg.hostname = "" then host.hostname.toOption else some cfg.hostname

/-- The problems that the document names. -/
def Plan.problems (plan : Plan) (cfg : Config) (host : Host) : List String :=
  (if plan.uptime then uptimeErrors host else []) ++
    (if plan.meminfo then meminfoErrors plan.fields host else []) ++
    hostnameErrors (some cfg.hostname) host

/-- What the members of a document say about the host. -/
structure Tells (leaf : String → String) (cfg : Config) (plan : Plan) (host : Host)
    (members : List (String × Json)) : Prop where
  nodup : (members.map Prod.fst).Nodup
  time : members.lookup "ts" = some (.string host.now)
  version : members.lookup "version" = some (.string version)
  hostname : members.lookup "hostname" = (hostnameIn cfg host).map .string
  seconds : members.lookup "uptime_s" =
    (if plan.uptime then secondsOf host else none).map fun seconds => .int seconds.toU64
  minutes : members.lookup "uptime_minutes" =
    (plan.minutes host).map fun minutes : ℕ => .int minutes
  errors : members.lookup "errors" =
    if (plan.problems cfg host).isEmpty then none
    else some (.array ((plan.problems cfg host).map .string))
  /-- Any other key belongs to the fields with this leaf name; the last of them counts. -/
  field : ∀ key ∉ fixedKeys, members.lookup key =
    ((plan.reported host).reverse.find? fun e => leaf e.1 == key).map fun e => .int e.2

section Document

variable (toLowercase : String → String) (snapshot : Snapshot)

end Document

/-! ## A whole report -/

/-- A field with a leaf name of its own is found under it. -/
theorem Tells.own {toLowercase : String → String} {cfg : Config} {plan : Plan} {host : Host}
    {members : List (String × Json)}
    (h : Tells (meminfoTopicName toLowercase) cfg plan host members) {e : String × ℤ}
    (he : e ∈ plan.reported host) (hown : ∀ e' ∈ plan.reported host,
      meminfoTopicName toLowercase e'.1 = meminfoTopicName toLowercase e.1 → e' = e) :
    members.lookup (meminfoTopicName toLowercase e.1) = some (.int e.2) := by
  rw [h.field _ (meminfoTopicName_notMem toLowercase e.1)]
  cases hfind : (plan.reported host).reverse.find? fun e' =>
      meminfoTopicName toLowercase e'.1 == meminfoTopicName toLowercase e.1 with
  | none => exact absurd (beq_self_eq_true _) (List.find?_eq_none.1 hfind e (List.mem_reverse.2 he))
  | some e' =>
    have hmem := List.mem_reverse.1 (List.mem_of_find?_eq_some hfind)
    have hsame := List.find?_some hfind
    rw [hown e' hmem (beq_iff_eq.1 hsame)]
    rfl

end Reporter
end SystemReport
