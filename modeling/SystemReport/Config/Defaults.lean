import SystemReport.Lib.Yaml

/-!
# The built-in defaults

The text of `src/defaults.yaml`, and the tree it stands for.
-/

set_option autoImplicit false

open Yaml

namespace SystemReport
namespace Config

/-- `DEFAULTS_YAML`, the text of `src/defaults.yaml`. -/
def defaultsYaml : String :=
  "\n".intercalate [
    "mqtt:",
    "  host: localhost",
    "  port: 1883",
    "  client_id: null",
    "  keepalive_secs: 60",
    "  username: null",
    "  password: null",
    "  password_file: null",
    "  password_env: SYSTEM_REPORT_MQTT_PASSWORD",
    "  qos: 0",
    "  retain: false",
    "  clean_session: true",
    "  reconnect_min_delay_secs: 1",
    "  reconnect_max_delay_secs: 120",
    "  recreate_client_after_secs: 900",
    "  publish_timeout_secs: 10.0",
    "  max_queued_messages: 100",
    "  tls:",
    "    enabled: false",
    "    ca_certs: null",
    "    certfile: null",
    "    keyfile: null",
    "    insecure: false",
    "topics:",
    "  prefix: /\x7bhostname\x7d",
    "  status: '\x7bprefix\x7d/oper_state/status'",
    "  json: '\x7bprefix\x7d/oper_state/json'",
    "  payload_online: online",
    "  payload_offline: offline",
    "  status_retain: true",
    "report:",
    "  interval_secs: 600",
    "  report_on_start: true",
    "  publish_plain: true",
    "  publish_json: true",
    "metrics:",
    "  uptime_minutes:",
    "    enabled: true",
    "    topic: '\x7bprefix\x7d/oper_uptime_minutes'",
    "  meminfo:",
    "    enabled: true",
    "    topic: '\x7bprefix\x7d/oper_state/\x7bname\x7d'",
    "    fields: [MemTotal, MemFree, MemAvailable, Buffers, Cached, Shmem, Slab, " ++
      "SReclaimable, SUnreclaim, KernelStack, PageTables, VmallocUsed, SwapTotal, SwapFree]",
    "knobs:",
    "  log_to_console: false",
    "  log_level_debug: false",
    ""]

/-- An entry under a string. -/
def entry (key : String) (v : Value) : Value × Value := (.string key, v)

/-- An unsigned number. -/
def int (n : UInt64) : Value := .number (.posInt n)

/-- The entries of the `mqtt` section. -/
def mqttEntries : Mapping :=
  [ entry "host" (.string "localhost"),
    entry "port" (int 1883),
    entry "client_id" .null,
    entry "keepalive_secs" (int 60),
    entry "username" .null,
    entry "password" .null,
    entry "password_file" .null,
    entry "password_env" (.string "SYSTEM_REPORT_MQTT_PASSWORD"),
    entry "qos" (int 0),
    entry "retain" (.bool false),
    entry "clean_session" (.bool true),
    entry "reconnect_min_delay_secs" (int 1),
    entry "reconnect_max_delay_secs" (int 120),
    entry "recreate_client_after_secs" (int 900),
    entry "publish_timeout_secs" (.number (.float (.finite 10))),
    entry "max_queued_messages" (int 100),
    entry "tls" (.mapping [
      entry "enabled" (.bool false),
      entry "ca_certs" .null,
      entry "certfile" .null,
      entry "keyfile" .null,
      entry "insecure" (.bool false)])]

/-- The `mqtt` section. -/
def defaultMqtt : Value := .mapping mqttEntries

/-- The `topics` section. -/
def defaultTopics : Value :=
  .mapping [
    entry "prefix" (.string "/\x7bhostname\x7d"),
    entry "status" (.string "\x7bprefix\x7d/oper_state/status"),
    entry "json" (.string "\x7bprefix\x7d/oper_state/json"),
    entry "payload_online" (.string "online"),
    entry "payload_offline" (.string "offline"),
    entry "status_retain" (.bool true)]

/-- The `report` section. -/
def defaultReport : Value :=
  .mapping [
    entry "interval_secs" (int 600),
    entry "report_on_start" (.bool true),
    entry "publish_plain" (.bool true),
    entry "publish_json" (.bool true)]

/-- The `metrics` section. -/
def defaultMetrics : Value :=
  .mapping [
    entry "uptime_minutes" (.mapping [
      entry "enabled" (.bool true),
      entry "topic" (.string "\x7bprefix\x7d/oper_uptime_minutes")]),
    entry "meminfo" (.mapping [
      entry "enabled" (.bool true),
      entry "topic" (.string "\x7bprefix\x7d/oper_state/\x7bname\x7d"),
      entry "fields" (.sequence [.string "MemTotal", .string "MemFree", .string "MemAvailable",
        .string "Buffers", .string "Cached", .string "Shmem", .string "Slab",
        .string "SReclaimable", .string "SUnreclaim", .string "KernelStack",
        .string "PageTables", .string "VmallocUsed", .string "SwapTotal", .string "SwapFree"])])]

/-- The `knobs` section. -/
def defaultKnobs : Value :=
  .mapping [
    entry "log_to_console" (.bool false),
    entry "log_level_debug" (.bool false)]

/-- The tree of `DEFAULTS_YAML`. -/
def defaults : Value :=
  .mapping [
    entry "mqtt" defaultMqtt,
    entry "topics" defaultTopics,
    entry "report" defaultReport,
    entry "metrics" defaultMetrics,
    entry "knobs" defaultKnobs]

theorem wf_defaults : defaults.wf = true := by decide

end Config
end SystemReport
