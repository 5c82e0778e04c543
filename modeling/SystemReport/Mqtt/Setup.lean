import SystemReport.Config.Accepted
import SystemReport.Mqtt.Link
import SystemReport.Mqtt.Tls

/-!
# Building a publisher

`Publisher::with_clock`: what the publisher takes from the configuration.  Every value it reads has
been validated, so none of its `unwrap`s can panic (`withClock_ne_panicked`).
-/

set_option autoImplicit false

open Yaml

namespace SystemReport
namespace Mqtt

/-- `LastWill`. -/
structure LastWill where
  topic : String
  message : String
  qos : QoS
  retain : Bool

/-- `MqttOptions`, as far as they are set here; without a transport, the connection is plain TCP. -/
structure MqttOptions (Connector : Type) where
  clientId : String
  host : String
  port : UInt16
  cleanSession : Bool
  keepAlive : Duration
  lastWill : LastWill
  credentials : Option (String × String)
  transport : Option Connector

/-- `Publisher`, before its network thread is started. -/
structure Publisher (Connector : Type) where
  options : MqttOptions Connector
  settings : Settings
  timeout : Duration
  state : State

/-- `qos`. -/
def qosOf (n : UInt64) : QoS :=
  if n = 0 then .atMostOnce else if n = 1 then .atLeastOnce else .exactlyOnce

/-- The `?` operator on the result of a library. -/
def attempt {α : Type} : Except String α → Outcome String α
  | .ok a => .ok a
  | .error e => .err e

variable {Certificate Identity Connector : Type}

/-- The certificates of `ca_certs`. -/
def rootCertificates (lib : NativeTls Certificate Identity Connector) (platform : Platform)
    (tls : Value) : Outcome String (List Certificate) :=
  match (tls.index "ca_certs").asStr with
  | some path => do
    let pem ← attempt (platform.readFile path)
    attempt (trustAnchors lib pem)
  | none => .ok []

/-- The client certificate of `certfile`, whose key is in `keyfile` or else in the same file. -/
def clientIdentity (lib : NativeTls Certificate Identity Connector) (platform : Platform)
    (tls : Value) : Outcome String (Option Identity) :=
  match (tls.index "certfile").asStr with
  | some cert => do
    let key := (tls.index "keyfile").asStr.getD cert
    let identity ← attempt (identity lib platform cert key)
    .ok (some identity)
  | none => .ok none

/-- The TLS connector of `with_clock`, where TLS is enabled. -/
def connector (lib : NativeTls Certificate Identity Connector) (platform : Platform) (tls : Value) :
    Outcome String Connector := do
  let roots ← rootCertificates lib platform tls
  let identity ← clientIdentity lib platform tls
  let insecure ← .unwrap (tls.index "insecure").asBool
  attempt (lib.build
    { rootCertificates := roots
      builtInRoots := (tls.index "ca_certs").asStr.isNone
      identity
      acceptInvalidHostnames := insecure })

/-- The transport of `with_clock`; none is plain TCP. -/
def transport (lib : NativeTls Certificate Identity Connector) (platform : Platform) (tls : Value) :
    Outcome String (Option Connector) := do
  let enabled ← .unwrap (tls.index "enabled").asBool
  if enabled then do
    let connector ← connector lib platform tls
    .ok (some connector)
  else .ok none

/-- The `MqttOptions` of `with_clock`. -/
def mqttOptions (lib : NativeTls Certificate Identity Connector) (platform : Platform)
    (cfg : Config) : Outcome String (MqttOptions Connector) := do
  let m := cfg.data.index "mqtt"
  let t := cfg.data.index "topics"
  let host ← .unwrap (m.index "host").asStr
  let port ← .unwrap (m.index "port").asU64
  let cleanSession ← .unwrap (m.index "clean_session").asBool
  let keepAlive ← .unwrap (m.index "keepalive_secs").asU64
  let offline ← .unwrap (t.index "payload_offline").asStr
  let statusRetain ← .unwrap (t.index "status_retain").asBool
  let credentials := ((m.index "username").asStr.filter (· ≠ "")).map fun user =>
    (user, cfg.password.getD "")
  let transport ← transport lib platform (m.index "tls")
  .ok
    { clientId := cfg.clientId
      host
      port := port.toUInt16
      cleanSession
      keepAlive := .fromSecs keepAlive
      lastWill := ⟨cfg.statusTopic, offline, .atLeastOnce, statusRetain⟩
      credentials
      transport }

/-- What `with_clock` copies from the configuration. -/
def settings (usizeMax : ℕ) (cfg : Config) (cleanSession : Bool) :
    Outcome String (Settings × Duration) := do
  let m := cfg.data.index "mqtt"
  let t := cfg.data.index "topics"
  let online ← .unwrap (t.index "payload_online").asStr
  let offline ← .unwrap (t.index "payload_offline").asStr
  let statusRetain ← .unwrap (t.index "status_retain").asBool
  let qos ← .unwrap (m.index "qos").asU64
  let retain ← .unwrap (m.index "retain").asBool
  let timeout ← .unwrap (m.index "publish_timeout_secs").asF64
  let timeout ← .okOr "cannot convert float seconds to Duration: value is either too big or NaN"
    (Duration.tryFromSecsF64 timeout)
  let recreate ← .unwrap (m.index "recreate_client_after_secs").asU64
  let minDelay ← .unwrap (m.index "reconnect_min_delay_secs").asU64
  let maxDelay ← .unwrap (m.index "reconnect_max_delay_secs").asU64
  let capacity ← .unwrap (m.index "max_queued_messages").asU64
  .ensure (decide (capacity.toNat ≤ usizeMax)) "out of range integral type conversion attempted"
  .ok
    ({ cleanSession
       status := cfg.statusTopic
       online
       offline
       statusRetain
       qos := qosOf qos
       retain
       recreate := .fromSecs recreate
       minDelay := .fromSecs minDelay
       maxDelay := .fromSecs maxDelay
       capacity := capacity.toNat }, timeout)

/-- `Publisher::with_clock`, on a machine whose largest `usize` is given, at a time on its clock. -/
def withClock (lib : NativeTls Certificate Identity Connector) (platform : Platform) (usizeMax : ℕ)
    (cfg : Config) (now : Duration) : Outcome String (Publisher Connector) := do
  let options ← mqttOptions lib platform cfg
  let (settings, timeout) ← settings usizeMax cfg options.cleanSession
  .ok ⟨options, settings, timeout, ⟨false, now, 0, none⟩⟩

/-! ## No panic -/

open Config Outcome

theorem attempt_ne_panicked {α : Type} (x : Except String α) : attempt x ≠ .panicked := by
  cases x <;> exact nofun

section Accepted

variable (lib : NativeTls Certificate Identity Connector) (platform : Platform) {cfg : Config}

theorem connector_ne_panicked (h : Shaped cfg.data) :
    connector lib platform ((cfg.data.index "mqtt").index "tls") ≠ .panicked := by
  refine bind_ne_panicked ?_ fun _ _ => bind_ne_panicked ?_ fun _ _ => ?_
  · rw [rootCertificates]
    split
    · exact bind_ne_panicked (attempt_ne_panicked _) fun _ _ => attempt_ne_panicked _
    · exact nofun
  · rw [clientIdentity]
    split
    · exact bind_ne_panicked (attempt_ne_panicked _) fun _ _ => nofun
    · exact nofun
  · exact unwrap_bind_ne_panicked (h.bool ["mqtt", "tls", "insecure"] rfl) fun _ =>
      attempt_ne_panicked _

theorem transport_ne_panicked (h : Shaped cfg.data) :
    transport lib platform ((cfg.data.index "mqtt").index "tls") ≠ .panicked := by
  refine unwrap_bind_ne_panicked (h.bool ["mqtt", "tls", "enabled"] rfl) fun enabled => ?_
  split
  · exact bind_ne_panicked (connector_ne_panicked lib platform h) fun _ _ => nofun
  · exact nofun

theorem mqttOptions_ne_panicked (h : Shaped cfg.data) :
    mqttOptions lib platform cfg ≠ .panicked := by
  refine unwrap_bind_ne_panicked (h.isText ["mqtt", "host"] rfl (by decide)) fun _ => ?_
  refine unwrap_bind_ne_panicked (h.isU64 ["mqtt", "port"] rfl) fun _ => ?_
  refine unwrap_bind_ne_panicked (h.bool ["mqtt", "clean_session"] rfl) fun _ => ?_
  refine unwrap_bind_ne_panicked (h.isU64 ["mqtt", "keepalive_secs"] rfl) fun _ => ?_
  refine unwrap_bind_ne_panicked (h.isText ["topics", "payload_offline"] rfl (by decide)) fun _ => ?_
  refine unwrap_bind_ne_panicked (h.bool ["topics", "status_retain"] rfl) fun _ => ?_
  exact bind_ne_panicked (transport_ne_panicked lib platform h) fun _ _ => nofun

theorem settings_ne_panicked (h : Shaped cfg.data) (usizeMax : ℕ) (cleanSession : Bool) :
    settings usizeMax cfg cleanSession ≠ .panicked := by
  refine unwrap_bind_ne_panicked (h.isText ["topics", "payload_online"] rfl (by decide)) fun _ => ?_
  refine unwrap_bind_ne_panicked (h.isText ["topics", "payload_offline"] rfl (by decide)) fun _ => ?_
  refine unwrap_bind_ne_panicked (h.bool ["topics", "status_retain"] rfl) fun _ => ?_
  refine unwrap_bind_ne_panicked (h.isU64 ["mqtt", "qos"] rfl) fun _ => ?_
  refine unwrap_bind_ne_panicked (h.bool ["mqtt", "retain"] rfl) fun _ => ?_
  refine unwrap_bind_ne_panicked (h.isF64 ["mqtt", "publish_timeout_secs"] rfl) fun _ => ?_
  refine bind_ne_panicked (okOr_ne_panicked _ _) fun _ _ => ?_
  refine unwrap_bind_ne_panicked (h.isU64 ["mqtt", "recreate_client_after_secs"] rfl) fun _ => ?_
  refine unwrap_bind_ne_panicked (h.isU64 ["mqtt", "reconnect_min_delay_secs"] rfl) fun _ => ?_
  refine unwrap_bind_ne_panicked (h.isU64 ["mqtt", "reconnect_max_delay_secs"] rfl) fun _ => ?_
  refine unwrap_bind_ne_panicked (h.isU64 ["mqtt", "max_queued_messages"] rfl) fun _ => ?_
  exact bind_ne_panicked (ensure_ne_panicked _ _) fun _ _ => nofun

/-- **`with_clock` does not panic** on a configuration of the right shape. -/
theorem withClock_ne_panicked (h : Shaped cfg.data) (usizeMax : ℕ) (now : Duration) :
    withClock lib platform usizeMax cfg now ≠ .panicked :=
  bind_ne_panicked (mqttOptions_ne_panicked lib platform h) fun _ _ =>
    bind_ne_panicked (settings_ne_panicked h usizeMax _) fun _ _ => nofun

end Accepted

/-- The publisher announces itself, and has its last will announced, on the status topic. -/
theorem statusTopic_of_withClock {lib : NativeTls Certificate Identity Connector}
    {platform : Platform} {cfg : Config} {usizeMax : ℕ} {now : Duration}
    {publisher : Publisher Connector}
    (h : withClock lib platform usizeMax cfg now = .ok publisher) :
    publisher.options.lastWill.topic = cfg.statusTopic ∧
      publisher.settings.status = cfg.statusTopic := by
  obtain ⟨options, hoptions, h⟩ := bind_eq_ok.1 h
  obtain ⟨⟨settings, timeout⟩, hsettings, h⟩ := bind_eq_ok.1 h
  cases h
  simp only [mqttOptions, bind_eq_ok] at hoptions
  simp only [SystemReport.Mqtt.settings, bind_eq_ok] at hsettings
  obtain ⟨_, -, _, -, _, -, _, -, _, -, _, -, _, -, hoptions⟩ := hoptions
  obtain ⟨_, -, _, -, _, -, _, -, _, -, _, -, _, -, _, -, _, -, _, -, _, -, _, -, hsettings⟩ := hsettings
  cases hoptions
  cases hsettings
  exact ⟨rfl, rfl⟩

end Mqtt
end SystemReport
