import SystemReport.Lib.F64Bounds
import SystemReport.Mqtt.Announce

/-!
# The numbers of a configuration

`validate_shape` bounds the numbers of a configuration by the paths where they are; `with_clock`
narrows and converts what it reads.  On a 64-bit machine the two agree about every integer
(`exact_of_withClock`): none is truncated and none saturates.

They do not agree about `publish_timeout_secs`, which has no upper bound in the validator, while a
`Duration` has one.  `withClock_ok_iff` says exactly when a publisher can be built.
-/

set_option autoImplicit false

namespace SystemReport

open Config Outcome

/-! ## The seconds of a `Duration` -/

namespace Duration

/-- The duration is this number of seconds. -/
def IsSecs (d : Duration) (secs : UInt64) : Prop := d.nanos = secs.toNat * 1000000000

/-- The seconds from which `try_from_secs_f64` fails: half a nanosecond below `2 ^ 64`. -/
def limit : ℚ := 2 ^ 64 - 1 / (2 * 1000000000)

theorem tryFromSecsF64_eq_some {secs : ℚ} (h : 0 ≤ secs) :
    (∃ d, tryFromSecsF64 (.finite secs) = some d) ↔ secs < limit := by
  have hnonneg : 0 ≤ F64.roundEven (secs * 1000000000) :=
    F64.le_roundEven (by push_cast; positivity)
  have hodd : ((maxNanos : ℕ) : ℤ) % 2 = 1 := by decide
  have hround : (F64.roundEven (secs * 1000000000)).toNat ≤ maxNanos ↔ secs < limit := by
    rw [← Int.ofNat_le, Int.toNat_of_nonneg hnonneg, F64.roundEven_le_of_odd hodd, limit,
      maxNanos]
    push_cast
    constructor <;> intro hlt <;> linarith
  rw [tryFromSecsF64, ← hround]
  constructor
  · rintro ⟨d, hd⟩
    split at hd
    · rename_i hfits
      exact hfits.2
    · cases hd
  · intro hle
    exact ⟨_, dif_pos ⟨h, hle⟩⟩

/-- Of the doubles, these are the ones below `2 ^ 64`. -/
theorem lt_limit_iff_of_double {r secs : ℚ} (h : F64.ofRat r = .finite secs) :
    secs < limit ↔ secs < 2 ^ 64 := by
  constructor
  · intro hlt
    rw [limit] at hlt
    linarith
  · intro hlt
    have hgap := F64.le_of_ofRat_lt h hlt
    rw [limit]
    linarith

end Duration

namespace Mqtt

/-! ## What a publisher takes from the configuration -/

/-- The level of service, as it is written in a configuration. -/
def QoS.level : QoS → ℕ
  | .atMostOnce => 0
  | .atLeastOnce => 1
  | .exactlyOnce => 2

/-- The integer of the `mqtt` section under a key. -/
def configured (cfg : Config) (key : String) : Option UInt64 :=
  ((cfg.data.index "mqtt").index key).asU64

/-- `publish_timeout_secs`. -/
def publishTimeout (cfg : Config) : Option F64 :=
  ((cfg.data.index "mqtt").index "publish_timeout_secs").asF64

/-- TLS is disabled. -/
def PlainTcp (cfg : Config) : Prop :=
  (((cfg.data.index "mqtt").index "tls").index "enabled").asBool = some false

variable {Certificate Identity Connector : Type}

/-- The publisher works with the numbers that are in the configuration, and what it gives to
`rumqttc`'s setters is a client id that is not empty and at least 5 seconds to keep the connection
alive. -/
structure Exact (cfg : Config) (publisher : Publisher Connector) : Prop where
  clientId : publisher.options.clientId ≠ ""
  keepAlive_ge : Duration.fromSecs 5 ≤ publisher.options.keepAlive
  port : ∃ n, configured cfg "port" = some n ∧ publisher.options.port.toNat = n.toNat
  keepAlive : ∃ n, configured cfg "keepalive_secs" = some n ∧
    publisher.options.keepAlive.IsSecs n
  qos : ∃ n, configured cfg "qos" = some n ∧ publisher.settings.qos.level = n.toNat
  minDelay : ∃ n, configured cfg "reconnect_min_delay_secs" = some n ∧
    publisher.settings.minDelay.IsSecs n
  maxDelay : ∃ n, configured cfg "reconnect_max_delay_secs" = some n ∧
    publisher.settings.maxDelay.IsSecs n
  recreate : ∃ n, configured cfg "recreate_client_after_secs" = some n ∧
    publisher.settings.recreate.IsSecs n
  capacity : ∃ n, configured cfg "max_queued_messages" = some n ∧
    publisher.settings.capacity = n.toNat
  timeout : ∃ secs, publishTimeout cfg = some secs ∧
    Duration.tryFromSecsF64 secs = some publisher.timeout

section Accepted

variable {tls : NativeTls Certificate Identity Connector} {platform : Platform} {cfg : Config}
  {usizeMax : ℕ} {now : Duration} {publisher : Publisher Connector}

theorem level_qosOf {n : UInt64} (h : n.toNat ≤ 2) : (qosOf n).level = n.toNat := by
  rw [qosOf]
  split_ifs with h0 h1
  · simp [h0, QoS.level]
  · simp [h1, QoS.level]
  · have h0' : n.toNat ≠ 0 := fun h => h0 (UInt64.toNat.inj h)
    have h1' : n.toNat ≠ 1 := fun h => h1 (UInt64.toNat.inj h)
    rw [QoS.level]
    omega

/-- The client id is the configured one, which is not blank, or starts with the program's name. -/
theorem clientId_ne_empty (h : Shaped cfg.data) : cfg.clientId ≠ "" := by
  rw [clientId]
  cases hid : ((cfg.data.index "mqtt").index "client_id").asStr with
  | none => simp [appName]
  | some id =>
    have hblank := h.nullable ["mqtt", "client_id"] rfl hid
    rintro rfl
    cases hblank

theorem configured_bounds (h : Shaped cfg.data) {key : String} {n default : UInt64}
    (hfield : fieldAt defaults ["mqtt", key] = some (int default))
    (hn : configured cfg key = some n) :
    (bounds (joinPath (joinPath "" "mqtt") key)).1 ≤ n.toNat ∧
      n.toNat ≤ (bounds (joinPath (joinPath "" "mqtt") key)).2 := by
  obtain ⟨n', hn', hbounds⟩ := h.u64 ["mqtt", key] hfield
  obtain rfl := Option.some.inj (hn.symm.trans hn')
  exact hbounds

/-- **Nothing is cut off and nothing saturates.** -/
theorem exact_of_withClock (h : Shaped cfg.data)
    (hok : withClock tls platform usizeMax cfg now = .ok publisher) : Exact cfg publisher := by
  obtain ⟨options, hoptions, hok⟩ := bind_eq_ok.1 hok
  obtain ⟨⟨settings, timeout⟩, hsettings, hok⟩ := bind_eq_ok.1 hok
  cases hok
  simp only [mqttOptions, bind_eq_ok, unwrap_eq_ok] at hoptions
  obtain ⟨_, -, port, hport, _, -, alive, halive, _, -, _, -, _, -, hoptions⟩ := hoptions
  cases hoptions
  simp only [SystemReport.Mqtt.settings, bind_eq_ok, unwrap_eq_ok] at hsettings
  obtain ⟨_, -, _, -, _, -, qos, hqos, _, -, secs, hsecs, timeout, htimeout, recreate, hrecreate,
    low, hlow, high, hhigh, capacity, hcapacity, _, -, hsettings⟩ := hsettings
  cases hsettings
  have hport' : port.toNat ≤ 65535 := (configured_bounds h rfl hport).2
  have halive' : 5 ≤ alive.toNat := (configured_bounds h rfl halive).1
  have hqos' : qos.toNat ≤ 2 := (configured_bounds h rfl hqos).2
  exact
    { clientId := clientId_ne_empty h
      keepAlive_ge := Nat.mul_le_mul_right _ halive'
      port := ⟨port, hport, by simp; omega⟩
      keepAlive := ⟨alive, halive, rfl⟩
      qos := ⟨qos, hqos, level_qosOf hqos'⟩
      minDelay := ⟨low, hlow, rfl⟩
      maxDelay := ⟨high, hhigh, rfl⟩
      recreate := ⟨recreate, hrecreate, rfl⟩
      capacity := ⟨capacity, hcapacity, rfl⟩
      timeout := ⟨secs, hsecs, okOr_eq_ok.1 htimeout⟩ }

theorem mqttOptions_of_plainTcp (h : Shaped cfg.data) (hplain : PlainTcp cfg) :
    ∃ options, mqttOptions tls platform cfg = .ok options := by
  refine unwrap_bind_returns (h.isText ["mqtt", "host"] rfl (by decide)) fun _ _ => ?_
  refine unwrap_bind_returns (h.isU64 ["mqtt", "port"] rfl) fun _ _ => ?_
  refine unwrap_bind_returns (h.bool ["mqtt", "clean_session"] rfl) fun _ _ => ?_
  refine unwrap_bind_returns (h.isU64 ["mqtt", "keepalive_secs"] rfl) fun _ _ => ?_
  refine unwrap_bind_returns (h.isText ["topics", "payload_offline"] rfl (by decide)) fun _ _ => ?_
  refine unwrap_bind_returns (h.bool ["topics", "status_retain"] rfl) fun _ _ => ?_
  have htransport : transport tls platform ((cfg.data.index "mqtt").index "tls") = .ok none :=
    bind_eq_ok.2 ⟨false, unwrap_eq_ok.2 hplain, rfl⟩
  exact ⟨_, bind_eq_ok.2 ⟨none, htransport, rfl⟩⟩

theorem settings_of_timeout (h : Shaped cfg.data) {secs : F64}
    (hsecs : publishTimeout cfg = some secs) {timeout : Duration}
    (htimeout : Duration.tryFromSecsF64 secs = some timeout) (cleanSession : Bool) :
    ∃ s, settings (2 ^ 64 - 1) cfg cleanSession = .ok s := by
  refine unwrap_bind_returns (h.isText ["topics", "payload_online"] rfl (by decide)) fun _ _ => ?_
  refine unwrap_bind_returns (h.isText ["topics", "payload_offline"] rfl (by decide)) fun _ _ => ?_
  refine unwrap_bind_returns (h.bool ["topics", "status_retain"] rfl) fun _ _ => ?_
  refine unwrap_bind_returns (h.isU64 ["mqtt", "qos"] rfl) fun _ _ => ?_
  refine unwrap_bind_returns (h.bool ["mqtt", "retain"] rfl) fun _ _ => ?_
  refine unwrap_bind_returns ⟨secs, hsecs⟩ fun secs' hsecs' => ?_
  obtain rfl := Option.some.inj (hsecs.symm.trans hsecs')
  rw [okOr_eq_ok.2 htimeout, ok_bind]
  refine unwrap_bind_returns (h.isU64 ["mqtt", "recreate_client_after_secs"] rfl) fun _ _ => ?_
  refine unwrap_bind_returns (h.isU64 ["mqtt", "reconnect_min_delay_secs"] rfl) fun _ _ => ?_
  refine unwrap_bind_returns (h.isU64 ["mqtt", "reconnect_max_delay_secs"] rfl) fun _ _ => ?_
  refine unwrap_bind_returns (h.isU64 ["mqtt", "max_queued_messages"] rfl) fun capacity _ => ?_
  -- a `u64` is a `usize` here
  have hfits : capacity.toNat ≤ 2 ^ 64 - 1 := Nat.le_pred_of_lt capacity.toNat_lt
  exact ⟨_, bind_eq_ok.2 ⟨⟨⟩, ensure_eq_ok.2 (decide_eq_true hfits), rfl⟩⟩

end Accepted

/-- **A publisher can be built exactly if the timeout is a `Duration`**, for every accepted
configuration without TLS on a 64-bit machine, and it then has the numbers of the configuration. -/
theorem withClock_ok_iff (lib : SerdeYaml) (tls : NativeTls Certificate Identity Connector)
    (platform : Platform) (yaml hostname : String) (env : Env) (cfg : Config)
    (hcfg : Config.fromYaml lib platform yaml hostname env = .ok cfg) (hplain : PlainTcp cfg)
    (now : Duration) :
    (∃ publisher, withClock tls platform (2 ^ 64 - 1) cfg now = .ok publisher ∧
      Exact cfg publisher) ↔
      ∃ secs : ℚ, publishTimeout cfg = some (.finite secs) ∧ secs < Duration.limit := by
  have hshaped := (Config.accepted_of_fromYaml hcfg).1.shaped
  obtain ⟨timeout, htimeout, hfinite, hlow⟩ := hshaped.f64 ["mqtt", "publish_timeout_secs"] rfl
  cases timeout with
  | nan => cases hfinite
  | inf negative => cases hfinite
  | finite secs =>
    have hpos : 0 ≤ secs := by
      obtain ⟨tenth, htenth, hnear⟩ :=
        F64.ofRat_near_ordinary (q := 1 / 10) (by norm_num) (by norm_num)
      rw [htenth] at hlow
      exact (hnear.pos (by norm_num) (by norm_num)).le.trans (of_decide_eq_true hlow)
    have hlimit := Duration.tryFromSecsF64_eq_some hpos
    constructor
    · rintro ⟨publisher, -, hexact⟩
      obtain ⟨secs', hsecs', hd⟩ := hexact.timeout
      obtain rfl := Option.some.inj (htimeout.symm.trans hsecs')
      exact ⟨secs, hsecs', hlimit.1 ⟨_, hd⟩⟩
    · rintro ⟨secs', hsecs', hlt⟩
      cases Option.some.inj (htimeout.symm.trans hsecs')
      obtain ⟨d, hd⟩ := hlimit.2 hlt
      obtain ⟨options, hoptions⟩ := mqttOptions_of_plainTcp hshaped hplain
      obtain ⟨s, hs⟩ := settings_of_timeout hshaped hsecs' hd options.cleanSession
      have hok : withClock tls platform (2 ^ 64 - 1) cfg now = .ok ⟨options, s.1, s.2, _⟩ :=
        bind_eq_ok.2 ⟨options, hoptions, bind_eq_ok.2 ⟨s, hs, rfl⟩⟩
      exact ⟨_, hok, exact_of_withClock hshaped hok⟩

theorem withClock_ok_iff_defaults : ∃ cfg publisher,
    Config.fromYaml .defaultsOnly .empty "" "host" (fun _ => none) = .ok cfg ∧
      withClock plainTcp .empty (2 ^ 64 - 1) cfg .zero = .ok publisher ∧ Exact cfg publisher := by
  obtain ⟨cfg, hcfg, hdata⟩ := Config.fromYaml_defaultsOnly
  have hplain : PlainTcp cfg := by
    rw [PlainTcp, hdata]
    rfl
  have htimeout : publishTimeout cfg = some (.finite 10) := by
    rw [publishTimeout, hdata]
    rfl
  have hlimit : (10 : ℚ) < Duration.limit := by
    rw [Duration.limit]
    norm_num
  obtain ⟨publisher, hok, hexact⟩ := (withClock_ok_iff .defaultsOnly plainTcp .empty "" "host" _
    cfg hcfg hplain .zero).2 ⟨10, htimeout, hlimit⟩
  exact ⟨cfg, publisher, hcfg, hok, hexact⟩

/-- A parser that knows a document with a timeout of `10 ^ 20` seconds. -/
def longTimeout : SerdeYaml :=
  .knowing [("mqtt: \x7bpublish_timeout_secs: 1e20\x7d",
    ⟨.mapping [entry "mqtt" (.mapping [entry "publish_timeout_secs"
      (.number (.float (.finite (10 ^ 20))))])], rfl⟩)]

/-- TLS is off, and no publisher can be built. -/
def refusesTimeout (cfg : Config) : Outcome ConfigError PUnit :=
  .ensure (decide ((((cfg.data.index "mqtt").index "tls").index "enabled").asBool = some false) &&
    match withClock plainTcp .empty (2 ^ 64 - 1) cfg .zero with
    | .err e => e == "cannot convert float seconds to Duration: value is either too big or NaN"
    | _ => false) (fail "" "")

/-- A configuration that `--print-config` shows as valid, and with which no publisher starts. -/
theorem longTimeout_refused : ∃ cfg,
    Config.fromYaml longTimeout .empty "mqtt: \x7bpublish_timeout_secs: 1e20\x7d" "host"
      (fun _ => none) = .ok cfg ∧
    PlainTcp cfg ∧
    withClock plainTcp .empty (2 ^ 64 - 1) cfg .zero =
      .err "cannot convert float seconds to Duration: value is either too big or NaN" := by
  rw [longTimeout, fromYaml_knowing (by decide +kernel) rfl rfl]
  have hok : (fromDocument .empty defaults (.mapping [entry "mqtt" (.mapping [
      entry "publish_timeout_secs" (.number (.float (.finite (10 ^ 20))))])]) "host"
      (fun _ => none) >>= refusesTimeout).isOk = true := by
    decide +kernel
  obtain ⟨_, hrefuses⟩ := isOk_iff.1 hok
  obtain ⟨cfg, hcfg, hrefuses⟩ := bind_eq_ok.1 hrefuses
  have hboth := ensure_eq_ok.1 hrefuses
  rw [Bool.and_eq_true] at hboth
  obtain ⟨hplain, herr⟩ := hboth
  have hoff := of_decide_eq_true hplain
  refine ⟨cfg, hcfg, hoff, ?_⟩
  split at herr
  · rename_i e he
    rw [he, eq_of_beq herr]
  · cases herr

end Mqtt
end SystemReport
