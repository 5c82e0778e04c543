import SystemReport.Lib.Backoff
import SystemReport.Mqtt.Ranges

/-!
# The reconnect backoff

After an `Err` the worker sleeps for a delay that starts at `reconnect_min_delay_secs` and doubles
up to `reconnect_max_delay_secs`; a `ConnAck` starts it over.  `reconnect_backoff` says that in
every run these are the delays of `Backoff.doubling`.  That the doubling saturates does not show, as
the maximum is itself a `Duration`; that the first delay is below the maximum is a check of
`validate`.
-/

set_option autoImplicit false

open Machine Backoff

namespace SystemReport
namespace Mqtt

/-! ## The delay -/

/-- What an input makes of the delay. -/
def Loop.delayAfter (set : Settings) (l : Loop) : Input → Duration
  | .connAck _ _ => set.minDelay
  | .wake => min (l.delay.saturatingMul 2) set.maxDelay
  | _ => l.delay

theorem Loop.delay_rebuild : ∀ (rs : List Request) (l : Loop),
    (rs.foldl rebuildOne l).delay = l.delay
  | [], _ => rfl
  | r :: rs, l => by
    rw [List.foldl_cons, delay_rebuild rs]
    cases r with
    | publish id p => rw [rebuildOne]; split <;> rfl
    | pubRel id p => rfl
    | other => rfl

theorem Loop.delay_onPublish (l : Loop) (id : PacketId) : (l.onPublish id).1.delay = l.delay := by
  rw [onPublish]
  split
  · rfl
  · split <;> rfl

theorem Link.delay_step {set : Settings} {l l' : Link} {i : Input} (hs : l.step set i = some l') :
    l'.loop.delay = l.loop.delayAfter set i := by
  obtain ⟨-, hs⟩ := step_eq_some.1 hs
  cases i with
  | stop disconnect =>
    obtain ⟨-, hs⟩ := Option.ite_none_right_eq_some.1 hs
    cases hs
    rfl
  | message m ok =>
    obtain ⟨-, ⟨-, rfl⟩ | ⟨-, c, -, rfl⟩⟩ := onMessage_eq_some hs
    · rfl
    · rfl
  | take =>
    obtain ⟨c, -, rfl⟩ := Option.map_eq_some_iff.1 hs
    rfl
  | connAck resumed ok =>
    have hdelay : (l.loop.onConnAck set resumed).delay = set.minDelay := Loop.delay_rebuild _ _
    obtain ⟨c, -, ⟨-, rfl⟩ | ⟨-, c', -, rfl⟩⟩ := onConnAck_eq_some hs
    · exact hdelay
    · exact hdelay
  | published id =>
    obtain ⟨c, -, rfl⟩ := Option.map_eq_some_iff.1 hs
    exact Loop.delay_onPublish l.loop id
  | pubAck id | pubComp id | err now | other | wake =>
    cases hs
    rfl

/-! ## Runs -/

/-- The events of a step: a `ConnAck` is a success, and the sleep after an `Err` is written down
with its nanoseconds. -/
def Link.retryEvents (_ : Link) (i : Input) (l' : Link) : List (Event ℕ) :=
  match i with
  | .connAck _ _ => [.success]
  | .err _ => [.slept l'.loop.delay.nanos]
  | _ => []

/-- The delay before a retry, in nanoseconds. -/
def retryDelay (low high : UInt64) (n : ℕ) : ℕ := doubling low.toNat high.toNat n * 1000000000

/-- The delay that the loop holds is that of the next failure, or of the last one while the loop
sleeps. -/
structure Link.BacksOff (low high : UInt64) (l : Link) (log : List (Event ℕ)) : Prop where
  follows : Follows (retryDelay low high) log
  select : l.loop.phase = .select → l.loop.delay.nanos = retryDelay low high (failures log)
  sleeping : l.loop.phase = .sleeping →
    ∃ n, failures log = n + 1 ∧ l.loop.delay.nanos = retryDelay low high n

section Runs

variable {set : Settings} {low high : UInt64}

/-- **Doubling the delay**, as the code does it. -/
theorem nanos_doubled (hmax : set.maxDelay.IsSecs high) {d : Duration} {n : ℕ}
    (hd : d.nanos = retryDelay low high n) :
    (min (d.saturatingMul 2) set.maxDelay).nanos = retryDelay low high (n + 1) := by
  have hceiling : high.toNat * 1000000000 ≤ maxNanos := (Duration.fromSecs high).le_max
  rw [Duration.nanos_min, hmax, Duration.nanos_saturatingMul, hd, retryDelay, retryDelay,
    doubling_succ]
  omega

theorem Link.backsOff_init (hmin : set.minDelay.IsSecs low) (hle : low.toNat ≤ high.toNat)
    (now : Duration) : (init set now).BacksOff low high [] where
  follows := .nil
  select _ := by
    rw [failures_nil, retryDelay, doubling_zero hle]
    exact hmin
  sleeping h := by cases h

/-- A loop that does not sleep holds the delay of the next failure. -/
theorem Link.backsOff_of_select {l : Link} {log : List (Event ℕ)}
    (hfollows : Follows (retryDelay low high) log) (hphase : l.loop.phase = .select)
    (hnext : l.loop.delay.nanos = retryDelay low high (failures log)) : l.BacksOff low high log :=
  ⟨hfollows, fun _ => hnext, fun hsleeping => by rw [hphase] at hsleeping; cases hsleeping⟩

/-- **Every step keeps it.** -/
theorem Link.BacksOff.step (hmin : set.minDelay.IsSecs low) (hmax : set.maxDelay.IsSecs high)
    (hle : low.toNat ≤ high.toNat) {l l' : Link} {log : List (Event ℕ)}
    (h : l.BacksOff low high log) {i : Input} (hs : l.step set i = some l') :
    l'.BacksOff low high (l.retryEvents i l' ++ log) := by
  have hdelay := delay_step hs
  obtain ⟨-, hphase⟩ := shared_phase_step hs
  obtain ⟨hawait, -⟩ := step_eq_some.1 hs
  cases i with
  | stop disconnect =>
    refine ⟨h.follows, fun hselect => ?_, fun hsleeping => ?_⟩
    · rw [hphase] at hselect
      cases hselect
    · rw [hphase] at hsleeping
      cases hsleeping
  | connAck resumed ok =>
    refine backsOff_of_select h.follows.success hphase ?_
    show l'.loop.delay.nanos = retryDelay low high 0
    rw [hdelay, retryDelay, doubling_zero hle]
    exact hmin
  | err now =>
    have hselect : l.loop.phase = .select := by simpa [awaits] using hawait
    have hslept : l'.loop.delay.nanos = retryDelay low high (failures log) := by
      rw [hdelay]
      exact h.select hselect
    refine ⟨h.follows.slept hslept, fun hselect' => ?_, fun _ => ⟨_, rfl, hslept⟩⟩
    rw [hphase] at hselect'
    cases hselect'
  | wake =>
    have hsleeping : l.loop.phase = .sleeping := by simpa [awaits] using hawait
    obtain ⟨n, hn, hlast⟩ := h.sleeping hsleeping
    refine backsOff_of_select h.follows hphase ?_
    show l'.loop.delay.nanos = retryDelay low high (failures log)
    rw [hdelay, hn]
    exact nanos_doubled hmax hlast
  | message m ok | take | published id | pubAck id | pubComp id | other =>
    have hselect : l.loop.phase = .select := by simpa [awaits] using hawait
    refine backsOff_of_select h.follows hphase ?_
    rw [hdelay]
    exact h.select hselect

theorem Link.backsOff_of_reach (hmin : set.minDelay.IsSecs low) (hmax : set.maxDelay.IsSecs high)
    (hle : low.toNat ≤ high.toNat) {now : Duration} {l : Link} {log : List (Event ℕ)}
    (h : Reach (logged (Link.step set) retryEvents) (fun _ _ => True) (init set now, []) (l, log)) :
    l.BacksOff low high log :=
  h.logged_invariant (I := fun l => l.BacksOff low high) (C := fun _ _ => True)
    (fun _ _ _ => trivial) (backsOff_init hmin hle now)
    fun _ _ _ _ _ hi _ hs => hi.step hmin hmax hle hs

end Runs

/-- The maximum is at least the minimum: a check of `validate`. -/
theorem delays_ordered {cfg : Config} (h : Config.validate cfg.data Config.defaults = .ok ⟨⟩)
    {low high : UInt64} (hlow : configured cfg "reconnect_min_delay_secs" = some low)
    (hhigh : configured cfg "reconnect_max_delay_secs" = some high) : low.toNat ≤ high.toNat := by
  obtain ⟨_, -, hcross⟩ := Outcome.bind_eq_ok.1 h
  obtain ⟨_, horder, -⟩ := Outcome.bind_eq_ok.1 hcross
  have hnot := Outcome.ensure_eq_ok.1 horder
  rw [configured] at hlow hhigh
  rw [hlow, hhigh, Config.optionLt, Bool.not_eq_true', decide_eq_false_iff_not] at hnot
  exact UInt64.not_lt.1 hnot

variable {Certificate Identity Connector : Type}

/-- **The reconnect backoff.**  With an accepted configuration, in every run of one worker: the
sleep after the `k`-th `Err` in a row takes the least of the maximal delay and the minimal one times
`2 ^ (k - 1)`, so every sleep is between the two, and none is shorter than one before it since the
last `ConnAck`. -/
theorem reconnect_backoff (lib : SerdeYaml) (tls : NativeTls Certificate Identity Connector)
    (platform : Platform) (yaml hostname : String) (env : Env) (cfg : Config)
    (hcfg : Config.fromYaml lib platform yaml hostname env = .ok cfg) (usizeMax : ℕ)
    (now : Duration) (publisher : Publisher Connector)
    (hpublisher : withClock tls platform usizeMax cfg now = .ok publisher) (started : Duration)
    (l : Link) (log : List (Event ℕ))
    (h : Reach (logged (Link.step publisher.settings) Link.retryEvents) (fun _ _ => True)
      (Link.init publisher.settings started, []) (l, log)) :
    ∃ low high : UInt64, configured cfg "reconnect_min_delay_secs" = some low ∧
      configured cfg "reconnect_max_delay_secs" = some high ∧
      (∀ newer d older, log = newer ++ .slept d :: older →
        d = min (low.toNat * 2 ^ (failures (.slept d :: older) - 1)) high.toNat * 1000000000) ∧
      (∀ d, .slept d ∈ log → low.toNat * 1000000000 ≤ d ∧ d ≤ high.toNat * 1000000000) ∧
      ∀ newer d' between d older, log = newer ++ .slept d' :: (between ++ .slept d :: older) →
        .success ∉ between → d ≤ d' := by
  obtain ⟨haccepted, -⟩ := Config.accepted_of_fromYaml hcfg
  have hexact := exact_of_withClock haccepted.shaped hpublisher
  obtain ⟨low, hlow, hmin⟩ := hexact.minDelay
  obtain ⟨high, hhigh, hmax⟩ := hexact.maxDelay
  have hle := delays_ordered haccepted.valid hlow hhigh
  have hfollows := (Link.backsOff_of_reach hmin hmax hle h).follows
  have hmono : Monotone (retryDelay low high) := fun n m hnm =>
    Nat.mul_le_mul_right _ (doubling_monotone _ _ hnm)
  refine ⟨low, high, hlow, hhigh, hfollows, fun d hd => ?_, fun _ _ _ _ _ hlog hbetween =>
    hfollows.nondecreasing hmono hlog hbetween⟩
  obtain ⟨n, rfl⟩ := hfollows.mem hd
  exact ⟨Nat.mul_le_mul_right _ (le_doubling hle n), Nat.mul_le_mul_right _ (doubling_le _ _ n)⟩

/-- With the defaults, two failures in a row: the worker sleeps for one second and then for two. -/
theorem reconnect_backoff_defaults : ∃ cfg publisher d d',
    Config.fromYaml .defaultsOnly .empty "" "host" (fun _ => none) = .ok cfg ∧
      withClock plainTcp .empty (2 ^ 64 - 1) cfg .zero = .ok publisher ∧
      (∃ l, Reach (logged (Link.step publisher.settings) Link.retryEvents) (fun _ _ => True)
        (Link.init publisher.settings .zero, []) (l, [.slept d', .slept d])) ∧
      d = 1 * 1000000000 ∧ d' = 2 * 1000000000 := by
  obtain ⟨cfg, publisher, hcfg, hpublisher, -⟩ := withClock_defaults
  have hrun : Reach (logged (Link.step publisher.settings) Link.retryEvents) (fun _ _ => True)
      (Link.init publisher.settings .zero, []) (_, [.slept _, .slept _]) :=
    ((Reach.refl.snoc (a := .err .zero) trivial rfl).snoc (a := .wake) trivial rfl).snoc
      (a := .err .zero) trivial rfl
  obtain ⟨low, high, hlow, hhigh, hexact, -, -⟩ := reconnect_backoff _ _ _ _ _ _ cfg hcfg _ _
    publisher hpublisher _ _ _ hrun
  obtain ⟨cfg', hcfg', hdata⟩ := Config.fromYaml_defaultsOnly
  cases hcfg.symm.trans hcfg'
  rw [configured, hdata] at hlow hhigh
  cases hlow
  cases hhigh
  exact ⟨cfg, publisher, _, _, hcfg, hpublisher, ⟨_, hrun⟩, hexact [.slept _] _ [] rfl,
    hexact [] _ [.slept _] rfl⟩

end Mqtt
end SystemReport
