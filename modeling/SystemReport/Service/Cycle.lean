import SystemReport.Service

/-!
# What the program can do

Where nothing stands in its way, the program begins to loop (`reach_ready`), works off the messages
of a report, also if nobody answers (`reach_published`), so that each slot that is due on a
connection can be used (`reach_slot`), and leaves at a signal (`reach_leaving`).
-/

set_option autoImplicit false

open Machine

namespace SystemReport

open Mqtt Reporter Config Collectors

/-- The count of completed messages is for `publish()` calls that hear `true`. -/
theorem Stage.heard_of_ne (stage : Stage) {a : Act} (ha : a ≠ .verdict true) :
    stage.heard a = stage := by
  rw [heard]
  intro _ _ _ _ _ ha'
  exact absurd ha' ha

/-! ## A call that nobody answers -/

/-- A step while a call waits: no message is completed, and no time passes. -/
def Mqtt.Act.unheard (a : Act) : Prop :=
  (a.settles || a.foreign) = true ∧ a ≠ .verdict true ∧ ∀ now, a ≠ .advance now

namespace Mqtt.System

variable {set : Settings} {s t : System}

/-- The publisher between two calls, with what the main thread sees of it unchanged. -/
structure Returned (s t : System) : Prop where
  idle : t.pc = .idle
  sound : t.poisoned = false
  now : t.now = s.now
  connected : t.connected = s.connected

theorem Returned.trans {u : System} (h : s.Returned t) (h' : t.Returned u) : s.Returned u :=
  ⟨h'.idle, h'.sound, h'.now.trans h.now, h'.connected.trans h.connected⟩

theorem now_of_unheard {a : Act} (ha : a.unheard) (hs : s.step set a = some t) :
    t.now = s.now := by
  have hlocked {u v : System} (h : v.now = u.now) : (u.locked v).now = u.now :=
    locked_of (P := fun v => v.now = u.now) rfl fun _ => h
  cases moved_of_step hs with
  | worker | die => rfl
  | advance => exact absurd rfl (ha.2.2 _)
  | goodbye =>
    rw [onPublish]
    split
    · exact hlocked rfl
    · rfl
  | countDrop =>
    refine hlocked ?_
    split <;> rfl
  | send =>
    rw [onSend]
    split <;> rfl
  | verdict | timeout | signal => rfl
  | tornDown | join => exact hlocked rfl
  | spawn =>
    refine hlocked ?_
    split <;> rfl
  | _ => cases ha.1

theorem now_of_publish {topic payload : String} {qos : Option QoS} {retain : Option Bool}
    (hs : s.step set (.publish topic payload qos retain) = some t) : t.now = s.now := by
  cases moved_of_step hs with
  | publish =>
    rw [onPublish]
    split
    · exact locked_of (P := fun t => t.now = s.now) rfl fun _ => rfl
    · rfl

/-- **A call of `publish()` can give up.** -/
theorem returns (hsound : s.poisoned = false) {topic payload : String} {qos : Option QoS}
    {retain : Option Bool} (hs : s.step set (.publish topic payload qos retain) = some t) :
    ∃ u, Reach (System.step set) (fun _ a => a.unheard) t u ∧ Returned s u := by
  have hdrop {u : System} (hpc : u.pc = .dropping .report) (hsound : u.poisoned = false) :
      ∃ v, Reach (System.step set) (fun _ a => a.unheard) u v ∧ Returned u v := by
    have hcount : u.step set .countDrop = some (u.onDrop .report) := by rw [step, hpc]
    refine ⟨_, .single ⟨rfl, by simp, by simp⟩ hcount, ?_⟩
    rw [onDrop, locked_of_sound hsound]
    split <;> exact ⟨rfl, hsound, rfl, rfl⟩
  have hsend {u : System} {m : Message} (hpc : u.pc = .sending m .report)
      (hsound : u.poisoned = false) :
      ∃ v, Reach (System.step set) (fun _ a => a.unheard) u v ∧ Returned u v := by
    have hstep : u.step set .send = some (u.onSend m .report) := by rw [step, hpc]
    by_cases hfree : u.slot = none ∧ u.running = true
    · rw [onSend, if_pos hfree] at hstep
      refine ⟨_, (Reach.single (C := fun _ a => a.unheard) ⟨rfl, by simp, by simp⟩ hstep).snoc
        (a := .timeout) ⟨rfl, by simp, by simp⟩ rfl, ?_⟩
      exact ⟨rfl, hsound, rfl, rfl⟩
    · rw [onSend, if_neg hfree] at hstep
      exact ⟨_, .single ⟨rfl, by simp, by simp⟩ hstep, rfl, hsound, rfl, rfl⟩
  cases moved_of_step hs with
  | publish =>
    rw [onPublish, locked_of_sound hsound]
    split
    · by_cases hconn : s.connected = true
      · rw [if_pos hconn]
        obtain ⟨v, hv, hidle, hsound', hnow, hconnected⟩ := @hsend { s with
          calls := s.calls + 1
          pc := .sending ⟨topic, payload, qos.getD set.qos, retain.getD set.retain, s.calls⟩
            .report } _ rfl hsound
        exact ⟨v, hv, hidle, hsound', hnow, hconnected⟩
      · rw [if_neg hconn]
        obtain ⟨v, hv, hidle, hsound', hnow, hconnected⟩ :=
          @hdrop { s with calls := s.calls + 1, pc := .dropping .report } rfl hsound
        exact ⟨v, hv, hidle, hsound', hnow, hconnected⟩
    · obtain ⟨v, hv, hidle, hsound', hnow, hconnected⟩ :=
        @hdrop { s with calls := s.calls + 1, pc := .dropping .report } rfl hsound
      exact ⟨v, hv, hidle, hsound', hnow, hconnected⟩

end Mqtt.System

namespace Service

variable (job : Job) {s : Service} {later : Duration} {C : Service → Move → Prop}

/-- Up to a certain time, with the interval and the epoch of `s`. -/
structure Until (s : Service) (later : Duration) (u : Service) : Prop where
  interval : u.reporter.interval = s.reporter.interval
  epoch : u.epoch = s.epoch
  now : u.system.now ≤ later

/-- A step within a call, of the network thread, or of time. -/
theorem step_publisher {a : Act} (ha : (a.settles || a.foreign) = true) {system : System}
    (hs : s.system.step job.set a = some system) :
    s.step job (.publisher a) = some (s.after a system (s.stage.heard a)) := by
  rw [step, if_pos ha, hs, Option.map_some]

/-- A call that nobody answers, in the program. -/
theorem reach_unheard {system : System} (hC : ∀ u m, s.Until s.system.now u → C u m)
    (h : Reach (System.step job.set) (fun _ a => a.unheard) s.system system) :
    system.now = s.system.now ∧ ∃ es : List SessionEvent,
      Reach (step job) C s { s with system := system, log := es.map .session ++ s.log } := by
  induction h with
  | refl => exact ⟨rfl, [], .refl⟩
  | @snoc u v a _ hc hs ih =>
    obtain ⟨hnow, es, ht⟩ := ih
    refine ⟨(System.now_of_unheard hc hs).trans hnow, u.sessionEvents a v ++ es,
      ht.snoc (a := .publisher a) (hC _ _ ⟨rfl, rfl, hnow.le⟩) ?_⟩
    rw [step_publisher job hc.1 hs, after, Stage.heard_of_ne _ hc.2.1, ← List.append_assoc,
      ← List.map_append]

/-- The next message of a report. -/
theorem step_publishing {purpose : Purpose} {total completed : ℕ} {topic payload : String}
    {todo : List (String × String)} {system : System} (hidle : s.system.pc = .idle)
    (hstage : s.stage = .publishing purpose total completed ((topic, payload) :: todo))
    (hs : s.system.step job.set (.publish topic payload none none) = some system) (host : Host) :
    s.step job (.go host) = some (s.after (.publish topic payload none none) system
      (.publishing purpose total completed todo)) := by
  rw [step, if_pos hidle, go]
  simp only [hstage, call, hs, Option.map_some]

/-- **A message of a report can be completed**, if the call hears of it. -/
theorem reach_completed {purpose : Purpose} {total completed : ℕ} {topic payload : String}
    {todo : List (String × String)} {t u v : System}
    (hC : ∀ u m, s.Until s.system.now u → C u m)
    (hstage : s.stage = .publishing purpose total completed ((topic, payload) :: todo))
    (hidle : s.system.pc = .idle)
    (hpublish : s.system.step job.set (.publish topic payload none none) = some t)
    (hcall : Reach (System.step job.set) (fun _ a => a.unheard) t u)
    (hverdict : u.step job.set (.verdict true) = some v) :
    ∃ es : List SessionEvent, Reach (step job) C s { s with
      system := v
      stage := .publishing purpose total (completed + 1) todo
      log := es.map .session ++ s.log } := by
  have hcalled := step_publishing job hidle hstage hpublish smallHost
  have hnow := System.now_of_publish hpublish
  obtain ⟨hnow', es, ht⟩ := @reach_unheard job (s.after
    (.publish topic payload none none) t (.publishing purpose total completed todo)) C u
    (fun u m hu => hC u m ⟨hu.interval, hu.epoch, hu.now.trans hnow.le⟩) hcall
  have htold := step_publisher job (s := { s with
    system := u
    stage := .publishing purpose total completed todo
    log := es.map .session ++
      ((s.system.sessionEvents (.publish topic payload none none) t).map .session ++ s.log) }) rfl
    hverdict
  have hreach := ((Reach.single (hC s (.go smallHost) ⟨rfl, rfl, le_rfl⟩) hcalled).trans ht).snoc
    (hC _ _ ⟨rfl, rfl, (hnow'.trans hnow).le⟩) htold
  refine ⟨u.sessionEvents (.verdict true) v ++ es ++
    s.system.sessionEvents (.publish topic payload none none) t, ?_⟩
  simpa [after, Stage.heard] using hreach

/-- **The messages of a report can be worked off**, also if nobody answers. -/
theorem reach_published {purpose : Purpose} {total completed : ℕ} :
    ∀ (todo : List (String × String)) {s : Service},
      (∀ u m, s.Until s.system.now u → C u m) →
      s.stage = .publishing purpose total completed todo → s.system.pc = .idle →
      s.system.poisoned = false →
      ∃ system, ∃ es : List SessionEvent, s.system.Returned system ∧ Reach (step job) C s { s with
        system := system
        stage := .publishing purpose total completed []
        log := es.map .session ++ s.log }
  | [], s, _, hstage, hidle, hsound => by
    refine ⟨s.system, [], ⟨hidle, hsound, rfl, rfl⟩, ?_⟩
    rw [← hstage]
    exact .refl
  | (topic, payload) :: todo, s, hC, hstage, hidle, hsound => by
    obtain ⟨system, hpublish⟩ : ∃ system,
        s.system.step job.set (.publish topic payload none none) = some system := ⟨_, if_pos hidle⟩
    have hstep := step_publishing job hidle hstage hpublish smallHost
    have hnow := System.now_of_publish hpublish
    obtain ⟨system', hreturns, hreturned⟩ := System.returns hsound hpublish
    obtain ⟨hnow', es, ht⟩ := @reach_unheard job (s.after
      (.publish topic payload none none) system (.publishing purpose total completed todo)) C system'
      (fun u m hu => hC u m ⟨hu.interval, hu.epoch, hu.now.trans hnow.le⟩) hreturns
    obtain ⟨system'', es', hreturned', hu⟩ := reach_published (s := { s with
      system := system'
      stage := .publishing purpose total completed todo
      log := es.map .session ++ ((s.system.sessionEvents _ system).map .session ++ s.log) }) todo
      (fun u m hu => hC u m ⟨hu.interval, hu.epoch, hu.now.trans (hnow'.trans hnow).le⟩) rfl
      hreturned.idle hreturned.sound
    refine ⟨system'', es' ++ es ++ s.system.sessionEvents (.publish topic payload none none) system,
      hreturned.trans hreturned', ?_⟩
    have hreach := ((Reach.single (hC s (.go smallHost) ⟨rfl, rfl, le_rfl⟩) hstep).trans ht).trans hu
    simpa [after] using hreach

/-- **A report can be made.** -/
theorem reach_reported (haccepted : Accepted job.platform s.reporter.cfg)
    (hC : ∀ u m, s.Until s.system.now u → C u m) {purpose : Purpose}
    (hstage : s.stage = .reporting purpose) (hidle : s.system.pc = .idle)
    (hsound : s.system.poisoned = false) (host : Host) :
    ∃ messages system, ∃ es : List SessionEvent, s.system.Returned system ∧
      Reach (step job) C s { s with
        system := system
        stage := .publishing purpose messages.length 0 []
        log := es.map .session ++ .report host messages :: s.log } := by
  obtain ⟨snapshot, messages, hcollect, hmessages⟩ := exists_messages haccepted host
  have hstep := step_reporting hidle hstage hcollect hmessages
  obtain ⟨system, es, hreturned, hreach⟩ := reach_published job (s := { s with
    stage := .publishing purpose messages.length 0 messages
    log := .report host messages :: s.log }) messages
    (fun u m hu => hC u m ⟨hu.interval, hu.epoch, hu.now⟩) rfl hidle hsound
  exact ⟨messages, system, es, hreturned,
    (Reach.single (hC s (.go host) ⟨rfl, rfl, le_rfl⟩) hstep).trans hreach⟩

/-- At the head of the loop, with a connection. -/
structure Free (s : Service) : Prop where
  stage : s.stage = .looping
  idle : s.system.pc = .idle
  sound : s.system.poisoned = false
  stop : s.stop = false
  connected : s.system.connected = true

/-- The call of `tick()` that uses a slot. -/
theorem reach_ticked (h : s.Free) (haccepted : Accepted job.platform s.reporter.cfg)
    (hC : ∀ u m, s.Until s.system.now u → C u m) (hdue : s.reporter.next ≤ s.clock) (host : Host) :
    ∃ messages system, ∃ es : List SessionEvent, s.system.Returned system ∧
      Reach (step job) C s { s with
        reporter :=
          { s.reporter with
            next := s.clock.saturatingAdd s.reporter.interval
            firstPending := false
            failures := 0
            reports := s.reporter.reports + 1 }
        system := system
        stage := .ticked
        log :=
          .tick (.reported s.clock s.clock) ::
            .note (.status (s.reporter.reports + 1) 0 messages.length true) ::
            (es.map .session ++ .report host messages :: s.log) } := by
  obtain ⟨hstage, hidle, hsound, hstop, hconn⟩ := h
  -- `maintain()` has nothing to do on a connection
  have hmaintain : s.system.step job.set .maintain = some s.system := by
    have hkeep : s.system.wantsRebuild job.set = false := by simp [System.wantsRebuild, hconn]
    rw [System.step, if_pos hidle, hkeep, System.locked_of_sound hsound]
    simp
  have hlooping : s.step job (.go host) = some { s with stage := .maintained false } := by
    have hlog := log_after hmaintain (by simp) rfl (.maintained false)
    have hnot : decide (s.system.pc = .signalling .start) = false := by simp [hidle]
    rw [step, if_pos hidle, go]
    simp only [hstage, hstop, Bool.false_eq_true, if_false, call, hmaintain, Option.map_some, hnot]
    rw [after, Option.some.injEq, Service.mk.injEq]
    exact ⟨rfl, rfl, rfl, hstop, rfl, hlog⟩
  have hmaintained : ({ s with stage := .maintained false } : Service).step job (.go host) =
      some { s with stage := .due s.clock } := by
    rw [step, if_pos hidle]
    exact congrArg some (if_pos ((isZero_secondsUntilDue _ _).2 hdue))
  have hconnected : ({ s with stage := .due s.clock } : Service).step job (.go host) =
      some { s with stage := .reporting (.cycle s.clock) } := by
    rw [step, if_pos hidle]
    exact congrArg some ((if_neg (by simp [hsound])).trans (if_pos hconn))
  obtain ⟨messages, system, es, hreturned, hreported⟩ := reach_reported job
    (s := { s with stage := .reporting (.cycle s.clock) }) (C := C) haccepted
    (fun u m hu => hC u m ⟨hu.interval, hu.epoch, hu.now⟩) rfl hidle hsound host
  refine ⟨messages, system, es, hreturned, ?_⟩
  have hnow := hreturned.now
  have hconn' : system.connected = true := hreturned.connected.trans hconn
  have hmade : Reach (step job) C s { s with stage := .reporting (.cycle s.clock) } :=
    ((Reach.single (hC _ _ ⟨rfl, rfl, le_rfl⟩) hlooping).snoc (hC _ _ ⟨rfl, rfl, le_rfl⟩)
      hmaintained).snoc (hC _ _ ⟨rfl, rfl, le_rfl⟩) hconnected
  have htold : ({ s with
      system := system
      stage := .publishing (.cycle s.clock) messages.length 0 []
      log := es.map .session ++ .report host messages :: s.log } : Service).step job (.go host) =
        some { s with
          reporter := { s.reporter with reports := s.reporter.reports + 1, firstPending := false }
          system := system
          stage := .scheduling s.clock true
          log :=
            .note (.status (s.reporter.reports + 1) 0 messages.length true) ::
              (es.map .session ++ .report host messages :: s.log) } := by
    rw [step, if_pos hreturned.idle]
    simp only [go, locked, note, hreturned.sound, hconn', Bool.false_eq_true, if_false]
  have hscheduled : ({ s with
      reporter := { s.reporter with reports := s.reporter.reports + 1, firstPending := false }
      system := system
      stage := .scheduling s.clock true
      log :=
        .note (.status (s.reporter.reports + 1) 0 messages.length true) ::
          (es.map .session ++ .report host messages :: s.log) } : Service).step job (.go host) =
        some { s with
          reporter :=
            { s.reporter with
              next := s.clock.saturatingAdd s.reporter.interval
              firstPending := false
              failures := 0
              reports := s.reporter.reports + 1 }
          system := system
          stage := .ticked
          log :=
            .tick (.reported s.clock s.clock) ::
              .note (.status (s.reporter.reports + 1) 0 messages.length true) ::
              (es.map .session ++ .report host messages :: s.log) } := by
    rw [step, if_pos hreturned.idle]
    simp only [go, succeed, clock, hnow, if_true]
  exact ((hmade.trans hreported).snoc (hC _ _ ⟨rfl, rfl, hnow.le⟩) htold).snoc
    (hC _ _ ⟨rfl, rfl, hnow.le⟩) hscheduled

/-- The loop waits, for five seconds at most. -/
theorem step_ticked (hstage : s.stage = .ticked) (hidle : s.system.pc = .idle) (host : Host) :
    ∃ d, d.nanos ≤ 5000000000 ∧ s.step job (.go host) = some { s with
      stage := .waiting s.system.now d
      log := .note .watchdog :: s.log } := by
  obtain ⟨d, hsleep, hfits⟩ := fits_sleepSecs (some job.notifier) s.reporter s.clock
  rw [Option.bind_some] at hsleep
  refine ⟨d, Duration.le_def.1 hfits.le_tick, ?_⟩
  rw [step, if_pos hidle, go]
  simp only [hstage, hsleep, note]

theorem step_waiting {since d : Duration} (hstage : s.stage = .waiting since d)
    (hidle : s.system.pc = .idle) (hover : s.stop = true ∨ d ≤ s.system.now.saturatingSub since)
    (host : Host) : s.step job (.go host) = some { s with stage := .looping } := by
  rw [step, if_pos hidle, go]
  simp only [hstage]
  exact if_pos hover

/-- Time passes. -/
theorem step_advance (hlater : s.system.now ≤ later) : s.step job (.publisher (.advance later)) =
    some { s with system := { s.system with now := later } } := by
  have hadvance : s.system.step job.set (.advance later) = some { s.system with now := later } :=
    if_pos hlater
  rw [step_publisher job rfl hadvance, Option.some.injEq, Service.mk.injEq]
  exact ⟨rfl, rfl, rfl, rfl, Stage.heard_of_ne _ (by simp), log_after hadvance (by simp) rfl _⟩

/-- The loop goes on after the wait. -/
theorem reach_looping (hC : ∀ u m, s.Until later u → C u m) (hstage : s.stage = .ticked)
    (hidle : s.system.pc = .idle) (hlater : s.system.now.nanos + 5000000000 ≤ later.nanos) :
    Reach (step job) C s { s with
      system := { s.system with now := later }
      stage := .looping
      log := .note .watchdog :: s.log } := by
  obtain ⟨d, hd, hticked⟩ := step_ticked job hstage hidle smallHost
  have hle : s.system.now ≤ later := Duration.le_def.2 (by omega)
  have hpassed := step_advance job (s := { s with
    stage := .waiting s.system.now d
    log := .note .watchdog :: s.log }) hle
  have hover : d ≤ later.saturatingSub s.system.now := by
    rw [Duration.le_def, Duration.nanos_saturatingSub]
    omega
  have hwoken := step_waiting job (s := { s with
    system := { s.system with now := later }
    stage := .waiting s.system.now d
    log := .note .watchdog :: s.log }) rfl hidle (.inr hover) smallHost
  exact ((Reach.single (hC _ _ ⟨rfl, rfl, hle⟩) hticked).snoc (hC _ _ ⟨rfl, rfl, hle⟩) hpassed).snoc
    (hC _ _ ⟨rfl, rfl, le_rfl⟩) hwoken

/-- **The loop can begin**, with a connection. -/
theorem reach_ready (r : Reporter) (built epoch now : Duration)
    (hC : ∀ u m, (init job r built epoch now).Until now u → C u m) (honce : job.once = none) :
    ∃ s, Reach (step job) C (init job r built epoch now) s ∧ s.Free ∧ s.reporter = r ∧
      s.epoch = epoch ∧ s.system.now = now ∧
      s.log =
        [.note .ready,
          .session (.online
            ⟨none, job.set.status, job.set.online, .atLeastOnce, job.set.statusRetain⟩),
          .session .connAck] := by
  obtain ⟨platform, set, notifier, once⟩ := job
  obtain rfl : once = none := honce
  refine ⟨_, ((((Reach.refl.snoc (a := .go smallHost) ?_ rfl).snoc (a := .publisher .signal) ?_
    rfl).snoc (a := .publisher (.spawn .ok)) ?_ rfl).snoc
    (a := .publisher (.worker (.connAck [] true))) ?_ rfl).snoc (a := .go smallHost) ?_ rfl,
    ⟨rfl, rfl, rfl, rfl, rfl⟩, rfl, rfl, rfl, rfl⟩ <;>
    exact hC _ _ ⟨rfl, rfl, le_rfl⟩

/-- **A slot that is due on a connection can be used**, and the loop goes on. -/
theorem reach_slot (later : Duration) (h : s.Free) (haccepted : Accepted job.platform s.reporter.cfg)
    (hC : ∀ u m, s.Until later u → C u m) (hdue : s.reporter.next ≤ s.clock)
    (hlater : s.system.now.nanos + 5000000000 ≤ later.nanos) (host : Host) :
    ∃ messages, ∃ es : List SessionEvent, ∃ t, Reach (step job) C s t ∧ t.Free ∧
      t.reporter =
        { s.reporter with
          next := s.clock.saturatingAdd s.reporter.interval
          firstPending := false
          failures := 0
          reports := s.reporter.reports + 1 } ∧
      t.epoch = s.epoch ∧ t.system.now = later ∧
      t.log =
        .note .watchdog :: .tick (.reported s.clock s.clock) ::
          .note (.status (s.reporter.reports + 1) 0 messages.length true) ::
          (es.map .session ++ .report host messages :: s.log) := by
  have hle : s.system.now ≤ later := Duration.le_def.2 (by omega)
  obtain ⟨messages, system, es, hreturned, ht⟩ := reach_ticked job h haccepted
    (fun u m hu => hC u m ⟨hu.interval, hu.epoch, hu.now.trans hle⟩) hdue host
  have hu := ht.trans (reach_looping job (fun u m hu => hC u m ⟨hu.interval, hu.epoch, hu.now⟩) rfl
    hreturned.idle (by rw [hreturned.now]; exact hlater))
  exact ⟨messages, es, _, hu, ⟨rfl, hreturned.idle, hreturned.sound, h.stop,
    hreturned.connected.trans h.connected⟩, rfl, rfl, rfl, rfl⟩

/-- **A signal ends the loop.** -/
theorem reach_leaving (h : s.Free) : Reachable (step job) s { s with
    stop := true
    stage := .leaving 0
    log := .note .stopping :: s.log } := by
  have hsignal : s.step job .signal = some { s with stop := true } := rfl
  have hleft : ({ s with stop := true } : Service).step job (.go smallHost) = some { s with
      stop := true
      stage := .leaving 0
      log := .note .stopping :: s.log } := by
    rw [step, if_pos h.idle, go]
    simp only [h.stage, if_true]
    rfl
  exact (Reach.single trivial hsignal).snoc trivial hleft

/-- **The program can serve**: it makes a report at once, waits, and leaves at a signal. -/
theorem reach_served (r : Reporter) (haccepted : Accepted job.platform r.cfg)
    (honce : job.once = none) (hnext : r.next = .zero) (hreports : r.reports = 0) :
    ∃ messages, ∃ es : List SessionEvent, ∃ s,
      Reachable (step job) (init job r .zero .zero .zero) s ∧ s.stage = .leaving 0 ∧
      s.stop = true ∧ s.system.poisoned = false ∧
      s.log =
        [.note .stopping, .note .watchdog, .tick (.reported .zero .zero),
          .note (.status 1 0 messages.length true)] ++
        (es.map .session ++ [.report smallHost messages, .note .ready,
          .session (.online
            ⟨none, job.set.status, job.set.online, .atLeastOnce, job.set.statusRetain⟩),
          .session .connAck]) := by
  obtain ⟨s, hs, hfree, rfl, hepoch, hnow, hlog⟩ := reach_ready (C := fun _ _ => True) job r .zero
    .zero .zero (fun _ _ _ => trivial) honce
  have hclock : s.clock = .zero := by rw [clock, hnow, hepoch]; rfl
  obtain ⟨messages, es, t, ht, hfree', -, -, -, hlog'⟩ := reach_slot (C := fun _ _ => True)
    job (.fromSecs 5) hfree haccepted (fun _ _ _ => trivial)
    (by rw [hnext]; exact Nat.zero_le _) (by rw [hnow]; decide) smallHost
  rw [hclock, hreports, hlog] at hlog'
  refine ⟨messages, es, _, (hs.trans ht).trans (reach_leaving job hfree'), rfl, rfl, hfree'.sound,
    ?_⟩
  rw [hlog']
  rfl

/-- With `--once` it makes its report and leaves. -/
theorem reach_once (r : Reporter) (built epoch now : Duration)
    (haccepted : Accepted job.platform r.cfg) (honce : job.once.isSome = true) :
    ∃ messages s, Reachable (step job) (init job r built epoch now) s ∧ s.stage = .leaving 0 ∧
      s.stop = true ∧ s.system.poisoned = false ∧ .report smallHost messages ∈ s.log ∧
      .note .stopping ∈ s.log := by
  obtain ⟨s, hs, hstage, hidle, hsound, rfl⟩ := reach_found job honce r built epoch now
  obtain ⟨messages, system, es, hreturned, ht⟩ := reach_reported job (C := fun _ _ => True) haccepted
    (fun _ _ _ => trivial) hstage hidle hsound smallHost
  have hleft : ({ s with
      system := system
      stage := .publishing .once messages.length 0 []
      log := es.map .session ++ .report smallHost messages :: s.log } : Service).step job
        (.go smallHost) = some { s with
          reporter := { s.reporter with reports := s.reporter.reports + 1 }
          system := system
          stage := .leaving 0
          log :=
            .note .stopping ::
              .note (.status (s.reporter.reports + 1) 0 messages.length system.connected) ::
              (es.map .session ++ .report smallHost messages :: s.log) } := by
    rw [step, if_pos hreturned.idle]
    simp only [go, locked, note, leave, hreturned.sound, Bool.false_eq_true, if_false]
  refine ⟨messages, _, ((hs.trans ht).snoc trivial hleft).snoc (a := .signal) trivial rfl, rfl, rfl,
    hreturned.sound, by simp, by simp⟩

end Service

end SystemReport
