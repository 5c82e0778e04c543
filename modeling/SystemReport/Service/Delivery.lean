import SystemReport.Service.Cycle

/-!
# From reports to the broker

What the client accepts over a whole run, against the reports that the program makes.  A report may
meet a lost connection, a full queue, a caller that gives up waiting or a client that is thrown away;
`delivery_law` says that whatever happens to it, what is accepted is a subsequence of what was
reported, in order, with nothing twice and nothing made up, to topics that can be published to and
as the configuration asks.
-/

set_option autoImplicit false

open Machine

namespace SystemReport

open Mqtt Reporter Config Collectors

/-- The topic and the payload of a message. -/
def Mqtt.Message.content (m : Message) : String × String := (m.topic, m.payload)

/-- The messages of reports among those of all calls. -/
def reportsOf (calls : List (Message × Caller)) : List Message :=
  (calls.filter fun call => call.2 = .report).map Prod.fst

theorem reportsOf_append (calls more : List (Message × Caller)) :
    reportsOf (calls ++ more) = reportsOf calls ++ reportsOf more := by
  simp [reportsOf]

theorem sublist_reportsOf {calls more : List (Message × Caller)} (h : calls.Sublist more) :
    (reportsOf calls).Sublist (reportsOf more) :=
  (h.filter _).map _

namespace Mqtt.System

variable {set : Settings} {s t : System}

/-- The message that a step calls `publish()` with, if it finds a connection. -/
theorem calledIn_publish {topic payload : String}
    (hs : s.step set (.publish topic payload none none) = some t) (log : List SessionEvent) :
    calledIn (s.sessionEvents (.publish topic payload none none) t ++ log) = calledIn log ∨
      calledIn (s.sessionEvents (.publish topic payload none none) t ++ log) =
        calledIn log ++ [(⟨topic, payload, set.qos, set.retain, s.calls⟩, .report)] := by
  cases moved_of_step hs with
  | publish hpc =>
    rw [sessionEvents_eq hs (by simp), begins]
    rcases pc_onPublish s topic payload set.qos set.retain .report with h | h | h
    · exact .inr (by simp [h, Pc.outgoing])
    · exact .inl (by simp [h, Pc.outgoing])
    · exact .inl (by simp [h, Pc.outgoing])

/-- No other step makes a message for a report. -/
theorem reportsOf_other {a : Act} {log : List SessionEvent} (hs : s.step set a = some t)
    (ha : ∀ topic payload qos retain, a ≠ .publish topic payload qos retain) :
    reportsOf (calledIn (s.sessionEvents a t ++ log)) = reportsOf (calledIn log) := by
  cases a with
  | publish topic payload qos retain => exact absurd rfl (ha topic payload qos retain)
  | goodbye =>
    cases moved_of_step hs with
    | goodbye hpc =>
      rw [sessionEvents_eq hs (by simp), begins]
      rcases pc_onPublish s set.status set.offline .atLeastOnce set.statusRetain .goodbye with
        h | h | h <;>
        simp [h, Pc.outgoing, reportsOf]
  | worker i => rw [calledIn_worker]
  | _ =>
    rw [sessionEvents_eq hs (by simp)]
    rfl

end Mqtt.System

/-! ## What holds after every step -/

namespace Service

variable {job : Job} {s t : Service}

/-- What holds after every step, of a program with the configuration `cfg`. -/
structure Delivers (job : Job) (cfg : Config) (s : Service) : Prop where
  /-- the calls are among the messages that have been worked off, in order -/
  called : ∃ done, (reportsIn s.log).flatten = done ++ s.stage.todo ∧
    ((reportsOf (calledIn (sessionsIn s.log))).map Message.content).Sublist done
  settings : ∀ m ∈ reportsOf (calledIn (sessionsIn s.log)),
    m.qos = job.set.qos ∧ m.retain = job.set.retain
  made : ∀ made ∈ madeIn s.log, ∃ snapshot, collect cfg made.1 = .ok snapshot ∧
    messagesFor job.platform cfg snapshot = .ok made.2

theorem delivers_init (job : Job) (r : Reporter) (built epoch now : Duration) :
    (init job r built epoch now).Delivers job r.cfg :=
  ⟨⟨[], rfl, .slnil⟩, fun _ h => absurd h List.not_mem_nil, fun _ h => absurd h List.not_mem_nil⟩

namespace Delivers

variable {cfg : Config}

/-- A step that neither makes a report nor takes a message of one. -/
theorem keep (h : s.Delivers job cfg)
    (hcalled : reportsOf (calledIn (sessionsIn t.log)) = reportsOf (calledIn (sessionsIn s.log)))
    (hmade : madeIn t.log = madeIn s.log)
    (htodo : t.stage.todo = s.stage.todo ∨ t.stage.todo = []) : t.Delivers job cfg := by
  obtain ⟨done, hflat, hsub⟩ := h.called
  have hreports : reportsIn t.log = reportsIn s.log := congrArg (List.map Prod.snd) hmade
  refine ⟨?_, by rw [hcalled]; exact h.settings, by rw [hmade]; exact h.made⟩
  rw [hcalled, hreports]
  rcases htodo with htodo | htodo
  · exact ⟨done, by rw [htodo, hflat], hsub⟩
  · exact ⟨done ++ s.stage.todo, by rw [htodo, hflat, List.append_nil],
      hsub.trans (List.sublist_append_left _ _)⟩

/-- The next message of a report. -/
theorem publish (h : s.Delivers job cfg) {purpose : Purpose} {total completed : ℕ}
    {topic payload : String} {todo : List (String × String)} {system : System}
    (hstage : s.stage = .publishing purpose total completed ((topic, payload) :: todo))
    (hs : s.system.step job.set (.publish topic payload none none) = some system) :
    (s.after (.publish topic payload none none) system
      (.publishing purpose total completed todo)).Delivers job cfg := by
  obtain ⟨done, hflat, hsub⟩ := h.called
  rw [hstage] at hflat
  have hflat' : (reportsIn s.log).flatten = (done ++ [(topic, payload)]) ++ todo := by
    rw [hflat]
    simp [Stage.todo]
  refine ⟨?_, ?_, ?_⟩
  · refine ⟨done ++ [(topic, payload)], by simpa [after, Stage.todo] using hflat', ?_⟩
    rw [after, sessionsIn_append]
    rcases System.calledIn_publish hs (sessionsIn s.log) with heq | heq
    · rw [heq]
      exact hsub.trans (List.sublist_append_left _ _)
    · rw [heq, reportsOf_append, List.map_append]
      exact hsub.append_right _
  · rw [after, sessionsIn_append]
    rcases System.calledIn_publish hs (sessionsIn s.log) with heq | heq
    · rw [heq]
      exact h.settings
    · rw [heq, reportsOf_append]
      intro m hm
      rcases List.mem_append.1 hm with hm | hm
      · exact h.settings m hm
      · rw [show m = ⟨topic, payload, job.set.qos, job.set.retain, s.system.calls⟩ by
          simpa [reportsOf] using hm]
        exact ⟨rfl, rfl⟩
  · rw [after, madeIn_append]
    exact h.made

/-- A new report. -/
theorem report (h : s.Delivers job cfg) {purpose : Purpose} {host : Host} {snapshot : Snapshot}
    {messages : List (String × String)} (hstage : s.stage = .reporting purpose)
    (hcollect : collect cfg host = .ok snapshot)
    (hmessages : messagesFor job.platform cfg snapshot = .ok messages) :
    ({ s with
      stage := .publishing purpose messages.length 0 messages
      log := .report host messages :: s.log } : Service).Delivers job cfg := by
  obtain ⟨done, hflat, hsub⟩ := h.called
  rw [hstage, show (Stage.reporting purpose).todo = [] from rfl, List.append_nil] at hflat
  refine ⟨⟨done, ?_, hsub⟩, h.settings, ?_⟩
  · rw [reportsIn_report, List.flatten_append, hflat, List.flatten_singleton]
    rfl
  · intro made hmade
    rw [madeIn_report, List.mem_append, List.mem_singleton] at hmade
    rcases hmade with hmade | rfl
    · exact h.made made hmade
    · exact ⟨snapshot, hcollect, hmessages⟩

theorem plain (h : s.Delivers job cfg) (hcfg : s.reporter.cfg = cfg) (hplain : Plain job s t) :
    t.Delivers job cfg := by
  cases hplain with
  | report hstage hcollect hmessages =>
    rw [hcfg] at hcollect hmessages
    exact h.report hstage hcollect hmessages
  | failed =>
    rw [fail]
    split <;> exact h.keep rfl rfl (.inr rfl)
  | _ => exact h.keep rfl rfl (.inr rfl)

/-- **Every step keeps it.** -/
theorem step {m : Move} (h : s.Delivers job cfg) (hcfg : s.reporter.cfg = cfg)
    (hwent : Went job s m t) : t.Delivers job cfg := by
  cases hwent with
  | signal => exact h.keep rfl rfl (.inl rfl)
  | plain _ hplain => exact h.plain hcfg hplain
  | @publisher a system ha hs =>
    refine h.keep ?_ (madeIn_append _ _) (.inl (Stage.todo_heard _ _))
    rw [after, sessionsIn_append]
    refine System.reportsOf_other hs fun topic payload qos retain heq => ?_
    rw [heq] at ha
    cases ha
  | @call host a next system _ hcalls hs =>
    generalize hstage : s.stage = stage at hcalls
    cases hcalls with
    | publish => exact h.publish hstage hs
    | _ =>
      refine h.keep ?_ (madeIn_append _ _) (.inr rfl)
      rw [after, sessionsIn_append]
      exact System.reportsOf_other hs (by simp)

end Delivers

theorem delivers_of_reach {r : Reporter} {built epoch now : Duration} {C : Service → Move → Prop}
    (haccepted : Accepted job.platform r.cfg)
    (h : Reach (step job) C (init job r built epoch now) s) : s.Delivers job r.cfg := by
  refine h.along (J := fun s => s.reporter.cfg = r.cfg)
    (fun _ hr => (frame_of_reach haccepted hr).2.1) (delivers_init job r built epoch now) ?_
  intro s m t hcfg hi _ hs
  exact hi.step hcfg (went_of_step (by rw [hcfg]; exact haccepted) hs)

end Service

theorem publishTopic_of_messages {platform : Platform} {cfg : Config}
    (h : Accepted platform cfg) {host : Host} {snapshot : Snapshot}
    {messages : List (String × String)} (hcollect : collect cfg host = .ok snapshot)
    (hmessages : messagesFor platform cfg snapshot = .ok messages) :
    ∀ m ∈ messages, PublishTopic m.1 := by
  obtain ⟨plan, hplan⟩ := plan_of_shaped h.shaped
  have htopic : ∀ field ∈ plan.fields, cfg.meminfoTopic platform field =
      .ok (fieldTopic platform cfg field) := fun _ => meminfoTopic_of_plan h hplan
  obtain ⟨snapshot', hcollect', hmessages'⟩ := messagesFor_of_plan hplan host htopic
  obtain rfl := Outcome.ok.inj (hcollect.symm.trans hcollect')
  obtain rfl := Outcome.ok.inj (hmessages.symm.trans hmessages')
  exact fun _ => publishTopic_of_mem h htopic

/-- **From reports to the broker.**  In every run of the program, with rebuilds, lost connections,
deaths of the thread and signals: each connection has the shape of a session; what the client
accepts as reports are messages of the reports that were made, in the order in which they were made
and each at most once; they go to topics that can be published to, with the QoS and the retain flag
of the configuration; and each report is what `messages_for` makes of a collection of the files as
they were. -/
theorem delivery_law {Certificate Identity Connector : Type} (lib : SerdeYaml)
    (tls : NativeTls Certificate Identity Connector) (job : Job) (yaml hostname : String)
    (env : Env) (cfg : Config) (hcfg : fromYaml lib job.platform yaml hostname env = .ok cfg)
    (usizeMax : ℕ) (built epoch now : Duration) (publisher : Publisher Connector)
    (hpublisher : withClock tls job.platform usizeMax cfg built = .ok publisher)
    (hset : job.set = publisher.settings) (r : Reporter)
    (hr : withIo cfg (now.saturatingSub epoch) = .ok r) (hbuilt : built ≤ now)
    (validTopic : String → Prop) (hvalid : ∀ topic, PublishTopic topic → validTopic topic)
    (s : Service)
    (hs : Reach (Service.step job) (Service.AcceptsOnline validTopic job)
      (.init job r built epoch now) s) :
    (.connAck ∈ sessionsIn s.log → Session job.set (session (sessionsIn s.log))) ∧
    ((reportsOf (acceptedIn (sessionsIn s.log))).map Message.content).Sublist
      (reportsIn s.log).flatten ∧
    (∀ m ∈ reportsOf (acceptedIn (sessionsIn s.log)),
      PublishTopic m.topic ∧ m.qos = job.set.qos ∧ m.retain = job.set.retain) ∧
    ∀ made ∈ madeIn s.log, ∃ snapshot, collect cfg made.1 = .ok snapshot ∧
      messagesFor job.platform cfg snapshot = .ok made.2 := by
  obtain ⟨haccepted, -⟩ := accepted_of_fromYaml hcfg
  obtain ⟨rfl, -⟩ := follows_of_withIo hr
  have hstatus : validTopic job.set.status := by
    rw [hset, (statusTopic_of_withClock hpublisher).2]
    exact hvalid _ haccepted.status
  have hdelivers := Service.delivers_of_reach haccepted hs
  have hspeaks := System.speaks_of_reach hstatus (Service.reach_system haccepted hbuilt hs)
  obtain ⟨sent, hsent, horder⟩ := hspeaks.order
  obtain ⟨done, hflat, hcalled⟩ := hdelivers.called
  have hsub : (acceptedIn (sessionsIn s.log)).Sublist (calledIn (sessionsIn s.log)) := by
    rw [hsent]
    exact (List.sublist_append_left _ _).trans (horder.trans (List.sublist_append_left _ _))
  have hreports : ((reportsOf (acceptedIn (sessionsIn s.log))).map Message.content).Sublist
      (reportsIn s.log).flatten := by
    rw [hflat]
    exact ((sublist_reportsOf hsub).map _).trans (hcalled.trans (List.sublist_append_left _ _))
  refine ⟨hspeaks.session, hreports, fun m hm => ⟨?_, ?_⟩, hdelivers.made⟩
  · -- the message is one of a report, and those are known to go to proper topics
    obtain ⟨messages, hmessages, hmem⟩ :=
      List.mem_flatten.1 (hreports.subset (List.mem_map_of_mem hm))
    obtain ⟨made, hmade, rfl⟩ := List.mem_map.1 hmessages
    obtain ⟨snapshot, hcollect, hmessagesFor⟩ := hdelivers.made made hmade
    exact publishTopic_of_messages haccepted hcollect hmessagesFor _ hmem
  · exact hdelivers.settings m ((sublist_reportsOf hsub).subset hm)

/-- The worker puts a message with QoS 0 into the client's channel. -/
theorem Mqtt.System.welcomed_message {set : Settings} (hqos : set.qos = .atMostOnce)
    (topic payload : String) : ∃ l, (welcomed set).link.step set
        (.message ⟨topic, payload, set.qos, set.retain, 0⟩ true) = some l ∧
      (welcomed set).link.client.gained l.client =
        [⟨some 0, topic, payload, set.qos, set.retain⟩] := by
  obtain ⟨cleanSession, status, online, offline, statusRetain, qos, retain, recreate, minDelay,
    maxDelay, capacity⟩ := set
  obtain rfl : qos = .atMostOnce := hqos
  exact ⟨_, rfl, rfl⟩

/-- It is called with a message, which the client accepts. -/
theorem Mqtt.System.welcomed_publish {set : Settings} (hqos : set.qos = .atMostOnce)
    (topic payload : String) :
    ∃ (m : Message) (t u v : System), m.content = (topic, payload) ∧
      (welcomed set).step set (.publish topic payload none none) = some t ∧
      t.step set .send = some u ∧ u.step set (.worker (.message m true)) = some v ∧
      (welcomed set).sessionEvents (.publish topic payload none none) t = [.called m .report] ∧
      t.sessionEvents .send u = [] ∧
      u.sessionEvents (.worker (.message m true)) v = [.accepted m .report] := by
  let m : Message := ⟨topic, payload, set.qos, set.retain, 0⟩
  obtain ⟨l, hl, hgained⟩ := welcomed_message hqos topic payload
  let called (l : Link) (slot : Option Message) (pc : Pc) : System :=
    { welcomed set with calls := 1, pc := pc, slot := slot, link := l }
  have hworker : (called (welcomed set).link (some m) (.waiting 0 .report)).step set
      (.worker (.message m true)) = some (called l none (.waiting 0 .report)) := by
    rw [step, if_pos (by simp [admits, called])]
    exact congrArg (Option.map _) hl
  have haccepted : (called (welcomed set).link (some m) (.waiting 0 .report)).gained
      (called l none (.waiting 0 .report)) = [m.publication] := hgained
  refine ⟨m, called (welcomed set).link none (.sending m .report),
    called (welcomed set).link (some m) (.waiting 0 .report), _, rfl, rfl, rfl, hworker, rfl, rfl, ?_⟩
  rw [sessionEvents, haccepted]
  rfl

/-- The first message of a report reaches the client. -/
theorem Service.reach_accepted (job : Job) {s : Service} {purpose : Purpose} {total completed : ℕ}
    {topic payload : String} {todo : List (String × String)} (validTopic : String → Prop)
    (hstage : s.stage = .publishing purpose total completed ((topic, payload) :: todo))
    (hsystem : s.system = .welcomed job.set) (hqos : job.set.qos = .atMostOnce) :
    ∃ t m, Reach (step job) (AcceptsOnline validTopic job) s t ∧ m.content = (topic, payload) ∧
      t.log = .session (.accepted m .report) :: .session (.called m .report) :: s.log := by
  obtain ⟨m, called, sent, accepted, hcontent, hcall, hsend, hworker, hcalled, hnone, haccepted⟩ :=
    System.welcomed_publish hqos topic payload
  rw [← hsystem] at hcall hcalled
  have hpublish := step_publishing job (by rw [hsystem]; rfl) hstage hcall smallHost
  generalize hu : s.after (.publish topic payload none none) called
    (.publishing purpose total completed todo) = u at hpublish
  have hsent : u.step job (.publisher .send) = some _ :=
    step_publisher job rfl (by rw [← hu]; exact hsend)
  generalize hv : u.after .send sent (u.stage.heard .send) = v at hsent
  have htaken : v.step job (.publisher (.worker (.message m true))) = some _ :=
    step_publisher job rfl (by rw [← hv]; exact hworker)
  refine ⟨_, m, ((Reach.single (a := .go smallHost) trivial hpublish).snoc (a := .publisher .send)
    trivial hsent).snoc (a := .publisher (.worker (.message m true))) trivial htaken, hcontent, ?_⟩
  subst hu hv
  simp [after, hcalled, hnone, haccepted]

/-- `--once` meets a broker and makes its report, and the client accepts the first message of it. -/
theorem delivery_law_once : ∃ cfg publisher r s messages m,
    fromYaml .defaultsOnly .empty "" "host" (fun _ => none) = .ok cfg ∧
      withClock plainTcp .empty (2 ^ 64 - 1) cfg .zero = .ok publisher ∧
      withIo cfg .zero = .ok r ∧
      Reach (Service.step (onceJob publisher.settings))
        (Service.AcceptsOnline PublishTopic (onceJob publisher.settings))
        (.init (onceJob publisher.settings) r .zero .zero .zero) s ∧
      madeIn s.log = [(smallHost, messages)] ∧
      reportsOf (acceptedIn (sessionsIn s.log)) = [m] ∧
      Session publisher.settings (session (sessionsIn s.log)) ∧
      m.content ∈ messages ∧ PublishTopic m.topic ∧ m.qos = publisher.settings.qos ∧
      m.retain = publisher.settings.retain ∧
      ∃ snapshot, collect cfg smallHost = .ok snapshot ∧
        messagesFor .empty cfg snapshot = .ok messages := by
  obtain ⟨cfg, publisher, hcfg, hpublisher, hqos⟩ := withClock_defaults
  obtain ⟨cfg', hcfg', hdata⟩ := fromYaml_defaultsOnly
  cases hcfg.symm.trans hcfg'
  obtain ⟨haccepted, -⟩ := accepted_of_fromYaml hcfg
  obtain ⟨r, hr⟩ := withIo_of_shaped haccepted.shaped .zero
  obtain ⟨hrcfg, -⟩ := follows_of_withIo hr
  obtain ⟨snapshot, messages, hcollect, hmessages⟩ := Service.exists_messages haccepted smallHost
  obtain ⟨⟨topic, payload⟩, todo, rfl⟩ := List.exists_cons_of_ne_nil
    (messages_ne_nil (by rw [hdata]; rfl) hmessages)
  obtain ⟨s, hreach, hidle, hstage, rfl, hlog, hsystem⟩ :=
    Service.reach_onceJob PublishTopic publisher.settings r
  rw [← hrcfg] at hcollect hmessages
  have hstep : s.step (onceJob publisher.settings) (.go smallHost) = some _ :=
    Service.step_reporting hidle hstage hcollect hmessages
  obtain ⟨t, m, htaken, hcontent, htlog⟩ := Service.reach_accepted (onceJob publisher.settings)
    PublishTopic (s := { s with
      stage := .publishing .once ((topic, payload) :: todo).length 0 ((topic, payload) :: todo)
      log := .report smallHost ((topic, payload) :: todo) :: s.log }) rfl hsystem hqos
  have hreach := (Reach.snoc hreach (a := Move.go smallHost) trivial hstep).trans htaken
  obtain ⟨hsession, hsub, hmessage, hmade⟩ := delivery_law .defaultsOnly plainTcp
    (onceJob publisher.settings) "" "host" _ cfg hcfg (2 ^ 64 - 1) .zero .zero .zero publisher
    hpublisher rfl s.reporter hr le_rfl PublishTopic (fun _ h => h) _ hreach
  have hreports : madeIn t.log = [(smallHost, (topic, payload) :: todo)] := by
    rw [htlog, hlog]
    rfl
  have hone : reportsOf (acceptedIn (sessionsIn t.log)) = [m] := by
    rw [htlog, hlog]
    rfl
  rw [hone, reportsIn, hreports] at hsub
  obtain ⟨htopic, hset⟩ := hmessage m (by simp [hone])
  refine ⟨cfg, publisher, s.reporter, t, (topic, payload) :: todo, m, hcfg, hpublisher, hr, hreach,
    hreports, hone, hsession ?_, ?_, htopic, hset.1, hset.2, ?_⟩
  · rw [htlog, hlog]
    simp [sessionsIn]
  · simpa using hsub
  · exact hmade (smallHost, (topic, payload) :: todo) (by simp [hreports])

end SystemReport
