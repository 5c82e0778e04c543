import SystemReport.Mqtt.Publisher
import SystemReport.Mqtt.Setup

/-!
# The online announcement

On every `ConnAck` the worker hands the online status to the client, and ignores it if the client
does not take it.  `online_first` says that the client always takes it, as the first publication of
the connection: its channel is empty then, since a message is only handed on while there is a
connection, and what is left of it goes to the retained requests when the connection is lost.
-/

set_option autoImplicit false

open Machine

namespace SystemReport
namespace Mqtt

/-! ## What the client is handed -/

/-- What the worker does with its client. -/
inductive WorkerEvent
  /-- a worker with a new client is started -/
  | started
  | connAck
  /-- `Err` -/
  | lost
  /-- a publication is put into the client's channel -/
  | handed (p : Publication)
deriving DecidableEq

/-- What a step puts into the client's channel. -/
def System.gained (s t : System) : List Publication := s.link.client.gained t.link.client

/-- Where a worker or a connection begins or ends. -/
def Act.boundary : Act → List WorkerEvent
  | .spawn .ok => [.started]
  | .worker (.connAck _ _) => [.connAck]
  | .worker (.err _) => [.lost]
  | _ => []

/-- The events of a step, the latest first. -/
def System.workerEvents (s : System) (a : Act) (t : System) : List WorkerEvent :=
  ((s.gained t).map .handed).reverse ++ a.boundary

/-- There has been a `ConnAck` since the last start and the last `Err`. -/
def established : List WorkerEvent → Bool
  | [] => false
  | .connAck :: _ => true
  | .started :: _ | .lost :: _ => false
  | .handed _ :: log => established log

/-- The online status is put into the channel at every `ConnAck`, before anything else, and the
messages of `publish()` calls only on a connection that is established. -/
inductive Announced (set : Settings) : List WorkerEvent → Prop
  | nil : Announced set []
  | started {log : List WorkerEvent} (h : Announced set log) : Announced set (.started :: log)
  | lost {log : List WorkerEvent} (h : Announced set log) : Announced set (.lost :: log)
  | connAck {log : List WorkerEvent} (h : Announced set log) :
      Announced set
        (.handed ⟨none, set.status, set.online, .atLeastOnce, set.statusRetain⟩ :: .connAck :: log)
  | report {log : List WorkerEvent} {p : Publication} (h : Announced set log)
      (hup : established log = true) (howner : p.owner ≠ none) : Announced set (.handed p :: log)

/-- At a `ConnAck`, `try_publish` fails only if the channel is full or the topic is not valid. -/
def AcceptsOnline (validTopic : String → Prop) (set : Settings) (s : System) : Act → Prop
  | .worker (.connAck resumed ok) => ok = false → validTopic set.status →
      ∀ c, s.link.client.connAck resumed = some c → Client.channelSlots ≤ c.channel.length
  | _ => True

/-! ## The channel -/

theorem Client.channel_lose {c : Client} (h : c.live = false → c.channel = []) :
    c.lose.channel = [] := by
  rw [lose]
  split
  · rfl
  · rename_i hlive
    exact h (by simpa using hlive)

/-- Off a connection the client's channel is empty, and the flag is only set on one. -/
structure Link.Ready (l : Link) : Prop where
  channel : l.client.live = false → l.client.channel = []
  live : l.loop.phase ≠ .finished → l.shared.connected = true → l.client.live = true

theorem State.connected_onErr (s : State) (now : Duration) : (s.onErr now).connected = false := by
  rw [onErr]
  split
  · rfl
  · simp_all

/-- A client that is connected has nothing to prove. -/
theorem Link.ready_of_live {l : Link} (h : l.client.live = true) : l.Ready :=
  ⟨fun hdead => absurd (h.symm.trans hdead) nofun, fun _ _ => h⟩

theorem Link.ready_step {set : Settings} {l l' : Link} {i : Input} (h : l.Ready)
    (hs : l.step set i = some l') : l'.Ready := by
  obtain ⟨hshared, -⟩ := shared_phase_step hs
  obtain ⟨hawait, hs⟩ := step_eq_some.1 hs
  have hsame : l'.client = l.client → l'.shared.connected = l.shared.connected →
      l.loop.phase ≠ .finished → l'.Ready := fun hclient hconn hphase => by
    refine ⟨?_, fun _ => ?_⟩
    · rw [hclient]
      exact h.channel
    · rw [hclient, hconn]
      exact h.live hphase
  have hselect : ∀ {j}, i = j → l.awaits j = (l.loop.phase == .select) → l.loop.phase ≠ .finished := by
    rintro _ rfl heq
    rw [heq, beq_iff_eq] at hawait
    simp [hawait]
  cases i with
  | stop disconnect =>
    obtain ⟨-, hs⟩ := Option.ite_none_right_eq_some.1 hs
    cases hs
    exact ⟨fun _ => rfl, nofun⟩
  | message m ok =>
    obtain ⟨-, ⟨-, rfl⟩ | ⟨⟨hconn, -, -⟩, c, hc, rfl⟩⟩ := onMessage_eq_some hs
    · exact hsame rfl rfl (hselect rfl rfl)
    · have hlive := h.live (hselect rfl rfl) hconn
      obtain ⟨-, rfl⟩ := Client.tryPublish_eq_some.1 hc
      exact ready_of_live hlive
  | take =>
    obtain ⟨c, hc, rfl⟩ := Option.map_eq_some_iff.1 hs
    obtain ⟨_, _, -, hlive, rfl⟩ := Client.take_eq_some.1 hc
    exact ready_of_live hlive
  | connAck resumed ok =>
    obtain ⟨c, hc, ⟨-, rfl⟩ | ⟨-, c', hc', rfl⟩⟩ := onConnAck_eq_some hs
    · obtain ⟨-, _, _, rfl⟩ := Client.connAck_keeps hc
      exact ready_of_live rfl
    · obtain ⟨-, _, _, rfl⟩ := Client.connAck_keeps hc
      obtain ⟨-, rfl⟩ := Client.tryPublish_eq_some.1 hc'
      exact ready_of_live rfl
  | published id =>
    obtain ⟨c, hc, rfl⟩ := Option.map_eq_some_iff.1 hs
    obtain ⟨_, _, rfl⟩ := Client.announce_keeps hc
    exact ⟨h.channel, fun _ => h.live (hselect rfl rfl)⟩
  | pubAck id | pubComp id =>
    cases hs
    exact ⟨h.channel, fun _ => h.live (hselect rfl rfl)⟩
  | err now =>
    cases hs
    refine ⟨fun _ => ?_, fun _ hconn => ?_⟩
    · rw [onErr]
      split
      · rfl
      · exact Client.channel_lose h.channel
    · rw [hshared, sharedAfter, State.connected_onErr] at hconn
      cases hconn
  | other =>
    cases hs
    exact h
  | wake =>
    cases hs
    refine hsame rfl rfl ?_
    have hsleep : l.loop.phase = .sleeping := by simpa [awaits] using hawait
    simp [hsleep]

/-- **The announcement is accepted** at every `ConnAck`. -/
theorem Link.accepts_online {l : Link} (h : l.Ready) {resumed : List Request} {c : Client}
    (hc : l.client.connAck resumed = some c) : c.channel.length < Client.channelSlots := by
  obtain ⟨hdead, _, _, rfl⟩ := Client.connAck_keeps hc
  show l.client.channel.length < Client.channelSlots
  rw [h.channel hdead]
  decide

/-! ## What is put into it -/

section Gained

variable {set : Settings} {l l' : Link}

/-- A message that is accepted was taken out of the slot on a connection. -/
theorem Link.gained_message {m : Message} {ok : Bool} (hs : l.onMessage set m ok = some l') :
    l.client.gained l'.client = [] ∨
      l.shared.connected = true ∧ l.client.gained l'.client = [m.publication] := by
  obtain ⟨-, ⟨-, rfl⟩ | ⟨⟨hconn, -, -⟩, c, hc, rfl⟩⟩ := onMessage_eq_some hs
  · exact .inl (Client.gained_eq_nil le_rfl)
  · exact .inr ⟨hconn, Client.gained_tryPublish hc⟩

theorem Link.gained_connAck {resumed : List Request} {ok : Bool}
    (hs : l.onConnAck set resumed ok = some l') :
    l.client.gained l'.client = if ok then [set.announcement] else [] := by
  obtain ⟨c, hc, ⟨rfl, rfl⟩ | ⟨rfl, c', hc', rfl⟩⟩ := onConnAck_eq_some hs
  · obtain ⟨-, _, _, rfl⟩ := Client.connAck_keeps hc
    exact Client.gained_eq_nil le_rfl
  · obtain ⟨-, _, _, rfl⟩ := Client.connAck_keeps hc
    obtain ⟨-, rfl⟩ := Client.tryPublish_eq_some.1 hc'
    exact Client.gained_of_channel rfl

/-- Nothing is put into the channel at any other event. -/
theorem Link.gained_other {i : Input} (hs : l.step set i = some l')
    (hmsg : ∀ m ok, i ≠ .message m ok) (hack : ∀ rs ok, i ≠ .connAck rs ok) :
    l.client.gained l'.client = [] := by
  obtain ⟨-, hs⟩ := step_eq_some.1 hs
  cases i with
  | stop disconnect =>
    obtain ⟨-, hs⟩ := Option.ite_none_right_eq_some.1 hs
    cases hs
    exact Client.gained_eq_nil (Nat.zero_le _)
  | message m ok => exact absurd rfl (hmsg m ok)
  | connAck rs ok => exact absurd rfl (hack rs ok)
  | take =>
    obtain ⟨c, hc, rfl⟩ := Option.map_eq_some_iff.1 hs
    obtain ⟨p, rest, hchannel, -, rfl⟩ := Client.take_eq_some.1 hc
    exact Client.gained_eq_nil (by simp [hchannel])
  | published id =>
    obtain ⟨c, hc, rfl⟩ := Option.map_eq_some_iff.1 hs
    obtain ⟨_, _, rfl⟩ := Client.announce_keeps hc
    exact Client.gained_eq_nil le_rfl
  | err now =>
    cases hs
    refine Client.gained_eq_nil ?_
    rw [onErr, Client.lose]
    split
    · exact Nat.zero_le _
    · split
      · exact Nat.zero_le _
      · exact le_rfl
  | pubAck id | pubComp id | other | wake =>
    cases hs
    exact Client.gained_eq_nil le_rfl

/-- Nothing is put into it by any other thread. -/
theorem System.gained_eq_nil {s t : System} {a : Act} (hs : s.step set a = some t)
    (ha : ∀ i, a ≠ .worker i) : s.gained t = [] := by
  have hsame {u : System} (h : u.link.client = s.link.client) : s.gained u = [] := by
    rw [gained, h]
    exact Client.gained_eq_nil le_rfl
  have hlocked {u : System} (h : u.link.client = s.link.client) : s.gained (s.locked u) = [] :=
    locked_of (P := fun u => s.gained u = []) (hsame rfl) fun _ => hsame h
  cases moved_of_step hs with
  | @worker i => exact absurd rfl (ha i)
  | die => exact Client.gained_eq_nil (Nat.zero_le _)
  | advance | verdict | timeout | start | maintainOff | stopIdle | signal => exact hsame rfl
  | publish | goodbye =>
    rw [onPublish]
    split
    · exact hlocked rfl
    · exact hsame rfl
  | countDrop | maintain =>
    refine hlocked ?_
    split <;> rfl
  | send =>
    rw [onSend]
    split <;> exact hsame rfl
  | stop | tornDown | join => exact hlocked rfl
  | spawn =>
    refine locked_of (P := fun u => s.gained u = []) (hsame rfl) fun _ => ?_
    split
    · exact Client.gained_eq_nil (Nat.zero_le _)
    · exact hsame rfl

end Gained

theorem System.workerEvents_of_gained {s t : System} {a : Act} (h : s.gained t = []) :
    s.workerEvents a t = a.boundary := by
  rw [workerEvents, h]
  rfl

/-! ## Runs -/

/-- What holds after every step. -/
structure System.Announces (set : Settings) (s : System) (log : List WorkerEvent) : Prop where
  announced : Announced set log
  ready : s.link.Ready
  up : s.running = true → s.connected = established log

namespace System.Announces

variable {set : Settings} {s t : System} {log : List WorkerEvent}

theorem init (set : Settings) (now : Duration) : (init set now).Announces set [] where
  announced := .nil
  ready := ⟨fun _ => rfl, nofun⟩
  up h := by cases h

/-- A step that leaves the worker and its client alone. -/
theorem keep (h : s.Announces set log) (hclient : t.link.client = s.link.client)
    (hconn : t.link.shared.connected = s.link.shared.connected)
    (hloop : t.link.loop = s.link.loop) : t.Announces set log := by
  refine ⟨h.announced, ⟨?_, ?_⟩, ?_⟩
  · rw [hclient]
    exact h.ready.channel
  · rw [hclient, hconn, hloop]
    exact h.ready.live
  · rw [running, connected, hconn, hloop]
    exact h.up

/-- A step after which no thread runs. -/
theorem gone (hannounced : Announced set log) (hready : t.link.Ready) (hstill : t.running = false) :
    t.Announces set log :=
  ⟨hannounced, hready, fun hrun => by rw [hstill] at hrun; cases hrun⟩

theorem worker {validTopic : String → Prop} (hvalid : validTopic set.status)
    (h : s.Announces set log) {i : Input} {l : Link}
    (honline : AcceptsOnline validTopic set s (.worker i)) (hl : s.link.step set i = some l)
    (ht : t = { s with link := l, slot := s.slotAfter i }) :
    t.Announces set (s.workerEvents (.worker i) t ++ log) := by
  have hrun := running_of_step hl
  have hup : s.link.shared.connected = established log := h.up hrun
  obtain ⟨hshared, hphase⟩ := Link.shared_phase_step hl
  have hready : t.link.Ready := by
    rw [ht]
    exact Link.ready_step h.ready hl
  have hconn : t.connected = (Link.sharedAfter s.link.shared i).connected := by
    rw [ht, connected, hshared]
  have hquiet (hmsg : ∀ m ok, i ≠ .message m ok) (hack : ∀ rs ok, i ≠ .connAck rs ok) :
      s.workerEvents (.worker i) t = Act.boundary (.worker i) :=
    workerEvents_of_gained (ht ▸ Link.gained_other hl hmsg hack)
  cases i with
  | stop disconnect =>
    rw [hquiet (by simp) (by simp)]
    refine gone h.announced hready ?_
    simp [ht, running, hphase, Link.phaseAfter]
  | connAck resumed ok =>
    have hok : ok = true := by
      obtain ⟨-, hs⟩ := Link.step_eq_some.1 hl
      obtain ⟨c, hc, -⟩ := Option.bind_eq_some_iff.1 hs
      have hroom := Link.accepts_online h.ready hc
      by_contra hno
      have hfull := honline (by simpa using hno) hvalid c hc
      omega
    subst hok
    have hgained : s.gained t = [set.announcement] :=
      ht ▸ Link.gained_connAck (Link.step_eq_some.1 hl).2
    rw [workerEvents, hgained]
    exact ⟨.connAck h.announced, hready, fun _ => hconn⟩
  | err now =>
    rw [hquiet (by simp) (by simp)]
    refine ⟨.lost h.announced, hready, fun _ => ?_⟩
    rw [hconn, Link.sharedAfter, State.connected_onErr]
    rfl
  | message m ok =>
    rcases Link.gained_message (Link.step_eq_some.1 hl).2 with hnone | ⟨hconnected, hsome⟩
    · rw [workerEvents_of_gained (show s.gained t = [] from ht ▸ hnone)]
      exact ⟨h.announced, hready, fun _ => hconn.trans hup⟩
    · rw [workerEvents, show s.gained t = [m.publication] from ht ▸ hsome]
      exact ⟨.report h.announced (hup.symm.trans hconnected) (Option.some_ne_none m.reply), hready,
        fun _ => hconn.trans hup⟩
  | _ =>
    rw [hquiet (by simp) (by simp)]
    exact ⟨h.announced, hready, fun _ => hconn.trans hup⟩

/-- **Every step keeps it.** -/
theorem step {validTopic : String → Prop} (hvalid : validTopic set.status) (h : s.Announces set log)
    (hheld : s.Held) {a : Act} (honline : AcceptsOnline validTopic set s a)
    (hs : s.step set a = some t) : t.Announces set (s.workerEvents a t ++ log) := by
  have hpanicked : ({ s with pc := .panicked } : System).Announces set log := h.keep rfl rfl rfl
  by_cases hother : ∀ i, a ≠ .worker i
  case neg =>
    obtain ⟨i, rfl⟩ : ∃ i, a = .worker i := by simpa using hother
    cases moved_of_step hs with
    | worker _ hl => exact h.worker hvalid honline hl rfl
  rw [workerEvents_of_gained (gained_eq_nil hs hother)]
  cases moved_of_step hs with
  | @worker i => exact absurd rfl (hother i)
  | die => exact gone h.announced ⟨fun _ => rfl, nofun⟩ rfl
  | advance | verdict | timeout | start | maintainOff | stopIdle | signal => exact h.keep rfl rfl rfl
  | publish | goodbye =>
    rw [onPublish]
    split
    · exact locked_of (P := fun t => t.Announces set log) hpanicked fun _ => h.keep rfl rfl rfl
    · exact h.keep rfl rfl rfl
  | countDrop | maintain =>
    refine locked_of (P := fun t => t.Announces set log) hpanicked fun _ => ?_
    split <;> exact h.keep rfl rfl rfl
  | send =>
    rw [onSend]
    split <;> exact h.keep rfl rfl rfl
  | stop =>
    exact locked_of (P := fun t => t.Announces set log) hpanicked fun _ => h.keep rfl rfl rfl
  | tornDown hpc hworker =>
    have hstill := (hheld.gone (by simp [hpc]) (by simp [hpc]) hworker).2
    exact locked_of (P := fun t => t.Announces set log) hpanicked fun _ =>
      gone h.announced ⟨h.ready.channel, fun _ hconn => by cases hconn⟩ hstill
  | join _ hstill =>
    exact locked_of (P := fun t => t.Announces set log) hpanicked fun _ =>
      gone h.announced ⟨h.ready.channel, fun _ hconn => by cases hconn⟩ hstill
  | @spawn outcome hpc =>
    have hstill := hheld.spawning hpc
    cases outcome with
    | ok =>
      exact locked_of (P := fun t => t.Announces set (.started :: log))
        (gone (.started h.announced) h.ready hstill)
        fun _ => ⟨.started h.announced, ⟨fun _ => rfl, fun _ hconn => by cases hconn⟩, fun _ => rfl⟩
    | noRuntime | noThread =>
      exact locked_of (P := fun t => t.Announces set log) hpanicked fun _ =>
        gone h.announced ⟨h.ready.channel, fun _ hconn => by cases hconn⟩ hstill

end System.Announces

theorem announces_of_reach {set : Settings} {validTopic : String → Prop}
    (hvalid : validTopic set.status) {now : Duration} {s : System} {log : List WorkerEvent}
    (h : Reach (logged (System.step set) System.workerEvents)
      (fun p => AcceptsOnline validTopic set p.1) (System.init set now, []) (s, log)) :
    s.Announces set log := by
  refine h.logged_invariant (I := System.Announces set) (C := fun _ _ => True)
    (fun _ _ _ => trivial) (System.Announces.init set now) fun t log a t' hr hi hc hs => ?_
  exact hi.step hvalid (System.held_of_reach hr) hc hs

theorem announced_of_reach {set : Settings} {validTopic : String → Prop}
    (hvalid : validTopic set.status) {now : Duration} {s : System} {log : List WorkerEvent}
    (h : Reach (logged (System.step set) System.workerEvents)
      (fun p => AcceptsOnline validTopic set p.1) (System.init set now, []) (s, log)) :
    Announced set log :=
  (announces_of_reach hvalid h).announced

variable {Certificate Identity Connector : Type}

/-- **Online is announced first on every connection.**  With an accepted configuration, in every run
of calls and network events, with rebuilds, failed starts and deaths of the thread: the client
accepts the online status at every `ConnAck`, before anything else on that connection, and between
an `Err` or a start and the next `ConnAck` it is handed nothing.  Of `try_publish` this takes for
granted that a free channel accepts a topic without wildcards. -/
theorem online_first (lib : SerdeYaml) (tls : NativeTls Certificate Identity Connector)
    (platform : Platform) (yaml hostname : String) (env : Env) (cfg : Config)
    (hcfg : Config.fromYaml lib platform yaml hostname env = .ok cfg) (usizeMax : ℕ)
    (now : Duration) (publisher : Publisher Connector)
    (hpublisher : withClock tls platform usizeMax cfg now = .ok publisher)
    (validTopic : String → Prop)
    (hvalid : ∀ topic, (∀ c ∈ topic.toList, c ≠ '+' ∧ c ≠ '#') → validTopic topic) (s : System)
    (log : List WorkerEvent)
    (h : Reach (logged (System.step publisher.settings) System.workerEvents)
      (fun p => AcceptsOnline validTopic publisher.settings p.1)
      (System.init publisher.settings now, []) (s, log)) :
    Announced publisher.settings log := by
  obtain ⟨haccepted, -⟩ := Config.accepted_of_fromYaml hcfg
  refine announced_of_reach (hvalid _ fun c hc => ?_) h
  rw [(statusTopic_of_withClock hpublisher).2] at hc
  obtain ⟨hplus, hhash, -⟩ := haccepted.status.2 c hc
  exact ⟨hplus, hhash⟩

/-- A TLS library that is not asked for anything. -/
def plainTcp : NativeTls Unit Unit Unit where
  certificateFromPem _ := .error "not a certificate"
  identityFromPkcs8 _ _ := .error "not an identity"
  build _ := .error "not enabled"

theorem withClock_defaults : ∃ cfg publisher,
    Config.fromYaml .defaultsOnly .empty "" "host" (fun _ => none) = .ok cfg ∧
      withClock plainTcp .empty (2 ^ 64 - 1) cfg .zero = .ok publisher ∧
      publisher.settings.qos = .atMostOnce := by
  have hok : (do
      let cfg ← (Config.fromYaml .defaultsOnly .empty "" "host" fun _ => none).mapErr fun _ => ""
      let publisher ← withClock plainTcp .empty (2 ^ 64 - 1) cfg .zero
      Outcome.ensure (publisher.settings.qos == QoS.atMostOnce) "").isOk = true := by
    rw [SerdeYaml.defaultsOnly, Config.fromYaml_knowing (by decide +kernel) rfl rfl]
    decide +kernel
  obtain ⟨_, hok⟩ := Outcome.isOk_iff.1 hok
  obtain ⟨cfg, hcfg, hok⟩ := Outcome.bind_eq_ok.1 hok
  obtain ⟨publisher, hpublisher, hqos⟩ := Outcome.bind_eq_ok.1 hok
  exact ⟨cfg, publisher, Outcome.mapErr_eq_ok.1 hcfg, hpublisher,
    beq_iff_eq.1 (Outcome.ensure_eq_ok.1 hqos)⟩

/-- With the defaults, up to the first `ConnAck`. -/
theorem online_first_defaults : ∃ cfg publisher log,
    Config.fromYaml .defaultsOnly .empty "" "host" (fun _ => none) = .ok cfg ∧
      withClock plainTcp .empty (2 ^ 64 - 1) cfg .zero = .ok publisher ∧
      log =
        [.handed ⟨none, publisher.settings.status, publisher.settings.online, .atLeastOnce,
          publisher.settings.statusRetain⟩, .connAck, .started] ∧
      Announced publisher.settings log := by
  obtain ⟨cfg, publisher, hcfg, hpublisher, -⟩ := withClock_defaults
  have hrun : Reach
      (logged (System.step publisher.settings) System.workerEvents)
      (fun p => AcceptsOnline (fun topic => ∀ c ∈ topic.toList, c ≠ '+' ∧ c ≠ '#')
        publisher.settings p.1)
      (System.init publisher.settings .zero, []) (_, _) :=
    (((Reach.refl.snoc (a := .start) trivial rfl).snoc (a := .signal) trivial rfl).snoc
      (a := .spawn .ok) trivial rfl).snoc (a := .worker (.connAck [] true)) nofun rfl
  exact ⟨cfg, publisher, _, hcfg, hpublisher, rfl,
    online_first _ _ _ _ _ _ cfg hcfg _ _ publisher hpublisher _ (fun _ h => h) _ _ hrun⟩

end Mqtt
end SystemReport
