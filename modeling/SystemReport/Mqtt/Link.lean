import SystemReport.Lib.Machine
import SystemReport.Mqtt.Worker

/-!
# The worker and its client

`Link.step` puts the branches of `run` together with the client library: one step is one branch of
the loop's `select!`, with everything the environment decides in its label (`Input`).  The history
(`History`) records what happened in a run and is never read by a step, except that a `publish()`
call has a reply channel of its own.

A run of the loop is a run of this machine: messages of any kind at any time, any outcome of
`try_publish`, any order of events that the client library can hand on.
-/

set_option autoImplicit false

namespace SystemReport
namespace Mqtt

/-- What an event handed to the worker says about the publication of one `publish()` call. -/
inductive Notice
  /-- its `Outgoing::Publish(0)`: a QoS 0 publication was written to the socket -/
  | sent
  /-- its first `Outgoing::Publish(id)` with the packet id it was given -/
  | announced (id : PacketId)
  /-- the `PubAck` or `PubComp` of its exchange -/
  | finished (id : PacketId)
deriving DecidableEq, Repr

/-- What has happened so far.  `accepted` are the publications that the client accepted on the
current connection. -/
structure History where
  received : List Message
  verdicts : List (Reply × Bool)
  abandoned : List Reply
  handed : List (Reply × Notice)
  accepted : List Publication
deriving DecidableEq

/-- The worker, its client and the state it shares with the publisher. -/
structure Link where
  shared : State
  loop : Loop
  client : Client
  hist : History
deriving DecidableEq

/-- One step of the loop, or of the client library between two of them. -/
inductive Input
  /-- the stop signal; the flag says whether the client took a `DISCONNECT` -/
  | stop (disconnect : Bool)
  /-- a message from the channel; the flag is the outcome of `try_publish` -/
  | message (m : Message) (ok : Bool)
  /-- `poll()` takes a request from the channel -/
  | take
  /-- `Incoming(ConnAck)` with `events.pending`, and the outcome of `try_publish` -/
  | connAck (resumed : List Request) (ok : Bool)
  /-- `Outgoing(Publish(id))` -/
  | published (id : PacketId)
  /-- `Incoming(PubAck)` -/
  | pubAck (id : PacketId)
  /-- `Incoming(PubComp)` -/
  | pubComp (id : PacketId)
  /-- `Err`, with the clock reading of that moment -/
  | err (now : Duration)
  /-- any other event -/
  | other
  /-- the sleep after an `Err` is over -/
  | wake
deriving DecidableEq

/-- The publication a message asks for. -/
def Message.publication (m : Message) : Publication :=
  ⟨some m.reply, m.topic, m.payload, m.qos, m.retain⟩

/-- The online announcement. -/
def Settings.announcement (set : Settings) : Publication :=
  ⟨none, set.status, set.online, .atLeastOnce, set.statusRetain⟩

namespace History

/-- The history of a thread that has just started. -/
def empty : History := ⟨[], [], [], [], []⟩

/-- A message taken out of the worker's channel. -/
def receive (h : History) (m : Message) : History := { h with received := h.received ++ [m] }

/-- `reply.send(b)` for each of `rs`. -/
def tell (h : History) (rs : List Reply) (b : Bool) : History :=
  { h with verdicts := h.verdicts ++ rs.map fun r => (r, b) }

/-- An event about the publication of `owner`, if it is one of a `publish()` call. -/
def hand (h : History) (owner : Option Reply) (n : Notice) : History :=
  { h with handed := h.handed ++ owner.toList.map fun r => (r, n) }

end History

namespace Link

/-- A thread that has just started. -/
def init (set : Settings) (now : Duration) : Link :=
  ⟨⟨false, now, 0, none⟩, .start set, .fresh, .empty⟩

/-- Where the loop has to stand for an input to be possible. -/
def awaits (l : Link) : Input → Bool
  | .wake => l.loop.phase == .sleeping
  | .stop _ => l.loop.phase != .finished
  | _ => l.loop.phase == .select

/-- The stop branch hands a `DISCONNECT` to the client exactly here. -/
def disconnects (l : Link) : Bool := l.loop.phase == .select && l.shared.connected

/-- The stop branch, or the `break` out of the sleep, and what follows the loop. -/
def onStop (l : Link) (disconnect : Bool) : Option Link :=
  if disconnect → l.disconnects ∧ l.client.channel.length < Client.channelSlots then
    some
      { shared := l.shared.onExit
        loop := l.loop.stopped
        client := .fresh
        hist := { l.hist with abandoned := l.loop.waiting ++ l.hist.abandoned, accepted := [] } }
  else none

/-- The message branch. -/
def onMessage (set : Settings) (l : Link) (m : Message) (ok : Bool) : Option Link :=
  if m.reply ∈ l.hist.received.map Message.reply then none
  else
    let hist := l.hist.receive m
    if !l.shared.connected || l.loop.full set.capacity m.qos || !ok then
      some { l with hist := hist.tell [m.reply] false }
    else
      (l.client.tryPublish m.publication).map fun c =>
        { l with
          client := c
          loop := l.loop.push m.qos (some m.reply)
          hist := { hist with accepted := hist.accepted ++ l.client.gained c } }

/-- The `ConnAck` branch. -/
def onConnAck (set : Settings) (l : Link) (resumed : List Request) (ok : Bool) : Option Link :=
  (l.client.connAck resumed).bind fun c =>
    let l' : Link :=
      { shared := l.shared.onConnAck
        loop := l.loop.onConnAck set resumed
        client := c
        hist := { l.hist with accepted := [] } }
    if ok then
      (c.tryPublish set.announcement).map fun c' =>
        { l' with
          client := c'
          loop := l'.loop.push .atLeastOnce none
          hist := { l'.hist with accepted := c.gained c' } }
    else some l'

/-- The owner of the publication whose first transmission `Outgoing::Publish(id)` announces. -/
def announcedOwner (l : Link) (id : PacketId) : Option Reply :=
  if id ∈ l.client.inflight then none else l.client.taken.head?.bind Publication.owner

/-- The `Outgoing::Publish(id)` branch. -/
def onPublish (l : Link) (id : PacketId) : Option Link :=
  (l.client.announce id).map fun c =>
    { l with
      client := c
      loop := (l.loop.onPublish id).1
      hist := (l.hist.hand (l.announcedOwner id) (if id = 0 then .sent else .announced id)).tell
        (l.loop.onPublish id).2.toList true }

/-- The `PubAck` and `PubComp` branches. -/
def onFinish (l : Link) (id : PacketId) : Link :=
  { l with
    client := l.client.finish id
    loop := (l.loop.finish id).1
    hist := (l.hist.hand ((l.client.inflight.lookup id).bind Publication.owner)
      (.finished id)).tell (l.loop.finish id).2.toList true }

/-- The `Err` branch: a clean session starts over with a new client. -/
def onErr (set : Settings) (l : Link) (now : Duration) : Link :=
  { shared := l.shared.onErr now
    loop := l.loop.onErr.1
    client := if set.cleanSession then .fresh else l.client.lose
    hist := { l.hist.tell l.loop.onErr.2 false with accepted := [] } }

/-- What one input does, where it is possible. -/
def next (set : Settings) (l : Link) : Input → Option Link
  | .stop disconnect => l.onStop disconnect
  | .message m ok => l.onMessage set m ok
  | .take => l.client.take.map fun c => { l with client := c }
  | .connAck resumed ok => l.onConnAck set resumed ok
  | .published id => l.onPublish id
  | .pubAck id => some (l.onFinish id)
  | .pubComp id => some (l.onFinish id)
  | .err now => some (l.onErr set now)
  | .other => some l
  | .wake => some { l with loop := l.loop.wake set }

/-- One step of the worker with its client. -/
def step (set : Settings) (l : Link) (i : Input) : Option Link :=
  if l.awaits i then l.next set i else none

theorem step_eq_some {set : Settings} {l l' : Link} {i : Input} :
    l.step set i = some l' ↔ l.awaits i = true ∧ l.next set i = some l' := by
  rw [step]
  split <;> simp_all

/-! ## What one step can do -/

/-- A message is refused, or it is handed to a client that takes it. -/
theorem onMessage_eq_some {set : Settings} {l l' : Link} {m : Message} {ok : Bool}
    (hs : l.onMessage set m ok = some l') :
    m.reply ∉ l.hist.received.map Message.reply ∧
      ((!l.shared.connected || l.loop.full set.capacity m.qos || !ok) = true ∧
          l' = { l with hist := (l.hist.receive m).tell [m.reply] false } ∨
        (l.shared.connected = true ∧ l.loop.full set.capacity m.qos = false ∧ ok = true) ∧
          ∃ c, l.client.tryPublish m.publication = some c ∧
            l' = { l with
              client := c
              loop := l.loop.push m.qos (some m.reply)
              hist := { l.hist.receive m with
                accepted := l.hist.accepted ++ [m.publication] } }) := by
  rw [onMessage] at hs
  split at hs
  · cases hs
  · rename_i hnew
    refine ⟨hnew, ?_⟩
    split at hs
    · rename_i hrefused
      cases hs
      exact .inl ⟨hrefused, rfl⟩
    · rename_i htaken
      obtain ⟨c, hc, rfl⟩ := Option.map_eq_some_iff.1 hs
      simp only [Bool.or_eq_true, not_or, Bool.not_eq_true, Bool.not_eq_false'] at htaken
      exact .inr ⟨⟨htaken.1.1, htaken.1.2, htaken.2⟩, c, hc, by
        rw [Client.gained_tryPublish hc]
        rfl⟩

/-- After a `ConnAck` everything starts over with what is resumed, and the client may take the online
announcement. -/
theorem onConnAck_eq_some {set : Settings} {l l' : Link} {resumed : List Request} {ok : Bool}
    (hs : l.onConnAck set resumed ok = some l') :
    ∃ c, l.client.connAck resumed = some c ∧
      (ok = false ∧ l' = ⟨l.shared.onConnAck, l.loop.onConnAck set resumed, c,
          { l.hist with accepted := [] }⟩ ∨
        ok = true ∧ ∃ c', c.tryPublish set.announcement = some c' ∧
          l' = ⟨l.shared.onConnAck, (l.loop.onConnAck set resumed).push .atLeastOnce none, c',
            { l.hist with accepted := [set.announcement] }⟩) := by
  obtain ⟨c, hc, hs⟩ := Option.bind_eq_some_iff.1 hs
  refine ⟨c, hc, ?_⟩
  split at hs
  · rename_i hok
    obtain ⟨c', hc', rfl⟩ := Option.map_eq_some_iff.1 hs
    exact .inr ⟨hok, c', hc', by rw [Client.gained_tryPublish hc']⟩
  · rename_i hok
    cases hs
    exact .inl ⟨by simpa using hok, rfl⟩

/-- What an input makes of the shared state. -/
def sharedAfter (s : State) : Input → State
  | .stop _ => s.onExit
  | .connAck _ _ => s.onConnAck
  | .err now => s.onErr now
  | _ => s

/-- Where the loop stands after an input. -/
def phaseAfter : Input → Phase
  | .stop _ => .finished
  | .err _ => .sleeping
  | _ => .select

theorem phase_rebuild : ∀ (rs : List Request) (l : Loop),
    (rs.foldl Loop.rebuildOne l).phase = l.phase
  | [], _ => rfl
  | r :: rs, l => by
    rw [List.foldl_cons, phase_rebuild rs]
    cases r with
    | publish id p => rw [Loop.rebuildOne]; split <;> rfl
    | pubRel id p => rfl
    | other => rfl

theorem phase_onPublish (l : Loop) (id : PacketId) : (l.onPublish id).1.phase = l.phase := by
  rw [Loop.onPublish]
  split
  · rfl
  · split <;> rfl

/-- A step writes the shared state in no other way than `sharedAfter` says, and leads to the phase
that `phaseAfter` says. -/
theorem shared_phase_step {set : Settings} {l l' : Link} {i : Input}
    (hs : l.step set i = some l') :
    l'.shared = sharedAfter l.shared i ∧ l'.loop.phase = phaseAfter i := by
  obtain ⟨hawait, hs⟩ := step_eq_some.1 hs
  cases i with
  | stop disconnect =>
    obtain ⟨-, hs⟩ := Option.ite_none_right_eq_some.1 hs
    cases hs
    exact ⟨rfl, rfl⟩
  | message m ok =>
    have hphase : l.loop.phase = .select := by simpa [awaits] using hawait
    obtain ⟨-, ⟨-, rfl⟩ | ⟨-, c, -, rfl⟩⟩ := onMessage_eq_some hs
    · exact ⟨rfl, hphase⟩
    · exact ⟨rfl, hphase⟩
  | take =>
    have hphase : l.loop.phase = .select := by simpa [awaits] using hawait
    obtain ⟨c, -, rfl⟩ := Option.map_eq_some_iff.1 hs
    exact ⟨rfl, hphase⟩
  | connAck resumed ok =>
    have hphase : (l.loop.onConnAck set resumed).phase = .select := by
      rw [Loop.onConnAck, phase_rebuild]
      simpa [awaits] using hawait
    obtain ⟨c, -, ⟨-, rfl⟩ | ⟨-, c', -, rfl⟩⟩ := onConnAck_eq_some hs
    · exact ⟨rfl, hphase⟩
    · exact ⟨rfl, hphase⟩
  | published id =>
    have hphase : l.loop.phase = .select := by simpa [awaits] using hawait
    obtain ⟨c, -, rfl⟩ := Option.map_eq_some_iff.1 hs
    exact ⟨rfl, (phase_onPublish l.loop id).trans hphase⟩
  | pubAck id | pubComp id | other =>
    have hphase : l.loop.phase = .select := by simpa [awaits] using hawait
    cases hs
    exact ⟨rfl, hphase⟩
  | err now => cases hs; exact ⟨rfl, rfl⟩
  | wake => cases hs; exact ⟨rfl, rfl⟩

/-- A loop that is not running takes no step. -/
theorem step_of_finished {set : Settings} {l : Link} (h : l.loop.phase = .finished) (i : Input) :
    l.step set i = none := by
  rw [step, if_neg]
  cases i <;> simp [awaits, h]

end Link
end Mqtt
end SystemReport
