import SystemReport.Duration
import SystemReport.Mqtt.Rumqttc

/-!
# The network thread

The loop of `run` in `src/mqttclient.rs`, one definition per branch.  A branch works on the locals
that outlive an iteration (`Loop`) and on the state shared with the publisher (`State`), and says
which verdicts it sends to waiting callers.

The worker never stores which message a packet id belongs to.  `queued` holds the waiters of
accepted requests in the order in which they were accepted, and an `Outgoing::Publish(id)` moves
the front of `queued` to `pending[id]`, unless that entry is occupied, which is how a
retransmission is told from a first transmission.
-/

set_option autoImplicit false

namespace SystemReport
namespace Mqtt

/-- The `State` behind the mutex shared by the publisher and its network thread. -/
structure State where
  connected : Bool
  since : Duration
  dropped : UInt64
  lastLog : Option Duration
deriving DecidableEq, Repr

/-- A publication on its way to the network thread. -/
structure Message where
  topic : String
  payload : String
  qos : QoS
  retain : Bool
  reply : Reply
deriving DecidableEq, Repr

/-- The parts of a `Publisher` that never change: its MQTT options and what it copies from the
configuration. -/
structure Settings where
  cleanSession : Bool
  status : String
  online : String
  offline : String
  statusRetain : Bool
  qos : QoS
  retain : Bool
  recreate : Duration
  minDelay : Duration
  maxDelay : Duration
  capacity : ℕ

/-- The settings of `src/defaults.yaml` on a host called `host`. -/
def Settings.defaults : Settings where
  cleanSession := true
  status := "/host/oper_state/status"
  online := "online"
  offline := "offline"
  statusRetain := true
  qos := .atMostOnce
  retain := false
  recreate := .fromSecs 900
  minDelay := .fromSecs 1
  maxDelay := .fromSecs 120
  capacity := 100

/-- The waiters of announced or resumed exchanges, by packet id. -/
abbrev Pending := AList fun _ : PacketId => Option Reply

/-- Where the thread stands: in `select!`, in the sleep after an `Err`, or no longer running. -/
inductive Phase
  | select
  | sleeping
  | finished
deriving DecidableEq, Repr

/-- The locals of `run`. -/
structure Loop where
  phase : Phase
  delay : Duration
  queued : List (QoS × Option Reply)
  pending : Pending
deriving DecidableEq

/-! ## The shared state -/

namespace State

/-- The `ConnAck` branch's lock section. -/
def onConnAck (s : State) : State := { s with connected := true, dropped := 0, lastLog := none }

/-- The `Err` branch's lock section: only a loss of the connection starts an outage. -/
def onErr (s : State) (now : Duration) : State :=
  if s.connected then { s with connected := false, since := now } else s

/-- The assignment after the loop. -/
def onExit (s : State) : State := { s with connected := false }

end State

namespace Loop

/-- The locals when the thread starts. -/
def start (set : Settings) : Loop := ⟨.select, set.minDelay, [], ∅⟩

/-- The locals of a thread that is not running. -/
def stopped (l : Loop) : Loop := { l with phase := .finished, queued := [], pending := ∅ }

/-- The callers still waiting for a verdict. -/
def waiting (l : Loop) : List Reply :=
  l.queued.filterMap Prod.snd ++ l.pending.entries.filterMap Sigma.snd

/-- The outstanding QoS 1/2 publications: `queued.iter().filter(..).count() + pending.len()`. -/
def outstanding (l : Loop) : ℕ :=
  l.queued.countP (fun e => e.1 != .atMostOnce) + l.pending.entries.length

/-- The queue limit, which applies only to QoS 1/2. -/
def full (l : Loop) (capacity : ℕ) (qos : QoS) : Bool :=
  qos != .atMostOnce && capacity != 0 && decide (capacity ≤ l.outstanding)

/-- `queued.push_back`. -/
def push (l : Loop) (qos : QoS) (reply : Option Reply) : Loop :=
  { l with queued := l.queued ++ [(qos, reply)] }

/-- One request of `events.pending`, in the `for` loop of the `ConnAck` branch. -/
def rebuildOne (l : Loop) : Request → Loop
  | .publish id p =>
    if id = 0 then l.push p.qos none else { l with pending := l.pending.insert id none }
  | .pubRel id _ => { l with pending := l.pending.insert id none }
  | .other => l

/-- The `ConnAck` branch up to its online announcement. -/
def onConnAck (set : Settings) (l : Loop) (resumed : List Request) : Loop :=
  resumed.foldl rebuildOne { l with queued := [], pending := ∅, delay := set.minDelay }

/-- The `Outgoing::Publish(id)` branch, with the caller told `true`, if any. -/
def onPublish (l : Loop) (id : PacketId) : Loop × Option Reply :=
  if id = 0 then
    -- `if let Some((_, Some(reply))) = queued.pop_front()`
    ({ l with queued := l.queued.tail }, l.queued.head?.bind Prod.snd)
  else if id ∈ l.pending then (l, none)
  else
    ({ l with
        queued := l.queued.tail
        pending := l.pending.insert id (l.queued.head?.bind Prod.snd) }, none)

/-- `finish`: a `PubAck` or `PubComp`, with the caller told `true`, if any. -/
def finish (l : Loop) (id : PacketId) : Loop × Option Reply :=
  ({ l with pending := l.pending.erase id }, (l.pending.lookup id).join)

/-- The `Err` branch up to its sleep: every waiting caller is told `false`. -/
def onErr (l : Loop) : Loop × List Reply :=
  ({ l with phase := .sleeping, queued := [], pending := ∅ }, l.waiting)

/-- The sleep is over: the delay doubles up to its maximum. -/
def wake (set : Settings) (l : Loop) : Loop :=
  { l with phase := .select, delay := min (l.delay.saturatingMul 2) set.maxDelay }

end Loop
end Mqtt
end SystemReport
