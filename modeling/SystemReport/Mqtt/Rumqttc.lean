import Mathlib.Data.List.AList
import Mathlib.Data.UInt

/-!
# What the worker relies on of rumqttc

`rumqttc`'s client and event loop are not part of this repository.  This file states, as a small
state machine, what `mqttclient.rs` relies on of them.  Everything the library decides for itself
(when it takes a request from its channel, which packet id it gives out, which exchanges it lists
again after a reconnect) is left open.

* Accepted requests wait in a channel of 16 slots (`Client.channel`); `poll()` takes them out in
  order (`Client.take`) and later announces each first transmission with one
  `Outgoing::Publish(id)`, again in order (`Client.announce`).  The id is 0 exactly for QoS 0, and a
  fresh id is never that of an unfinished exchange.
* A retransmission re-announces the id of an unfinished exchange.
* A `ConnAck` is only handed on by a `poll()` that has just connected, so at the start or after an
  `Err` (`Client.connAck`).  What it lists in `events.pending` are requests the client retained.
* An `Err` on an established connection moves everything unfinished, the channel included, to the
  retained requests (`Client.lose`).
-/

set_option autoImplicit false

namespace SystemReport
namespace Mqtt

/-- `rumqttc::QoS`. -/
inductive QoS
  | atMostOnce
  | atLeastOnce
  | exactlyOnce
deriving DecidableEq, Repr

/-- An MQTT packet identifier, a `u16`. -/
abbrev PacketId := UInt16

/-- One caller's `mpsc::Sender<bool>`; every `publish()` call makes its own. -/
abbrev Reply := ℕ

/-- A publication handed to the client.  `owner` is the `publish()` call it belongs to, and `none`
for the worker's own online announcement; the client does not see it. -/
structure Publication where
  owner : Option Reply
  topic : String
  payload : String
  qos : QoS
  retain : Bool
deriving DecidableEq, Repr

/-- `rumqttc::Request`, as far as the worker looks at it.  A `PubRel` carries only its packet id on
the wire; the publication it releases is kept here to say whose exchange it continues. -/
inductive Request
  | publish (pkid : PacketId) (p : Publication)
  | pubRel (pkid : PacketId) (p : Publication)
  | other
deriving DecidableEq, Repr

/-- The exchanges that are announced or resumed and not yet finished, by packet id. -/
abbrev Exchanges := AList fun _ : PacketId => Publication

/-- The client and event loop.  `taken` holds the requests already taken from the channel (or
resumed without an id) whose `Outgoing::Publish` has not been handed on. -/
structure Client where
  live : Bool
  channel : List Publication
  taken : List Publication
  inflight : Exchanges
  retained : List Publication
deriving DecidableEq

namespace Client

/-- The slots of the request channel: `AsyncClient::new(_, 16)`. -/
def channelSlots : ℕ := 16

/-- `AsyncClient::new`: nothing accepted, nothing retained, not connected. -/
def fresh : Client := ⟨false, [], [], ∅, []⟩

/-- The accepted requests whose first transmission is still to be announced, in order. -/
def unsent (c : Client) : List Publication := c.taken ++ c.channel

/-- `try_publish` when it returns `Ok`. -/
def tryPublish (c : Client) (p : Publication) : Option Client :=
  if c.channel.length < channelSlots then some { c with channel := c.channel ++ [p] } else none

/-- What has been put into the channel, behind what was there before. -/
def gained (c c' : Client) : List Publication := c'.channel.drop c.channel.length

/-- `poll()` takes the next request out of the channel. -/
def take (c : Client) : Option Client :=
  match c.channel with
  | p :: rest => if c.live then some { c with channel := rest, taken := c.taken ++ [p] } else none
  | [] => none

/-- `poll()` returns `Outgoing::Publish(id)`: a retransmission if the exchange `id` is unfinished,
and otherwise the first transmission of the next request. -/
def announce (c : Client) (id : PacketId) : Option Client :=
  if id ∈ c.inflight then some c
  else
    match c.taken with
    | p :: rest =>
      if id = 0 ↔ p.qos = .atMostOnce then
        some { c with
          taken := rest
          inflight := if id = 0 then c.inflight else c.inflight.insert id p }
      else none
    | [] => none

/-- `poll()` returns the `PubAck` or `PubComp` of `id`. -/
def finish (c : Client) (id : PacketId) : Client := { c with inflight := c.inflight.erase id }

/-- A request may be listed again if the client retained it; without a packet id it has not been
sent yet, and only QoS 2 is released. -/
def mayResume (c : Client) : Request → Prop
  | .publish id p => p ∈ c.retained ∧ (id ≠ 0 → p.qos ≠ .atMostOnce)
  | .pubRel id p => p ∈ c.retained ∧ id ≠ 0 ∧ p.qos = .exactlyOnce
  | .other => True

instance (c : Client) : DecidablePred c.mayResume
  | .publish _ _ => inferInstanceAs (Decidable (_ ∧ _))
  | .pubRel _ _ => inferInstanceAs (Decidable (_ ∧ _))
  | .other => inferInstanceAs (Decidable True)

/-- Take one request of `events.pending` back up. -/
def resumeOne (c : Client) : Request → Client
  | .publish id p =>
    if id = 0 then { c with taken := c.taken ++ [p] }
    else { c with inflight := c.inflight.insert id p }
  | .pubRel id p => { c with inflight := c.inflight.insert id p }
  | .other => c

/-- `poll()` returns a `ConnAck`; `resumed` is `events.pending` at that moment. -/
def connAck (c : Client) (resumed : List Request) : Option Client :=
  if c.live = false ∧ ∀ r ∈ resumed, c.mayResume r then
    some (resumed.foldl resumeOne { c with live := true, taken := [], inflight := ∅, retained := [] })
  else none

/-- `poll()` returns `Err`: an established connection is lost, or an attempt has failed. -/
def lose (c : Client) : Client :=
  if c.live then
    ⟨false, [], [], ∅, c.inflight.entries.map Sigma.snd ++ c.taken ++ c.channel⟩
  else c

/-! ## What each operation leaves alone -/

theorem tryPublish_eq_some {c c' : Client} {p : Publication} :
    c.tryPublish p = some c' ↔
      c.channel.length < channelSlots ∧ { c with channel := c.channel ++ [p] } = c' := by
  rw [tryPublish, Option.ite_none_right_eq_some, Option.some.injEq]

theorem gained_of_channel {c c' : Client} {ps : List Publication}
    (h : c'.channel = c.channel ++ ps) : c.gained c' = ps := by
  rw [gained, h, List.drop_left]

theorem gained_eq_nil {c c' : Client} (h : c'.channel.length ≤ c.channel.length) :
    c.gained c' = [] := List.drop_eq_nil_of_le h

theorem gained_tryPublish {c c' : Client} {p : Publication} (h : c.tryPublish p = some c') :
    c.gained c' = [p] := by
  obtain ⟨-, rfl⟩ := tryPublish_eq_some.1 h
  exact gained_of_channel rfl

theorem take_eq_some {c c' : Client} :
    c.take = some c' ↔ ∃ p rest, c.channel = p :: rest ∧ c.live = true ∧
      { c with channel := rest, taken := c.taken ++ [p] } = c' := by
  rw [take]
  split
  · simp_all
  · simp_all

theorem connAck_eq_some {c c' : Client} {rs : List Request} :
    c.connAck rs = some c' ↔ (c.live = false ∧ ∀ r ∈ rs, c.mayResume r) ∧
      rs.foldl resumeOne { c with live := true, taken := [], inflight := ∅, retained := [] } = c' := by
  rw [connAck, Option.ite_none_right_eq_some, Option.some.injEq]

theorem resume_keeps (rs : List Request) (c : Client) : ∃ taken inflight,
    rs.foldl resumeOne c = { c with taken := taken, inflight := inflight } := by
  induction rs generalizing c with
  | nil => exact ⟨_, _, rfl⟩
  | cons r rs ih =>
    obtain ⟨taken, inflight, hone⟩ : ∃ taken inflight,
        c.resumeOne r = { c with taken := taken, inflight := inflight } := by
      cases r with
      | publish id p =>
        rw [resumeOne]
        split <;> exact ⟨_, _, rfl⟩
      | pubRel id p => exact ⟨_, _, rfl⟩
      | other => exact ⟨_, _, rfl⟩
    rw [List.foldl_cons, hone]
    exact ih _

theorem connAck_keeps {c c' : Client} {rs : List Request} (h : c.connAck rs = some c') :
    c.live = false ∧ ∃ taken inflight, c' = ⟨true, c.channel, taken, inflight, []⟩ := by
  obtain ⟨⟨hlive, -⟩, rfl⟩ := connAck_eq_some.1 h
  exact ⟨hlive, resume_keeps rs _⟩

/-- An announcement is a retransmission, or the first transmission of the next request. -/
theorem announce_eq_some {c c' : Client} {id : PacketId} :
    c.announce id = some c' ↔ (id ∈ c.inflight ∧ c = c') ∨
      (id ∉ c.inflight ∧ ∃ p rest, c.taken = p :: rest ∧ (id = 0 ↔ p.qos = .atMostOnce) ∧
        { c with
          taken := rest
          inflight := if id = 0 then c.inflight else c.inflight.insert id p } = c') := by
  rw [announce]
  split
  · simp_all
  · split
    · rw [Option.ite_none_right_eq_some, Option.some.injEq]
      simp_all
    · simp_all

theorem announce_keeps {c c' : Client} {id : PacketId} (h : c.announce id = some c') :
    ∃ taken inflight, c' = { c with taken := taken, inflight := inflight } := by
  rcases announce_eq_some.1 h with ⟨-, rfl⟩ | ⟨-, p, rest, -, -, rfl⟩
  · exact ⟨_, _, rfl⟩
  · exact ⟨_, _, rfl⟩

end Client
end Mqtt
end SystemReport
