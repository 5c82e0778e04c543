import Mathlib.Data.List.Dedup
import Mathlib.Data.List.Perm.Basic
import SystemReport.Mqtt.Attribution

/-!
# The cap on outstanding publications

`max_queued_messages` is documented as the maximum of outstanding QoS 1/2 publications.  The
worker tests it where a report message arrives (`Loop.full`), but neither where it takes resumed
requests back up nor where it announces that it is online.

* An announcement moves an outstanding publication from `queued` to `pending` and an
  acknowledgement removes it, so neither adds one (`Link.outstanding_publish`).
* A `ConnAck` starts over with what `events.pending` lists and the announcement on top
  (`Link.outstanding_connAck`).  The cap therefore holds in every run in which each `ConnAck`
  finds room for both (`outstanding_le_capacity`), which a clean session always does
  (`roomToResume_of_clean`), and a `ConnAck` without room breaks it.
-/

set_option autoImplicit false

open Machine

namespace SystemReport
namespace Mqtt

/-! ## What `events.pending` holds -/

/-- A QoS 1/2 publication that has no packet id yet. -/
def Request.isQueued : Request → Bool
  | .publish id p => id == 0 && p.qos != .atMostOnce
  | _ => false

/-- The packet id of an unfinished exchange. -/
def Request.exchange : Request → Option PacketId
  | .publish id _ => if id = 0 then none else some id
  | .pubRel id _ => some id
  | .other => none

/-- The outstanding QoS 1/2 publications that a list of resumed requests stands for. -/
def resumedOutstanding (rs : List Request) : ℕ :=
  rs.countP Request.isQueued + (rs.filterMap Request.exchange).dedup.length

theorem Loop.mem_pending_rebuildOne (l : Loop) (r : Request) (id : PacketId) :
    id ∈ (l.rebuildOne r).pending ↔ r.exchange = some id ∨ id ∈ l.pending := by
  cases r with
  | publish id' p =>
    rw [rebuildOne, Request.exchange]
    split
    · simp [push]
    · simp [AList.mem_insert, eq_comm]
  | pubRel id' p => simp [rebuildOne, Request.exchange, AList.mem_insert, eq_comm]
  | other => simp [rebuildOne, Request.exchange]

theorem Loop.mem_pending_rebuild (id : PacketId) : ∀ (rs : List Request) (l : Loop),
    id ∈ (rs.foldl rebuildOne l).pending ↔ id ∈ rs.filterMap Request.exchange ∨ id ∈ l.pending
  | [], l => by simp
  | r :: rs, l => by
    rw [List.foldl_cons, mem_pending_rebuild id rs, mem_pending_rebuildOne, ← or_assoc,
      List.mem_filterMap, List.mem_filterMap]
    simp only [List.exists_mem_cons_iff]
    rw [or_comm (a := r.exchange = some id)]

theorem Loop.countP_queued_rebuildOne (l : Loop) (r : Request) :
    (l.rebuildOne r).queued.countP (fun e => e.1 != .atMostOnce)
      = l.queued.countP (fun e => e.1 != .atMostOnce) + [r].countP Request.isQueued := by
  cases r with
  | publish id p =>
    rw [rebuildOne]
    split
    · rename_i h0
      simp [push, Request.isQueued, h0, List.countP_cons]
    · rename_i h0
      simp [Request.isQueued, h0]
  | pubRel id p => simp [rebuildOne, Request.isQueued]
  | other => simp [rebuildOne, Request.isQueued]

theorem Loop.countP_queued_rebuild : ∀ (rs : List Request) (l : Loop),
    (rs.foldl rebuildOne l).queued.countP (fun e => e.1 != .atMostOnce)
      = l.queued.countP (fun e => e.1 != .atMostOnce) + rs.countP Request.isQueued
  | [], l => by simp
  | r :: rs, l => by
    rw [List.foldl_cons, countP_queued_rebuild rs, countP_queued_rebuildOne,
      List.countP_cons (l := rs), List.countP_singleton]
    omega

/-- After a `ConnAck` the worker holds exactly what `events.pending` stands for. -/
theorem Loop.outstanding_onConnAck (set : Settings) (l : Loop) (rs : List Request) :
    (l.onConnAck set rs).outstanding = resumedOutstanding rs := by
  rw [onConnAck, outstanding, resumedOutstanding, countP_queued_rebuild, List.countP_nil, Nat.zero_add]
  have hkeys : ∀ l' : Loop, l'.pending.entries.length = l'.pending.keys.length := fun l' => by
    simp [AList.keys, List.keys]
  rw [hkeys]
  refine congrArg _ (List.Perm.length_eq ?_)
  refine (List.perm_ext_iff_of_nodup (AList.keys_nodup _) (List.nodup_dedup _)).2 fun id => ?_
  rw [← AList.mem_keys, mem_pending_rebuild, List.mem_dedup]
  simp

/-! ## One step -/

theorem Loop.outstanding_push (l : Loop) (qos : QoS) (reply : Option Reply) :
    (l.push qos reply).outstanding = l.outstanding + if qos = .atMostOnce then 0 else 1 := by
  rw [outstanding, outstanding, push, List.countP_append, List.countP_singleton]
  cases qos <;> simp <;> omega

theorem Loop.outstanding_finish_le (l : Loop) (id : PacketId) :
    (l.finish id).1.outstanding ≤ l.outstanding :=
  Nat.add_le_add_left (AList.length_erase_le l.pending id) _

/-- A message is only accepted below the cap. -/
theorem Loop.outstanding_push_le {l : Loop} {capacity : ℕ} {qos : QoS} (hcap : capacity ≠ 0)
    (hle : l.outstanding ≤ capacity) (hfull : l.full capacity qos = false) (reply : Option Reply) :
    (l.push qos reply).outstanding ≤ capacity := by
  rw [outstanding_push]
  split
  · omega
  · rename_i hq
    simp only [full, Bool.and_eq_false_iff, bne_eq_false_iff_eq, decide_eq_false_iff_not,
      not_le] at hfull
    rcases hfull with (h | h) | h
    · exact absurd h hq
    · exact absurd h hcap
    · omega

/-- An announcement leaves the number of outstanding publications as it was: the waiter it moves
to `pending` is one of QoS 1/2. -/
theorem Link.outstanding_publish {l l' : Link} (hinv : l.Inv) {id : PacketId}
    (hp : l.onPublish id = some l') : l'.loop.outstanding = l.loop.outstanding := by
  rw [onPublish] at hp
  obtain ⟨c, hann, rfl⟩ := Option.map_eq_some_iff.1 hp
  show (l.loop.onPublish id).1.outstanding = l.loop.outstanding
  have hkeys := hinv.coherent.keys id
  rcases Client.announce_eq_some.1 hann with ⟨hin, -⟩ | ⟨hin, p, rest, htaken, hid, -⟩
  · have h0 : id ≠ 0 := by
      rintro rfl
      exact hinv.coherent.zero hin
    rw [Loop.onPublish, if_neg h0, if_pos (hkeys.2 hin)]
  · obtain ⟨e, q, hq, hw, -⟩ := hinv.coherent.head htaken
    have hqos : e.1 = .atMostOnce ↔ id = 0 := by rw [hw.1]; exact hid.symm
    by_cases h0 : id = 0
    · rw [Loop.onPublish, if_pos h0, Loop.outstanding, Loop.outstanding, hq]
      simp [hqos.2 h0]
    · have hne : e.1 ≠ .atMostOnce := fun h => h0 (hqos.1 h)
      rw [Loop.onPublish, if_neg h0, if_neg (fun h => hin (hkeys.1 h)), Loop.outstanding,
        Loop.outstanding, hq, AList.length_insert_of_notMem (fun h => hin (hkeys.1 h))]
      simp [hne]
      omega

/-- The outstanding publications right after a `ConnAck`. -/
theorem Link.outstanding_connAck {set : Settings} {l l' : Link} {rs : List Request} {ok : Bool}
    (hs : l.onConnAck set rs ok = some l') :
    l'.loop.outstanding = resumedOutstanding rs + if ok then 1 else 0 := by
  obtain ⟨c, -, ⟨rfl, rfl⟩ | ⟨rfl, c', -, rfl⟩⟩ := onConnAck_eq_some hs
  · exact Loop.outstanding_onConnAck set l.loop rs
  · show ((l.loop.onConnAck set rs).push .atLeastOnce none).outstanding = _
    rw [Loop.outstanding_push, Loop.outstanding_onConnAck]
    rfl

/-! ## Runs -/

/-- Every `ConnAck` finds room for what `events.pending` lists and for the online announcement, if
the client takes it. -/
def RoomToResume (set : Settings) (_ : Link) : Input → Prop
  | .connAck resumed ok => resumedOutstanding resumed + (if ok then 1 else 0) ≤ set.capacity
  | _ => True

instance (set : Settings) (l : Link) : DecidablePred (RoomToResume set l) := fun i => by
  cases i <;> unfold RoomToResume <;> infer_instance

theorem Link.outstanding_step {set : Settings} (hcap : set.capacity ≠ 0) {l l' : Link} {i : Input}
    (hinv : l.Inv) (hle : l.loop.outstanding ≤ set.capacity) (hroom : RoomToResume set l i)
    (hs : l.step set i = some l') : l'.loop.outstanding ≤ set.capacity := by
  obtain ⟨-, hs⟩ := Link.step_eq_some.1 hs
  cases i with
  | stop disconnect =>
    obtain ⟨-, hs⟩ := Option.ite_none_right_eq_some.1 hs
    cases hs
    exact Nat.zero_le _
  | message m ok =>
    obtain ⟨-, ⟨-, rfl⟩ | ⟨⟨-, hroom, -⟩, c, -, rfl⟩⟩ := onMessage_eq_some hs
    · exact hle
    · exact Loop.outstanding_push_le hcap hle hroom _
  | take =>
    obtain ⟨c, -, rfl⟩ := Option.map_eq_some_iff.1 hs
    exact hle
  | connAck resumed ok =>
    rw [Link.outstanding_connAck hs]
    exact hroom
  | published id =>
    rw [Link.outstanding_publish hinv hs]
    exact hle
  | pubAck id | pubComp id =>
    cases hs
    exact (Loop.outstanding_finish_le l.loop id).trans hle
  | err now =>
    cases hs
    exact Nat.zero_le _
  | other => cases hs; exact hle
  | wake => cases hs; exact hle

theorem Link.outstanding_of_reach {set : Settings} (hcap : set.capacity ≠ 0) {now : Duration}
    {l : Link} (h : Reach (Link.step set) (RoomToResume set) (Link.init set now) l) :
    l.loop.outstanding ≤ set.capacity :=
  h.along (I := fun l => l.loop.outstanding ≤ set.capacity) (fun _ hr => Link.inv_of_reach hr)
    (Nat.zero_le _) fun _ _ _ hinv hle hroom hs => Link.outstanding_step hcap hinv hle hroom hs

/-- **The cap holds where a `ConnAck` finds room.**  In every run in which each `ConnAck` finds room
for what it resumes and for the online announcement, the outstanding QoS 1/2 publications never
exceed `max_queued_messages`.  The condition is exact: the next step keeps to the cap just if it
meets it. -/
theorem outstanding_le_capacity (set : Settings) (hcap : set.capacity ≠ 0) (now : Duration)
    (l : Link) (h : Reach (Link.step set) (RoomToResume set) (Link.init set now) l) :
    l.loop.outstanding ≤ set.capacity ∧ ∀ i l', l.step set i = some l' →
      (l'.loop.outstanding ≤ set.capacity ↔ RoomToResume set l i) := by
  have hle := Link.outstanding_of_reach hcap h
  refine ⟨hle, fun i l' hs => ⟨fun hle' => ?_, fun hroom =>
    Link.outstanding_step hcap (Link.inv_of_reach h) hle hroom hs⟩⟩
  cases i with
  | connAck resumed ok =>
    rw [Link.outstanding_connAck (Link.step_eq_some.1 hs).2] at hle'
    exact hle'
  | _ => trivial

/-! ## Clean sessions -/

/-- The client of a clean session never retains anything: an `Err` replaces it by a new one. -/
theorem Link.retained_step {set : Settings} (hclean : set.cleanSession = true) {l l' : Link}
    {i : Input} (hr : l.client.retained = []) (hs : l.step set i = some l') :
    l'.client.retained = [] := by
  obtain ⟨-, hs⟩ := Link.step_eq_some.1 hs
  cases i with
  | stop disconnect =>
    obtain ⟨-, hs⟩ := Option.ite_none_right_eq_some.1 hs
    cases hs
    rfl
  | message m ok =>
    obtain ⟨-, ⟨-, rfl⟩ | ⟨-, c, hc, rfl⟩⟩ := onMessage_eq_some hs
    · exact hr
    · obtain ⟨-, rfl⟩ := Client.tryPublish_eq_some.1 hc
      exact hr
  | take =>
    obtain ⟨c, hc, rfl⟩ := Option.map_eq_some_iff.1 hs
    obtain ⟨_, _, -, -, rfl⟩ := Client.take_eq_some.1 hc
    exact hr
  | connAck resumed ok =>
    obtain ⟨c, hc, ⟨-, rfl⟩ | ⟨-, c', hc', rfl⟩⟩ := onConnAck_eq_some hs
    · obtain ⟨-, _, _, rfl⟩ := Client.connAck_keeps hc
      rfl
    · obtain ⟨-, _, _, rfl⟩ := Client.connAck_keeps hc
      obtain ⟨-, rfl⟩ := Client.tryPublish_eq_some.1 hc'
      rfl
  | published id =>
    obtain ⟨c, hc, rfl⟩ := Option.map_eq_some_iff.1 hs
    obtain ⟨_, _, rfl⟩ := Client.announce_keeps hc
    exact hr
  | pubAck id | pubComp id => cases hs; exact hr
  | err now =>
    cases hs
    rw [onErr, hclean]
    rfl
  | other => cases hs; exact hr
  | wake => cases hs; exact hr

/-- A clean session resumes nothing, so its `ConnAck` always finds room for the announcement. -/
theorem roomToResume_of_clean {set : Settings} (hcap : set.capacity ≠ 0) {l l' : Link} {i : Input}
    (hr : l.client.retained = []) (hs : l.step set i = some l') : RoomToResume set l i := by
  cases i with
  | connAck resumed ok =>
    obtain ⟨c, hc, -⟩ := Link.onConnAck_eq_some (Link.step_eq_some.1 hs).2
    obtain ⟨hok, -⟩ := Client.connAck_eq_some.1 hc
    have hother : ∀ r ∈ resumed, r = .other := fun r hmem => by
      have hmay := hok.2 r hmem
      cases r with
      | publish id p => simp [Client.mayResume, hr] at hmay
      | pubRel id p => simp [Client.mayResume, hr] at hmay
      | other => rfl
    have hzero : resumedOutstanding resumed = 0 := by
      rw [List.eq_replicate_of_mem hother, resumedOutstanding]
      simp [Request.isQueued, Request.exchange, List.filterMap_replicate]
    show resumedOutstanding resumed + (if ok then 1 else 0) ≤ set.capacity
    split <;> omega
  | _ => trivial

/-- **With a clean session the cap holds in every run.** -/
theorem outstanding_le_capacity_of_clean {set : Settings} (hclean : set.cleanSession = true)
    (hcap : set.capacity ≠ 0) {now : Duration} {l : Link}
    (h : Reachable (Link.step set) (Link.init set now) l) : l.loop.outstanding ≤ set.capacity := by
  have hboth : l.client.retained = [] ∧
      Reach (Link.step set) (RoomToResume set) (Link.init set now) l := by
    induction h with
    | refl => exact ⟨rfl, .refl⟩
    | snoc _ _ hs ih =>
      exact ⟨Link.retained_step hclean ih.1 hs,
        ih.2.snoc (roomToResume_of_clean hcap ih.1 hs) hs⟩
  exact Link.outstanding_of_reach hcap hboth.2

/-! ## A persistent session that goes over -/

/-- A persistent session with room for one outstanding publication. -/
def oneSlot : Settings := { Settings.defaults with cleanSession := false, capacity := 1 }

/-- A QoS 1 report is sent but not yet acknowledged when the connection is lost; the broker resumes
the session, and the online announcement comes on top of the resumed report. -/
def resumedReport : List Input :=
  let m : Message := ⟨"/host/oper_state/json", "{}", .atLeastOnce, false, 0⟩
  [.connAck [] true, .take, .published 1, .pubAck 1, .message m true, .take, .published 2,
    .err .zero, .wake, .connAck [.publish 2 m.publication] true]

/-- Two publications are outstanding although `max_queued_messages` is 1. -/
theorem resumedReport_exceeds : ¬ ∀ (set : Settings) (now : Duration) (l : Link),
    set.capacity ≠ 0 → Reachable (Link.step set) (Link.init set now) l →
      l.loop.outstanding ≤ set.capacity := by
  intro hall
  have hrun : (execWhile (Link.step oneSlot) (fun _ _ => True) (.init oneSlot .zero)
      resumedReport).isSome := by decide
  have hle := hall oneSlot .zero _ (by decide) (Reach.of_isSome hrun)
  exact absurd hle (by decide +revert)

/-- Two connections with one report each keep to a cap of one. -/
theorem outstanding_le_capacity_oneSlot : ∃ l : Link, l.loop.outstanding = 1 ∧
    l.loop.outstanding ≤ oneSlot.capacity ∧ ∀ i l', l.step oneSlot i = some l' →
      (l'.loop.outstanding ≤ oneSlot.capacity ↔ RoomToResume oneSlot l i) := by
  have hrun : (execWhile (Link.step oneSlot) (RoomToResume oneSlot) (.init oneSlot .zero)
      [.connAck [] true, .take, .published 1, .pubAck 1,
        .message ⟨"/t", "1", .atLeastOnce, false, 0⟩ true, .err .zero, .wake,
        .connAck [] true]).isSome := by decide
  exact ⟨_, rfl, outstanding_le_capacity oneSlot (by decide) .zero _ (Reach.of_isSome hrun)⟩

end Mqtt
end SystemReport
