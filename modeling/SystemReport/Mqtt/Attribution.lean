import SystemReport.Lib.AssocList
import SystemReport.Lib.Ledger
import SystemReport.Mqtt.Link

/-!
# Whose acknowledgement is it

The worker tells a caller `true` without ever storing which message a packet id belongs to.  This
file shows that the bookkeeping is right all the same, for every run of the loop.

* `Coherent` relates the worker's two collections to what the client library holds: the FIFO
  `queued` matches the unannounced requests one by one, and `pending` has an entry for exactly the
  unfinished exchanges, under the waiter of that very exchange if it has one.
* `Link.Inv` adds what holds between two connections (everything is empty) and what a verdict
  `true` stands for (`Vouched`).  It is kept by every step (`Link.inv_step`).
* `Link.ledger` reads the callers off as an account of tickets; each step of the loop is a run of
  that account (`Link.reach_ledger`), so no caller is answered twice.
-/

set_option autoImplicit false

open Machine

namespace SystemReport
namespace Mqtt

/-! ## What a verdict stands for -/

/-- Call `r` asked for a publication of a QoS that satisfies `P`. -/
def Asked (h : History) (P : QoS → Prop) (r : Reply) : Prop :=
  ∃ m ∈ h.received, m.reply = r ∧ P m.qos

/-- The events handed on so far that entitle call `r` to the verdict `true`: for QoS 0 that its
message was sent, for QoS 1 and 2 that its message was announced under some id and the exchange of
that id was then finished. -/
def Vouched (h : History) (r : Reply) : Prop :=
  ∃ m ∈ h.received, m.reply = r ∧
    (m.qos = .atMostOnce → (r, .sent) ∈ h.handed) ∧
    (m.qos ≠ .atMostOnce → ∃ id, [(r, .announced id), (r, .finished id)].Sublist h.handed)

/-- `h'` continues the history `h`. -/
structure History.Extends (h h' : History) : Prop where
  received : h.received <+: h'.received
  handed : h.handed <+: h'.handed

theorem History.Extends.refl (h : History) : h.Extends h := ⟨List.prefix_rfl, List.prefix_rfl⟩

theorem Asked.mono {h h' : History} (he : h.Extends h') {P : QoS → Prop} {r : Reply} :
    Asked h P r → Asked h' P r := by
  rintro ⟨m, hm, hr, hq⟩
  exact ⟨m, he.received.subset hm, hr, hq⟩

theorem Vouched.mono {h h' : History} (he : h.Extends h') {r : Reply} :
    Vouched h r → Vouched h' r := by
  rintro ⟨m, hm, hr, hsent, hfinished⟩
  refine ⟨m, he.received.subset hm, hr, fun h0 => he.handed.subset (hsent h0), fun h0 => ?_⟩
  obtain ⟨id, hid⟩ := hfinished h0
  exact ⟨id, hid.trans he.handed.sublist⟩

/-! ## The bookkeeping and the client agree -/

/-- A waiter in `queued` and the request it waits for. -/
def Waits (h : History) (e : QoS × Option Reply) (p : Publication) : Prop :=
  e.1 = p.qos ∧ ∀ r, e.2 = some r → p.owner = some r ∧ Asked h (· = p.qos) r

/-- The worker's `queued` and `pending` describe the requests and exchanges of the client. -/
structure Coherent (l : Loop) (c : Client) (h : History) : Prop where
  fifo : List.Forall₂ (Waits h) l.queued c.unsent
  keys : ∀ id, id ∈ l.pending ↔ id ∈ c.inflight
  zero : 0 ∉ c.inflight
  owner : ∀ id r, l.pending.lookup id = some (some r) →
    ((c.inflight.lookup id).bind Publication.owner = some r) ∧
      (r, .announced id) ∈ h.handed ∧ Asked h (· ≠ .atMostOnce) r

theorem Waits.mono {h h' : History} (he : h.Extends h') {e : QoS × Option Reply}
    {p : Publication} (hw : Waits h e p) : Waits h' e p :=
  ⟨hw.1, fun r hr => ⟨(hw.2 r hr).1, (hw.2 r hr).2.mono he⟩⟩

theorem Coherent.mono {l : Loop} {c : Client} {h h' : History} (he : h.Extends h')
    (hc : Coherent l c h) : Coherent l c h' := by
  refine ⟨hc.fifo.imp fun _ _ hw => hw.mono he, hc.keys, hc.zero, fun id r hr => ?_⟩
  obtain ⟨howner, hhanded, hasked⟩ := hc.owner id r hr
  exact ⟨howner, he.handed.subset hhanded, hasked.mono he⟩

theorem coherent_empty (l : Loop) (c : Client) (h : History) (hq : l.queued = [])
    (hp : l.pending = ∅) (hu : c.unsent = []) (hi : c.inflight = ∅) : Coherent l c h := by
  refine ⟨by rw [hq, hu]; exact .nil, fun id => by rw [hp, hi]; simp, by rw [hi]; simp,
    fun id r hr => ?_⟩
  rw [hp, AList.lookup_empty] at hr
  cases hr

/-- An accepted request goes to the back of both queues. -/
theorem Coherent.push {l : Loop} {c c' : Client} {h : History} (hc : Coherent l c h)
    {p : Publication} (hp : c.tryPublish p = some c') {reply : Option Reply}
    (hw : Waits h (p.qos, reply) p) : Coherent (l.push p.qos reply) c' h := by
  obtain ⟨-, rfl⟩ := Client.tryPublish_eq_some.1 hp
  refine ⟨?_, hc.keys, hc.zero, hc.owner⟩
  rw [Client.unsent, ← List.append_assoc]
  exact List.rel_append hc.fifo (.cons hw .nil)

/-- Taking a request out of the channel does not change the order of the unannounced ones. -/
theorem Coherent.take {l : Loop} {c c' : Client} {h : History} (hc : Coherent l c h)
    (ht : c.take = some c') : Coherent l c' h := by
  obtain ⟨p, rest, hch, -, rfl⟩ := Client.take_eq_some.1 ht
  refine ⟨?_, hc.keys, hc.zero, hc.owner⟩
  have hfifo := hc.fifo
  rw [Client.unsent, hch] at hfifo
  rw [Client.unsent, List.append_assoc]
  exact hfifo

/-- A new entry without a waiter, for an exchange that is unfinished from now on. -/
theorem Coherent.insert_none {l : Loop} {c : Client} {h : History} (hc : Coherent l c h)
    {id : PacketId} (h0 : id ≠ 0) (p : Publication) :
    Coherent { l with pending := l.pending.insert id none }
      { c with inflight := c.inflight.insert id p } h := by
  refine ⟨hc.fifo, fun id' => ?_, ?_, fun id' r hr => ?_⟩
  · simp only [AList.mem_insert, hc.keys]
  · rw [AList.mem_insert]
    rintro (h | h)
    · exact h0 h.symm
    · exact hc.zero h
  · rcases eq_or_ne id' id with rfl | hne
    · rw [AList.lookup_insert] at hr
      cases hr
    · rw [AList.lookup_insert_ne hne] at hr
      rw [AList.lookup_insert_ne hne]
      exact hc.owner id' r hr

/-- One request of `events.pending`, on both sides. -/
theorem Coherent.rebuildOne {l : Loop} {c : Client} {h : History} (hc : Coherent l c h)
    (hch : c.channel = []) {r : Request} (hr : ∀ id p, r = .pubRel id p → id ≠ 0) :
    Coherent (l.rebuildOne r) (c.resumeOne r) h := by
  cases r with
  | publish id p =>
    rw [Loop.rebuildOne, Client.resumeOne]
    split
    · refine ⟨?_, hc.keys, hc.zero, hc.owner⟩
      have hfifo := hc.fifo
      rw [Client.unsent, hch, List.append_nil] at hfifo
      rw [Client.unsent, hch, List.append_nil]
      exact List.rel_append hfifo (.cons ⟨rfl, fun r hr => by cases hr⟩ .nil)
    · rename_i h0
      exact hc.insert_none h0 p
  | pubRel id p => exact hc.insert_none (hr id p rfl) p
  | other => exact hc

/-- The whole of `events.pending`, on both sides. -/
theorem Coherent.rebuild {h : History} : ∀ (rs : List Request) {l : Loop} {c : Client},
    Coherent l c h → c.channel = [] → (∀ r ∈ rs, ∀ id p, r = .pubRel id p → id ≠ 0) →
      Coherent (rs.foldl Loop.rebuildOne l) (rs.foldl Client.resumeOne c) h
  | [], _, _, hc, _, _ => hc
  | r :: rs, _, c, hc, hch, hrs => by
    obtain ⟨taken, inflight, hone⟩ := c.resume_keeps [r]
    have hch' : (c.resumeOne r).channel = [] := by
      rw [List.foldl_cons, List.foldl_nil] at hone
      rw [hone]
      exact hch
    exact Coherent.rebuild rs (hc.rebuildOne hch (hrs r (by simp))) hch'
      fun r' hr' => hrs r' (by simp [hr'])

/-! ### Announcements and acknowledgements -/

theorem History.extends_hand_tell (h : History) (owner : Option Reply) (n : Notice)
    (rs : List Reply) (b : Bool) : h.Extends ((h.hand owner n).tell rs b) :=
  ⟨List.prefix_rfl, List.prefix_append _ _⟩

/-- The waiter at the front of `queued` waits for the next request to be announced. -/
theorem Coherent.head {l : Loop} {c : Client} {h : History} (hc : Coherent l c h)
    {p : Publication} {rest : List Publication} (ht : c.taken = p :: rest) :
    ∃ e q, l.queued = e :: q ∧ Waits h e p ∧ List.Forall₂ (Waits h) q (rest ++ c.channel) := by
  have hfifo := hc.fifo
  rw [Client.unsent, ht, List.cons_append] at hfifo
  cases hq : l.queued with
  | nil => rw [hq] at hfifo; cases hfifo
  | cons e q =>
    rw [hq] at hfifo
    obtain ⟨hw, hrest⟩ := List.forall₂_cons.1 hfifo
    exact ⟨e, q, rfl, hw, hrest⟩

/-- The front of both queues moves to the exchange `id`. -/
theorem Coherent.start_exchange {l : Loop} {c : Client} {h : History} (hc : Coherent l c h)
    {e : QoS × Option Reply} {q : List (QoS × Option Reply)} {p : Publication}
    {rest : List Publication} (hw : Waits h e p)
    (hrest : List.Forall₂ (Waits h) q (rest ++ c.channel)) {id : PacketId} (h0 : id ≠ 0)
    (hq : p.qos ≠ .atMostOnce) (hann : ∀ r, p.owner = some r → (r, .announced id) ∈ h.handed) :
    Coherent { l with queued := q, pending := l.pending.insert id e.2 }
      { c with taken := rest, inflight := c.inflight.insert id p } h := by
  refine ⟨hrest, fun id' => ?_, ?_, fun id' r hr => ?_⟩
  · simp only [AList.mem_insert, hc.keys]
  · rw [AList.mem_insert, not_or]
    exact ⟨fun h => h0 h.symm, hc.zero⟩
  · rcases eq_or_ne id' id with rfl | hne
    · rw [AList.lookup_insert] at hr ⊢
      obtain ⟨howner, m, hm, hmr, hmq⟩ := hw.2 r (Option.some.inj hr)
      exact ⟨howner, hann r howner, m, hm, hmr, fun hm0 => hq (hmq ▸ hm0)⟩
    · rw [AList.lookup_insert_ne hne] at hr ⊢
      exact hc.owner id' r hr

/-- **An announcement reaches the right waiter.**  A first transmission pops the waiter of that
very request; a retransmission pops nothing. -/
theorem Coherent.publish {l l' : Link} (hc : Coherent l.loop l.client l.hist) {id : PacketId}
    (hp : l.onPublish id = some l') :
    Coherent l'.loop l'.client l'.hist ∧
      ∀ r, (l.loop.onPublish id).2 = some r → Vouched l'.hist r := by
  rw [Link.onPublish] at hp
  obtain ⟨c, hann, rfl⟩ := Option.map_eq_some_iff.1 hp
  have hc' := hc.mono (l.hist.extends_hand_tell (l.announcedOwner id)
    (if id = 0 then .sent else .announced id) (l.loop.onPublish id).2.toList true)
  rcases Client.announce_eq_some.1 hann with ⟨hin, rfl⟩ | ⟨hin, p, rest, htaken, hid, rfl⟩
  · -- a retransmission: the entry is occupied
    have h0 : id ≠ 0 := by
      rintro rfl
      exact hc.zero hin
    have hloop : l.loop.onPublish id = (l.loop, none) := by
      rw [Loop.onPublish, if_neg h0, if_pos ((hc.keys id).2 hin)]
    have hfst : (l.loop.onPublish id).1 = l.loop := by rw [hloop]
    refine ⟨?_, fun r hr => by rw [hloop] at hr; cases hr⟩
    show Coherent (l.loop.onPublish id).1 l.client _
    rw [hfst]
    exact hc'
  · have howner : l.announcedOwner id = p.owner := by
      rw [Link.announcedOwner, if_neg hin, htaken]
      rfl
    obtain ⟨e, q, hq, hw, hrest⟩ := hc'.head htaken
    by_cases h0 : id = 0
    · have hloop : l.loop.onPublish id = ({ l.loop with queued := q }, e.2) := by
        rw [Loop.onPublish, if_pos h0, hq]
        rfl
      rw [hloop] at hc' hw hrest ⊢
      simp only [if_pos h0] at hc' hw hrest ⊢
      refine ⟨⟨hrest, hc'.keys, hc'.zero, hc'.owner⟩, fun r hr => ?_⟩
      obtain ⟨hr', m, hm, hmr, hmq⟩ := hw.2 r hr
      refine ⟨m, hm, hmr, fun _ => ?_, fun hne => absurd (hid.1 h0) (hmq ▸ hne)⟩
      simp [History.tell, History.hand, howner, hr']
    · have hin' : id ∉ l.loop.pending := fun h => hin ((hc.keys id).1 h)
      have hloop : l.loop.onPublish id =
          ({ l.loop with queued := q, pending := l.loop.pending.insert id e.2 }, none) := by
        rw [Loop.onPublish, if_neg h0, if_neg hin', hq]
        rfl
      rw [hloop] at hc' hw hrest ⊢
      simp only [if_neg h0] at hc' hw hrest ⊢
      refine ⟨hc'.start_exchange hw hrest h0 (fun h => h0 (hid.2 h)) fun r hr => ?_,
        fun r hr => by cases hr⟩
      simp [History.tell, History.hand, howner, hr]

/-- **An acknowledgement reaches the right waiter**, namely the one whose own message was announced
under that id. -/
theorem Coherent.finish {l : Link} (hc : Coherent l.loop l.client l.hist) (id : PacketId) :
    Coherent (l.onFinish id).loop (l.onFinish id).client (l.onFinish id).hist ∧
      ∀ r, (l.loop.finish id).2 = some r → Vouched (l.onFinish id).hist r := by
  have hext : l.hist.Extends (l.onFinish id).hist := l.hist.extends_hand_tell _ _ _ _
  have hc' := hc.mono hext
  refine ⟨⟨hc'.fifo, fun id' => ?_, ?_, fun id' r hr => ?_⟩, fun r hr => ?_⟩
  · simp only [Link.onFinish, Loop.finish, Client.finish, AList.mem_erase, hc.keys]
  · simp only [Link.onFinish, Client.finish, AList.mem_erase, not_and]
    exact fun _ => hc.zero
  · simp only [Link.onFinish, Loop.finish, Client.finish] at hr ⊢
    rcases eq_or_ne id' id with rfl | hne
    · rw [AList.lookup_erase] at hr
      cases hr
    · rw [AList.lookup_erase_ne hne] at hr ⊢
      exact hc'.owner id' r hr
  · have hl : l.loop.pending.lookup id = some (some r) := by
      simpa [Loop.finish, Option.join_eq_some_iff] using hr
    obtain ⟨howner, hann, m, hm, hmr, hmq⟩ := hc.owner id r hl
    refine ⟨m, hm, hmr, fun h0 => absurd h0 hmq, fun _ => ⟨id, ?_⟩⟩
    simp only [Link.onFinish, History.tell, History.hand, howner]
    exact (List.singleton_sublist.2 hann).append (List.Sublist.refl _)

/-! ## The invariant of the loop -/

/-- What holds between any two steps of a run. -/
structure Link.Inv (l : Link) : Prop where
  /-- the flag agrees with the client while the thread runs -/
  live : l.shared.connected = l.client.live
  /-- between two connections nothing is outstanding -/
  quiet : l.client.live = false →
    l.loop.queued = [] ∧ l.loop.pending = ∅ ∧ l.client.unsent = [] ∧ l.client.inflight = ∅
  coherent : Coherent l.loop l.client l.hist
  vouched : ∀ r, (r, true) ∈ l.hist.verdicts → Vouched l.hist r

theorem Link.inv_init (set : Settings) (now : Duration) : (Link.init set now).Inv :=
  ⟨rfl, fun _ => ⟨rfl, rfl, rfl, rfl⟩, coherent_empty _ _ _ rfl rfl rfl rfl,
    fun r hr => by cases hr⟩

/-- New verdicts `false` need no evidence. -/
theorem vouched_tell_false {h : History} (hv : ∀ r, (r, true) ∈ h.verdicts → Vouched h r)
    (rs : List Reply) :
    ∀ r, (r, true) ∈ (h.tell rs false).verdicts → Vouched (h.tell rs false) r := by
  intro r hr
  rcases List.mem_append.1 hr with hr | hr
  · exact (hv r hr).mono ⟨List.prefix_rfl, List.prefix_rfl⟩
  · obtain ⟨_, _, heq⟩ := List.mem_map.1 hr
    cases heq

/-- A new verdict `true` needs evidence for its caller only. -/
theorem vouched_hand_tell {h : History} (hv : ∀ r, (r, true) ∈ h.verdicts → Vouched h r)
    {owner told : Option Reply} {n : Notice}
    (ht : ∀ r, told = some r → Vouched ((h.hand owner n).tell told.toList true) r) :
    ∀ r, (r, true) ∈ ((h.hand owner n).tell told.toList true).verdicts →
      Vouched ((h.hand owner n).tell told.toList true) r := by
  intro r hr
  rcases List.mem_append.1 hr with hr | hr
  · exact (hv r hr).mono (h.extends_hand_tell _ _ _ _)
  · obtain ⟨r', hr', heq⟩ := List.mem_map.1 hr
    cases heq
    exact ht r (Option.mem_toList.1 hr')

theorem Link.inv_message {set : Settings} {l l' : Link} {m : Message} {ok : Bool} (h : l.Inv)
    (hs : l.onMessage set m ok = some l') : l'.Inv := by
  obtain ⟨-, ⟨-, rfl⟩ | ⟨⟨hconn, -, -⟩, c, hc, rfl⟩⟩ := Link.onMessage_eq_some hs
  · -- refused by the worker, the cap or the client
    have hext : l.hist.Extends (l.hist.receive m) := ⟨List.prefix_append _ _, List.prefix_rfl⟩
    have htell : l.hist.Extends ((l.hist.receive m).tell [m.reply] false) :=
      ⟨List.prefix_append _ _, List.prefix_rfl⟩
    have hv : ∀ r, (r, true) ∈ (l.hist.receive m).verdicts → Vouched (l.hist.receive m) r :=
      fun r hr => (h.vouched r hr).mono hext
    exact ⟨h.live, h.quiet, h.coherent.mono htell, vouched_tell_false hv [m.reply]⟩
  · have hlive : c.live = l.client.live := by
      obtain ⟨-, rfl⟩ := Client.tryPublish_eq_some.1 hc
      rfl
    have hext : l.hist.Extends
        { l.hist.receive m with accepted := l.hist.accepted ++ [m.publication] } :=
      ⟨List.prefix_append _ _, List.prefix_rfl⟩
    refine ⟨h.live.trans hlive.symm, fun hdead => ?_, ?_, fun r hr => (h.vouched r hr).mono hext⟩
    · rw [hlive, ← h.live, hconn] at hdead
      cases hdead
    · refine (h.coherent.mono hext).push hc ⟨rfl, fun r hr => ?_⟩
      cases hr
      exact ⟨rfl, m, by simp [History.receive], rfl, rfl⟩

theorem Link.inv_connAck {set : Settings} {l l' : Link} {resumed : List Request} {ok : Bool}
    (h : l.Inv) (hs : l.onConnAck set resumed ok = some l') : l'.Inv := by
  obtain ⟨c, hc, hs⟩ := Link.onConnAck_eq_some hs
  obtain ⟨hok, rfl⟩ := Client.connAck_eq_some.1 hc
  obtain ⟨-, -, hunsent, -⟩ := h.quiet hok.1
  rw [Client.unsent, List.append_eq_nil_iff] at hunsent
  have hext : l.hist.Extends { l.hist with accepted := [] } := ⟨List.prefix_rfl, List.prefix_rfl⟩
  have hco : Coherent (l.loop.onConnAck set resumed)
      (resumed.foldl Client.resumeOne
        { l.client with live := true, taken := [], inflight := ∅, retained := [] })
      { l.hist with accepted := [] } := by
    refine Coherent.rebuild resumed ?_ hunsent.2 fun r hr id p hrel => ?_
    · exact coherent_empty _ _ _ rfl rfl (by simp [Client.unsent, hunsent.2]) rfl
    · have := hok.2 r hr
      rw [hrel] at this
      exact this.2.1
  have hlive : (resumed.foldl Client.resumeOne
      { l.client with live := true, taken := [], inflight := ∅, retained := [] }).live = true := by
    obtain ⟨_, _, hkeeps⟩ := Client.resume_keeps resumed
      { l.client with live := true, taken := [], inflight := ∅, retained := [] }
    rw [hkeeps]
  rcases hs with ⟨-, rfl⟩ | ⟨-, c', hc', rfl⟩
  · refine ⟨hlive.symm, fun hdead => ?_, hco, fun r hr => (h.vouched r hr).mono hext⟩
    exact absurd (hlive.symm.trans hdead) (by simp)
  · obtain ⟨-, rfl⟩ := Client.tryPublish_eq_some.1 hc'
    refine ⟨hlive.symm, fun hdead => ?_, ?_, fun r hr => (h.vouched r hr).mono hext⟩
    · exact absurd (hlive.symm.trans hdead) (by simp)
    · have hpush : Coherent ((l.loop.onConnAck set resumed).push .atLeastOnce none) _
          { l.hist with accepted := [] } :=
        hco.push hc' ⟨rfl, fun r hr => by cases hr⟩
      have hext' : History.Extends { l.hist with accepted := [] }
          { l.hist with accepted := [set.announcement] } := ⟨List.prefix_rfl, List.prefix_rfl⟩
      exact hpush.mono hext'

theorem Link.inv_err {set : Settings} {l : Link} (h : l.Inv) (now : Duration) :
    (l.onErr set now).Inv := by
  have hempty : (l.onErr set now).client.live = false ∧ (l.onErr set now).client.unsent = [] ∧
      (l.onErr set now).client.inflight = ∅ := by
    rw [Link.onErr]
    cases hclean : set.cleanSession with
    | true => exact ⟨rfl, rfl, rfl⟩
    | false =>
      cases hlive : l.client.live with
      | true => simp [Client.lose, Client.unsent, hlive]
      | false =>
        obtain ⟨-, -, hunsent, hinflight⟩ := h.quiet hlive
        simp [Client.lose, hlive, hunsent, hinflight]
  refine ⟨?_, fun _ => ⟨rfl, rfl, hempty.2⟩, coherent_empty _ _ _ rfl rfl hempty.2.1 hempty.2.2,
    fun r hr => ?_⟩
  · rw [hempty.1, Link.onErr, State.onErr]
    split
    · rfl
    · rename_i hconn
      simpa using hconn
  · exact (vouched_tell_false h.vouched l.loop.waiting r hr).mono
      ⟨List.prefix_rfl, List.prefix_rfl⟩

/-- **Every step of the loop keeps the bookkeeping right.** -/
theorem Link.inv_step {set : Settings} {l l' : Link} {i : Input} (h : l.Inv)
    (hs : l.step set i = some l') : l'.Inv := by
  obtain ⟨-, hs⟩ := Link.step_eq_some.1 hs
  cases i with
  | stop disconnect =>
    rw [Link.next, Link.onStop] at hs
    split at hs
    · cases hs
      exact ⟨rfl, fun _ => ⟨rfl, rfl, rfl, rfl⟩, coherent_empty _ _ _ rfl rfl rfl rfl,
        fun r hr => (h.vouched r hr).mono ⟨List.prefix_rfl, List.prefix_rfl⟩⟩
    · cases hs
  | message m ok => exact inv_message h hs
  | take =>
    obtain ⟨c, hc, rfl⟩ := Option.map_eq_some_iff.1 hs
    have hco := h.coherent.take hc
    obtain ⟨_, _, -, hlive, rfl⟩ := Client.take_eq_some.1 hc
    exact ⟨h.live, fun hdead => absurd (hlive.symm.trans hdead) (by simp), hco, h.vouched⟩
  | connAck resumed ok => exact inv_connAck h hs
  | published id =>
    have hco := h.coherent.publish hs
    rw [Link.next, Link.onPublish] at hs
    obtain ⟨c, hc, rfl⟩ := Option.map_eq_some_iff.1 hs
    have hlive : c.live = l.client.live := by
      obtain ⟨_, _, rfl⟩ := Client.announce_keeps hc
      rfl
    refine ⟨h.live.trans hlive.symm, fun hdead => ?_, hco.1, vouched_hand_tell h.vouched hco.2⟩
    -- without a connection there is nothing to announce
    obtain ⟨-, -, hunsent, hinflight⟩ := h.quiet (hlive.symm.trans hdead)
    rw [Client.unsent, List.append_eq_nil_iff] at hunsent
    rw [Client.announce, hinflight, hunsent.1] at hc
    simp at hc
  | pubAck id | pubComp id =>
    cases hs
    have hco := h.coherent.finish id
    refine ⟨h.live, fun hdead => ?_, hco.1, vouched_hand_tell h.vouched hco.2⟩
    obtain ⟨hq, hp, hu, hi⟩ := h.quiet hdead
    refine ⟨hq, ?_, hu, ?_⟩
    · simp only [Link.onFinish, Loop.finish, hp]; rfl
    · simp only [Link.onFinish, Client.finish, hi]; rfl
  | err now => cases hs; exact inv_err h now
  | other => cases hs; exact h
  | wake => cases hs; exact ⟨h.live, h.quiet, ⟨h.coherent.fifo, h.coherent.keys, h.coherent.zero,
      h.coherent.owner⟩, h.vouched⟩

theorem Link.inv_of_reach {set : Settings} {C : Link → Input → Prop} {now : Duration} {l : Link}
    (h : Reach (Link.step set) C (Link.init set now) l) : l.Inv :=
  h.invariant (Link.inv_init set now) fun _ _ _ hi _ hs => Link.inv_step hi hs

/-! ## Every caller is answered at most once -/

/-- The callers as an account of tickets: a received message opens one, a verdict closes it, and
the callers left when the loop ends are dropped. -/
def Link.ledger (l : Link) : Ledger Reply Bool :=
  ⟨l.hist.received.map Message.reply, l.loop.waiting, l.hist.verdicts, l.hist.abandoned⟩

theorem Loop.waiting_push (l : Loop) (qos : QoS) (r : Reply) :
    ((l.push qos (some r)).waiting : Multiset Reply) = r ::ₘ l.waiting := by
  rw [waiting, waiting, push, List.filterMap_append, Multiset.cons_coe, Multiset.coe_eq_coe]
  simp [List.perm_middle]

theorem Loop.waiting_push_none (l : Loop) (qos : QoS) : (l.push qos none).waiting = l.waiting := by
  simp [waiting, push]

theorem Loop.waiting_rebuildOne {l : Loop} (h : l.waiting = []) (r : Request) :
    (l.rebuildOne r).waiting = [] := by
  have hinsert : ∀ id, ({ l with pending := l.pending.insert id none } : Loop).waiting = [] := by
    intro id
    rw [waiting, List.append_eq_nil_iff] at h ⊢
    refine ⟨h.1, ?_⟩
    rw [AList.entries_insert, List.filterMap_cons]
    exact List.eq_nil_of_sublist_nil (h.2 ▸ (List.kerase_sublist id l.pending.entries).filterMap _)
  cases r with
  | publish id p =>
    rw [rebuildOne]
    split
    · rw [waiting_push_none, h]
    · exact hinsert id
  | pubRel id p => exact hinsert id
  | other => exact h

/-- Rebuilding the bookkeeping from `events.pending` makes nobody wait. -/
theorem Loop.waiting_onConnAck (set : Settings) (l : Loop) (resumed : List Request) :
    (l.onConnAck set resumed).waiting = [] := by
  have h : ∀ (rs : List Request) (l : Loop), l.waiting = [] →
      (rs.foldl rebuildOne l).waiting = [] := by
    intro rs
    induction rs with
    | nil => exact fun l h => h
    | cons r rs ih => exact fun l h => ih _ (waiting_rebuildOne h r)
  exact h resumed _ rfl

/-- An announcement answers the front of `queued`, or moves it to `pending`. -/
theorem Loop.waiting_onPublish (l : Loop) (id : PacketId) :
    (l.waiting : Multiset Reply) = (l.onPublish id).2.toList + (l.onPublish id).1.waiting := by
  rw [Multiset.coe_add, Multiset.coe_eq_coe, waiting, waiting, onPublish]
  split
  · cases hq : l.queued with
    | nil => simp
    | cons e q => cases he : e.2 <;> simp [he]
  · split
    · simp
    · rename_i hin
      rw [AList.entries_insert_of_notMem hin]
      cases hq : l.queued with
      | nil => simp
      | cons e q => cases he : e.2 <;> simp [he, List.perm_middle.symm]

/-- An acknowledgement answers the waiter of its exchange. -/
theorem Loop.waiting_finish (l : Loop) (id : PacketId) :
    (l.waiting : Multiset Reply) = (l.finish id).2.toList + (l.finish id).1.waiting := by
  rw [Multiset.coe_add, Multiset.coe_eq_coe, waiting, waiting, finish]
  cases hl : l.pending.lookup id with
  | none => simp [AList.erase_of_notMem (AList.lookup_eq_none.1 hl)]
  | some w =>
    have hperm := (AList.perm_cons_erase hl).filterMap Sigma.snd
    refine (hperm.append_left _).trans ?_
    cases w with
    | none => simp
    | some r => simp [List.perm_middle]

/-- Answering some of the waiting callers is a run of the account. -/
theorem Link.reach_tell {l : Link} {rs : List Reply} {w : Multiset Reply} (b : Bool)
    (hw : (l.loop.waiting : Multiset Reply) = rs + w) :
    Reachable Ledger.step l.ledger
      { l.ledger with waiting := w, closed := l.hist.verdicts ++ rs.map fun r => (r, b) } := by
  have h := Ledger.reach_closes b rs l.ledger (by rw [ledger, hw]; exact Multiset.le_add_right _ _)
  rwa [show l.ledger.waiting - rs = w by rw [ledger, hw, add_tsub_cancel_left]] at h

/-- **Each step of the loop is a run of the account.** -/
theorem Link.reach_ledger {set : Settings} {l l' : Link} {i : Input} (hinv : l.Inv)
    (hs : l.step set i = some l') : Reachable Ledger.step l.ledger l'.ledger := by
  obtain ⟨-, hs⟩ := Link.step_eq_some.1 hs
  cases i with
  | stop disconnect =>
    obtain ⟨-, hs⟩ := Option.ite_none_right_eq_some.1 hs
    cases hs
    have h := Ledger.reach_drops l.loop.waiting l.ledger le_rfl
    have hzero := add_tsub_cancel_left (l.loop.waiting : Multiset Reply) 0
    rw [add_zero] at hzero
    rwa [show l.ledger.waiting - (l.loop.waiting : Multiset Reply) = 0 from hzero] at h
  | message m ok =>
    obtain ⟨hnew, hs⟩ := onMessage_eq_some hs
    have hopen : l.ledger.step (.opens m.reply) = some
        { l.ledger with
          opened := l.ledger.opened ++ [m.reply]
          waiting := m.reply ::ₘ l.ledger.waiting } :=
      if_neg hnew
    have hopened := Reach.single (C := fun _ _ => True) trivial hopen
    rcases hs with ⟨-, rfl⟩ | ⟨-, c, -, rfl⟩
    · refine hopened.trans ?_
      have hclose := Ledger.reach_closes false [m.reply]
        ({ l.ledger with
          opened := l.ledger.opened ++ [m.reply]
          waiting := m.reply ::ₘ l.ledger.waiting } : Ledger Reply Bool) (by simp)
      simpa [ledger, History.tell, History.receive] using hclose
    · simpa [ledger, History.receive, Loop.waiting_push] using hopened
  | take =>
    obtain ⟨c, -, rfl⟩ := Option.map_eq_some_iff.1 hs
    exact .refl
  | connAck resumed ok =>
    -- nobody waits between two connections, so rebuilding drops nobody
    have hwait := Loop.waiting_onConnAck set l.loop resumed
    obtain ⟨c, hc, hs⟩ := onConnAck_eq_some hs
    obtain ⟨hq, hp, -, -⟩ := hinv.quiet (Client.connAck_keeps hc).1
    have hnone : l.loop.waiting = [] := by rw [Loop.waiting, hq, hp]; rfl
    rcases hs with ⟨-, rfl⟩ | ⟨-, c', -, rfl⟩
    · simp only [ledger, hnone, hwait]
      exact .refl
    · simp only [ledger, hnone, Loop.waiting_push_none, hwait]
      exact .refl
  | published id =>
    rw [next, onPublish] at hs
    obtain ⟨c, -, rfl⟩ := Option.map_eq_some_iff.1 hs
    exact l.reach_tell true (l.loop.waiting_onPublish id)
  | pubAck id | pubComp id =>
    cases hs
    exact l.reach_tell true (l.loop.waiting_finish id)
  | err now =>
    cases hs
    exact l.reach_tell (w := 0) false (add_zero _).symm
  | other => cases hs; exact .refl
  | wake => cases hs; exact .refl

theorem Link.kept_ledger {set : Settings} {C : Link → Input → Prop} {now : Duration} {l : Link}
    (h : Reach (Link.step set) C (Link.init set now) l) : l.ledger.Kept :=
  h.map Link.ledger (fun _ hr => Link.inv_of_reach hr) fun _ _ _ hi _ hs => reach_ledger hi hs

/-! ## Acknowledgement attribution -/

/-- **Acknowledgement attribution.**  In every run of the loop, each `publish()` call is sent at
most one verdict, and the verdict `true` only if the events of its own message have been handed to
the worker: for QoS 0 its `Outgoing::Publish(0)`, for QoS 1 and 2 the announcement of its packet id
and after it the `PubAck` or `PubComp` of that exchange. -/
theorem ack_attribution (set : Settings) (now : Duration) (l : Link)
    (h : Reachable (Link.step set) (Link.init set now) l) :
    (l.hist.verdicts.map Prod.fst).Nodup ∧
      ∀ r, (r, true) ∈ l.hist.verdicts → Vouched l.hist r :=
  ⟨Ledger.closed_nodup (Link.kept_ledger h), (Link.inv_of_reach h).vouched⟩

/-- A QoS 0 and a QoS 1 publication on one connection, each acknowledged in its own way. -/
def twoPublications : List Input :=
  [.connAck [] true, .message ⟨"/t/a", "1", .atMostOnce, false, 0⟩ true,
    .message ⟨"/t/b", "2", .atLeastOnce, false, 1⟩ true, .take, .take, .take, .published 1,
    .published 0, .published 2, .pubAck 1, .pubAck 2]

theorem ack_attribution_two : ∃ l : Link, l.hist.verdicts = [(0, true), (1, true)] ∧
    (l.hist.verdicts.map Prod.fst).Nodup ∧ ∀ r, (r, true) ∈ l.hist.verdicts → Vouched l.hist r := by
  have hrun : (execWhile (Link.step .defaults) (fun _ _ => True) (.init .defaults .zero)
      twoPublications).isSome := by decide
  exact ⟨_, rfl, ack_attribution .defaults .zero _ (Reach.of_isSome hrun)⟩

end Mqtt
end SystemReport
