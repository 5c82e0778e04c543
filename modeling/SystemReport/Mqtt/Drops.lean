import SystemReport.Mqtt.Publisher

/-!
# Counting dropped messages

A call of `publish()` that finds no connection counts itself in a second lock section, and may write
a warning there.  Between the two sections the worker can process a `ConnAck`, which resets the
count and the time of the last warning.

`drops_accounted` shows that the count is right in every run in which this does not happen to a call
that is counted later; `lateDrop_miscounted` is a run in which it does.
-/

set_option autoImplicit false

open Machine

namespace SystemReport
namespace Mqtt

/-! ## The accounts of a run -/

/-- What happens to the drops. -/
inductive DropEvent
  /-- `publish()` has found no connection, so the message is dropped -/
  | refused
  /-- the drop is counted -/
  | counted
  /-- a warning with the count -/
  | warned (now : Duration) (n : UInt64)
  | connAck
deriving DecidableEq

/-- The thread is between the two lock sections of `publish()`. -/
def Pc.isDropping : Pc → Bool
  | .dropping _ => true
  | _ => false

/-- The events of a step, the latest first. -/
def System.dropEvents (s : System) (a : Act) (t : System) : List DropEvent :=
  match a with
  | .publish _ _ _ _ | .goodbye => if t.pc.isDropping then [.refused] else []
  | .countDrop =>
    if s.poisoned then []
    else ((t.dropLog.drop s.dropLog.length).map fun (now, n) => .warned now n) ++ [.counted]
  | .worker (.connAck _ _) => [.connAck]
  | _ => []

/-- The events since the last `ConnAck`: those of the current outage, if there is one. -/
def sinceConnAck (log : List DropEvent) : List DropEvent := log.takeWhile (· ≠ .connAck)

/-- How many calls have been dropped since then. -/
def refusedSince (log : List DropEvent) : ℕ := (sinceConnAck log).count .refused

/-- How many of them are counted. -/
def countedSince (log : List DropEvent) : ℕ := (sinceConnAck log).count .counted

/-- When warnings were written since then. -/
def warnedSince (log : List DropEvent) : List Duration :=
  (sinceConnAck log).filterMap fun
    | .warned now _ => some now
    | _ => none

/-- The drops are accounted for: the first one of an outage is logged, every warning says how many
calls were dropped since the last `ConnAck`, and it comes at least 300 seconds after those before
it. -/
inductive Accounted : List DropEvent → Prop
  | nil : Accounted []
  | connAck {log : List DropEvent} (h : Accounted log) : Accounted (.connAck :: log)
  | refused {log : List DropEvent} (h : Accounted log) : Accounted (.refused :: log)
  | silent {log : List DropEvent} (h : Accounted log) (hlater : countedSince log ≠ 0) :
      Accounted (.counted :: log)
  | warned {log : List DropEvent} {now : Duration} {n : UInt64} (h : Accounted log)
      (hn : n.toNat = min (2 ^ 64 - 1) (refusedSince log))
      (hapart : ∀ earlier ∈ warnedSince log, earlier.nanos + 300 * 1000000000 ≤ now.nanos) :
      Accounted (.warned now n :: .counted :: log)

/-- No `ConnAck` has come since a call last found no connection. -/
def fresh : List DropEvent → Bool
  | [] => false
  | .refused :: _ => true
  | .connAck :: _ => false
  | _ :: log => fresh log

/-- A drop is counted before the worker processes another `ConnAck`. -/
def Prompt (p : System × List DropEvent) (a : Act) : Prop := a = .countDrop → fresh p.2 = true

instance (p : System × List DropEvent) : DecidablePred (Prompt p) := fun a =>
  inferInstanceAs (Decidable (a = .countDrop → fresh p.2 = true))

@[simp] theorem refusedSince_nil : refusedSince [] = 0 := rfl
@[simp] theorem countedSince_nil : countedSince [] = 0 := rfl
@[simp] theorem warnedSince_nil : warnedSince [] = [] := rfl

section Log

variable (log : List DropEvent) (now : Duration) (n : UInt64)

@[simp] theorem refusedSince_connAck : refusedSince (.connAck :: log) = 0 := rfl
@[simp] theorem countedSince_connAck : countedSince (.connAck :: log) = 0 := rfl
@[simp] theorem warnedSince_connAck : warnedSince (.connAck :: log) = [] := rfl

@[simp] theorem refusedSince_refused : refusedSince (.refused :: log) = refusedSince log + 1 := by
  simp [refusedSince, sinceConnAck]

@[simp] theorem countedSince_refused : countedSince (.refused :: log) = countedSince log := by
  simp [countedSince, sinceConnAck]

@[simp] theorem warnedSince_refused : warnedSince (.refused :: log) = warnedSince log := by
  simp [warnedSince, sinceConnAck]

@[simp] theorem refusedSince_counted : refusedSince (.counted :: log) = refusedSince log := by
  simp [refusedSince, sinceConnAck]

@[simp] theorem countedSince_counted : countedSince (.counted :: log) = countedSince log + 1 := by
  simp [countedSince, sinceConnAck]

@[simp] theorem warnedSince_counted : warnedSince (.counted :: log) = warnedSince log := by
  simp [warnedSince, sinceConnAck]

@[simp] theorem refusedSince_warned : refusedSince (.warned now n :: log) = refusedSince log := by
  simp [refusedSince, sinceConnAck]

@[simp] theorem countedSince_warned : countedSince (.warned now n :: log) = countedSince log := by
  simp [countedSince, sinceConnAck]

@[simp] theorem warnedSince_warned : warnedSince (.warned now n :: log) = now :: warnedSince log := by
  simp [warnedSince, sinceConnAck]

end Log

/-- A warning comes with a drop that is counted. -/
theorem Accounted.counted_of_warned {log : List DropEvent} (h : Accounted log)
    (hwarned : warnedSince log ≠ []) : countedSince log ≠ 0 := by
  induction h with
  | nil => exact absurd rfl hwarned
  | connAck => simp at hwarned
  | refused h ih => simpa using ih (by simpa using hwarned)
  | silent => simp
  | warned => simp

/-- The latest warning is the latest in time. -/
theorem Accounted.le_last {log : List DropEvent} (h : Accounted log) {last : Duration}
    (hlast : (warnedSince log).head? = some last) : ∀ t ∈ warnedSince log, t.nanos ≤ last.nanos := by
  induction h with
  | nil => simp at hlast
  | connAck => simp at hlast
  | refused h ih => simpa using ih (by simpa using hlast)
  | silent h hlater ih => simpa using ih (by simpa using hlast)
  | warned h hn hapart ih =>
    simp only [warnedSince_warned, warnedSince_counted, List.head?_cons, Option.some.injEq] at hlast ⊢
    subst hlast
    intro t ht
    rcases List.mem_cons.1 ht with rfl | ht
    · exact le_rfl
    · have := hapart t ht
      omega

/-! ## The invariant -/

namespace System

/-- What holds after every step. -/
structure Counts (s : System) (log : List DropEvent) : Prop where
  accounted : Accounted log
  flag : s.connected = true → s.dropped = 0
  counter : s.dropped.toNat = min (2 ^ 64 - 1) (countedSince log)
  lastLog : s.link.shared.lastLog = (warnedSince log).head?
  /-- every call is counted, but for the one that is about to be -/
  calls : s.pc ≠ .panicked →
    refusedSince log = countedSince log + if s.pc.isDropping && fresh log then 1 else 0
  /-- which still has no connection -/
  vain : s.pc.isDropping = true → fresh log = true → s.connected = false
  /-- a call that a `ConnAck` has overtaken is alone in the new outage -/
  late : s.pc.isDropping = true → fresh log = false → countedSince log = 0 ∧ warnedSince log = []

theorem counts_init (set : Settings) (now : Duration) : (init set now).Counts [] where
  accounted := .nil
  flag h := by cases h
  counter := rfl
  lastLog := rfl
  calls _ := rfl
  vain h := by cases h
  late h := by cases h

namespace Counts

variable {set : Settings} {s t : System} {log : List DropEvent}

theorem panicked (h : s.Counts log) : ({ s with pc := .panicked } : System).Counts log :=
  ⟨h.accounted, h.flag, h.counter, h.lastLog, fun hne => absurd rfl hne, nofun, nofun⟩

/-- A step that neither drops nor counts, and sets up no connection. -/
theorem keep (h : s.Counts log) (hpanic : s.pc = .panicked → t.pc = .panicked)
    (hpc : t.pc.isDropping = s.pc.isDropping)
    (hconn : t.link.shared.connected = true → s.link.shared.connected = true)
    (hdropped : t.link.shared.dropped = s.link.shared.dropped)
    (hlast : t.link.shared.lastLog = s.link.shared.lastLog) : t.Counts log := by
  refine ⟨h.accounted, ?_, ?_, ?_, ?_, ?_, ?_⟩
  · rw [dropped, hdropped]
    exact fun hc => h.flag (hconn hc)
  · rw [dropped, hdropped]
    exact h.counter
  · rw [hlast]
    exact h.lastLog
  · rw [hpc]
    exact fun hne => h.calls (mt hpanic hne)
  · rw [hpc]
    intro hd hf
    have hno := h.vain hd hf
    rw [connected, Bool.eq_false_iff] at hno ⊢
    exact mt hconn hno
  · rw [hpc]
    exact h.late

theorem worker (h : s.Counts log) {i : Input} {l : Link} (hl : s.link.step set i = some l)
    (ht : t = { s with link := l, slot := s.slotAfter i }) :
    t.Counts (s.dropEvents (.worker i) t ++ log) := by
  have hshared := (Link.shared_phase_step hl).1
  cases i with
  | connAck resumed ok =>
    have hshared : t.link.shared = s.link.shared.onConnAck := by rw [ht]; exact hshared
    refine ⟨.connAck h.accounted, fun _ => ?_, ?_, ?_, fun _ => ?_, ?_, fun _ _ => ⟨rfl, rfl⟩⟩
    · rw [dropped, hshared]
      rfl
    · rw [dropped, hshared]
      rfl
    · rw [hshared]
      rfl
    · simp [dropEvents, fresh]
    · simp [dropEvents, fresh]
  | err now =>
    subst ht
    refine h.keep id rfl ?_ ?_ ?_ <;> rw [hshared, Link.sharedAfter, State.onErr]
    · split <;> simp
    · split <;> rfl
    · split <;> rfl
  | stop disconnect =>
    subst ht
    refine h.keep id rfl ?_ ?_ ?_ <;> rw [hshared]
    · exact nofun
    · rfl
    · rfl
  | _ =>
    subst ht
    refine h.keep id rfl ?_ ?_ ?_ <;> rw [hshared]
    · exact id
    · rfl
    · rfl

/-- A call that finds no connection. -/
theorem refuse (h : s.Counts log) (hpanic : s.pc ≠ .panicked) (hnot : s.pc.isDropping = false)
    (hconn : s.connected = false) (who : Caller) (calls : ℕ) :
    ({ s with calls := calls, pc := .dropping who } : System).Counts (.refused :: log) := by
  have hcalls := h.calls hpanic
  rw [hnot] at hcalls
  refine ⟨.refused h.accounted, h.flag, ?_, ?_, fun _ => ?_, fun _ _ => hconn, nofun⟩
  · rw [countedSince_refused]
    exact h.counter
  · rw [warnedSince_refused]
    exact h.lastLog
  · simpa [Pc.isDropping, fresh] using hcalls

theorem publish (h : s.Counts log) (hheld : s.Held) (hjoin : ∀ why, s.pc ≠ .joining why)
    (hpanic : s.pc ≠ .panicked) (hnot : s.pc.isDropping = false) (topic payload : String)
    (qos : QoS) (retain : Bool) (who : Caller) :
    (s.onPublish topic payload qos retain who).Counts
      ((if (s.onPublish topic payload qos retain who).pc.isDropping then [.refused] else []) ++
        log) := by
  rw [onPublish]
  split
  · refine locked_of (P := fun t => t.Counts ((if t.pc.isDropping then [.refused] else []) ++ log))
      h.panicked fun _ => ?_
    cases hconn : s.connected with
    | true => exact h.keep (fun hp => absurd hp hpanic) (by rw [hnot]; rfl) id rfl rfl
    | false => exact h.refuse hpanic hnot hconn who _
  · rename_i hworker
    have hgone := hheld.gone hjoin hpanic (by simpa using hworker)
    exact h.refuse hpanic hnot hgone.1 who _

theorem isDropping_return (g : Option Reply) (who : Caller) :
    (Caller.return g who).isDropping = false := by
  cases who <;> rfl

/-- The saturating count. -/
theorem toNat_counted {n : UInt64} {c : ℕ} (h : n.toNat = min (2 ^ 64 - 1) c) :
    (if n.toNat + 1 < UInt64.size then n + 1 else n).toNat = min (2 ^ 64 - 1) (c + 1) := by
  have hsize : UInt64.size = 2 ^ 64 := rfl
  split
  · have hadd : (n + 1).toNat = n.toNat + 1 := by
      rw [UInt64.toNat_add]
      exact Nat.mod_eq_of_lt (by simpa [hsize] using ‹n.toNat + 1 < UInt64.size›)
    omega
  · omega

/-- A warning that is due is far enough from those before it. -/
theorem apart (h : s.Counts log)
    (hdue : (s.link.shared.lastLog.all fun last =>
      decide (Duration.fromSecs dropLogSecs ≤ s.now.saturatingSub last)) = true) :
    ∀ earlier ∈ warnedSince log, earlier.nanos + 300 * 1000000000 ≤ s.now.nanos := by
  intro earlier hmem
  have hsecs : (Duration.fromSecs dropLogSecs).nanos = 300 * 1000000000 := rfl
  cases hlast : (warnedSince log).head? with
  | none =>
    rw [List.head?_eq_none_iff] at hlast
    rw [hlast] at hmem
    cases hmem
  | some last =>
    have hle := h.accounted.le_last hlast earlier hmem
    rw [h.lastLog, hlast, Option.all_some, decide_eq_true_eq, Duration.le_def, hsecs,
      Duration.nanos_saturatingSub] at hdue
    omega

/-- A drop without a warning is not the first one. -/
theorem later (h : s.Counts log)
    (hdue : ¬ (s.link.shared.lastLog.all fun last =>
      decide (Duration.fromSecs dropLogSecs ≤ s.now.saturatingSub last)) = true) :
    countedSince log ≠ 0 := by
  refine h.accounted.counted_of_warned fun hnone => hdue ?_
  rw [h.lastLog, hnone]
  rfl

theorem countDrop (h : s.Counts log) {who : Caller} (hpc : s.pc = .dropping who)
    (hfresh : fresh log = true) :
    (s.onDrop who).Counts (s.dropEvents .countDrop (s.onDrop who) ++ log) := by
  have hconn := h.vain (by rw [hpc]; rfl) hfresh
  have hcalls : refusedSince log = countedSince log + 1 := by
    simpa [hpc, hfresh, Pc.isDropping] using h.calls (by simp [hpc])
  have hcount := toNat_counted h.counter
  rw [dropEvents, onDrop]
  cases hpoison : s.poisoned with
  | true =>
    rw [locked_of_poisoned hpoison]
    exact h.panicked
  | false =>
    rw [locked_of_sound hpoison]
    generalize (if s.dropped.toNat + 1 < UInt64.size then s.dropped + 1 else s.dropped) = n
      at hcount ⊢
    have hflag : s.link.shared.connected = true → n = 0 := fun hc => by
      rw [connected, hc] at hconn
      cases hconn
    split
    · rename_i hdue
      have hevents : (s.dropLog ++ [(s.now, n)]).drop s.dropLog.length = [(s.now, n)] :=
        List.drop_left
      simp only [hevents, Bool.false_eq_true, if_false]
      refine ⟨.warned h.accounted ?_ (h.apart hdue), hflag, ?_, ?_, fun _ => ?_, ?_, ?_⟩
      · exact hcount.trans (by rw [← hcalls]; rfl)
      · exact hcount.trans (by simp)
      · simp
      · simpa [isDropping_return] using hcalls
      · simp [isDropping_return]
      · simp [isDropping_return]
    · rename_i hdue
      simp only [List.drop_length, Bool.false_eq_true, if_false]
      refine ⟨.silent h.accounted (h.later hdue), hflag, ?_, ?_, fun _ => ?_, ?_, ?_⟩
      · exact hcount.trans (by simp)
      · simpa using h.lastLog
      · simpa [isDropping_return] using hcalls
      · simp [isDropping_return]
      · simp [isDropping_return]

/-- **Every step keeps it**, as long as drops are counted promptly. -/
theorem step (h : s.Counts log) (hheld : s.Held) {a : Act} (hprompt : Prompt (s, log) a)
    (hs : s.step set a = some t) : t.Counts (s.dropEvents a t ++ log) := by
  cases moved_of_step hs with
  | worker _ hl => exact h.worker hl rfl
  | @die inClock =>
    refine h.keep id rfl ?_ ?_ ?_ <;> cases inClock
    · exact id
    · intro hup
      cases hup
    all_goals rfl
  | advance => exact h.keep id rfl id rfl rfl
  | publish hpc => exact h.publish hheld (by simp [hpc]) (by simp [hpc]) (by rw [hpc]; rfl) ..
  | goodbye hpc => exact h.publish hheld (by simp [hpc]) (by simp [hpc]) (by rw [hpc]; rfl) ..
  | countDrop hpc => exact h.countDrop hpc (hprompt rfl)
  | send hpc =>
    rw [onSend]
    split
    · exact h.keep (by simp [hpc]) (by rw [hpc]; rfl) id rfl rfl
    · exact h.keep (by simp [hpc]) (by rw [hpc, isDropping_return]; rfl) id rfl rfl
  | verdict hpc | timeout hpc =>
    exact h.keep (by simp [hpc]) (by rw [hpc, isDropping_return]; rfl) id rfl rfl
  | start hpc | stopIdle hpc => exact h.keep (by simp [hpc]) (by rw [hpc]; rfl) id rfl rfl
  | maintain hpc =>
    refine locked_of (P := fun t => t.Counts log) h.panicked fun _ => ?_
    split
    · exact h.keep (by simp [hpc]) (by rw [hpc]; rfl) id rfl rfl
    · exact h
  | maintainOff => exact h
  | stop hpc =>
    refine locked_of (P := fun t => t.Counts log) h.panicked fun _ => ?_
    refine h.keep (by simp [hpc]) ?_ id rfl rfl
    rw [hpc]
    cases s.connected <;> rfl
  | signal hpc => exact h.keep (by simp [hpc]) (by rw [hpc]; rfl) id rfl rfl
  | @tornDown why hpc | @join why hpc =>
    refine locked_of (P := fun t => t.Counts log) h.panicked fun _ => ?_
    refine h.keep (by simp [hpc]) ?_ (fun hup => by cases hup) rfl rfl
    rw [hpc]
    cases why <;> rfl
  | spawn hpc =>
    refine locked_of (P := fun t => t.Counts log) h.panicked fun _ => ?_
    split <;> exact h.keep (by simp [hpc]) (by rw [hpc]; rfl) (fun hup => by cases hup) rfl rfl

/-- A drop that a `ConnAck` has overtaken is counted for the wrong outage, and the warning says
so. -/
theorem not_accounted_of_late (h : s.Counts log) {who : Caller} (hpc : s.pc = .dropping who)
    (hlate : fresh log = false) (hpoison : s.poisoned = false) :
    ¬ Accounted (s.dropEvents .countDrop (s.onDrop who) ++ log) := by
  obtain ⟨hcounted, hwarned⟩ := h.late (by rw [hpc]; rfl) hlate
  have hrefused : refusedSince log = 0 := by
    simpa [hlate, hcounted] using h.calls (by simp [hpc])
  have hcount := toNat_counted h.counter
  have hnone : s.link.shared.lastLog = none := by rw [h.lastLog, hwarned]; rfl
  rw [dropEvents, onDrop, locked_of_sound hpoison, hnone]
  generalize (if s.dropped.toNat + 1 < UInt64.size then s.dropped + 1 else s.dropped) = n
    at hcount ⊢
  have hevents : (s.dropLog ++ [(s.now, n)]).drop s.dropLog.length = [(s.now, n)] := List.drop_left
  simp only [Option.all_none, if_true, hpoison, Bool.false_eq_true, if_false, hevents]
  intro hacc
  cases hacc with
  | warned _ hn =>
    have hn : n.toNat = min (2 ^ 64 - 1) (refusedSince log) := hn
    omega

end Counts
end System

theorem System.counts_of_reach {set : Settings} {now : Duration} {s : System}
    {log : List DropEvent}
    (h : Reach (logged (System.step set) System.dropEvents) Prompt (System.init set now, []) (s, log)) :
    s.Counts log :=
  h.logged_invariant (I := System.Counts) (fun _ _ _ => trivial) (counts_init set now)
    fun _ _ _ _ hr hi hc hs => hi.step (held_of_reach hr) hc hs

/-- **Drops are accounted for where they are counted promptly.**  In every run in which no `ConnAck`
is processed between the connection check of a call and the drop that it counts: the count is 0
while the connection is up, every warning states the number of calls dropped since the last
`ConnAck`, the first drop of every outage is logged, and warnings of one outage are at least 300
seconds apart.  The condition is exact: a drop that is counted in another way breaks this. -/
theorem drops_accounted (set : Settings) (now : Duration) (s : System) (log : List DropEvent)
    (h : Reach (logged (System.step set) System.dropEvents) Prompt (System.init set now, [])
      (s, log)) :
    ((s.connected = true → s.dropped = 0) ∧ Accounted log) ∧
      ∀ a t, s.step set a = some t → s.poisoned = false →
        ((t.connected = true → t.dropped = 0) ∧ Accounted (s.dropEvents a t ++ log) ↔
          Prompt (s, log) a) := by
  have hcounts := System.counts_of_reach h
  refine ⟨⟨hcounts.flag, hcounts.accounted⟩, fun a t hs hpoison => ⟨?_, fun hprompt => ?_⟩⟩
  · rintro ⟨-, hacc⟩ rfl
    by_contra hlate
    cases System.moved_of_step hs with
    | countDrop hpc => exact hcounts.not_accounted_of_late hpc (by simpa using hlate) hpoison hacc
  · have hafter := System.counts_of_reach (h.snoc hprompt (logged_eq_some.2 ⟨t, hs, rfl⟩))
    exact ⟨hafter.flag, hafter.accounted⟩

/-- Two drops of one outage, 400 s apart: both are logged, and the next `ConnAck` starts over. -/
def twoDrops : List Act :=
  let lost : Act := .publish "/host/oper_state/json" "{}" none none
  [.start, .signal, .spawn .ok, lost, .countDrop, .advance (.fromSecs 400), lost, .countDrop,
    .worker (.connAck [] true)]

theorem drops_accounted_twoDrops : ∃ (s : System) (log : List DropEvent),
    log = [.connAck, .warned (.fromSecs 400) 2, .counted, .refused, .warned .zero 1, .counted,
      .refused] ∧ s.dropped = 0 ∧ Accounted log := by
  have hrun : (execWhile (logged (System.step .defaults) System.dropEvents) Prompt
      (.init .defaults .zero, []) twoDrops).isSome := by decide
  obtain ⟨⟨hflag, hacc⟩, -⟩ := drops_accounted .defaults .zero _ _ (Reach.of_isSome hrun)
  exact ⟨_, _, rfl, hflag rfl, hacc⟩

/-- A call finds no connection, the worker gets one, and the call counts its drop. -/
def lateDrop : List Act :=
  [.start, .signal, .spawn .ok, .publish "/host/oper_state/json" "{}" none none,
    .worker (.connAck [] true), .countDrop]

theorem lateDrop_miscounted : ¬ ∀ (set : Settings) (now : Duration) (s : System)
    (log : List DropEvent),
    Reach (logged (System.step set) System.dropEvents) (fun _ _ => True) (System.init set now, [])
      (s, log) →
    (s.connected = true → s.dropped = 0) ∧ Accounted log := by
  intro hall
  have hrun : (execWhile (logged (System.step .defaults) System.dropEvents) (fun _ _ => True)
      (.init .defaults .zero, []) lateDrop).isSome := by decide
  obtain ⟨hflag, -⟩ := hall .defaults .zero _ _ (Reach.of_isSome hrun)
  exact absurd (hflag rfl) (by decide +revert)

end Mqtt
end SystemReport
