import SystemReport.Reporter.Budget
import SystemReport.Service.Cycle

/-!
# The life of the program

What systemd is told, and with which status the program ends.  `Phase` is what the notifications
stand for: up to `READY=1` the program is starting, and from `STOPPING=1` on it is leaving.
`lifecycle` says that the program keeps to these phases in every run, makes its reports in the middle
one and says goodbye in the last one, and why it ends.
-/

set_option autoImplicit false

open Machine

namespace SystemReport

open Mqtt Reporter Config Collectors

/-! ## Phases -/

/-- A part of the program's life. -/
inductive Phase
  | starting
  | serving
  | leaving
deriving DecidableEq

/-- Whose messages are made in a phase. -/
def Phase.caller : Phase → Option Caller
  | .starting => none
  | .serving => some .report
  | .leaving => some .goodbye

/-- The phase after an entry, if the entry belongs there. -/
def Phase.next : Phase → Entry → Option Phase
  | p, .session e => if e.call.all fun call => p.caller = some call.2 then some p else none
  | .starting, .note .ready => some .serving
  | .serving, .note .watchdog => some .serving
  | .serving, .note (.status _ _ _ _) => some .serving
  | .serving, .report _ _ => some .serving
  | .serving, .tick _ => some .serving
  | .serving, .note .stopping => some .leaving
  | _, _ => none

/-- The phase after a record, if each of its entries belongs where it is. -/
def phaseOf (log : List Entry) : Option Phase :=
  log.foldr (fun e p => p.bind fun p => p.next e) (some .starting)

@[simp] theorem phaseOf_cons (e : Entry) (log : List Entry) :
    phaseOf (e :: log) = (phaseOf log).bind fun p => p.next e := rfl

theorem phaseOf_append {log : List Entry} {p : Phase} (h : phaseOf log = some p)
    {es : List SessionEvent} (hes : ∀ e ∈ es, ∀ call, e.call = some call → p.caller = some call.2) :
    phaseOf (es.map .session ++ log) = some p := by
  induction es with
  | nil => exact h
  | cons e es ih =>
    rw [List.forall_mem_cons] at hes
    rw [List.map_cons, List.cons_append, phaseOf_cons, ih hes.2, Option.bind_some, Phase.next, if_pos]
    cases hcall : e.call with
    | none => rfl
    | some call => simpa using hes.1 call hcall

/-- The phase that a stage belongs to. -/
def Stage.phase : Stage → Phase
  | .starting | .started => .starting
  | .leaving _ | .stopped _ | .dropped _ | .ended _ => .leaving
  | _ => .serving

/-- The status that the program is about to end with. -/
def Stage.status : Stage → Option ℤ
  | .leaving status | .stopped status | .dropped status | .ended status => some status
  | _ => none

theorem Stage.phase_heard (stage : Stage) (a : Act) :
    (stage.heard a).phase = stage.phase ∧ (stage.heard a).status = stage.status := by
  cases stage with
  | publishing purpose total completed todo =>
    rcases heard_publishing purpose total completed todo a with heq | heq <;>
      rw [heq] <;>
      exact ⟨rfl, rfl⟩
  | _ => exact ⟨rfl, rfl⟩

/-! ## Who says goodbye -/

/-- The calling thread holds no worker. -/
def Mqtt.Pc.bare : Pc → Bool
  | .joining _ | .spawning => true
  | _ => false

namespace Mqtt.System

variable {set : Settings} {s t : System}

/-- Messages are made by `publish()`, for the one who calls it. -/
theorem caller_of_sessionEvents {a : Act} (hs : s.step set a = some t) {e : SessionEvent}
    (he : e ∈ s.sessionEvents a t) {m : Message} {who : Caller}
    (hcall : e.call = some (m, who)) :
    (who = .report ∧ ∃ topic payload qos retain, a = .publish topic payload qos retain) ∨
      (who = .goodbye ∧ a = .goodbye ∧ s.pc = .stopping) := by
  cases moved_of_step hs with
  | @publish topic payload qos retain =>
    rw [sessionEvents_eq hs (by simp), begins] at he
    rcases pc_onPublish s topic payload (qos.getD set.qos) (retain.getD set.retain) .report with
      hpc | hpc | hpc <;>
      simp only [hpc, Pc.outgoing, List.map_cons, List.map_nil, List.mem_singleton,
        List.not_mem_nil] at he
    subst he
    cases hcall
    exact .inl ⟨rfl, topic, payload, qos, retain, rfl⟩
  | goodbye hstopping =>
    rw [sessionEvents_eq hs (by simp), begins] at he
    rcases pc_onPublish s set.status set.offline .atLeastOnce set.statusRetain .goodbye with
      hpc | hpc | hpc <;>
      simp only [hpc, Pc.outgoing, List.map_cons, List.map_nil, List.mem_singleton,
        List.not_mem_nil] at he
    subst he
    cases hcall
    exact .inr ⟨rfl, rfl, hstopping⟩
  | @worker i =>
    rw [call_of_worker he] at hcall
    cases hcall
  | _ =>
    rw [sessionEvents_eq hs (by simp)] at he
    cases he

/-- Only `stop()` leads to the goodbye. -/
theorem stopping_of_step {a : Act} (hs : s.step set a = some t) (hpc : t.pc = .stopping) :
    a = .stop ∨ s.pc = .stopping := by
  have hlocked {u : System} (hu : u.pc ≠ .stopping) : (s.locked u).pc ≠ .stopping :=
    locked_of (P := fun u => u.pc ≠ .stopping) (fun h => by cases h) fun _ => hu
  cases moved_of_step hs with
  | worker | die | advance | maintainOff => exact .inr hpc
  | stop | stopIdle => exact .inl rfl
  | @publish topic payload qos retain =>
    rcases pc_onPublish s topic payload (qos.getD set.qos) (retain.getD set.retain) .report with
      heq | heq | heq <;>
      cases heq.symm.trans hpc
  | goodbye =>
    rcases pc_onPublish s set.status set.offline .atLeastOnce set.statusRetain .goodbye with
      heq | heq | heq <;>
      cases heq.symm.trans hpc
  | @countDrop who =>
    refine absurd hpc (hlocked ?_)
    split <;> cases who <;> exact fun h => by cases h
  | @send m who =>
    rw [onSend] at hpc
    split at hpc
    · cases hpc
    · cases who <;> cases hpc
  | @verdict _ _ who | @timeout _ who => cases who <;> cases hpc
  | start | signal => cases hpc
  | maintain hidle =>
    refine absurd hpc (hlocked ?_)
    split
    · exact fun h => by cases h
    · rw [hidle]
      exact fun h => by cases h
  | @tornDown why | @join why =>
    refine absurd hpc (hlocked ?_)
    cases why <;> exact fun h => by cases h
  | spawn =>
    refine absurd hpc (hlocked ?_)
    split <;> exact fun h => by cases h

/-- A worker that is held comes from a `start()` that succeeded. -/
structure Owned (s : System) : Prop where
  owned : s.worker = true → s.lastStart = some true
  gone : s.pc.bare = true → s.worker = false

/-- A step that keeps the worker. -/
theorem Owned.keep (h : s.Owned) (hworker : t.worker = s.worker)
    (hstart : t.lastStart = s.lastStart) (hpc : t.pc.bare = false) : t.Owned :=
  ⟨by rw [hworker, hstart]; exact h.owned, fun hgone => by rw [hpc] at hgone; cases hgone⟩

theorem owned_locked (h : s.Owned) (ht : t.Owned) : (s.locked t).Owned :=
  locked_of (P := Owned) (h.keep rfl rfl rfl) fun _ => ht

theorem owned_tornDown (h : s.Owned) (why : Why) (hworker : s.worker = false) :
    (s.onTornDown why).Owned :=
  owned_locked h ⟨h.owned, fun _ => hworker⟩

theorem owned_step (h : s.Owned) {a : Act} (hs : s.step set a = some t) : t.Owned := by
  cases moved_of_step hs with
  | worker | die | advance | maintainOff => exact ⟨h.owned, h.gone⟩
  | publish | goodbye =>
    rw [onPublish]
    split
    · refine owned_locked h (h.keep rfl rfl ?_)
      cases s.connected <;> rfl
    · exact h.keep rfl rfl rfl
  | @countDrop who =>
    refine owned_locked h ?_
    split <;> refine h.keep rfl rfl ?_ <;> cases who <;> rfl
  | @send m who =>
    rw [onSend]
    split
    · exact h.keep rfl rfl rfl
    · refine h.keep rfl rfl ?_
      cases who <;> rfl
  | @verdict _ _ who | @timeout _ who =>
    refine h.keep rfl rfl ?_
    cases who <;> rfl
  | start | stopIdle => exact h.keep rfl rfl rfl
  | maintain =>
    refine owned_locked h ?_
    split
    · exact h.keep rfl rfl rfl
    · exact h
  | stop =>
    refine owned_locked h (h.keep rfl rfl ?_)
    cases s.connected <;> rfl
  | signal => exact ⟨(fun hheld => by cases hheld), fun _ => rfl⟩
  | tornDown _ hworker => exact owned_tornDown h _ hworker
  | join hpc => exact owned_tornDown h _ (h.gone (by rw [hpc]; rfl))
  | spawn hpc =>
    have hworker := h.gone (by rw [hpc]; rfl)
    refine owned_locked h ?_
    split
    · exact ⟨fun _ => rfl, fun hgone => by cases hgone⟩
    · refine ⟨fun hheld => ?_, fun hgone => by cases hgone⟩
      rw [show s.worker = true from hheld] at hworker
      cases hworker

/-- Without a worker, `stop()` has nothing to say. -/
def Quiet (s : System) : Prop :=
  s.worker = false ∧ (s.pc = .idle ∨ s.pc = .signalling (.stop none) ∨ s.pc = .panicked)

theorem quiet_step (h : s.Quiet) {a : Act} (hs : s.step set a = some t)
    (ha : a = .stop ∨ (a.settles || a.foreign) = true) : t.Quiet := by
  obtain ⟨hworker, hpc⟩ := h
  have hlocked {u : System} (hu : u.Quiet) : (s.locked u).Quiet :=
    locked_of (P := Quiet) ⟨hworker, .inr (.inr rfl)⟩ fun _ => hu
  cases moved_of_step hs with
  | worker | die | advance => exact ⟨hworker, hpc⟩
  | stopIdle => exact ⟨hworker, .inr (.inl rfl)⟩
  | @tornDown why hat =>
    rw [hat] at hpc
    obtain rfl : why = .stop none := by simpa using hpc
    exact hlocked ⟨hworker, .inl rfl⟩
  | stop _ hheld | signal _ hheld =>
    rw [hworker] at hheld
    cases hheld
  | publish | start | maintain | maintainOff => simp [Act.settles, Act.foreign] at ha
  | goodbye hat | countDrop hat | send hat | verdict hat | timeout hat | join hat | spawn hat =>
    rw [hat] at hpc
    simp at hpc

end Mqtt.System

/-! ## What holds after every step -/

/-- Which calls of `tick` succeeded. -/
def outcomesIn (log : List Entry) : List Bool := (ticksIn log).map fun e => decide (e ≠ .failed)

@[simp] theorem outcomesIn_tick (e : Reporter.Event) (log : List Entry) :
    outcomesIn (.tick e :: log) = outcomesIn log ++ [decide (e ≠ .failed)] := by
  simp [outcomesIn]

@[simp] theorem outcomesIn_note (n : Note) (log : List Entry) :
    outcomesIn (.note n :: log) = outcomesIn log := rfl

@[simp] theorem outcomesIn_report (host : Host) (messages : List (String × String))
    (log : List Entry) : outcomesIn (.report host messages :: log) = outcomesIn log := rfl

@[simp] theorem outcomesIn_append (es : List SessionEvent) (log : List Entry) :
    outcomesIn (es.map .session ++ log) = outcomesIn log := by
  rw [outcomesIn, ticksIn_append, outcomesIn]

/-- `--once` is at work. -/
def Stage.isOnce : Stage → Bool
  | .awaiting _ | .dozing _ _ _ | .reporting .once | .publishing .once _ _ _ => true
  | _ => false

theorem Stage.isOnce_heard (stage : Stage) (a : Act) : (stage.heard a).isOnce = stage.isOnce := by
  cases stage with
  | publishing purpose total completed todo =>
    rcases heard_publishing purpose total completed todo a with heq | heq
    · rw [heq]
    · rw [heq]
      cases purpose <;> rfl
  | _ => rfl

namespace Service

variable {job : Job} {s t : Service}

/-- Why the program ends with a status: with 0 when it is told to stop or has made its one report,
and with 1 when it could not start, or when too many cycles have failed in a row. -/
def Excused (job : Job) (s : Service) (status : ℤ) : Prop :=
  (status = 0 ∧ (s.stop = true ∨ job.once.isSome = true)) ∨
    (status = 1 ∧ phaseOf s.log = some .starting) ∨
    (status = 1 ∧ maxConsecutiveCycleFailures.toNat ≤ streak (outcomesIn s.log))

/-- The count of failures is right, and does not end the program yet. -/
def GoesOn (s : Service) : Prop :=
  s.reporter.failures.toNat = streak (outcomesIn s.log) ∧
    streak (outcomesIn s.log) < maxConsecutiveCycleFailures.toNat

/-- What holds after every step. -/
structure Lives (job : Job) (s : Service) : Prop where
  owned : s.system.Owned
  /-- a program that could not start leaves without a word -/
  phase : phaseOf s.log = some s.stage.phase ∨
    s.stage.phase = .leaving ∧ phaseOf s.log = some .starting ∧ s.system.Quiet
  stopping : s.stage.phase ≠ .leaving → s.system.pc ≠ .stopping
  once : s.stage.isOnce = true → job.once.isSome = true
  goesOn : s.stage.status = none → s.GoesOn
  status : ∀ status, s.stage.status = some status → s.Excused job status

namespace Lives

theorem phase_eq (h : s.Lives job) (hstage : s.stage.phase ≠ .leaving) :
    phaseOf s.log = some s.stage.phase :=
  h.phase.resolve_right fun h => hstage h.1

/-- On to another stage in the middle of the program's life. -/
theorem serve (h : s.Lives job) (hsystem : t.system = s.system) (hidle : s.system.pc = .idle)
    (hphase : phaseOf t.log = some .serving) (ht : t.stage.phase = .serving)
    (hstatus : t.stage.status = none) (honce : t.stage.isOnce = true → job.once.isSome = true)
    (hgoesOn : t.GoesOn) : t.Lives job where
  owned := hsystem ▸ h.owned
  phase := .inl (by rw [hphase, ht])
  stopping _ hpc := by rw [hsystem, hidle] at hpc; cases hpc
  once := honce
  goesOn _ := hgoesOn
  status status hst := by rw [hstatus] at hst; cases hst

/-- The end of it. -/
theorem leaves (h : s.Lives job) {status : ℤ} (hphase : phaseOf t.log = some .serving)
    (hsystem : t.system = s.system) (hexcused : (t.leave status).Excused job status) :
    (t.leave status).Lives job where
  owned := hsystem ▸ h.owned
  phase := .inl (by rw [leave, note, phaseOf_cons, hphase]; rfl)
  stopping hne := absurd rfl hne
  once honce := by cases honce
  goesOn hst := by cases hst
  status status' hst := by cases hst; exact hexcused

/-- A success starts the count again. -/
theorem goesOn_succeed (r : Reporter) (e : Reporter.Event) (he : e ≠ .failed) :
    (s.succeed r e).GoesOn := by
  simp [GoesOn, succeed, he, maxConsecutiveCycleFailures]

/-- A failure counts, and may be one too many. -/
theorem fail (h : s.Lives job) (hidle : s.system.pc = .idle) (hstage : s.stage.phase = .serving)
    (hstatus : s.stage.status = none) : s.fail.Lives job := by
  have hphase : phaseOf (.tick .failed :: s.log) = some .serving := by
    rw [phaseOf_cons, h.phase_eq (by rw [hstage]; decide), hstage]
    rfl
  obtain ⟨hcount, hlow⟩ := h.goesOn hstatus
  have hmax : maxConsecutiveCycleFailures.toNat = 5 := rfl
  have hnext : (s.reporter.failures + 1).toNat = streak (outcomesIn s.log) + 1 := by
    rw [UInt32.toNat_add, hcount, UInt32.toNat_one]
    omega
  have hstreak : streak (outcomesIn (.tick .failed :: s.log)) = streak (outcomesIn s.log) + 1 := by
    simp
  rw [Service.fail]
  split
  · rename_i hlt
    rw [UInt32.lt_iff_toNat_lt] at hlt
    refine h.serve rfl hidle hphase rfl rfl (fun honce => by cases honce) ⟨?_, ?_⟩
    · exact hnext.trans hstreak.symm
    · exact (hstreak.trans hnext.symm).trans_lt hlt
  · rename_i hge
    rw [UInt32.lt_iff_toNat_lt] at hge
    refine h.leaves hphase rfl (.inr (.inr ⟨rfl, ?_⟩))
    change maxConsecutiveCycleFailures.toNat ≤ streak (outcomesIn (.tick .failed :: s.log))
    omega

theorem plain (h : s.Lives job) (hidle : s.system.pc = .idle) (hplain : Plain job s t) :
    t.Lives job := by
  have hserving (hstage : s.stage.phase = .serving) : phaseOf s.log = some .serving := by
    rw [h.phase_eq (by rw [hstage]; decide), hstage]
  cases hplain with
  | ready hstage hstart honce =>
    have hphase := h.phase_eq (by rw [hstage]; decide)
    rw [hstage] at hphase
    exact h.serve rfl hidle (by rw [note, phaseOf_cons, hphase]; rfl) rfl rfl (fun h => by cases h)
      (h.goesOn (by rw [hstage]; rfl))
  | readyOnce hstage hstart honce =>
    have hphase := h.phase_eq (by rw [hstage]; decide)
    rw [hstage] at hphase
    exact h.serve rfl hidle (by rw [note, phaseOf_cons, hphase]; rfl) rfl rfl (fun _ => honce)
      (h.goesOn (by rw [hstage]; rfl))
  | refused hstage hstart =>
    have hphase := h.phase_eq (by rw [hstage]; decide)
    rw [hstage] at hphase
    have hworker : s.system.worker = false := by
      by_contra hheld
      exact hstart (h.owned.owned (by simpa using hheld))
    exact ⟨h.owned, .inr ⟨rfl, hphase, hworker, .inl hidle⟩, fun hne => absurd rfl hne,
      fun honce => (by cases honce), fun hst => (by cases hst),
      fun status hst => by cases hst; exact .inr (.inl ⟨rfl, hphase⟩)⟩
  | quit hstage hstop =>
    exact h.leaves (hserving (by rw [hstage]; rfl)) rfl (.inl ⟨rfl, .inl hstop⟩)
  | failed hstage => exact h.fail hidle (by rw [hstage]; rfl) (by rw [hstage]; rfl)
  | due hstage | connected hstage | skips hstage | woken hstage =>
    exact h.serve rfl hidle (hserving (by rw [hstage]; rfl)) rfl rfl (fun h => by cases h)
      (h.goesOn (by rw [hstage]; rfl))
  | early hstage | waits hstage =>
    exact h.serve rfl hidle (by rw [succeed, phaseOf_cons, hserving (by rw [hstage]; rfl)]; rfl) rfl
      rfl (fun h => by cases h) (goesOn_succeed _ _ (by simp))
  | @report purpose _ _ _ hstage =>
    refine h.serve rfl hidle (by rw [phaseOf_cons, hserving (by rw [hstage]; rfl)]; rfl) rfl rfl
      (fun honce => h.once ?_) (h.goesOn (by rw [hstage]; rfl))
    rw [hstage]
    cases purpose with
    | cycle => cases honce
    | once => rfl
  | reported hstage =>
    exact h.serve rfl hidle (by rw [note, phaseOf_cons, hserving (by rw [hstage]; rfl)]; rfl) rfl rfl
      (fun h => by cases h) (h.goesOn (by rw [hstage]; rfl))
  | reportedOnce hstage =>
    exact h.leaves (by rw [note, phaseOf_cons, hserving (by rw [hstage]; rfl)]; rfl) rfl
      (.inl ⟨rfl, .inr (h.once (by rw [hstage]; rfl))⟩)
  | @scheduled due reported hstage =>
    refine h.serve rfl hidle (by rw [succeed, phaseOf_cons, hserving (by rw [hstage]; rfl)]; rfl)
      rfl rfl (fun h => by cases h) (goesOn_succeed _ _ ?_)
    cases reported <;> simp
  | pauses hstage =>
    exact h.serve rfl hidle (by rw [note, phaseOf_cons, hserving (by rw [hstage]; rfl)]; rfl) rfl rfl
      (fun h => by cases h) (h.goesOn (by rw [hstage]; rfl))
  | polls hstage =>
    exact h.serve rfl hidle (by rw [note, phaseOf_cons, hserving (by rw [hstage]; rfl)]; rfl) rfl rfl
      (fun _ => h.once (by rw [hstage]; rfl)) (h.goesOn (by rw [hstage]; rfl))
  | interrupted hstage hstop =>
    exact h.leaves (hserving (by rw [hstage]; rfl)) rfl (.inl ⟨rfl, .inl hstop⟩)
  | found hstage | dozed hstage =>
    exact h.serve rfl hidle (hserving (by rw [hstage]; rfl)) rfl rfl
      (fun _ => h.once (by rw [hstage]; rfl)) (h.goesOn (by rw [hstage]; rfl))
  | @ended status hstage =>
    have hphase := h.phase
    rw [hstage] at hphase
    exact ⟨h.owned, hphase, fun hne => absurd rfl hne,
      fun honce => (by cases honce), fun hst => (by cases hst),
      fun status' hst => h.status status' (by rw [hstage]; exact hst)⟩
  | poisoned hstage =>
    have hserve : s.stage.phase = .serving ∧ s.stage.status = none := by
      cases hs : s.stage with
      | due | publishing | awaiting => exact ⟨rfl, rfl⟩
      | _ =>
        rw [hs] at hstage
        cases hstage
    exact h.serve rfl hidle (hserving hserve.1) rfl rfl (fun h => by cases h) (h.goesOn hserve.2)

theorem call (h : s.Lives job) (hidle : s.system.pc = .idle) {a : Act} {next : System → Stage}
    {system : System} (hcalls : Calls s.stop s.stage a next)
    (hs : s.system.step job.set a = some system) : (s.after a system (next system)).Lives job := by
  have howned := System.owned_step h.owned hs
  have hstopping (ha : a ≠ .stop) : system.pc ≠ .stopping := fun hpc => by
    rcases System.stopping_of_step hs hpc with rfl | hpc
    · exact ha rfl
    · rw [hidle] at hpc
      cases hpc
  have hphase := h.phase
  have hgoesOn := h.goesOn
  have hstatus := h.status
  have honce := h.once
  have hserving {p : Phase} (hp : p ≠ .leaving)
      (h : phaseOf s.log = some p ∨
        p = .leaving ∧ phaseOf s.log = some .starting ∧ s.system.Quiet) :
      phaseOf s.log = some p := h.resolve_right fun h => hp h.1
  generalize s.stage = stage at hcalls hphase hgoesOn hstatus honce
  cases hcalls with
  | start | maintain =>
    have hlog := log_after hs (by simp) rfl
    refine ⟨howned, .inl ?_, fun _ => hstopping (by simp), (fun honce => by cases honce),
      fun _ => ?_, fun status hst => by cases hst⟩
    · rw [hlog]
      exact hserving (fun h => by cases h) hphase
    · rw [GoesOn, hlog]
      exact hgoesOn rfl
  | @publish purpose =>
    refine ⟨howned, .inl ?_, fun _ => hstopping (by simp), fun h => honce ?_, fun _ => ?_,
      fun status hst => by cases hst⟩
    · refine phaseOf_append (hserving (fun h => by cases h) hphase) fun e he call hcall => ?_
      rcases System.caller_of_sessionEvents hs he hcall with ⟨hwho, -⟩ | ⟨-, ha, -⟩
      · rw [hwho]
        rfl
      · cases ha
    · cases purpose with
      | cycle => cases h
      | once => rfl
    · rw [GoesOn, after, outcomesIn_append]
      exact hgoesOn rfl
  | stop | drop =>
    have hlog := log_after hs (by simp) rfl
    refine ⟨howned, ?_, fun hne => absurd rfl hne, (fun honce => by cases honce),
      (fun hst => by cases hst), fun status hst => ?_⟩
    · rw [hlog]
      exact hphase.imp_right fun h => ⟨rfl, h.2.1, System.quiet_step h.2.2 hs (.inl rfl)⟩
    · rw [Excused, hlog]
      exact hstatus status hst

/-- A step within a call, of the network thread, or of time. -/
theorem publisher (h : s.Lives job) {a : Act} {system : System}
    (ha : (a.settles || a.foreign) = true) (hs : s.system.step job.set a = some system) :
    (s.after a system (s.stage.heard a)).Lives job := by
  obtain ⟨hphase, hstatus⟩ := Stage.phase_heard s.stage a
  -- the goodbye is the only message that can be made here
  have hkeep : phaseOf (s.after a system (s.stage.heard a)).log = phaseOf s.log := by
    obtain ⟨p, hp, hgoodbye⟩ : ∃ p, phaseOf s.log = some p ∧
        (s.system.pc = .stopping → p.caller = some .goodbye) := by
      rcases h.phase with hp | ⟨-, hp, -, hpc⟩
      · refine ⟨_, hp, fun hpc => ?_⟩
        by_cases hleaving : s.stage.phase = .leaving
        · rw [hleaving]
          rfl
        · exact absurd hpc (h.stopping hleaving)
      · refine ⟨_, hp, fun hstopping => ?_⟩
        rw [hstopping] at hpc
        simp at hpc
    rw [hp]
    refine phaseOf_append hp fun e he call hcall => ?_
    rcases System.caller_of_sessionEvents hs he hcall with ⟨-, _, _, _, _, rfl⟩ | ⟨hwho, -, hpc⟩
    · cases ha
    · rw [hgoodbye hpc, hwho]
  have houtcomes : outcomesIn (s.after a system (s.stage.heard a)).log = outcomesIn s.log :=
    outcomesIn_append _ _
  refine ⟨System.owned_step h.owned hs, ?_, fun hne hpc => ?_, fun honce => ?_, fun hst => ?_,
    fun status hst => ?_⟩
  · rw [hkeep]
    exact h.phase.imp (fun hp => hp.trans (congrArg some hphase.symm))
      fun ⟨hleaving, hp, hquiet⟩ =>
        ⟨hphase.trans hleaving, hp, System.quiet_step hquiet hs (.inr ha)⟩
  · rcases System.stopping_of_step hs hpc with rfl | hpc
    · cases ha
    · exact h.stopping (fun hleaving => hne (hphase.trans hleaving)) hpc
  · rw [after, Stage.isOnce_heard] at honce
    exact h.once honce
  · rw [GoesOn, houtcomes]
    exact h.goesOn (hstatus ▸ hst)
  · rw [Excused, hkeep, houtcomes]
    exact h.status status (hstatus ▸ hst)

theorem step (h : s.Lives job) {m : Move} (hs : Went job s m t) : t.Lives job := by
  cases hs with
  | publisher ha hs => exact h.publisher ha hs
  | signal =>
    refine ⟨h.owned, h.phase, h.stopping, h.once, h.goesOn, fun status hst => ?_⟩
    exact (h.status status hst).imp_left fun hzero => ⟨hzero.1, .inl rfl⟩
  | call hidle hcalls hs => exact h.call hidle hcalls hs
  | plain hidle hplain => exact h.plain hidle hplain

end Lives

theorem lives_of_reach {r : Reporter} {built epoch now : Duration} {C : Service → Move → Prop}
    (haccepted : Accepted job.platform r.cfg) (hfailures : r.failures = 0)
    (h : Reach (Service.step job) C (init job r built epoch now) s) : s.Lives job := by
  induction h with
  | refl =>
    have hzero : (0 : ℕ) < maxConsecutiveCycleFailures.toNat := by decide
    exact ⟨⟨fun h => (by cases h), fun h => (by cases h)⟩, .inl rfl, fun _ h => (by cases h),
      fun h => (by cases h), fun _ => ⟨congrArg UInt32.toNat hfailures, hzero⟩,
      fun _ h => (by cases h)⟩
  | snoc hr _ hs ih => exact ih.step (went_of_reach haccepted hr hs)

end Service

/-- **The program keeps to the phases of its life.**  In every run it makes no message before
`READY=1`, reports and ticks only between `READY=1` and `STOPPING=1`, and only says goodbye after
that; a program that cannot start says neither.  It goes on as long as the latest failures in a row
are fewer than five, and it ends with 0 only if it was told to stop or has made its one report, and
with 1 only if it could not start or five cycles in a row have failed. -/
theorem lifecycle (lib : SerdeYaml) (job : Job) (yaml hostname : String) (env : Env)
    (cfg : Config) (hcfg : fromYaml lib job.platform yaml hostname env = .ok cfg)
    (built epoch now : Duration) (r : Reporter)
    (hr : withIo cfg (now.saturatingSub epoch) = .ok r) (s : Service)
    (hs : Reachable (Service.step job) (.init job r built epoch now) s) :
    (phaseOf s.log = some s.stage.phase ∨
      s.stage.phase = .leaving ∧ phaseOf s.log = some .starting) ∧
    (s.stage.status = none → streak (outcomesIn s.log) < maxConsecutiveCycleFailures.toNat) ∧
    ∀ status, s.stage.status = some status →
      (status = 0 ∧ (s.stop = true ∨ job.once.isSome = true)) ∨
      (status = 1 ∧ (phaseOf s.log = some .starting ∨
        maxConsecutiveCycleFailures.toNat ≤ streak (outcomesIn s.log))) := by
  obtain ⟨haccepted, -⟩ := accepted_of_fromYaml hcfg
  obtain ⟨rfl, -⟩ := follows_of_withIo hr
  have h := Service.lives_of_reach haccepted (counts_of_withIo hr).1 hs
  refine ⟨h.phase.imp_right fun h => ⟨h.1, h.2.1⟩, fun hst => (h.goesOn hst).2, fun status hst => ?_⟩
  rcases h.status status hst with hzero | ⟨hone, hstart⟩ | ⟨hone, hfailed⟩
  · exact .inl hzero
  · exact .inr ⟨hone, .inl hstart⟩
  · exact .inr ⟨hone, .inr hfailed⟩

/-- A report is made, and a signal ends the program. -/
theorem lifecycle_served : ∃ cfg r s,
    fromYaml .defaultsOnly .empty "" "host" (fun _ => none) = .ok cfg ∧
      withIo cfg .zero = .ok r ∧
      Reachable (Service.step loopJob) (.init loopJob r .zero .zero .zero) s ∧
      s.stage = .leaving 0 ∧ (reportsIn s.log).length = 1 ∧ .note .ready ∈ s.log ∧
      s.log.head? = some (.note .stopping) ∧ phaseOf s.log = some .leaving ∧
      (s.stop = true ∨ loopJob.once.isSome = true) := by
  obtain ⟨cfg, r, hcfg, hr, hrcfg, -, haccepted, -, hnext, -, hreports⟩ := withIo_defaultsOnly
  obtain ⟨messages, es, s, hs, hstage, -, -, hlog⟩ :=
    Service.reach_served loopJob r (hrcfg ▸ haccepted) rfl hnext hreports
  obtain ⟨hphase, -, hstatus⟩ := lifecycle .defaultsOnly loopJob "" "host" _ cfg hcfg .zero .zero .zero
    r hr s hs
  have hzero : s.stage.status = some 0 := by rw [hstage]; rfl
  -- `STOPPING=1` does not lead back to the start
  have hleaving : phaseOf s.log = some .leaving := by
    rcases hphase with hphase | ⟨-, hphase⟩
    · rw [hphase, hstage]
      rfl
    · rw [hlog, List.cons_append, phaseOf_cons] at hphase
      obtain ⟨p, -, hp⟩ := Option.bind_eq_some_iff.1 hphase
      cases p <;> cases hp
  have hmade : reportsIn s.log = [messages] := by
    rw [hlog]
    exact reportsIn_append _ es
  exact ⟨cfg, r, s, hcfg, hr, hs, hstage, by rw [hmade]; rfl, by rw [hlog]; simp,
    by rw [hlog]; rfl, hleaving, by simpa using hstatus 0 hzero⟩

end SystemReport
