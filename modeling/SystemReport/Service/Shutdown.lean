import Mathlib.Data.List.Perm.Subperm
import SystemReport.Collectors.Exact
import SystemReport.Mqtt.Recovery
import SystemReport.Service.Lifecycle

/-!
# Shutting down

Once a signal has arrived, the program ends: it finishes what it is doing, which may be a report,
says goodbye and joins the network thread.  `shutdown_bounded` says that nothing the network, the
clock or further signals do can put that off: at most a certain number of steps of the program are
left, which depends on the number of configured fields alone, and each of them can be taken.
-/

set_option autoImplicit false

open Machine

namespace SystemReport

open Mqtt Reporter Config Collectors

/-! ## Who ends a run in a panic -/

namespace Mqtt.System

variable {set : Settings} {s t : System}

/-- Only a poisoned lock makes the calling thread panic. -/
def Blames (s : System) : Prop := s.pc = .panicked → s.poisoned = true

theorem blames_locked (hs : t.pc ≠ .panicked) : (s.locked t).Blames := by
  rw [locked]
  split
  · exact fun _ => ‹_›
  · exact fun hpc => absurd hpc hs

theorem blames_step {a : Act} (h : s.Blames) (hs : s.step set a = some t) : t.Blames := by
  cases moved_of_step hs with
  | worker | advance | maintainOff => exact h
  | die => exact fun hpc => by simp [onDie, h hpc]
  | publish | goodbye =>
    rw [onPublish]
    split
    · refine blames_locked ?_
      cases s.connected <;> exact fun h => by cases h
    · exact fun h => by cases h
  | @countDrop who =>
    refine blames_locked ?_
    split <;> cases who <;> exact fun h => by cases h
  | @send m who =>
    rw [onSend]
    split
    · exact fun h => by cases h
    · cases who <;> exact fun h => by cases h
  | @verdict _ _ who | @timeout _ who => cases who <;> exact fun h => by cases h
  | start | stopIdle | signal => exact fun h => by cases h
  | maintain hpc =>
    refine blames_locked ?_
    split
    · exact fun h => by cases h
    · rw [hpc]
      exact fun h => by cases h
  | stop =>
    refine blames_locked ?_
    cases s.connected <;> exact fun h => by cases h
  | @tornDown why | @join why =>
    refine blames_locked ?_
    cases why <;> exact fun h => by cases h
  | spawn =>
    refine blames_locked ?_
    split <;> exact fun h => by cases h

/-- A lock that is poisoned stays so. -/
theorem poisoned_of_step {a : Act} (h : s.poisoned = true) (hs : s.step set a = some t) :
    t.poisoned = true := by
  have hlocked {u : System} : (s.locked u).poisoned = true := by
    rw [locked_of_poisoned h]
    exact h
  cases moved_of_step hs with
  | die => simp [onDie, h]
  | publish | goodbye =>
    rw [onPublish]
    split
    · exact hlocked
    · exact h
  | send =>
    rw [onSend]
    split <;> exact h
  | countDrop | maintain | stop | tornDown | join | spawn => exact hlocked
  | worker | advance | verdict | timeout | start | maintainOff | stopIdle | signal => exact h

theorem blames_of_reach {now : Duration} (h : Reachable (step set) (init set now) s) : s.Blames :=
  h.invariant (fun hpc => by cases hpc) fun _ _ _ hi _ hs => blames_step hi hs

/-- A step of the network or of time does not move the calling thread. -/
theorem pc_of_foreign {a : Act} (hforeign : a.foreign = true)
    (hs : s.step set a = some t) : t.pc = s.pc := by
  cases moved_of_step hs with
  | worker | die | advance => rfl
  | _ => cases hforeign

end Mqtt.System

/-! ## How far the program is -/

/-- A step of the program: of the main thread, or the one of the network thread that it waits for. -/
def Move.isOwn : Move → Bool
  | .publisher a => a.settles
  | .go _ => true
  | .signal => false

/-- How many steps the main thread takes at most outside of calls, once it is to stop, if a report
has at most `n` messages. -/
def Stage.left (n : ℕ) : Stage → ℕ
  | .ended _ | .panicked => 0
  | .dropped _ => 1
  | .stopped _ => 2
  | .leaving _ => 3
  | .looping | .awaiting _ => 4
  | .waiting _ _ | .dozing _ _ _ | .started => 5
  | .ticked | .starting => 6
  | .scheduling _ _ => 7
  | .publishing _ _ _ todo => 8 + todo.length
  | .reporting _ => 9 + n
  | .due _ => 10 + n
  | .maintained _ => 11 + n

theorem Stage.left_heard (n : ℕ) (stage : Stage) (a : Act) :
    (stage.heard a).left n = stage.left n := by
  cases stage with
  | publishing purpose total completed todo =>
    rcases heard_publishing purpose total completed todo a with heq | heq
    · rw [heq]
    · rw [heq]
      rfl
  | _ => rfl

namespace Service

variable {job : Job} {s t : Service} {n : ℕ}

/-- The rank of the program: what is left of the running call, and at most seven steps for each that
the main thread takes outside of calls. -/
def left (n : ℕ) (s : Service) : ℕ :=
  if s.system.pc = .panicked then 0 else 7 * s.stage.left n + s.system.left

/-- What holds after every step, if a report has at most `n` messages. -/
structure Steady (job : Job) (n : ℕ) (s : Service) : Prop where
  signalled : s.system.Signalled
  held : s.system.Held
  blames : s.system.Blames
  /-- only a poisoned lock makes the main thread panic -/
  stage : s.stage = .panicked → s.system.poisoned = true
  accepted : Accepted job.platform s.reporter.cfg
  bounded : ∀ host snapshot messages, collect s.reporter.cfg host = .ok snapshot →
    messagesFor job.platform s.reporter.cfg snapshot = .ok messages → messages.length ≤ n
  todo : s.stage.todo.length ≤ n

/-- What holds once the program is to stop. -/
structure Ending (job : Job) (n : ℕ) (s : Service) : Prop extends Steady job n s where
  stop : s.stop = true

/-- A step outside of the calls panics in a lock section only, and makes at most one report. -/
theorem Steady.plain (h : s.Steady job n) (hplain : Plain job s t) :
    (t.stage = .panicked → s.system.poisoned = true) ∧ t.stage.todo.length ≤ n := by
  cases hplain with
  | poisoned _ hpoisoned => exact ⟨fun _ => hpoisoned, Nat.zero_le _⟩
  | report _ hcollect hmessages =>
    exact ⟨(fun hpanic => by cases hpanic), h.bounded _ _ _ hcollect hmessages⟩
  | failed =>
    rw [fail]
    split <;> exact ⟨(fun hpanic => by cases hpanic), Nat.zero_le _⟩
  | _ => exact ⟨(fun hpanic => by cases hpanic), Nat.zero_le _⟩

theorem Steady.step (h : s.Steady job n) {m : Move} (hwent : Went job s m t) :
    t.Steady job n := by
  obtain ⟨-, hcfg, -⟩ := hwent.frame
  have haccepted : Accepted job.platform t.reporter.cfg := by rw [hcfg]; exact h.accepted
  have hbounded : ∀ host snapshot messages, collect t.reporter.cfg host = .ok snapshot →
      messagesFor job.platform t.reporter.cfg snapshot = .ok messages → messages.length ≤ n := by
    rw [hcfg]
    exact h.bounded
  have hpoisoned : s.system.poisoned = true → t.system.poisoned = true := fun hp => by
    rcases hwent.system with ⟨hsystem, -⟩ | ⟨a, hs, -⟩
    · rw [hsystem, hp]
    · exact System.poisoned_of_step hp hs
  have hstage : (t.stage = .panicked → s.system.poisoned = true) ∧ t.stage.todo.length ≤ n := by
    cases hwent with
    | signal => exact ⟨h.stage, h.todo⟩
    | plain _ hplain => exact h.plain hplain
    | @publisher a =>
      refine ⟨fun hpanic => h.stage ?_, ?_⟩
      · cases hs : s.stage with
        | panicked => rfl
        | publishing purpose total completed todo =>
          rcases Stage.heard_publishing purpose total completed todo a with heq | heq <;>
            simp [after, hs, heq] at hpanic
        | _ => simp [after, hs, Stage.heard] at hpanic
      · rw [after, Stage.todo_heard]
        exact h.todo
    | call _ hcalls =>
      have htodo := h.todo
      generalize s.stage = stage at hcalls htodo
      cases hcalls with
      | publish => exact ⟨(fun h => by cases h), (Nat.le_succ _).trans htodo⟩
      | start | maintain | stop | drop => exact ⟨(fun h => by cases h), Nat.zero_le _⟩
  have hpanic := fun hpanic => hpoisoned (hstage.1 hpanic)
  rcases hwent.system with ⟨hsystem, -⟩ | ⟨a, hs, -⟩
  · exact ⟨hsystem ▸ h.signalled, hsystem ▸ h.held, hsystem ▸ h.blames, hpanic, haccepted, hbounded,
      hstage.2⟩
  · exact ⟨h.signalled.step h.held hs, System.held_step h.held hs,
      System.blames_step h.blames hs, hpanic, haccepted, hbounded, hstage.2⟩

/-- The flag is never taken back. -/
theorem Ending.step (h : s.Ending job n) {m : Move} (hwent : Went job s m t) : t.Ending job n := by
  refine ⟨h.toSteady.step hwent, ?_⟩
  cases hwent with
  | publisher | call => exact h.stop
  | signal => rfl
  | plain _ hplain => rw [hplain.frame.2.2.1, h.stop]

/-- A step outside of the calls. -/
theorem left_lt_of_plain (h : s.Ending job n) (hplain : Plain job s t) :
    t.stage.left n < s.stage.left n := by
  cases hplain with
  | report hstage hcollect hmessages =>
    have := h.bounded _ _ _ hcollect hmessages
    simp only [hstage, Stage.left]
    omega
  | failed hstage =>
    have hleft : s.stage.left n = 11 + n := by rw [hstage]; rfl
    rw [fail, hleft]
    split
    · exact show 6 < 11 + n by omega
    · exact show 3 < 11 + n by omega
  | polls _ _ _ hstop | found _ hstop =>
    rw [h.stop] at hstop
    cases hstop
  | poisoned hstage =>
    cases hs : s.stage with
    | due | publishing | awaiting =>
      simp only [Stage.left]
      omega
    | _ =>
      rw [hs] at hstage
      cases hstage
  | ready hstage | readyOnce hstage | refused hstage | quit hstage | due hstage | early hstage
  | connected hstage | skips hstage | waits hstage | reported hstage | reportedOnce hstage
  | scheduled hstage | pauses hstage | woken hstage | interrupted hstage | dozed hstage
  | ended hstage =>
    simp only [hstage, Stage.left, succeed, leave, note, List.length_nil]
    omega

/-- A step that calls a method of the publisher. -/
theorem left_lt_of_calls (h : s.Ending job n) {a : Act} {next : System → Stage}
    (hcalls : Calls s.stop s.stage a next) (system : System) :
    (next system).left n < s.stage.left n := by
  rw [h.stop] at hcalls
  generalize s.stage = stage at hcalls
  cases hcalls with
  | maintain hstop => cases hstop
  | start | stop | drop => simp [Stage.left]
  | publish => simp [Stage.left]

/-- What is left in the state `s`, as long as the calling thread has not panicked. -/
theorem left_le (s : Service) : left n s ≤ 7 * s.stage.left n + s.system.left := by
  rw [left]
  split
  · exact Nat.zero_le _
  · exact le_rfl

theorem left_eq (h : s.system.pc ≠ .panicked) : left n s = 7 * s.stage.left n + s.system.left :=
  if_neg h

/-- **A step of the program brings its end closer.** -/
theorem left_lt (h : s.Ending job n) {m : Move} (hm : m.isOwn = true) (hwent : Went job s m t) :
    left n t < left n s := by
  cases hwent with
  | @publisher a system ha hs =>
    have hlt := System.left_lt h.signalled hm hs
    have hpc : s.system.pc ≠ .panicked := by
      intro hpc
      rw [System.left_eq hpc rfl] at hlt
      exact absurd hlt (Nat.not_lt_zero _)
    refine (left_le _).trans_lt ?_
    rw [left_eq hpc, after, Stage.left_heard]
    exact Nat.add_lt_add_left hlt _
  | signal => cases hm
  | @call _ a next system hidle hcalls hs =>
    have hlt := left_lt_of_calls h hcalls system
    have hcall := system.left_le
    refine (left_le _).trans_lt ?_
    rw [left_eq (by rw [hidle]; simp), System.left_eq hidle rfl]
    change 7 * (next system).left n + system.left < _
    omega
  | plain hidle hplain =>
    have hlt := left_lt_of_plain h hplain
    refine (left_le _).trans_lt ?_
    rw [left_eq (by rw [hidle]; simp), hplain.frame.1]
    omega

/-- **Nobody else puts it off.** -/
theorem left_le_of_other {m : Move} (hm : m.isOwn = false) (hwent : Went job s m t) :
    left n t ≤ left n s := by
  cases hwent with
  | @publisher a system ha hs =>
    have ha : a.foreign = true := by
      rw [show a.settles = false from hm] at ha
      exact ha
    have hle := System.left_le_of_foreign ha hs
    rw [left, left, after, System.pc_of_foreign ha hs, Stage.left_heard]
    split
    · exact le_rfl
    · exact Nat.add_le_add_left hle _
  | signal => exact le_rfl
  | call | plain => cases hm

/-- A call of the main thread is possible whenever no other one is running. -/
theorem exists_call (hidle : s.system.pc = .idle) {a : Act}
    (ha : a = .start ∨ a = .stop ∨ ∃ topic payload, a = .publish topic payload none none)
    (next : System → Stage) : ∃ t, s.call job a next = some t := by
  rcases ha with rfl | rfl | ⟨topic, payload, rfl⟩
  · exact ⟨_, by rw [call, System.step, if_pos hidle]; rfl⟩
  · cases hworker : s.system.worker with
    | true => exact ⟨_, by rw [call, System.step, if_pos hidle, if_pos hworker]; rfl⟩
    | false => exact ⟨_, by rw [call, System.step, if_pos hidle, hworker]; rfl⟩
  · exact ⟨_, by rw [call, System.step, if_pos hidle]; rfl⟩

/-- Outside of the calls, the main thread is never held up once it is to stop. -/
theorem exists_go (h : s.Ending job n) (hidle : s.system.pc = .idle)
    (hleft : s.stage.left n ≠ 0) : ∃ t, s.step job (.go smallHost) = some t := by
  rw [step, if_pos hidle, go]
  cases hstage : s.stage with
  | starting => exact exists_call hidle (.inl rfl) _
  | leaving | stopped => exact exists_call hidle (.inr (.inl rfl)) _
  | publishing purpose total completed todo =>
    cases todo with
    | nil => exact ⟨_, rfl⟩
    | cons m todo => exact exists_call hidle (.inr (.inr ⟨m.1, m.2, rfl⟩)) _
  | looping => exact ⟨_, if_pos h.stop⟩
  | waiting | dozing => exact ⟨_, if_pos (.inl h.stop)⟩
  | ticked =>
    obtain ⟨d, hsleep, -⟩ := fits_sleepSecs (some job.notifier) s.reporter s.clock
    rw [Option.bind_some] at hsleep
    exact ⟨_, by simp only [hsleep]; rfl⟩
  | ended | panicked =>
    rw [hstage] at hleft
    exact absurd rfl hleft
  | _ => exact ⟨_, rfl⟩

/-- **The next step can be taken.** -/
theorem exists_own (h : s.Ending job n) (hleft : left n s ≠ 0) :
    ∃ m t, Move.isOwn m = true ∧ s.step job m = some t := by
  have hpc : s.system.pc ≠ .panicked := fun hpc => hleft (if_pos hpc)
  rw [left_eq hpc] at hleft
  by_cases hcall : s.system.left = 0
  · have hidle : s.system.pc = .idle := (System.left_eq_zero hcall).resolve_right hpc
    obtain ⟨t, ht⟩ := exists_go h hidle (by omega)
    exact ⟨.go smallHost, t, rfl, ht⟩
  · obtain ⟨a, system, ha, hs⟩ : ∃ a system, Act.settles a = true ∧
        s.system.step job.set a = some system := System.exists_settles h.signalled hcall
    refine ⟨.publisher a, s.after a system (s.stage.heard a), ha, ?_⟩
    rw [step, if_pos (by rw [ha]; rfl), hs]
    rfl

/-- The program is ranked by what is left of it. -/
theorem ranked (job : Job) (n : ℕ) :
    Ranked (step job) Move.isOwn (fun m => !m.isOwn) (Ending job n) (left n) where
  keeps _ _ _ h _ hs := h.step (went_of_step h.accepted hs)
  own_lt _ _ _ h hm hs := left_lt h hm (went_of_step h.accepted hs)
  other_le _ _ _ h hm hs := left_le_of_other (by simpa using hm) (went_of_step h.accepted hs)
  progress _ h hleft := exists_own h hleft

/-- Where nothing is left, the program has ended or panicked. -/
theorem ended_of_left_eq_zero (h : s.Steady job n) (hleft : left n s = 0) :
    (∃ status, s.stage = .ended status) ∨ s.system.poisoned = true := by
  by_cases hpc : s.system.pc = .panicked
  · exact .inr (h.blames hpc)
  · rw [left_eq hpc] at hleft
    have hstage : s.stage.left n = 0 := by omega
    cases hs : s.stage with
    | ended status => exact .inl ⟨status, rfl⟩
    | panicked => exact .inr (h.stage hs)
    | _ =>
      rw [hs] at hstage
      simp only [Stage.left] at hstage
      omega

/-- On its way out with a status, with what has been recorded before. -/
structure Leaves (status : ℤ) (log : List Entry) (s : Service) : Prop where
  status : s.stage.status = some status
  sound : s.system.poisoned = false
  log : log <:+ s.log

/-- The program keeps to its status. -/
theorem Leaves.step {status : ℤ} {log : List Entry} (h : s.Leaves status log) {m : Move}
    (hm : m.isOwn = true) (hwent : Went job s m t) : t.Leaves status log := by
  have hown {a : Act} (ha : a.settles = true) : ∀ inClock, a ≠ .die inClock := by
    rintro inClock rfl
    cases ha
  cases hwent with
  | publisher _ hs =>
    exact ⟨(Stage.phase_heard _ _).2.trans h.status,
      (System.poisoned_step (hown hm) hs).trans h.sound, h.log.trans (List.suffix_append _ _)⟩
  | signal => cases hm
  | call _ hcalls hs =>
    have hstatus := h.status
    generalize hstage : s.stage = stage at hcalls hstatus
    cases hcalls with
    | stop | drop =>
      exact ⟨hstatus, (System.poisoned_step (by simp) hs).trans h.sound,
        h.log.trans (List.suffix_append _ _)⟩
    | _ => cases hstatus
  | plain _ hplain =>
    have hstatus := h.status
    cases hplain with
    | ended hstage =>
      rw [hstage] at hstatus
      exact ⟨hstatus, h.sound, h.log⟩
    | poisoned _ hpoison => exact absurd hpoison (by simp [h.sound])
    | _ hstage =>
      rw [hstage] at hstatus
      cases hstatus

/-- How many steps of the program are left at most. -/
theorem left_le_of_steady (h : s.Steady job n) : left n s ≤ 7 * (11 + n) + 6 := by
  have hcall := s.system.left_le
  have htodo := h.todo
  have hstage : s.stage.left n ≤ 11 + n := by
    cases hs : s.stage with
    | publishing purpose total completed todo =>
      rw [hs] at htodo
      simp only [Stage.left]
      simp only [Stage.todo] at htodo
      omega
    | _ =>
      simp only [Stage.left]
      omega
  have := left_le (n := n) s
  omega

/-- A report says at most one thing about each field, and two more. -/
theorem length_messages_le {platform : Platform} {cfg : Config} {fields : List String}
    (h : Accepted platform cfg) (hfields : cfg.meminfoFields = .ok fields) {host : Host}
    {snapshot : Snapshot} {messages : List (String × String)}
    (hcollect : collect cfg host = .ok snapshot)
    (hmessages : messagesFor platform cfg snapshot = .ok messages) :
    messages.length ≤ fields.length + 2 := by
  obtain ⟨plan, hplan⟩ := plan_of_shaped h.shaped
  obtain ⟨snapshot', hcollect', hmessages'⟩ :=
    messagesFor_of_plan hplan host fun _ => meminfoTopic_of_plan h hplan
  obtain rfl := Outcome.ok.inj (hcollect.symm.trans hcollect')
  obtain rfl := Outcome.ok.inj (hmessages.symm.trans hmessages')
  obtain rfl := Outcome.ok.inj (hfields.symm.trans hplan.fields)
  have hpresent : (presentIn host plan.fields).length ≤ plan.fields.length := by
    rw [presentIn]
    split
    · refine (List.length_filterMap_le _ _).trans (List.Subperm.length_le ?_)
      exact (nodup_eraseDups _).subperm fun field hfield => List.mem_eraseDups.1 hfield
    · exact Nat.zero_le _
  have huptime : (if plan.plain && plan.uptime then ((uptimeOf host).map fun minutes =>
      (cfg.uptimeTopic, toString minutes)).toList else []).length ≤ 1 := by
    split
    · cases uptimeOf host <;> simp
    · exact Nat.zero_le _
  have hmeminfo : (if plan.plain && plan.meminfo then (presentIn host plan.fields).map fun e =>
      (fieldTopic platform cfg e.1, toString e.2) else []).length ≤ plan.fields.length := by
    split
    · rw [List.length_map]
      exact hpresent
    · exact Nat.zero_le _
  have hjson : (if plan.json then [(cfg.jsonTopic, document platform snapshot)] else []).length ≤
      1 := by
    split <;> simp
  rw [Plan.messages, List.length_append, List.length_append]
  omega

theorem steady_of_reach {r : Reporter} {built epoch now : Duration} {C : Service → Move → Prop}
    {fields : List String} (haccepted : Accepted job.platform r.cfg)
    (hfields : r.cfg.meminfoFields = .ok fields) (hbuilt : built ≤ now)
    (h : Reach (step job) C (init job r built epoch now) s) : s.Steady job (fields.length + 2) := by
  have hstart : (init job r built epoch now).Steady job (fields.length + 2) := by
    have hstart : Reach (step job) C (init job r built epoch now) _ := .refl
    have hreach := reachable_system haccepted hbuilt hstart
    exact ⟨System.signalled_of_reach hreach, System.held_of_reach hreach,
      System.blames_of_reach hreach, (fun h => by cases h), haccepted,
      fun _ _ _ => length_messages_le haccepted hfields, Nat.zero_le _⟩
  exact h.invariant hstart fun _ _ _ hi _ hs => hi.step (went_of_step hi.accepted hs)

/-- **A program that leaves can end**, with the status it leaves with. -/
theorem reach_ended {r : Reporter} {built epoch now : Duration} {fields : List String} {status : ℤ}
    (haccepted : Accepted job.platform r.cfg) (hfields : r.cfg.meminfoFields = .ok fields)
    (hbuilt : built ≤ now) (hs : Reachable (step job) (init job r built epoch now) s)
    (hstop : s.stop = true) (hstatus : s.stage.status = some status)
    (hsound : s.system.poisoned = false) :
    ∃ t, Reachable (step job) s t ∧ t.stage = .ended status ∧ s.log <:+ t.log := by
  have hsteady := steady_of_reach haccepted hfields hbuilt hs
  obtain ⟨moves, t, hown, -, hrun, hending, hleft⟩ :=
    (ranked job (fields.length + 2)).settles s ⟨hsteady, hstop⟩
  have hown : Reach (step job) (fun _ m => m.isOwn = true) s t :=
    .of_foldlM (fun m hm _ => hown m hm) hrun
  have hreach := hown.mono fun _ _ _ => trivial
  have hleaves : t.Leaves status s.log :=
    hown.along (J := fun u => Accepted job.platform u.reporter.cfg)
      (fun u hu => by
        rw [(frame_of_reach haccepted (hs.trans (hu.mono fun _ _ _ => trivial))).2.1]
        exact haccepted)
      ⟨hstatus, hsound, List.suffix_rfl⟩ fun _ _ _ hj hi hm hs => hi.step hm (went_of_step hj hs)
  rcases ended_of_left_eq_zero hending.toSteady hleft with ⟨status', hended⟩ | hpoison
  · have hstatus' := hleaves.status
    rw [hended] at hstatus'
    obtain rfl := Option.some.inj hstatus'
    exact ⟨t, hreach, hended, hleaves.log⟩
  · exact absurd hpoison (by simp [hleaves.sound])

end Service

/-- **Shutting down takes a bounded number of steps.**  From every state in which a signal has
arrived, and whatever the network, the clock and further signals do, at most a certain number of
steps of the program are left, and they can be taken: the program ends, unless the network thread has
panicked while it held the lock. -/
theorem shutdown_bounded (lib : SerdeYaml) (job : Job) (yaml hostname : String) (env : Env)
    (cfg : Config) (hcfg : fromYaml lib job.platform yaml hostname env = .ok cfg)
    (fields : List String) (hfields : cfg.meminfoFields = .ok fields)
    (built epoch now : Duration) (hbuilt : built ≤ now) (r : Reporter)
    (hr : withIo cfg (now.saturatingSub epoch) = .ok r) (s : Service)
    (hs : Reachable (Service.step job) (.init job r built epoch now) s) (hstop : s.stop = true) :
    (∀ (moves : List Move) (t : Service), moves.foldlM (Service.step job) s = some t →
      moves.countP Move.isOwn ≤ 7 * (fields.length + 13) + 6) ∧
    ∃ (moves : List Move) (t : Service), (∀ m ∈ moves, m.isOwn) ∧
      moves.length ≤ 7 * (fields.length + 13) + 6 ∧
      moves.foldlM (Service.step job) s = some t ∧
      ((∃ status, t.stage = .ended status) ∨ t.system.poisoned = true) := by
  obtain ⟨haccepted, -⟩ := accepted_of_fromYaml hcfg
  obtain ⟨rfl, -⟩ := follows_of_withIo hr
  have hsteady := Service.steady_of_reach haccepted hfields hbuilt hs
  have hbound := Service.left_le_of_steady hsteady
  have hranked := Service.ranked job (fields.length + 2)
  constructor
  · intro moves t hrun
    have hcount := hranked.count_le ⟨hsteady, hstop⟩ (fun m _ => by cases m.isOwn <;> rfl) hrun
    omega
  · obtain ⟨moves, t, hown, hlength, hrun, hending, hleft⟩ :=
      hranked.settles s ⟨hsteady, hstop⟩
    exact ⟨moves, t, hown, by omega, hrun,
      Service.ended_of_left_eq_zero hending.toSteady hleft⟩

/-- A signal arrives while `--once` is about to make its report. -/
theorem shutdown_bounded_once : ∃ cfg fields r s,
    fromYaml .defaultsOnly .empty "" "host" (fun _ => none) = .ok cfg ∧
      cfg.meminfoFields = .ok fields ∧ withIo cfg .zero = .ok r ∧
      s.stage = .reporting .once ∧ s.stop = true ∧
      ∃ (moves : List Move) (t : Service), moves.length ≤ 7 * (fields.length + 13) + 6 ∧
        moves.foldlM (Service.step (onceJob .defaults)) s = some t ∧
        ((∃ status, t.stage = .ended status) ∨ t.system.poisoned = true) := by
  obtain ⟨cfg, hcfg, -⟩ := fromYaml_defaultsOnly
  obtain ⟨haccepted, -⟩ := accepted_of_fromYaml hcfg
  obtain ⟨fields, hfields⟩ := meminfoFields_isOk haccepted.shaped
  obtain ⟨r, hr⟩ := withIo_of_shaped haccepted.shaped .zero
  obtain ⟨s, hreach, -, hstage, -⟩ := Service.reach_onceJob (fun _ => True) .defaults r
  have hsignal : s.step (onceJob .defaults) .signal = some { s with stop := true } := rfl
  obtain ⟨-, moves, t, -, hlength, hrun, hend⟩ := shutdown_bounded .defaultsOnly
    (onceJob .defaults) "" "host" _ cfg hcfg fields hfields .zero .zero .zero le_rfl r hr _
    ((hreach.mono fun _ _ _ => trivial).snoc trivial hsignal) rfl
  exact ⟨cfg, fields, r, { s with stop := true }, hcfg, hfields, hr, hstage, rfl, moves, t, hlength,
    hrun, hend⟩

end SystemReport
