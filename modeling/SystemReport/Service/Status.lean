import SystemReport.Mqtt.Verdicts
import SystemReport.Service.Cycle
import SystemReport.Service.Delivery
import SystemReport.Service.Lifecycle

/-!
# What the status says

After each report systemd is told how many of its messages were completed.  The count is made from
what `publish()` returns, which comes from another thread, may come too late or never, and may belong
to a worker that is thrown away in the meantime.  `status_law` says that the count is honest: there
are that many different messages of this very report for which the broker's part of the protocol has
been done.
-/

set_option autoImplicit false

open Machine

namespace SystemReport

open Mqtt Reporter Config Collectors

/-! ## Entries that are neither a report nor a status -/

/-- Neither a report nor a status. -/
def Entry.silent : Entry → Bool
  | .note (.status _ _ _ _) | .report _ _ => false
  | _ => true

theorem reportsIn_silent {es log : List Entry} (hes : ∀ e ∈ es, e.silent = true) :
    reportsIn (es ++ log) = reportsIn log := by
  induction es with
  | nil => rfl
  | cons e es ih =>
    rw [List.forall_mem_cons] at hes
    rw [List.cons_append, ← ih hes.2]
    rcases e with _ | _ | _ | _
    case report => cases hes.1
    all_goals rfl

/-- The status that some record ends with. -/
def Entry.statusOf : Entry → Option (UInt64 × ℕ × ℕ)
  | .note (.status n completed total _) => some (n, completed, total)
  | _ => none

theorem suffix_silent {es log before : List Entry} {e : Entry} {status : UInt64 × ℕ × ℕ}
    (hes : ∀ e ∈ es, e.silent = true) (he : e.statusOf = some status)
    (h : e :: before <:+ es ++ log) : e :: before <:+ log := by
  induction es with
  | nil => exact h
  | cons e' es ih =>
    rw [List.forall_mem_cons] at hes
    rcases List.suffix_cons_iff.1 h with heq | h
    · obtain ⟨rfl, -⟩ := List.cons.inj heq
      rcases e with _ | (_ | _ | _ | _) | _ | _
      case note.status => cases hes.1
      all_goals cases he
    · exact ih hes.2 h

/-- What was called before is what was called first. -/
theorem calledIn_of_suffix {before log : List Entry} (h : before <:+ log) :
    calledIn (sessionsIn before) <+: calledIn (sessionsIn log) :=
  List.reverse_prefix.2 ((h.filterMap _).filterMap _)

/-- Nothing has to be accepted if no topic is valid. -/
theorem Service.acceptsOnline_of_not {job : Job} (s : Service) (m : Move) :
    AcceptsOnline (fun _ => False) job s m := by
  cases m with
  | publisher a =>
    cases a with
    | worker i =>
      cases i with
      | connAck => exact fun _ hvalid => hvalid.elim
      | _ => trivial
    | _ => trivial
  | _ => trivial

/-! ## The evidence for a count -/

/-- The reply of the message whose call is under way. -/
def Mqtt.Pc.current : Pc → List Reply
  | .sending m _ => [m.reply]
  | .waiting r _ => [r]
  | _ => []

/-- What there is to show for a report of which `worked` is worked off: its calls so far are
`earlier`, and `current` if one is under way, and `completed` of them have heard `true`. -/
structure Evidence (s : System) (log : List SessionEvent) (worked : List (String × String))
    (completed : ℕ) (earlier current : List Message) : Prop where
  called : ∃ before, calledIn log = before ++ (earlier ++ current).map fun m => (m, Caller.report)
  content : ((earlier ++ current).map Message.content).Sublist worked
  current : current.map Message.reply = s.pc.current
  completed : ∃ done : List Message, done.Sublist earlier ∧ done.length = completed ∧
    ∀ m ∈ done, (m.reply, true) ∈ s.link.hist.verdicts

namespace Evidence

variable {set : Settings} {s t : System} {log log' : List SessionEvent}
  {worked : List (String × String)} {completed : ℕ} {earlier current : List Message}

/-- Nothing is called yet. -/
theorem init (hcurrent : s.pc.current = []) : Evidence s log [] 0 [] [] :=
  ⟨⟨calledIn log, by simp⟩, .slnil, hcurrent.symm, [], .slnil, rfl, by simp⟩

/-- A step that leaves the call where it is. -/
theorem keep (h : Evidence s log worked completed earlier current)
    (hcalled : calledIn log' = calledIn log)
    (hverdicts : s.link.hist.verdicts <+: t.link.hist.verdicts)
    (hcurrent : t.pc.current = s.pc.current) :
    Evidence t log' worked completed earlier current := by
  obtain ⟨done, hdone, hlength, htold⟩ := h.completed
  exact ⟨by rw [hcalled]; exact h.called, h.content, by rw [hcurrent]; exact h.current,
    done, hdone, hlength, fun m hm => hverdicts.subset (htold m hm)⟩

/-- The call returns `false`. -/
theorem returns (h : Evidence s log worked completed earlier current)
    (hcalled : calledIn log' = calledIn log)
    (hverdicts : s.link.hist.verdicts <+: t.link.hist.verdicts) (hcurrent : t.pc.current = []) :
    Evidence t log' worked completed (earlier ++ current) [] := by
  obtain ⟨done, hdone, hlength, htold⟩ := h.completed
  exact ⟨by rw [hcalled, List.append_nil]; exact h.called, by rw [List.append_nil]; exact h.content,
    hcurrent.symm, done, hdone.trans (List.sublist_append_left _ _), hlength,
    fun m hm => hverdicts.subset (htold m hm)⟩

/-- The call returns `true`. -/
theorem completes (h : Evidence s log worked completed earlier current)
    (hcalled : calledIn log' = calledIn log)
    (hverdicts : s.link.hist.verdicts <+: t.link.hist.verdicts) {r : Reply}
    (hpc : s.pc.current = [r]) (hr : (r, true) ∈ s.link.hist.verdicts)
    (hcurrent : t.pc.current = []) :
    Evidence t log' worked (completed + 1) (earlier ++ current) [] := by
  obtain ⟨done, hdone, hlength, htold⟩ := h.completed
  obtain ⟨m, rfl, hm⟩ : ∃ m, current = [m] ∧ m.reply = r := by
    simpa [hpc] using List.map_eq_singleton_iff.1 (h.current.trans hpc)
  refine ⟨by rw [hcalled, List.append_nil]; exact h.called,
    by rw [List.append_nil]; exact h.content, hcurrent.symm, done ++ [m],
    hdone.append (List.Sublist.refl _), by simp [hlength], fun m' hm' => hverdicts.subset ?_⟩
  rcases List.mem_append.1 hm' with hm' | hm'
  · exact htold m' hm'
  · rw [List.mem_singleton.1 hm', hm]
    exact hr

/-- The next message of the report. -/
theorem publish (h : Evidence s log worked completed earlier current) (hidle : s.pc = .idle)
    {topic payload : String} (hs : s.step set (.publish topic payload none none) = some t) :
    ∃ current', Evidence t (s.sessionEvents (.publish topic payload none none) t ++ log)
      (worked ++ [(topic, payload)]) completed (earlier ++ current) current' := by
  obtain rfl : current = [] := by simpa [hidle, Pc.current] using h.current
  have hverdicts := System.verdicts_step hs
  have hgo : Evidence s log (worked ++ [(topic, payload)]) completed earlier [] :=
    ⟨h.called, h.content.trans (List.sublist_append_left _ _), h.current, h.completed⟩
  cases System.moved_of_step hs with
  | publish =>
    rw [System.sessionEvents_eq hs (by simp), System.begins]
    rcases System.pc_onPublish s topic payload set.qos set.retain .report with hpc | hpc | hpc
    · obtain ⟨before, hbefore⟩ := h.called
      obtain ⟨done, hdone, hlength, htold⟩ := h.completed
      rw [List.append_nil] at hbefore ⊢
      have hcontent := h.content
      rw [List.append_nil] at hcontent
      refine ⟨[⟨topic, payload, set.qos, set.retain, s.calls⟩], ⟨before, ?_⟩, ?_, ?_, done, hdone,
        hlength, fun m hm => hverdicts.subset (htold m hm)⟩
      · simp [hpc, Pc.outgoing, hbefore]
      · rw [List.map_append]
        exact hcontent.append (List.Sublist.refl _)
      · simp [hpc, Pc.current]
    · exact ⟨[], hgo.returns (by simp [hpc, Pc.outgoing]) hverdicts (by simp [hpc, Pc.current])⟩
    · exact ⟨[], hgo.returns (by simp [hpc, Pc.outgoing]) hverdicts (by simp [hpc, Pc.current])⟩

/-- A step within a call, of the network thread, or of time. -/
theorem step (h : Evidence s log worked completed earlier current) (hstop : s.pc ≠ .stopping)
    {a : Act} (ha : (a.settles || a.foreign) = true) (hs : s.step set a = some t)
    (purpose : Purpose) (total : ℕ) (todo : List (String × String)) :
    ∃ completed' earlier' current',
      (Stage.publishing purpose total completed todo).heard a =
          .publishing purpose total completed' todo ∧
        Evidence t (s.sessionEvents a t ++ log) worked completed' earlier' current' := by
  have hverdicts := System.verdicts_step hs
  have hheard (hne : a ≠ .verdict true) :=
    Stage.heard_of_ne (.publishing purpose total completed todo) hne
  by_cases hother : ∀ i, a ≠ .worker i
  case neg =>
    obtain ⟨i, rfl⟩ : ∃ i, a = .worker i := by simpa using hother
    cases System.moved_of_step hs with
    | worker =>
      exact ⟨_, _, _, hheard (by simp), h.keep (System.calledIn_worker ..) hverdicts rfl⟩
  rw [System.sessionEvents_eq hs hother]
  -- the call is over, or the thread was not in one
  have hreturns (hcalled : t.begins a = []) (hne : a ≠ .verdict true)
      (hcurrent : t.pc.current = []) : ∃ completed' earlier' current',
      (Stage.publishing purpose total completed todo).heard a =
          .publishing purpose total completed' todo ∧
        Evidence t (t.begins a ++ log) worked completed' earlier' current' :=
    ⟨_, _, _, hheard hne, h.returns (by rw [hcalled]; rfl) hverdicts hcurrent⟩
  cases System.moved_of_step hs with
  | @worker i => exact absurd rfl (hother i)
  | die | advance => exact ⟨_, _, _, hheard (by simp), h.keep rfl hverdicts rfl⟩
  | publish | start | maintain | maintainOff | stop | stopIdle => cases ha
  | goodbye hpc => exact absurd hpc hstop
  | @countDrop who =>
    refine hreturns rfl (by simp) (System.locked_of (P := fun u => u.pc.current = []) rfl fun _ => ?_)
    split <;> cases who <;> rfl
  | @send m who hpc =>
    by_cases hfree : s.slot = none ∧ s.running = true
    · refine ⟨_, _, _, hheard (by simp), h.keep rfl hverdicts ?_⟩
      rw [System.onSend, if_pos hfree, hpc]
      rfl
    · refine hreturns rfl (by simp) ?_
      rw [System.onSend, if_neg hfree]
      cases who <;> rfl
  | @verdict r b who hpc htold =>
    have hcurrent : (System.Caller.return (some r) who).current = [] := by cases who <;> rfl
    cases b with
    | true =>
      exact ⟨_, _, _, rfl, h.completes rfl hverdicts (by rw [hpc]; rfl) htold hcurrent⟩
    | false => exact hreturns rfl (by simp) hcurrent
  | @timeout r who =>
    refine hreturns rfl (by simp) ?_
    cases who <;> rfl
  | signal => exact hreturns rfl (by simp) rfl
  | @tornDown why | @join why =>
    refine hreturns rfl (by simp) (System.locked_of (P := fun u => u.pc.current = []) rfl fun _ => ?_)
    cases why <;> rfl
  | spawn =>
    refine hreturns rfl (by simp) (System.locked_of (P := fun u => u.pc.current = []) rfl fun _ => ?_)
    split <;> rfl

end Evidence

/-! ## What holds after every step -/

/-- A report is being published. -/
def Stage.isPublishing : Stage → Bool
  | .publishing _ _ _ _ => true
  | _ => false

/-- What a status says about the report before it, by the verdicts so far. -/
structure Honest (verdicts : List (Reply × Bool)) (before : List Entry) (n : UInt64)
    (completed total : ℕ) : Prop where
  number : n = UInt64.ofNat (reportsIn before).length
  counted : ∃ (reports : List (List (String × String))) (messages : List (String × String))
    (done : List Message), reportsIn before = reports ++ [messages] ∧ total = messages.length ∧
      done.length = completed ∧ (done.map Message.content).Sublist messages ∧
      (done.map fun m => (m, Caller.report)).Sublist (calledIn (sessionsIn before)) ∧
      ∀ m ∈ done, (m.reply, true) ∈ verdicts

theorem Honest.mono {verdicts verdicts' : List (Reply × Bool)} (h : verdicts <+: verdicts')
    {before : List Entry} {n : UInt64} {completed total : ℕ}
    (hh : Honest verdicts before n completed total) : Honest verdicts' before n completed total := by
  obtain ⟨reports, messages, done, hreports, htotal, hlength, hcontent, hcalled, htold⟩ := hh.counted
  exact ⟨hh.number, reports, messages, done, hreports, htotal, hlength, hcontent, hcalled,
    fun m hm => h.subset (htold m hm)⟩

namespace Service

variable {job : Job} {s t : Service}

/-- A report is under way: all of it that is worked off has its evidence. -/
def Underway (s : Service) (total completed : ℕ) (todo : List (String × String)) : Prop :=
  ∃ (reports : List (List (String × String))) (messages worked : List (String × String))
    (earlier current : List Message), reportsIn s.log = reports ++ [messages] ∧
      total = messages.length ∧ messages = worked ++ todo ∧
      Evidence s.system (sessionsIn s.log) worked completed earlier current

/-- What holds after every step. -/
structure Tells (s : Service) : Prop where
  count : s.stage ≠ .panicked →
    s.reporter.reports + (if s.stage.isPublishing then 1 else 0) =
      UInt64.ofNat (reportsIn s.log).length
  report : ∀ purpose total completed todo, s.stage = .publishing purpose total completed todo →
    s.Underway total completed todo
  told : ∀ e before status, e :: before <:+ s.log → e.statusOf = some status →
    Honest s.system.link.hist.verdicts before status.1 status.2.1 status.2.2

namespace Tells

/-- A step outside of a report. -/
theorem keep (h : s.Tells) (es : List Entry) (hlog : t.log = es ++ s.log)
    (hes : ∀ e ∈ es, e.silent = true)
    (hverdicts : s.system.link.hist.verdicts <+: t.system.link.hist.verdicts)
    (hreports : t.reporter.reports = s.reporter.reports) (hs : s.stage.isPublishing = false)
    (hpanic : s.stage ≠ .panicked) (ht : t.stage.isPublishing = false) : t.Tells where
  count _ := by
    rw [hreports, ht, hlog, reportsIn_silent hes, ← h.count hpanic, hs]
  report purpose total completed todo hstage := by
    rw [hstage] at ht
    cases ht
  told e before status hsuffix hstatus := by
    rw [hlog] at hsuffix
    exact (h.told e before status (suffix_silent hes hstatus hsuffix) hstatus).mono hverdicts

/-- A step outside of a report and outside of the publisher. -/
theorem goOn (h : s.Tells) {stage : Stage} (hstage : s.stage = stage)
    (hs : stage.isPublishing = false) (hpanic : stage ≠ .panicked) (es : List Entry)
    (hlog : t.log = es ++ s.log) (hes : ∀ e ∈ es, e.silent = true) (hsystem : t.system = s.system)
    (hreports : t.reporter.reports = s.reporter.reports) (ht : t.stage.isPublishing = false) :
    t.Tells := by
  subst hstage
  exact h.keep es hlog hes (by rw [hsystem]) hreports hs hpanic ht

/-- The status tells what was counted. -/
theorem honest (h : s.Tells) (hidle : s.system.pc = .idle) {purpose : Purpose}
    {total completed : ℕ} (hstage : s.stage = .publishing purpose total completed []) :
    Honest s.system.link.hist.verdicts s.log (s.reporter.reports + 1) completed total := by
  have hcount := h.count (by rw [hstage]; simp)
  rw [hstage] at hcount
  obtain ⟨reports, messages, worked, earlier, current, hreports, htotal, hworked, hevidence⟩ :=
    h.report _ _ _ _ hstage
  obtain rfl : current = [] := by simpa [hidle, Pc.current] using hevidence.current
  obtain ⟨before, hbefore⟩ := hevidence.called
  obtain ⟨done, hdone, hlength, htold⟩ := hevidence.completed
  have hcontent := hevidence.content
  rw [List.append_nil] at hworked hbefore hcontent
  subst hworked
  refine ⟨hcount, reports, messages, done, hreports, htotal, hlength,
    (hdone.map _).trans hcontent, ?_, htold⟩
  rw [hbefore]
  exact (hdone.map _).trans (List.sublist_append_right _ _)

/-- After the status of a report. -/
theorem reported (h : s.Tells) (hidle : s.system.pc = .idle) {purpose : Purpose}
    {total completed : ℕ} (hstage : s.stage = .publishing purpose total completed [])
    (es : List Entry) {connected : Bool} (hes : ∀ e ∈ es, e.silent = true)
    (hlog : t.log =
      es ++ .note (.status (s.reporter.reports + 1) completed total connected) :: s.log)
    (hsystem : t.system = s.system) (hreports : t.reporter.reports = s.reporter.reports + 1)
    (ht : t.stage.isPublishing = false) : t.Tells := by
  have hhonest := h.honest hidle hstage
  refine ⟨fun _ => ?_, fun purpose total completed todo hst => ?_,
    fun e before status hsuffix hstatus => ?_⟩
  · rw [hreports, ht, hlog, reportsIn_silent hes, reportsIn_note]
    exact (UInt64.add_zero _).trans hhonest.number
  · rw [hst] at ht
    cases ht
  · rw [hsystem]
    rw [hlog] at hsuffix
    rcases List.suffix_cons_iff.1 (suffix_silent hes hstatus hsuffix) with heq | hsuffix
    · obtain ⟨rfl, rfl⟩ := List.cons.inj heq
      cases hstatus
      exact hhonest
    · exact h.told e before status hsuffix hstatus

/-- A new report. -/
theorem report_made (h : s.Tells) (hidle : s.system.pc = .idle) {purpose : Purpose}
    (hstage : s.stage = .reporting purpose) (host : Host) (messages : List (String × String)) :
    ({ s with
      stage := .publishing purpose messages.length 0 messages
      log := .report host messages :: s.log } : Service).Tells where
  count _ := by
    have hcount := h.count (by rw [hstage]; simp)
    rw [hstage] at hcount
    have hcount : s.reporter.reports + 0 = UInt64.ofNat (reportsIn s.log).length := hcount
    rw [reportsIn_report, List.length_append, UInt64.ofNat_add, ← hcount, UInt64.add_zero]
    rfl
  report purpose' total completed todo hst := by
    cases hst
    refine ⟨reportsIn s.log, messages, [], [], [], by simp, rfl, rfl, ?_⟩
    exact .init (by rw [hidle]; rfl)
  told e before status hsuffix hstatus := by
    rcases List.suffix_cons_iff.1 hsuffix with heq | hsuffix
    · obtain ⟨rfl, -⟩ := List.cons.inj heq
      cases hstatus
    · exact h.told e before status hsuffix hstatus

theorem plain (h : s.Tells) (hidle : s.system.pc = .idle) (hplain : Plain job s t) : t.Tells := by
  cases hplain with
  | ready hstage | readyOnce hstage =>
    exact h.goOn hstage rfl (by simp) [.note .ready] rfl (by simp [Entry.silent]) rfl rfl rfl
  | refused hstage | due hstage | connected hstage | skips hstage | woken hstage | found hstage
  | dozed hstage | ended hstage =>
    exact h.goOn hstage rfl (by simp) [] rfl (by simp) rfl rfl rfl
  | quit hstage | interrupted hstage =>
    exact h.goOn hstage rfl (by simp) [.note .stopping] rfl (by simp [Entry.silent]) rfl rfl rfl
  | failed hstage =>
    rw [fail]
    split
    · exact h.goOn hstage rfl (by simp) [.tick .failed] rfl (by simp [Entry.silent]) rfl rfl rfl
    · exact h.goOn hstage rfl (by simp) [.note .stopping, .tick .failed] rfl (by simp [Entry.silent])
        rfl rfl rfl
  | early hstage | waits hstage | scheduled hstage =>
    exact h.goOn hstage rfl (by simp) [.tick _] rfl (by simp [Entry.silent]) rfl rfl rfl
  | report hstage => exact h.report_made hidle hstage _ _
  | reported hstage => exact h.reported hidle hstage [] (by simp) rfl rfl rfl rfl
  | reportedOnce hstage =>
    exact h.reported hidle hstage [.note .stopping] (by simp [Entry.silent]) rfl rfl rfl rfl
  | pauses hstage | polls hstage =>
    exact h.goOn hstage rfl (by simp) [.note .watchdog] rfl (by simp [Entry.silent]) rfl rfl rfl
  | poisoned => exact ⟨fun hst => absurd rfl hst, (fun _ _ _ _ hst => by cases hst), h.told⟩

theorem silent_sessions (es : List SessionEvent) :
    ∀ e ∈ es.map Entry.session, e.silent = true := by
  intro e he
  obtain ⟨_, -, rfl⟩ := List.mem_map.1 he
  rfl

/-- A step of the publisher that leaves the report under way. -/
theorem underway (h : s.Tells) {a : Act} {system : System} {stage : Stage}
    (hverdicts : s.system.link.hist.verdicts <+: system.link.hist.verdicts)
    (hs : s.stage.isPublishing = true) (ht : stage.isPublishing = true)
    (hreport : ∀ purpose total completed todo, stage = .publishing purpose total completed todo →
      (s.after a system stage).Underway total completed todo) :
    (s.after a system stage).Tells where
  count _ := by
    have hcount := h.count fun hst => by
      rw [hst] at hs
      cases hs
    rw [hs] at hcount
    change s.reporter.reports + (if stage.isPublishing then 1 else 0) = _
    rw [after, reportsIn_append, ht]
    exact hcount
  report := hreport
  told e before status hsuffix hstatus :=
    (h.told e before status (suffix_silent (silent_sessions _) hstatus hsuffix) hstatus).mono hverdicts

theorem call (h : s.Tells) (hidle : s.system.pc = .idle) {a : Act} {next : System → Stage}
    {system : System} (hcalls : Calls s.stop s.stage a next)
    (hs : s.system.step job.set a = some system) : (s.after a system (next system)).Tells := by
  have hverdicts := System.verdicts_step hs
  generalize hstage : s.stage = stage at hcalls
  cases hcalls with
  | publish =>
    refine h.underway hverdicts (by rw [hstage]; rfl) rfl fun purpose total completed todo hst => ?_
    cases hst
    obtain ⟨reports, messages, worked, earlier, current, hreports, htotal, hworked, hevidence⟩ :=
      h.report _ _ _ _ hstage
    obtain ⟨current', hevidence⟩ := hevidence.publish hidle hs
    refine ⟨reports, messages, _, _, current', by rw [after, reportsIn_append, hreports], htotal, ?_,
      by rw [after, sessionsIn_append]; exact hevidence⟩
    rw [hworked, List.append_assoc]
    rfl
  | _ =>
    exact h.keep _ rfl (silent_sessions _) hverdicts rfl (by rw [hstage]; rfl)
      (by rw [hstage]; simp) rfl

/-- A step within a call, of the network thread, or of time. -/
theorem publisher (h : s.Tells) (hstop : s.stage.phase ≠ .leaving → s.system.pc ≠ .stopping)
    {a : Act} {system : System} (ha : (a.settles || a.foreign) = true)
    (hs : s.system.step job.set a = some system) :
    (s.after a system (s.stage.heard a)).Tells := by
  have hverdicts := System.verdicts_step hs
  cases hstage : s.stage with
  | publishing purpose total completed todo =>
    obtain ⟨reports, messages, worked, earlier, current, hreports, htotal, hworked, hevidence⟩ :=
      h.report _ _ _ _ hstage
    obtain ⟨completed', earlier', current', hheard, hevidence⟩ :=
      hevidence.step (hstop (by rw [hstage]; simp [Stage.phase])) ha hs purpose total todo
    rw [hheard]
    refine h.underway hverdicts (by rw [hstage]; rfl) rfl fun _ _ _ _ hst => ?_
    cases hst
    exact ⟨reports, messages, worked, earlier', current', by rw [after, reportsIn_append, hreports],
      htotal, hworked, by rw [after, sessionsIn_append]; exact hevidence⟩
  | panicked =>
    exact ⟨fun hst => absurd rfl hst, (fun _ _ _ _ hst => by cases hst),
      fun e before status hsuffix hstatus => (h.told e before status
        (suffix_silent (silent_sessions _) hstatus hsuffix) hstatus).mono hverdicts⟩
  | _ =>
    exact h.keep _ rfl (silent_sessions _) hverdicts rfl (by rw [hstage]; rfl)
      (by rw [hstage]; simp) rfl

theorem step (h : s.Tells) (hlives : s.Lives job) {m : Move} (hwent : Went job s m t) :
    t.Tells := by
  cases hwent with
  | publisher ha hs => exact h.publisher hlives.stopping ha hs
  | signal => exact ⟨h.count, h.report, h.told⟩
  | call hidle hcalls hs => exact h.call hidle hcalls hs
  | plain hidle hplain => exact h.plain hidle hplain

end Tells

theorem tells_of_reach {r : Reporter} {built epoch now : Duration} {C : Service → Move → Prop}
    (haccepted : Accepted job.platform r.cfg) (hfailures : r.failures = 0) (hreports : r.reports = 0)
    (h : Reach (Service.step job) C (init job r built epoch now) s) : s.Tells := by
  induction h with
  | refl =>
    refine ⟨fun _ => ?_, (fun _ _ _ _ hst => by cases hst), fun e before status hsuffix => ?_⟩
    · exact (congrArg (· + 0) hreports).trans rfl
    · exact absurd (List.suffix_nil.1 hsuffix) (List.cons_ne_nil _ _)
  | snoc hr _ hs ih =>
    exact ih.step (lives_of_reach haccepted hfailures hr) (went_of_reach haccepted hr hs)

end Service

/-- **The status is honest.**  In every run of the program, with rebuilds, lost connections, deaths
of the thread and signals: a status is about the latest report and gives its number and its size, and
for the completed messages that it counts there are as many different messages of this report, in
order, that `publish()` was called with before the status and for which the events of QoS 0, 1 or 2
have been handed on. -/
theorem status_law (lib : SerdeYaml) (job : Job) (yaml hostname : String) (env : Env)
    (cfg : Config) (hcfg : fromYaml lib job.platform yaml hostname env = .ok cfg)
    (built epoch now : Duration) (hbuilt : built ≤ now) (r : Reporter)
    (hr : withIo cfg (now.saturatingSub epoch) = .ok r) (s : Service)
    (hs : Reachable (Service.step job) (.init job r built epoch now) s)
    (n : UInt64) (completed total : ℕ) (connected : Bool) (before : List Entry)
    (hnote : .note (.status n completed total connected) :: before <:+ s.log) :
    n = UInt64.ofNat (reportsIn before).length ∧
      ∃ (reports : List (List (String × String))) (messages : List (String × String))
        (done : List Message), reportsIn before = reports ++ [messages] ∧ total = messages.length ∧
        done.length = completed ∧ (done.map Message.content).Sublist messages ∧
        done.Pairwise (fun a b => a.reply < b.reply) ∧
        ∀ m ∈ done, (m, .report) ∈ calledIn (sessionsIn before) ∧
          Delivered s.system.link.hist m := by
  obtain ⟨haccepted, -⟩ := accepted_of_fromYaml hcfg
  obtain ⟨rfl, -⟩ := follows_of_withIo hr
  obtain ⟨hfailures, hreports⟩ := counts_of_withIo hr
  have hhonest := (Service.tells_of_reach haccepted hfailures hreports hs).told _ before
    (n, completed, total) hnote rfl
  obtain ⟨reports, messages, done, hmessages, htotal, hlength, hcontent, hcalled, htold⟩ :=
    hhonest.counted
  have hlogged := Service.reach_system haccepted hbuilt
    (hs.mono fun s m _ => Service.acceptsOnline_of_not s m)
  have hknown := System.known_of_reach (C := fun _ _ => True) (hlogged.mono fun _ _ _ => trivial)
  have hsound := System.sound_of_reach (Service.reachable_system haccepted hbuilt hs)
  have hbefore := calledIn_of_suffix ((List.suffix_cons _ before).trans hnote)
  have hnumbered := (hknown.numbered.sublist hbefore.sublist).sublist hcalled
  refine ⟨hhonest.number, reports, messages, done, hmessages, htotal, hlength, hcontent,
    by simpa [List.pairwise_map] using hnumbered, fun m hm => ?_⟩
  have hin := hcalled.subset (List.mem_map_of_mem hm)
  obtain ⟨m', hreply, hdelivered⟩ := (hsound.vouched _ (htold m hm)).delivered
  obtain ⟨who, hm'⟩ := hknown.received m' hdelivered.1
  obtain ⟨rfl, -⟩ := Prod.mk.inj (hknown.call_eq hm' (hbefore.subset hin) hreply)
  exact ⟨hin, hdelivered⟩

/-- A publisher that has said hello. -/
def Mqtt.System.greeted : System :=
  (execWhile (System.step .defaults) (fun _ _ => True) (System.init .defaults .zero)
    [.start, .signal, .spawn .ok, .worker (.connAck [] true), .worker .take,
      .worker (.published 1)]).getD (System.init .defaults .zero)

/-- It is told that its first message has been published. -/
theorem Mqtt.System.greeted_publish (topic payload : String) :
    ∃ t u v, greeted.step .defaults (.publish topic payload none none) = some t ∧
      Reach (System.step .defaults) (fun _ a => a.unheard) t u ∧
      u.step .defaults (.verdict true) = some v ∧ v.pc = .idle ∧ v.poisoned = false := by
  have hlink : ∃ l l' l'', greeted.link.step .defaults
      (.message ⟨topic, payload, .atMostOnce, false, 0⟩ true) = some l ∧
      l.step .defaults .take = some l' ∧ l'.step .defaults (.published 0) = some l'' ∧
      (0, true) ∈ l''.hist.verdicts :=
    ⟨_, _, _, rfl, rfl, rfl, .head _⟩
  obtain ⟨l, l', l'', hmessage, htake, hpublished, htold⟩ := hlink
  let m : Message := ⟨topic, payload, .atMostOnce, false, 0⟩
  let called (l : Link) (slot : Option Message) (pc : Pc) : System :=
    { greeted with calls := 1, pc := pc, slot := slot, link := l }
  have hsend : (called greeted.link none (.sending m .report)).step .defaults .send =
      some (called greeted.link (some m) (.waiting 0 .report)) := rfl
  have hworker (l l' : Link) (slot : Option Message) (i : Input) (hl : l.step .defaults i = some l')
      (hadmits : (called l slot (.waiting 0 .report)).admits i = true)
      (hslot : (called l slot (.waiting 0 .report)).slotAfter i = none) :
      (called l slot (.waiting 0 .report)).step .defaults (.worker i) =
        some (called l' none (.waiting 0 .report)) := by
    rw [step, if_pos hadmits, hslot]
    exact congrArg (Option.map _) hl
  have hreach := (((Reach.single (C := fun _ a => a.unheard) ⟨rfl, by simp, by simp⟩ hsend).snoc
    ⟨rfl, by simp, by simp⟩ (hworker _ _ _ _ hmessage (by simp [admits, called, m]) rfl)).snoc
    ⟨rfl, by simp, by simp⟩ (hworker _ _ _ _ htake rfl rfl)).snoc
    ⟨rfl, by simp, by simp⟩ (hworker _ _ _ _ hpublished rfl rfl)
  exact ⟨_, _, _, rfl, hreach, if_pos htold, rfl, rfl⟩

theorem Service.reach_greeted (r : Reporter) :
    ∃ s, Reachable (step (onceJob .defaults)) (init (onceJob .defaults) r .zero .zero .zero) s ∧
      s.stage = .reporting .once ∧ s.reporter = r ∧ reportsIn s.log = [] ∧ s.system = .greeted :=
  ⟨_, (((((((Reach.refl.snoc (a := .go smallHost) trivial rfl).snoc (a := .publisher .signal) trivial
    rfl).snoc (a := .publisher (.spawn .ok)) trivial rfl).snoc
    (a := .publisher (.worker (.connAck [] true))) trivial rfl).snoc
    (a := .publisher (.worker .take)) trivial rfl).snoc
    (a := .publisher (.worker (.published 1))) trivial rfl).snoc (a := .go smallHost) trivial
    rfl).snoc (a := .go smallHost) trivial rfl, rfl, rfl, rfl, rfl⟩

/-- `--once` hears that the first message of its report has been published. -/
theorem Service.reach_delivered (r : Reporter) {topic payload : String}
    {todo : List (String × String)} {snapshot : Snapshot}
    (hcollect : collect r.cfg smallHost = .ok snapshot)
    (hmessages : messagesFor .empty r.cfg snapshot = .ok ((topic, payload) :: todo)) :
    ∃ s, Reachable (step (onceJob .defaults)) (init (onceJob .defaults) r .zero .zero .zero) s ∧
      s.stage = .publishing .once (todo.length + 1) 1 todo ∧ s.system.pc = .idle ∧
      s.system.poisoned = false ∧ s.reporter = r ∧ reportsIn s.log = [(topic, payload) :: todo] := by
  obtain ⟨s, hs, hstage, hreporter, hreports, hsystem⟩ := reach_greeted r
  obtain ⟨t, u, v, hpublish, hreach, hverdict, hidle, hsound⟩ :=
    System.greeted_publish topic payload
  rw [← hsystem] at hpublish
  have hpc : s.system.pc = .idle := by rw [hsystem]; rfl
  rw [← hreporter] at hcollect hmessages
  have hmade : s.step (onceJob .defaults) (.go smallHost) = some _ :=
    step_reporting hpc hstage hcollect hmessages
  obtain ⟨es, htold⟩ := reach_completed (onceJob .defaults) (s := { s with
    stage := .publishing .once (todo.length + 1) 0 ((topic, payload) :: todo)
    log := .report smallHost ((topic, payload) :: todo) :: s.log }) (C := fun _ _ => True)
    (fun _ _ _ => trivial) rfl hpc hpublish hreach hverdict
  refine ⟨_, (hs.snoc trivial hmade).trans htold, rfl, hidle, hsound, hreporter, ?_⟩
  rw [reportsIn_append, reportsIn_report, hreports, List.nil_append]

/-- The first message of a report is delivered, and nobody answers the others: the status counts
one. -/
theorem status_law_once : ∃ cfg r s total connected before,
    fromYaml .defaultsOnly .empty "" "host" (fun _ => none) = .ok cfg ∧
      withIo cfg .zero = .ok r ∧
      Reachable (Service.step (onceJob .defaults)) (.init (onceJob .defaults) r .zero .zero .zero) s ∧
      .note (.status 1 1 total connected) :: before <:+ s.log ∧
      ∃ messages m, reportsIn before = [messages] ∧ total = messages.length ∧
        m.content ∈ messages ∧ (m, .report) ∈ calledIn (sessionsIn before) ∧
        Delivered s.system.link.hist m := by
  obtain ⟨cfg, r, hcfg, hr, hrcfg, hdata, haccepted, -, -, -, hzero⟩ := withIo_defaultsOnly
  obtain ⟨snapshot, messages, hcollect, hmessages⟩ := Service.exists_messages haccepted smallHost
  obtain ⟨⟨topic, payload⟩, todo, rfl⟩ := List.exists_cons_of_ne_nil
    (messages_ne_nil (by rw [hdata]; rfl) hmessages)
  rw [← hrcfg] at hcollect hmessages
  obtain ⟨s, hs, hstage, hidle, hsound, hreporter, hreports⟩ :=
    Service.reach_delivered r hcollect hmessages
  obtain ⟨system, es, hreturned, ht⟩ := Service.reach_published (onceJob .defaults) todo
    (fun _ _ _ => trivial) hstage hidle hsound
  have hreach := hs.trans ht
  have hlast : ∃ u connected, Service.step (onceJob .defaults) { s with
      system := system
      stage := .publishing .once (todo.length + 1) 1 []
      log := es.map .session ++ s.log } (.go smallHost) = some u ∧
        .note (.status 1 1 (todo.length + 1) connected) :: (es.map .session ++ s.log) <:+ u.log := by
    rw [Service.step, if_pos hreturned.idle]
    simp only [Service.go, Service.locked, hreturned.sound, Bool.false_eq_true, if_false]
    rw [hreporter, hzero]
    exact ⟨_, _, rfl, List.suffix_cons _ _⟩
  obtain ⟨u, connected, hlast, hnote⟩ := hlast
  have hreach := hreach.snoc trivial hlast
  obtain ⟨-, earlier, messages, done, hmade, htotal, hcounted, hcontent, -, hdelivered⟩ :=
    status_law .defaultsOnly (onceJob .defaults) "" "host" _ cfg hcfg .zero .zero .zero le_rfl r hr u
      hreach _ _ _ _ _ hnote
  obtain ⟨m, rfl⟩ := List.length_eq_one_iff.1 hcounted
  rw [reportsIn_append, hreports] at hmade
  obtain rfl : earlier = [] := by simpa using congrArg List.length hmade
  exact ⟨cfg, r, u, _, connected, _, hcfg, hr, hreach, hnote, messages, m,
    by rw [reportsIn_append, hreports, hmade, List.nil_append], htotal,
    hcontent.subset (by simp), hdelivered m (by simp)⟩

end SystemReport
