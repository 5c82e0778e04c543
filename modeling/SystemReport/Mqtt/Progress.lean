import SystemReport.Lib.Rank
import SystemReport.Mqtt.Publisher

/-!
# Calls return

The methods of the publisher wait for the network thread twice: `publish()` for a verdict, with a
timeout, and `teardown()` for the end of the thread, without one.  `calls_return` says that no call
waits for ever, whatever the network does: a call takes at most six more steps of its own, the one
in which the thread obeys the stop signal included, and the next of them can always be taken, as a
thread that is joined has its stop signal waiting.
-/

set_option autoImplicit false

open Machine

namespace SystemReport
namespace Mqtt

/-! ## How far a call is -/

/-- A step within a call, or the one of the network thread that a join waits for. -/
def Act.settles : Act → Bool
  | .goodbye | .countDrop | .send | .verdict _ | .timeout | .signal | .join | .spawn _ => true
  | .worker (.stop _) => true
  | _ => false

/-- A step of the network or of time, or the death of the thread. -/
def Act.foreign : Act → Bool
  | .worker (.stop _) => false
  | .worker _ | .die _ | .advance _ => true
  | _ => false

/-- How many steps of its own a call takes at most, from a given point on. -/
def Pc.left : Pc → ℕ
  | .idle | .panicked => 0
  | .spawning | .dropping .report | .waiting _ .report | .joining (.stop _) => 1
  | .sending _ .report | .joining .start => 2
  | .signalling (.stop _) => 3
  | .dropping .goodbye | .waiting _ .goodbye | .signalling .start => 4
  | .sending _ .goodbye => 5
  | .stopping => 6

/-- The calling thread joins the network thread. -/
def Pc.isJoining : Pc → Bool
  | .joining _ => true
  | _ => false

/-- The steps that are left of the running call, with the one of a thread that is joined. -/
def System.left (s : System) : ℕ := s.pc.left + if s.pc.isJoining && s.running then 1 else 0

theorem Pc.left_le (pc : Pc) : pc.left ≤ 6 := by
  rcases pc with _ | _ | (_ | _) | ⟨_, _ | _⟩ | ⟨_, _ | _⟩ | (_ | _) | (_ | _) | _ | _ <;>
    simp [left]

namespace System

variable {set : Settings} {s t : System}

theorem left_le (s : System) : s.left ≤ 6 := by
  have hleft := s.pc.left_le
  rw [left]
  cases hpc : s.pc with
  | joining why => cases why <;> simp only [Pc.left] <;> split <;> omega
  | _ =>
    rw [hpc] at hleft
    simpa [Pc.isJoining] using hleft

/-- The stop signal is on its way exactly while the thread that is to get it is joined. -/
structure Signalled (s : System) : Prop where
  sent : s.pc.isJoining = true → s.stopSent = true
  joining : s.running = true → s.stopSent = true → s.pc.isJoining = true

theorem signalled_init (set : Settings) (now : Duration) : (init set now).Signalled :=
  ⟨nofun, fun h => by cases h⟩

namespace Signalled

/-- A step between two points of the calling thread at which it does not join. -/
theorem keep (h : s.Signalled) (hjoin : s.pc.isJoining = false) (hjoin' : t.pc.isJoining = false)
    (hrun : t.running = s.running) (hsent : t.stopSent = s.stopSent) : t.Signalled := by
  refine ⟨fun hj => ?_, fun hr hs => ?_⟩
  · rw [hjoin'] at hj
    cases hj
  · have := h.joining (hrun ▸ hr) (hsent ▸ hs)
    rw [hjoin] at this
    cases this

/-- Without a thread, the signal has nowhere to go. -/
theorem gone (hjoin : t.pc.isJoining = false) (hstill : t.running = false) : t.Signalled := by
  refine ⟨fun hj => ?_, fun hr => ?_⟩
  · rw [hjoin] at hj
    cases hj
  · rw [hstill] at hr
    cases hr

theorem step (h : s.Signalled) (hheld : s.Held) {a : Act} (hs : s.step set a = some t) :
    t.Signalled := by
  cases moved_of_step hs with
  | @worker i l hadmits hl =>
    obtain ⟨-, hphase⟩ := Link.shared_phase_step hl
    exact ⟨h.sent, fun _ => h.joining (running_of_step hl)⟩
  | die hrun => exact ⟨h.sent, fun hr => by cases hr⟩
  | advance => exact ⟨h.sent, h.joining⟩
  | publish hpc | goodbye hpc =>
    rw [onPublish]
    split
    · refine locked_of (P := Signalled) (h.keep (by rw [hpc]; rfl) rfl rfl rfl) fun _ => ?_
      cases s.connected <;> exact h.keep (by rw [hpc]; rfl) rfl rfl rfl
    · exact h.keep (by rw [hpc]; rfl) rfl rfl rfl
  | @countDrop who hpc =>
    refine locked_of (P := Signalled) (h.keep (by rw [hpc]; rfl) rfl rfl rfl) fun _ => ?_
    split <;> cases who <;> exact h.keep (by rw [hpc]; rfl) rfl rfl rfl
  | @send m who hpc =>
    rw [onSend]
    split
    · exact h.keep (by rw [hpc]; rfl) rfl rfl rfl
    · cases who <;> exact h.keep (by rw [hpc]; rfl) rfl rfl rfl
  | @verdict r _ who hpc | @timeout r who hpc =>
    cases who <;> exact h.keep (by rw [hpc]; rfl) rfl rfl rfl
  | start hpc | stopIdle hpc => exact h.keep (by rw [hpc]; rfl) rfl rfl rfl
  | maintain hpc =>
    refine locked_of (P := Signalled) (h.keep (by rw [hpc]; rfl) rfl rfl rfl) fun _ => ?_
    split
    · exact h.keep (by rw [hpc]; rfl) rfl rfl rfl
    · exact h
  | maintainOff => exact h
  | stop hpc =>
    refine locked_of (P := Signalled) (h.keep (by rw [hpc]; rfl) rfl rfl rfl) fun _ => ?_
    cases s.connected <;> exact h.keep (by rw [hpc]; rfl) rfl rfl rfl
  | signal => exact ⟨fun _ => rfl, fun _ _ => rfl⟩
  | @tornDown why hpc hworker =>
    have hstill := (hheld.gone (by simp [hpc]) (by simp [hpc]) hworker).2
    refine locked_of (P := Signalled) (gone rfl hstill) fun _ => gone ?_ hstill
    cases why <;> rfl
  | @join why _ hstill =>
    refine locked_of (P := Signalled) (gone rfl hstill) fun _ => gone ?_ hstill
    cases why <;> rfl
  | spawn hpc =>
    have hstill := hheld.spawning hpc
    refine locked_of (P := Signalled) (gone rfl hstill) fun _ => ?_
    split
    · exact ⟨(fun hpc => by cases hpc), fun _ hsent => by cases hsent⟩
    · exact gone rfl hstill

end Signalled

/-! ## What a step does to the rest of a call -/

/-- A lock section that panics ends the call. -/
theorem left_locked_lt {n : ℕ} (hn : 0 < n) (ht : t.left < n) : (s.locked t).left < n :=
  locked_of (P := fun t => t.left < n) hn fun _ => ht

/-- Where nothing is joined, what is left is read off the point. -/
theorem left_eq {pc : Pc} (hpc : s.pc = pc) (hjoin : pc.isJoining = false) : s.left = pc.left := by
  rw [left, hpc, hjoin]
  rfl

/-- The wait for a thread that is joined counts for one step. -/
theorem left_joining_le {why : Why} (hpc : s.pc = .joining why) :
    s.left ≤ (Pc.joining why).left + 1 := by
  rw [left, hpc]
  split <;> omega

/-- **A step within a call brings its end closer.** -/
theorem left_lt (hsig : s.Signalled) {a : Act} (ha : a.settles = true)
    (hs : s.step set a = some t) : t.left < s.left := by
  cases moved_of_step hs with
  | @worker i l hadmits hl =>
    cases i with
    | stop disconnect =>
      have hrun := running_of_step hl
      have hjoin := hsig.joining hrun (by simpa [admits] using hadmits)
      have hstill : ({ s with link := l, slot := s.slotAfter (.stop disconnect) } : System).running =
          false := by
        simp [running, (Link.shared_phase_step hl).2, Link.phaseAfter]
      rw [left, left, hstill, hrun, hjoin]
      simp
    | _ => cases ha
  | die | advance | publish | start | maintain | maintainOff | stop | stopIdle => cases ha
  | goodbye hpc =>
    rw [left_eq hpc rfl, onPublish]
    split
    · refine left_locked_lt (by simp [Pc.left]) ?_
      cases s.connected <;> simp [left, Pc.left, Pc.isJoining]
    · simp [left, Pc.left, Pc.isJoining]
  | @countDrop who hpc =>
    rw [left_eq hpc rfl, onDrop]
    refine left_locked_lt (by cases who <;> simp [Pc.left]) ?_
    split <;> cases who <;> simp [left, Pc.left, Pc.isJoining, Caller.return]
  | @send m who hpc =>
    rw [left_eq hpc rfl, onSend]
    split <;> cases who <;> simp [left, Pc.left, Pc.isJoining, Caller.return]
  | @verdict r _ who hpc | @timeout r who hpc =>
    rw [left_eq hpc rfl]
    cases who <;> simp [left, Pc.left, Pc.isJoining, Caller.return]
  | @signal why hpc =>
    rw [left_eq hpc rfl]
    refine (left_joining_le rfl).trans_lt ?_
    cases why <;> simp [Pc.left]
  | @tornDown why hpc =>
    rw [left_eq hpc rfl, onTornDown]
    cases why <;>
      exact left_locked_lt (by simp [Pc.left]) (by simp [left, Pc.left, Pc.isJoining, Why.return])
  | @join why hpc =>
    have hleft : (Pc.joining why).left ≤ s.left := by
      rw [left, hpc]
      exact Nat.le_add_right _ _
    refine lt_of_lt_of_le ?_ hleft
    cases why <;>
      exact left_locked_lt (by simp [Pc.left]) (by simp [left, Pc.left, Pc.isJoining, Why.return])
  | spawn hpc =>
    rw [left_eq hpc rfl, onSpawn]
    refine left_locked_lt (by simp [Pc.left]) ?_
    split <;> simp [left, Pc.left, Pc.isJoining]

/-- **Nobody else puts it off.** -/
theorem left_le_of_foreign {a : Act} (ha : a.foreign = true) (hs : s.step set a = some t) :
    t.left ≤ s.left := by
  have hstill : ∀ {u : System}, u.pc = s.pc → (u.running = true → s.running = true) →
      u.left ≤ s.left := fun {u} hpc hrun => by
    rw [left, left, hpc]
    cases hu : u.running with
    | false => simp
    | true => rw [hrun hu]
  cases moved_of_step hs with
  | worker _ hl => exact hstill rfl fun _ => running_of_step hl
  | die hrun => exact hstill rfl fun _ => hrun
  | advance => exact hstill rfl id
  | _ => cases ha

/-- **The next step can be taken.** -/
theorem exists_settles (hsig : s.Signalled) (hleft : s.left ≠ 0) :
    ∃ a t, Act.settles a = true ∧ s.step set a = some t := by
  cases hpc : s.pc with
  | idle | panicked => exact absurd (by rw [left, hpc]; rfl) hleft
  | stopping => exact ⟨.goodbye, _, rfl, by rw [step, if_pos hpc]⟩
  | dropping who => exact ⟨.countDrop, _, rfl, by rw [step, hpc]⟩
  | sending m who => exact ⟨.send, _, rfl, by rw [step, hpc]⟩
  | waiting r who => exact ⟨.timeout, _, rfl, by rw [step, hpc]⟩
  | spawning => exact ⟨.spawn .ok, _, rfl, by rw [step, if_pos hpc]⟩
  | signalling why =>
    cases hworker : s.worker with
    | true => exact ⟨.signal, _, rfl, by simp only [step, hpc, hworker, if_true]; rfl⟩
    | false =>
      exact ⟨.signal, s.onTornDown why, rfl, by
        simp only [step, hpc, hworker, Bool.false_eq_true, if_false]⟩
  | joining why =>
    cases hrun : s.running with
    | false =>
      exact ⟨.join, s.onTornDown why, rfl, by
        simp only [step, hpc, hrun, Bool.false_eq_true, if_false]⟩
    | true =>
      -- the thread has its stop signal, and can obey it wherever it stands
      have hsent : s.stopSent = true := hsig.sent (by rw [hpc]; rfl)
      have hawaits : s.link.awaits (.stop false) = true := hrun
      obtain ⟨l, hl⟩ : ∃ l, s.link.step set (.stop false) = some l := by
        rw [Link.step, if_pos hawaits, Link.next, Link.onStop, if_pos (fun h => by cases h)]
        exact ⟨_, rfl⟩
      refine ⟨.worker (.stop false), { s with link := l }, rfl, ?_⟩
      rw [step, if_pos (show s.admits (.stop false) = true from hsent), hl]
      rfl

/-- Outside of a call nothing is left to do. -/
theorem left_eq_zero (h : s.left = 0) : s.pc = .idle ∨ s.pc = .panicked := by
  rw [left] at h
  have hleft : s.pc.left = 0 := by omega
  rcases hpc : s.pc with _ | _ | (_ | _) | ⟨_, _ | _⟩ | ⟨_, _ | _⟩ | (_ | _) | (_ | _) | _ | _ <;>
    simp [hpc, Pc.left] at hleft ⊢

theorem signalled_of_reach {now : Duration}
    (h : Reachable (step set) (init set now) s) : s.Signalled :=
  h.along (J := Held) (fun _ hr => held_of_reach hr) (signalled_init set now)
    fun _ _ _ hheld hi _ hs => hi.step hheld hs

/-- The publisher's calls are ranked by what is left of them. -/
theorem ranked (set : Settings) :
    Ranked (step set) Act.settles Act.foreign (fun s => s.Signalled ∧ s.Held) left where
  keeps _ _ _ h _ hs := ⟨h.1.step h.2 hs, held_step h.2 hs⟩
  own_lt _ _ _ h ha hs := left_lt h.1 ha hs
  other_le _ _ _ _ ha hs := left_le_of_foreign ha hs
  progress _ h hleft := exists_settles h.1 hleft

end System

/-- **Every call returns.**  In every reachable state of the publisher and its thread, and whatever
the network does from there on, the running call takes at most six more steps of its own, and can
take them all: the timeout ends its wait for a verdict, and the thread that it joins has its stop
signal and can obey it in every place where it waits. -/
theorem calls_return (set : Settings) (now : Duration) (s : System)
    (h : Reachable (System.step set) (System.init set now) s) :
    (∀ (acts : List Act) (t : System), (∀ a ∈ acts, a.settles || a.foreign) →
        acts.foldlM (System.step set) s = some t → acts.countP Act.settles ≤ 6) ∧
      ∃ (acts : List Act) (t : System), (∀ a ∈ acts, a.settles) ∧ acts.length ≤ 6 ∧
        acts.foldlM (System.step set) s = some t ∧ (t.pc = .idle ∨ t.pc = .panicked) := by
  have hinv := And.intro (System.signalled_of_reach h) (System.held_of_reach h)
  constructor
  · intro acts t hacts hrun
    have hcount := (System.ranked set).count_le hinv hacts hrun
    have hleft := s.left_le
    omega
  · obtain ⟨acts, t, hacts, hlength, hrun, -, ht⟩ := (System.ranked set).settles s hinv
    exact ⟨acts, t, hacts, hlength.trans s.left_le, hrun, System.left_eq_zero ht⟩

/-- `stop()` joins a thread that is still connecting. -/
theorem calls_return_joining : ∃ s : System, s.pc = .joining (.stop none) ∧ s.running = true ∧
    ∃ (acts : List Act) (t : System), acts.length ≤ 6 ∧
      acts.foldlM (System.step .defaults) s = some t ∧ (t.pc = .idle ∨ t.pc = .panicked) := by
  have hrun : (execWhile (System.step .defaults) (fun _ _ => True) (.init .defaults .zero)
      [.start, .signal, .spawn .ok, .stop, .signal]).isSome := by decide
  obtain ⟨-, acts, t, -, hlength, hacts, ht⟩ :=
    calls_return .defaults .zero _ (Reach.of_isSome hrun)
  exact ⟨_, rfl, rfl, acts, t, hlength, hacts, ht⟩

end Mqtt
end SystemReport
