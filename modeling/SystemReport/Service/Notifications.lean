import SystemReport.SdNotify.Socket
import SystemReport.Service.Lifecycle

/-!
# What systemd hears

The notifications of a run go out as datagrams, if the system takes them.  `notification_law` says
what has come of them whatever the system makes of each attempt: the datagrams that went out whole
are read back as notifications of the run, in its order, and every other attempt is in a warning.
-/

set_option autoImplicit false

open Machine

namespace SystemReport

open Mqtt Reporter Config Collectors

/-! ## The texts -/

/-- The text for `status`, in `report_once`. -/
def statusText (reports : UInt64) (completed total : ℕ) (connected : Bool) : String :=
  "reports=" ++ toString reports.toNat ++ " completed=" ++ toString completed ++ "/" ++
    toString total ++ " connected=" ++ toString connected

namespace Note

/-- The datagram of a notification. -/
def text : Note → String
  | ready => "READY=1"
  | watchdog => "WATCHDOG=1"
  | status reports completed total connected =>
    "STATUS=" ++ statusText reports completed total connected
  | stopping => "STOPPING=1"

/-- The method of the notifier. -/
def say (n : Notifier) (k : Notifier.Kernel) (socket : Notifier.Socket) :
    Note → Bool × Notifier.Socket
  | ready => n.ready k socket
  | watchdog => n.watchdog k socket
  | status reports completed total connected =>
    n.status k (statusText reports completed total connected) socket
  | stopping => n.stopping k socket

/-! ## Reading a datagram -/

/-- A word with a name before it. -/
def valueOf (name word : String) : Option String := Text.stripPrefix word (name ++ "=")

/-- A decimal number. -/
def numberOf (s : String) : Option ℕ :=
  if s.toList ≠ [] ∧ s.toList.all Char.isDigit then some (Nat.ofDigitChars 10 s.toList 0) else none

def boolOf : String → Option Bool
  | "true" => some true
  | "false" => some false
  | _ => none

/-- What a status says. -/
def readStatus (s : String) : Option Note :=
  match Text.split s ' ' with
  | [reports, counts, connected] => do
    let reports ← (valueOf "reports" reports).bind numberOf
    let connected ← (valueOf "connected" connected).bind boolOf
    let counts ← valueOf "completed" counts
    match Text.split counts '/' with
    | [completed, total] => do
      let completed ← numberOf completed
      let total ← numberOf total
      some (status (.ofNat reports) completed total connected)
    | _ => none
  | _ => none

/-- What a datagram says.  Its lines are assignments, and here there is one. -/
def read (s : String) : Option Note :=
  if '\n' ∈ s.toList then none
  else
    match valueOf "STATUS" s with
    | some text => readStatus text
    | none =>
      if s = "READY=1" then some ready
      else if s = "WATCHDOG=1" then some watchdog
      else if s = "STOPPING=1" then some stopping
      else none

theorem numberOf_toString (n : ℕ) : numberOf (toString n) = some n := by
  have hdigits : ∀ c ∈ Nat.toDigits 10 n, c.isDigit = true := fun _ =>
    Nat.isDigit_of_mem_toDigits (by decide) (by decide)
  have htext : (toString n).toList = Nat.toDigits 10 n := Nat.toList_repr
  rw [numberOf, htext, if_pos ⟨Nat.toDigits_ne_nil, by simpa using hdigits⟩,
    Nat.ofDigitChars_ten_toDigits]

theorem valueOf_append (name value : String) :
    valueOf name (name ++ "=" ++ value) = some value := by
  simp [valueOf, Text.stripPrefix]

theorem boolOf_toString (b : Bool) : boolOf (toString b) = some b := by cases b <;> rfl

/-- A number has digits only. -/
theorem notMem_toString {c : Char} (h : c.isDigit = false) (n : ℕ) : c ∉ (toString n).toList := by
  have htext : (toString n).toList = Nat.toDigits 10 n := Nat.toList_repr
  rw [htext]
  intro hc
  rw [Nat.isDigit_of_mem_toDigits (by decide) (by decide) hc] at h
  cases h

theorem statusText_eq (reports : UInt64) (completed total : ℕ) (connected : Bool) :
    statusText reports completed total connected =
      "reports" ++ "=" ++ toString reports.toNat ++ .singleton ' ' ++
        ("completed" ++ "=" ++ (toString completed ++ .singleton '/' ++ toString total) ++
          .singleton ' ' ++ ("connected" ++ "=" ++ toString connected)) := by
  simp [statusText, ← String.toList_inj]

theorem readStatus_statusText (reports : UInt64) (completed total : ℕ) (connected : Bool) :
    readStatus (statusText reports completed total connected) =
      some (status reports completed total connected) := by
  have hreports : ' ' ∉ ("reports" ++ "=" ++ toString reports.toNat).toList := by
    simpa using notMem_toString (c := ' ') rfl reports.toNat
  have hcounts : ' ' ∉ ("completed" ++ "=" ++
      (toString completed ++ .singleton '/' ++ toString total)).toList := by
    simpa using And.intro (notMem_toString (c := ' ') rfl completed)
      (notMem_toString (c := ' ') rfl total)
  have hconnected : ' ' ∉ ("connected" ++ "=" ++ toString connected).toList := by
    cases connected <;> decide
  rw [readStatus, statusText_eq, Text.split_append hreports, Text.split_append hcounts,
    Text.split_of_notMem hconnected]
  simp only [valueOf_append, Option.bind_some, numberOf_toString, boolOf_toString,
    Text.split_append (notMem_toString (c := '/') rfl completed),
    Text.split_of_notMem (notMem_toString (c := '/') rfl total), Option.bind_eq_bind]
  simp

/-- **A datagram says what was to be said.** -/
theorem read_text (note : Note) : read note.text = some note := by
  cases note with
  | ready | watchdog | stopping => decide
  | status reports completed total connected =>
    have htext : (status reports completed total connected).text =
        "STATUS" ++ "=" ++ statusText reports completed total connected := rfl
    have hline : '\n' ∉ (status reports completed total connected).text.toList := by
      have hreports := notMem_toString (c := '\n') rfl reports.toNat
      have hcompleted := notMem_toString (c := '\n') rfl completed
      have htotal := notMem_toString (c := '\n') rfl total
      have hconnected : '\n' ∉ (toString connected).toList := by cases connected <;> decide
      simp only [text, statusText, String.toList_append, List.mem_append, not_or, hreports,
        hcompleted, htotal, hconnected, not_false_eq_true, and_true]
      decide
    rw [read, if_neg hline, htext, valueOf_append]
    exact readStatus_statusText reports completed total connected

end Note

/-! ## Sending the notifications of a run -/

namespace Notifier

/-- `watchdog` sends nothing without a deadline. -/
def sends (n : Notifier) : Note → Bool
  | .watchdog => n.watchdogUsec.isSome
  | _ => true

theorem say_eq (n : Notifier) (k : Kernel) (socket : Socket) (note : Note) :
    note.say n k socket =
      if n.sends note then n.notify k note.text socket else (false, socket) := by
  cases note <;> rfl

/-- The socket after some notifications, each with what the system makes of it. -/
def tell (n : Notifier) : List (Note × Kernel) → Socket → Socket
  | [], socket => socket
  | (note, k) :: told, socket => tell n told (note.say n k socket).2

/-- The notifications that are attempted, and whether they have gone out. -/
def outcomes (n : Notifier) : List (Note × Kernel) → Socket → List (Note × Bool)
  | [], _ => []
  | (note, k) :: told, socket =>
    (if n.sends note then [(note, (note.say n k socket).1)] else []) ++
      outcomes n told (note.say n k socket).2

/-- Those that have gone out, and those that have not. -/
def wentOut (results : List (Note × Bool)) : List Note :=
  (results.filter fun r => r.2).map Prod.fst

def failed (results : List (Note × Bool)) : List Note :=
  (results.filter fun r => !r.2).map Prod.fst

/-- What has become of some notifications. -/
structure Accounts (n : Notifier) (told : List (Note × Kernel)) (socket : Socket) : Prop where
  attempts : (n.outcomes told socket).map Prod.fst = (told.map Prod.fst).filter n.sends
  heard : (n.tell told socket).heard =
    socket.heard ++ (wentOut (n.outcomes told socket)).map Note.text
  warned : (n.tell told socket).warnings.map Prod.fst = socket.warnings.map Prod.fst ++
    if n.enabled then (failed (n.outcomes told socket)).map Note.text else []
  opened : (n.tell told socket).opened + socket.warnings.length + (if socket.isOpen then 1 else 0) ≤
    socket.opened + (n.tell told socket).warnings.length +
      if (n.tell told socket).isOpen then 1 else 0

theorem wentOut_cons (note : Note) (b : Bool) (results : List (Note × Bool)) :
    wentOut ((note, b) :: results) = (if b then [note] else []) ++ wentOut results := by
  cases b <;> rfl

theorem failed_cons (note : Note) (b : Bool) (results : List (Note × Bool)) :
    failed ((note, b) :: results) = (if b then [] else [note]) ++ failed results := by
  cases b <;> rfl

/-- A notification that is not sent changes nothing. -/
theorem accounts_silent {n : Notifier} {note : Note} {k : Kernel} {told : List (Note × Kernel)}
    {socket : Socket} (hsends : n.sends note = false) (h : Accounts n told socket) :
    Accounts n ((note, k) :: told) socket := by
  have hsay : note.say n k socket = (false, socket) := by
    rw [say_eq, hsends]
    rfl
  have houtcomes : n.outcomes ((note, k) :: told) socket = n.outcomes told socket := by
    rw [outcomes, hsends, hsay]
    rfl
  have htell : n.tell ((note, k) :: told) socket = n.tell told socket := by rw [tell, hsay]
  refine ⟨?_, ?_, ?_, ?_⟩
  · rw [houtcomes, h.attempts, List.map_cons, List.filter_cons_of_neg (by simp [hsends])]
  · rw [htell, houtcomes, h.heard]
  · rw [htell, houtcomes, h.warned]
  · rw [htell]
    exact h.opened

/-- An attempt puts its notification on one side or the other. -/
theorem accounts_attempt {n : Notifier} {note : Note} {k : Kernel} {told : List (Note × Kernel)}
    {socket : Socket} (hsends : n.sends note = true)
    (h : Accounts n told (n.notify k note.text socket).2) :
    Accounts n ((note, k) :: told) socket := by
  have hsay : note.say n k socket = n.notify k note.text socket := by rw [say_eq, if_pos hsends]
  have htell : n.tell ((note, k) :: told) socket =
      n.tell told (n.notify k note.text socket).2 := by rw [tell, hsay]
  have houtcomes : n.outcomes ((note, k) :: told) socket =
      (note, (n.notify k note.text socket).1) ::
        n.outcomes told (n.notify k note.text socket).2 := by
    rw [outcomes, if_pos hsends, hsay]
    rfl
  have hattempted := attempted n k note.text socket
  generalize n.notify k note.text socket = result at *
  refine ⟨?_, ?_, ?_, ?_⟩
  · rw [houtcomes, List.map_cons, h.attempts, List.map_cons, List.filter_cons_of_pos hsends]
  · rw [htell, houtcomes, h.heard, hattempted.heard, wentOut_cons, List.map_append,
      List.append_assoc]
    cases result.1 <;> rfl
  · rw [htell, houtcomes, h.warned, hattempted.warned, failed_cons, List.append_assoc]
    cases n.enabled <;> cases result.1 <;> rfl
  · rw [htell]
    have hopened := h.opened
    have hmore := hattempted.opened
    have hwarnings := congrArg List.length hattempted.warned
    have hisOpen := hattempted.isOpen
    rw [List.length_append, List.length_map, List.length_map] at hwarnings
    cases henabled : n.enabled with
    | false =>
      have hsame : result.2 = socket := congrArg Prod.snd (hattempted.disabled henabled)
      rw [hsame] at hopened ⊢
      exact hopened
    | true =>
      rw [henabled] at hwarnings hisOpen
      rw [if_pos rfl] at hisOpen
      rw [hisOpen] at hopened
      cases hresult : result.1 <;> cases hsocket : socket.isOpen <;>
        simp only [hresult, hsocket, Bool.not_false, Bool.not_true, Bool.and_true, Bool.and_false,
          if_true, Bool.false_eq_true, if_false, List.length_singleton, List.length_nil]
          at hwarnings hopened hmore ⊢ <;>
        omega

/-- **Every attempt is accounted for.** -/
theorem accounts_of_told (n : Notifier) (told : List (Note × Kernel)) :
    ∀ socket, Accounts n told socket := by
  induction told with
  | nil =>
    exact fun socket =>
      ⟨rfl, by simp [tell, outcomes, wentOut], by simp [tell, outcomes, failed], le_rfl⟩
  | cons e told ih =>
    intro socket
    cases hsends : n.sends e.1 with
    | true => exact accounts_attempt hsends (ih _)
    | false => exact accounts_silent hsends (ih _)

instance (k : Kernel) (address message : String) : Decidable (k.Takes address message) :=
  inferInstanceAs (Decidable (_ = _))

/-- **A failure is not remembered.**  As long as there are sockets to be had, a notification goes out
exactly if the receiver takes it, whatever has become of those before it. -/
theorem wentOut_of_unbound {n : Notifier} {address : String} (haddress : n.address = some address)
    {told : List (Note × Kernel)} (hunbound : ∀ e ∈ told, e.2.unbound = .ok ()) :
    ∀ socket, wentOut (n.outcomes told socket) =
      (told.filter fun e => n.sends e.1 && decide (e.2.Takes address e.1.text)).map Prod.fst := by
  induction told with
  | nil => exact fun _ => rfl
  | cons e told ih =>
    rw [List.forall_mem_cons] at hunbound
    intro socket
    obtain ⟨note, k⟩ := e
    rw [outcomes, say_eq]
    cases hsends : n.sends note with
    | false =>
      rw [List.filter_cons_of_neg (by simp [hsends])]
      exact ih hunbound.2 _
    | true =>
      have hsucceeds : (n.notify k note.text socket).1 = true ↔ k.Takes address note.text := by
        have hprovides : k.unbound = .ok () := hunbound.1
        rw [(attempted n k note.text socket).succeeds]
        simp [hprovides, haddress]
      rw [if_pos rfl, if_pos rfl, List.singleton_append, wentOut_cons, ih hunbound.2]
      by_cases htakes : k.Takes address note.text
      · rw [List.filter_cons_of_pos (by simp [hsends, htakes]), hsucceeds.2 htakes]
        rfl
      · rw [List.filter_cons_of_neg (by simp [htakes]), if_neg (hsucceeds.not.2 htakes)]
        rfl

end Notifier

/-! ## The notifications of a run -/

/-- The notifications in the record, in order. -/
def notesIn (log : List Entry) : List Note :=
  (log.filterMap fun
    | .note n => some n
    | _ => none).reverse

/-- Neither the first notification nor the last one. -/
def Note.between : Note → Bool
  | .watchdog | .status _ _ _ _ => true
  | .ready | .stopping => false

/-- The notifications up to some phase. -/
def Phase.Told : Phase → List Note → Prop
  | .starting, notes => notes = []
  | .serving, notes => ∃ middle, notes = .ready :: middle ∧ middle.all Note.between = true
  | .leaving, notes =>
    ∃ middle, notes = .ready :: (middle ++ [.stopping]) ∧ middle.all Note.between = true

@[simp] theorem notesIn_note (n : Note) (log : List Entry) :
    notesIn (.note n :: log) = notesIn log ++ [n] := by
  simp [notesIn]

@[simp] theorem notesIn_tick (e : Reporter.Event) (log : List Entry) :
    notesIn (.tick e :: log) = notesIn log := rfl

@[simp] theorem notesIn_report (host : Host) (messages : List (String × String))
    (log : List Entry) : notesIn (.report host messages :: log) = notesIn log := rfl

@[simp] theorem notesIn_append (es : List SessionEvent) (log : List Entry) :
    notesIn (es.map .session ++ log) = notesIn log := by
  induction es with
  | nil => rfl
  | cons e es ih => exact ih

/-- A notification belongs to the phase in which it comes. -/
theorem told_note {p q : Phase} {n : Note} {notes : List Note} (h : p.Told notes)
    (hnext : p.next (.note n) = some q) : q.Told (notes ++ [n]) := by
  cases p with
  | starting =>
    obtain rfl : notes = [] := h
    cases n with
    | ready =>
      cases hnext
      exact ⟨[], rfl, rfl⟩
    | watchdog | status | stopping => cases hnext
  | serving =>
    obtain ⟨middle, rfl, hmiddle⟩ := h
    cases n with
    | ready => cases hnext
    | stopping =>
      cases hnext
      exact ⟨middle, rfl, hmiddle⟩
    | watchdog | status =>
      cases hnext
      exact ⟨middle ++ [_], rfl, by rw [List.all_append, hmiddle]; rfl⟩
  | leaving => cases n <;> cases hnext

theorem told_of_phaseOf : ∀ {log : List Entry} {p : Phase}, phaseOf log = some p →
    p.Told (notesIn log)
  | [], _, h => by
    cases h
    rfl
  | e :: log, q, h => by
    rw [phaseOf_cons] at h
    obtain ⟨p, hp, hnext⟩ := Option.bind_eq_some_iff.1 h
    have ih := told_of_phaseOf hp
    cases e with
    | note n =>
      rw [notesIn_note]
      exact told_note ih hnext
    | session e =>
      rw [Phase.next] at hnext
      split at hnext
      · cases hnext
        exact ih
      · cases hnext
    | report messages =>
      cases p with
      | serving =>
        cases hnext
        exact ih
      | starting | leaving => cases hnext
    | tick e =>
      cases p with
      | serving =>
        cases hnext
        exact ih
      | starting | leaving => cases hnext

/-- What has become of the notifications of a run, whatever the system has made of each attempt. -/
structure Heard (n : Notifier) (notes : List Note) (told : List (Note × Notifier.Kernel))
    (socket : Notifier.Socket) : Prop where
  /-- the first one is `READY=1`, and nothing comes after `STOPPING=1` -/
  orderly : ∃ p : Phase, p.Told notes
  /-- the datagrams that went out whole, and the warnings, are read back as the notifications that
  were attempted, each of which is in one place -/
  accounts : ∃ results : List (Note × Bool), results.map Prod.fst = notes.filter n.sends ∧
    socket.heard.map Note.read = (Notifier.wentOut results).map some ∧
    socket.warnings.map (fun w => Note.read w.1) =
      if n.enabled then (Notifier.failed results).map some else []
  /-- a further socket costs a warning -/
  opened : socket.opened ≤ socket.warnings.length + 1
  /-- a failure is not remembered -/
  retried : ∀ address, n.address = some address → (∀ e ∈ told, e.2.unbound = .ok ()) →
    socket.heard = (told.filter fun e =>
      n.sends e.1 && decide (e.2.Takes address e.1.text)).map fun e => e.1.text
  disabled : n.enabled = false → socket = .fresh

theorem tell_disabled {n : Notifier} (h : n.enabled = false) (told : List (Note × Notifier.Kernel))
    (socket : Notifier.Socket) : n.tell told socket = socket := by
  induction told with
  | nil => rfl
  | cons e told ih =>
    have hsay : (e.1.say n e.2 socket).2 = socket := by
      rw [Notifier.say_eq]
      split
      · rw [(Notifier.attempted n e.2 e.1.text socket).disabled h]
      · rfl
    rw [Notifier.tell, hsay, ih]

theorem map_read_text (notes : List Note) :
    (notes.map Note.text).map Note.read = notes.map some := by
  rw [List.map_map]
  exact List.map_congr_left fun note _ => Note.read_text note

/-- **What systemd hears.**  In every run of the program, and whatever the system makes of each attempt
to send: the notifications come as `READY=1`, watchdogs and statuses, `STOPPING=1`; those whose
datagram goes out whole are read from it as they were meant, in the order in which they were made,
and each of the others is in a warning. -/
theorem notification_law (lib : SerdeYaml) (job : Job) (yaml hostname : String) (env : Env)
    (cfg : Config) (hcfg : fromYaml lib job.platform yaml hostname env = .ok cfg)
    (built epoch now : Duration) (r : Reporter)
    (hr : withIo cfg (now.saturatingSub epoch) = .ok r) (s : Service)
    (hs : Reachable (Service.step job) (.init job r built epoch now) s)
    (told : List (Note × Notifier.Kernel)) (htold : told.map Prod.fst = notesIn s.log) :
    Heard job.notifier (notesIn s.log) told (job.notifier.tell told .fresh) := by
  obtain ⟨haccepted, -⟩ := accepted_of_fromYaml hcfg
  obtain ⟨rfl, -⟩ := follows_of_withIo hr
  have hlives := Service.lives_of_reach haccepted (counts_of_withIo hr).1 hs
  have haccounts := Notifier.accounts_of_told job.notifier told .fresh
  refine ⟨?_, ⟨job.notifier.outcomes told .fresh, ?_, ?_, ?_⟩, ?_, ?_, ?_⟩
  · rcases hlives.phase with hphase | ⟨-, hphase, -⟩
    · exact ⟨_, told_of_phaseOf hphase⟩
    · exact ⟨_, told_of_phaseOf hphase⟩
  · rw [haccounts.attempts, htold]
  · rw [haccounts.heard, show Notifier.Socket.fresh.heard = [] from rfl, List.nil_append,
      map_read_text]
  · have hwarned : (job.notifier.tell told .fresh).warnings.map Prod.fst =
        if job.notifier.enabled then
          (Notifier.failed (job.notifier.outcomes told .fresh)).map Note.text else [] :=
      haccounts.warned
    have hmap : (job.notifier.tell told .fresh).warnings.map (fun w => Note.read w.1) =
        ((job.notifier.tell told .fresh).warnings.map Prod.fst).map Note.read := by
      rw [List.map_map]
      rfl
    rw [hmap, hwarned]
    split
    · exact map_read_text _
    · rfl
  · have hopened : (job.notifier.tell told .fresh).opened + 0 + 0 ≤
        0 + (job.notifier.tell told .fresh).warnings.length +
          if (job.notifier.tell told .fresh).isOpen then 1 else 0 := haccounts.opened
    have hone : (if (job.notifier.tell told .fresh).isOpen then 1 else 0) ≤ 1 := by
      split <;> omega
    omega
  · intro address haddress hunbound
    rw [haccounts.heard, Notifier.wentOut_of_unbound haddress hunbound, List.map_map]
    rfl
  · exact fun h => tell_disabled h told .fresh

/-- A program that systemd has started. -/
def unitJob : Job where
  platform := .empty
  set := .defaults
  notifier := .fromEnv 1 fun name =>
    if name = "NOTIFY_SOCKET" then some "/run/systemd/notify" else none
  once := none

/-- A receiver that takes every message. -/
def takingAll : Notifier.Kernel where
  unbound := .ok ()
  fromAbstractName _ := .ok ()
  sendToAddr _ message := .ok message.utf8ByteSize
  sendTo _ message := .ok message.utf8ByteSize

/-- A receiver that takes one byte less. -/
def takingLess : Notifier.Kernel where
  unbound := .ok ()
  fromAbstractName _ := .ok ()
  sendToAddr _ message := .ok (message.utf8ByteSize - 1)
  sendTo _ message := .ok (message.utf8ByteSize - 1)

theorem takingLess_not_takes (note : Note) :
    ¬ takingLess.Takes "/run/systemd/notify" note.text := by
  have hpos : 0 < note.text.utf8ByteSize := by
    cases note with
    | ready | watchdog | stopping => decide
    | status =>
      rw [Note.text, String.utf8ByteSize_append]
      exact Nat.add_pos_left (by decide) _
  intro h
  have heq : note.text.utf8ByteSize - 1 = note.text.utf8ByteSize := Except.ok.inj h
  omega

/-- The notifications of a run with one report, of which the status does not go out whole. -/
def shortStatus (total : ℕ) : List (Note × Notifier.Kernel) :=
  [(.ready, takingAll), (.status 1 0 total true, takingLess), (.watchdog, takingAll),
    (.stopping, takingAll)]

/-- The status is in a warning, and the notifications around it are heard. -/
theorem notification_law_short : ∃ cfg r s total,
    fromYaml .defaultsOnly .empty "" "host" (fun _ => none) = .ok cfg ∧
      withIo cfg .zero = .ok r ∧
      Reachable (Service.step unitJob) (.init unitJob r .zero .zero .zero) s ∧
      notesIn s.log = [.ready, .status 1 0 total true, .watchdog, .stopping] ∧
      (unitJob.notifier.tell (shortStatus total) .fresh).heard = ["READY=1", "STOPPING=1"] ∧
      (unitJob.notifier.tell (shortStatus total) .fresh).warnings.map (fun w => Note.read w.1) =
        [some (.status 1 0 total true)] := by
  obtain ⟨cfg, r, hcfg, hr, hrcfg, -, haccepted, -, hnext, -, hreports⟩ := withIo_defaultsOnly
  obtain ⟨messages, es, s, hs, hstage, -, -, hlog⟩ :=
    Service.reach_served unitJob r (hrcfg ▸ haccepted) rfl hnext hreports
  have hnotes : notesIn s.log = [.ready, .status 1 0 messages.length true, .watchdog, .stopping] := by
    rw [hlog]
    simp only [List.cons_append, List.nil_append, notesIn_note, notesIn_tick, notesIn_append,
      notesIn_report]
    rfl
  have hheard := notification_law .defaultsOnly unitJob "" "host" _ cfg hcfg .zero .zero .zero r hr
    s hs (shortStatus messages.length) (by rw [hnotes]; rfl)
  have hwhole : (unitJob.notifier.tell (shortStatus messages.length) .fresh).heard =
      ["READY=1", "STOPPING=1"] := by
    rw [hheard.retried "/run/systemd/notify" rfl (by simp [shortStatus, takingAll, takingLess])]
    have htakes (note : Note) : takingAll.Takes "/run/systemd/notify" note.text := rfl
    rw [shortStatus, List.filter_cons_of_pos (by simp [htakes, Notifier.sends]),
      List.filter_cons_of_neg (by simp [takingLess_not_takes]),
      List.filter_cons_of_neg (by simp [unitJob, Notifier.sends, Notifier.fromEnv]),
      List.filter_cons_of_pos (by simp [htakes, Notifier.sends])]
    rfl
  obtain ⟨results, hattempts, hread, hwarned⟩ := hheard.accounts
  rw [hwhole] at hread
  have hattempts : results.map Prod.fst =
      [.ready, .status 1 0 messages.length true, .stopping] := hattempts.trans (by rw [hnotes]; rfl)
  have hread : (Notifier.wentOut results).map some = [some .ready, some .stopping] :=
    hread.symm.trans (by decide)
  refine ⟨cfg, r, s, _, hcfg, hr, hs, hnotes, hwhole, hwarned.trans ?_⟩
  -- of the three attempts, the first and the last have gone out
  obtain ⟨⟨_, first⟩, _, rfl, rfl, hrest⟩ := List.map_eq_cons_iff.1 hattempts
  obtain ⟨⟨_, second⟩, _, rfl, rfl, hlast⟩ := List.map_eq_cons_iff.1 hrest
  obtain ⟨⟨_, third⟩, rfl, rfl⟩ := List.map_eq_singleton_iff.1 hlast
  cases first <;> cases second <;> cases third <;> simp [Notifier.wentOut] at hread
  rfl

end SystemReport
