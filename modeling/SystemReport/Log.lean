import SystemReport.Config.Load
import SystemReport.Lib.Framing
import SystemReport.Lib.Machine

/-!
# Logging

The handlers of `log.rs`: a syslog socket, of datagrams or a stream, or the console.  A socket that
fails is given up for the console, also for the record at hand, which on a stream may have been
written in part.  `log_law` says what becomes of the records of a run: every handler gets each of them
once and in order, up to some point through its socket and from there on through the console, and what
a stream has received can be taken apart again.
-/

set_option autoImplicit false

open Machine Framing Yaml

namespace SystemReport
namespace Log

/-- `log::Level`. -/
inductive Level
  | error
  | warn
  | info
  | debug
  | trace
deriving DecidableEq

/-- The order of the levels, with the most severe first. -/
def Level.rank : Level → ℕ
  | .error => 1
  | .warn => 2
  | .info => 3
  | .debug => 4
  | .trace => 5

/-- The severities of syslog. -/
def Level.severity : Level → ℕ
  | .error => 3
  | .warn => 4
  | .info => 6
  | _ => 7

/-- The names of `format_record`. -/
def Level.name : Level → String
  | .warn => "WARNING"
  | .error => "ERROR"
  | .info => "INFO"
  | .debug => "DEBUG"
  | .trace => "TRACE"

/-- What the program reads of a `log::Record`. -/
structure Record where
  target : String
  level : Level
  modulePath : Option String
  line : Option UInt32
  args : String
deriving DecidableEq

inductive Handler
  | console
  | datagram
  | stream
deriving DecidableEq

/-! ## Choosing a handler -/

/-- What there is at a path: whether it is a socket, and whether it can be used as one of datagrams or
as a stream, with a timeout for writing. -/
structure Probe where
  isSocket : Bool
  datagram : Bool
  stream : Bool

/-- `log_handler_address`. -/
def logHandlerAddress (probe : String → Probe) (files : List String) : Option String :=
  files.find? fun path => (probe path).isSocket

/-- `build_handler`. -/
def buildHandler (probe : String → Probe) (journalStream : Option String) (files : List String) :
    Handler :=
  if journalStream.any (· ≠ "") then .console
  else
    match logHandlerAddress probe files with
    | some path =>
      if (probe path).datagram then .datagram
      else if (probe path).stream then .stream
      else .console
    | none => .console

/-- A handler other than the console writes to the first socket there is, and the journal does not
capture the console. -/
theorem isSocket_of_buildHandler {probe : String → Probe} {journalStream : Option String}
    {files : List String} (h : buildHandler probe journalStream files ≠ .console) :
    journalStream.all (· = "") = true ∧ ∃ path, logHandlerAddress probe files = some path ∧
      path ∈ files ∧ (probe path).isSocket = true ∧
      ((probe path).datagram = true ∨ (probe path).stream = true) := by
  rw [buildHandler] at h
  split at h
  · exact absurd rfl h
  · rename_i hjournal
    cases hpath : logHandlerAddress probe files with
    | none =>
      rw [hpath] at h
      exact absurd rfl h
    | some path =>
      have hsocket := List.find?_some (p := fun path => (probe path).isSocket) hpath
      refine ⟨?_, path, rfl, List.mem_of_find?_eq_some hpath, hsocket, ?_⟩
      · cases journalStream with
        | none => rfl
        | some s => simpa using hjournal
      · by_contra hneither
        rw [not_or, Bool.not_eq_true, Bool.not_eq_true] at hneither
        simp [hpath, hneither.1, hneither.2] at h

/-- `LOG_SOCKETS`. -/
def logSockets : List String := ["/dev/log", "/var/run/syslog"]

/-! ## Formatting -/

/-- `{:>n}`. -/
def padLeft (n : ℕ) (s : String) : String :=
  .ofList (List.replicate (n - s.toList.length) ' ' ++ s.toList)

/-- `{:<n}`. -/
def padRight (n : ℕ) (s : String) : String :=
  .ofList (s.toList ++ List.replicate (n - s.toList.length) ' ')

/-- The first piece of `rsplit("::")`, which is what follows the last separator. -/
def lastPart (path : String) : String :=
  match Text.findList [':', ':'] path.toList.reverse with
  | some (before, _) => .ofList before.reverse
  | none => path

/-- `format_record`, at a given time. -/
def formatRecord (record : Record) (timestamp : String) (includeApp : Bool) : String :=
  let app := if includeApp then " [" ++ Config.appName ++ "]" else ""
  timestamp ++ app ++ " " ++ padLeft 12 (lastPart (record.modulePath.getD "unknown")) ++ ":" ++
    toString (record.line.getD 0).toNat ++ " " ++ padRight 8 record.level.name ++ " " ++ record.args

/-- The packet for syslog, without the NUL at its end: facility 3, the level, and the message. -/
def body (level : Level) (message : String) : String :=
  "<" ++ toString (24 + level.severity) ++ ">" ++ message

/-- The packet for syslog. -/
def packet (level : Level) (message : String) : String := body level message ++ "\x00"

/-- `str::as_bytes`. -/
def utf8 (s : String) : List UInt8 := s.toList.flatMap String.utf8EncodeChar

/-! ## The NUL at the end of a packet -/

/-- Only the NUL is encoded with a zero byte. -/
theorem eq_nul_of_mem_encode {c : Char} (h : 0 ∈ String.utf8EncodeChar c) : c = '\x00' := by
  have hzero : c.val.toNat = 0 := by
    rw [String.utf8EncodeChar] at h
    generalize c.val.toNat = v at h ⊢
    have hbyte {n : ℕ} (h : 0 = UInt8.ofNat n) : n % 256 = 0 := by
      simpa [← UInt8.toNat_inj] using h.symm
    split at h
    · have := hbyte (List.mem_singleton.1 h)
      omega
    · split at h
      · rcases List.mem_pair.1 h with h | h <;> have := hbyte h <;> omega
      · split at h <;> simp only [List.mem_cons, List.not_mem_nil, or_false] at h
        · rcases h with h | h | h <;> have := hbyte h <;> omega
        · rcases h with h | h | h | h <;> have := hbyte h <;> omega
  exact Char.ext (UInt32.toNat_inj.1 hzero)

theorem zero_notMem_utf8 {s : String} (h : '\x00' ∉ s.toList) : 0 ∉ utf8 s := by
  rw [utf8, List.mem_flatMap]
  rintro ⟨c, hc, hzero⟩
  rw [eq_nul_of_mem_encode hzero] at hc
  exact h hc

theorem utf8_packet (level : Level) (message : String) :
    utf8 (packet level message) = utf8 (body level message) ++ [0] := by
  rw [packet, utf8, utf8, String.toList_append, List.flatMap_append]
  rfl

theorem zero_notMem_body {level : Level} {message : String} (h : '\x00' ∉ message.toList) :
    0 ∉ utf8 (body level message) := by
  refine zero_notMem_utf8 ?_
  have hhead : '\x00' ∉ ("<" ++ toString (24 + level.severity) ++ ">").toList := by
    cases level <;> decide
  rw [body, String.toList_append, List.mem_append, not_or]
  exact ⟨hhead, h⟩

/-! ## The logger -/

/-- How a write to a socket ends: an error leaves some bytes of a packet written to a stream. -/
inductive Attempt
  | done
  | failed (written : ℕ)
deriving DecidableEq

/-- An entry of `handlers`, and for the record what has been written through it: the datagrams and the
bytes that the socket has got, and the lines for the console. -/
structure Channel where
  handler : Handler
  includeApp : Bool
  datagrams : List String
  bytes : List UInt8
  console : List String

/-- `Logger`. -/
structure Logger where
  handlers : List Channel
  debug : Bool

namespace Channel

/-- A channel through which nothing has been written. -/
def fresh (handler : Handler) (includeApp : Bool) : Channel := ⟨handler, includeApp, [], [], []⟩

/-- A line for the console; what becomes of it is not looked at. -/
def print (c : Channel) (message : String) : Channel := { c with console := c.console ++ [message] }

/-- `emit`, with whether a write to a socket has succeeded. -/
def emit (c : Channel) (level : Level) (message : String) (attempt : Attempt) : Channel × Bool :=
  match c.handler, attempt with
  | .console, _ => (c.print message, true)
  | .datagram, .done => ({ c with datagrams := c.datagrams ++ [packet level message] }, true)
  | .datagram, .failed _ => (c, false)
  | .stream, .done => ({ c with bytes := c.bytes ++ utf8 (packet level message) }, true)
  | .stream, .failed written =>
    let bytes := utf8 (packet level message)
    ({ c with bytes := c.bytes ++ bytes.take (min written (bytes.length - 1)) }, false)

/-- The body of the loop in `log`. -/
def log (c : Channel) (record : Record) (timestamp : String) (attempt : Attempt) : Channel :=
  let message := formatRecord record timestamp c.includeApp
  match c.emit record.level message attempt with
  | (c, true) => c
  | (c, false) => ({ c with handler := .console } : Channel).print message

end Channel

/-- The time and the outcome that each handler meets. -/
abbrev World := ℕ → String × Attempt

namespace Logger

/-- `log_to_console`. -/
def logToConsole (l : Logger) : Logger :=
  { l with handlers := l.handlers ++ [.fresh .console false] }

/-- `set_log_level_debug`. -/
def setLogLevelDebug (l : Logger) : Logger := { l with debug := true }

/-- `new`. -/
def new (handler : Handler) (testing : Bool) : Logger :=
  let logger : Logger := { handlers := [.fresh handler true], debug := testing }
  if testing then logger.logToConsole else logger

/-- `apply_knobs`. -/
def applyKnobs (l : Logger) (knobs : Value) : Logger :=
  if knobs.isMapping then
    let l := if (knobs.index "log_to_console").asBool = some true then l.logToConsole else l
    if (knobs.index "log_level_debug").asBool = some true then l.setLogLevelDebug else l
  else l

/-- `enabled`. -/
def enabled (l : Logger) (record : Record) : Bool :=
  (record.target == Config.appName || (Text.stripPrefix record.target "system_report::").isSome) &&
    decide (record.level.rank ≤ (if l.debug then Level.debug else Level.info).rank)

/-- `log`. -/
def log (l : Logger) (record : Record) (world : World) : Logger :=
  if l.enabled record then
    { l with
      handlers := l.handlers.mapIdx fun i c => c.log record (world i).1 (world i).2 }
  else l

end Logger

/-- What is done with the logger. -/
inductive Op
  | log (record : Record) (world : World)
  | applyKnobs (knobs : Value)
  | logToConsole
  | setLogLevelDebug

/-- One call. -/
def step (l : Logger) : Op → Option Logger
  | .log record world => some (l.log record world)
  | .applyKnobs knobs => some (l.applyKnobs knobs)
  | .logToConsole => some l.logToConsole
  | .setLogLevelDebug => some l.setLogLevelDebug

/-! ## What the handlers have to tell -/

/-- For the record: a record that is enabled, and a handler that is added. -/
inductive Event
  | record (record : Record) (world : World)
  | added

/-- The events of a call, the latest first. -/
def observe (l : Logger) (op : Op) (l' : Logger) : List Event :=
  match op with
  | .log record world => if l.enabled record then [.record record world] else []
  | .applyKnobs _ | .logToConsole | .setLogLevelDebug =>
    List.replicate (l'.handlers.length - l.handlers.length) .added

/-- The records of a run for each handler: those since it was added. -/
def expected : List Event → List (List (Record × World))
  | [] => [[]]
  | .added :: log => expected log ++ [[]]
  | .record record world :: log => (expected log).map (· ++ [(record, world)])

/-- The message that the handler with a given number makes of a record. -/
def messageOf (i : ℕ) (includeApp : Bool) (e : Record × World) : Level × String :=
  (e.1.level, formatRecord e.1 (e.2 i).1 includeApp)

/-- What the socket of a channel has got: `sent`, and possibly the beginning of the first one of
`lost`. -/
def Received (first : Handler) (sent lost : List (Level × String)) (c : Channel) : Prop :=
  match first with
  | .console => sent = [] ∧ c.datagrams = [] ∧ c.bytes = []
  | .datagram => c.datagrams = sent.map (fun m => packet m.1 m.2) ∧ c.bytes = []
  | .stream => c.datagrams = [] ∧ ∃ part,
      c.bytes = frame 0 (sent.map fun m => utf8 (body m.1 m.2)) ++ part ∧
        (part = [] ∨ ∃ m ∈ lost.head?, part <+: utf8 (body m.1 m.2))

/-- A channel that was added with the handler `first` has got some records: `sent` through its
socket, and `lost`, from the first one on that the socket did not take, through the console. -/
structure Follows (first : Handler) (i : ℕ) (sent lost : List (Record × World)) (c : Channel) :
    Prop where
  handler : c.handler = if lost = [] then first else .console
  console : c.console = lost.map fun e => (messageOf i c.includeApp e).2
  received : Received first (sent.map (messageOf i c.includeApp))
    (lost.map (messageOf i c.includeApp)) c
  taken : ∀ e ∈ sent, (e.2 i).2 = .done
  refused : first ≠ .console → ∀ e ∈ lost.head?, (e.2 i).2 ≠ .done

theorem follows_fresh (first : Handler) (i : ℕ) (includeApp : Bool) :
    Follows first i [] [] (.fresh first includeApp) := by
  refine ⟨rfl, rfl, ?_, by simp, by simp⟩
  cases first with
  | console | datagram => exact ⟨rfl, by trivial⟩
  | stream => exact ⟨rfl, [], rfl, .inl rfl⟩

/-- A message that the socket does not get is the first one that is lost. -/
theorem Received.lose {first : Handler} {sent : List (Level × String)} {c : Channel}
    (h : Received first sent [] c) (m : Level × String) : Received first sent [m] c := by
  cases first with
  | console | datagram => exact h
  | stream =>
    obtain ⟨hdatagrams, part, hbytes, hpart⟩ := h
    refine ⟨hdatagrams, part, hbytes, .inl ?_⟩
    simpa using hpart

/-- More messages for the console. -/
theorem Received.append {first : Handler} {sent lost : List (Level × String)} {c : Channel}
    (h : Received first sent lost c) (hlost : lost ≠ []) (m : Level × String) :
    Received first sent (lost ++ [m]) c := by
  cases first with
  | console | datagram => exact h
  | stream =>
    obtain ⟨hdatagrams, part, hbytes, hpart⟩ := h
    refine ⟨hdatagrams, part, hbytes, ?_⟩
    rwa [List.head?_append_of_ne_nil _ hlost]

section Attempts

variable {first : Handler} {i : ℕ} {sent lost : List (Record × World)} {c : Channel}

/-- A record for the console, which is the first one that the socket does not take, or comes after
it. -/
theorem Follows.print (lost : List (Record × World))
    (hconsole : c.console = lost.map fun e => (messageOf i c.includeApp e).2)
    (hhandler : c.handler = .console) (htaken : ∀ e ∈ sent, (e.2 i).2 = .done)
    {e : Record × World}
    (hrefused : first ≠ .console → ∀ e' ∈ (lost ++ [e]).head?, (e'.2 i).2 ≠ .done)
    (hreceived : Received first (sent.map (messageOf i c.includeApp))
      (lost.map (messageOf i c.includeApp) ++ [messageOf i c.includeApp e]) c) :
    Follows first i sent (lost ++ [e]) (c.print (messageOf i c.includeApp e).2) := by
  refine ⟨?_, ?_, ?_, htaken, hrefused⟩
  · rw [if_neg (by simp)]
    exact hhandler
  · rw [Channel.print, hconsole, List.map_append]
    rfl
  · rw [List.map_append]
    exact hreceived

/-- **One more record.** -/
theorem Follows.log (h : Follows first i sent lost c) (record : Record) (world : World) :
    ∃ sent' lost', sent ++ lost ++ [(record, world)] = sent' ++ lost' ∧
      Follows first i sent' lost' (c.log record (world i).1 (world i).2) := by
  obtain ⟨hhandler, hconsole, hreceived, htaken, hrefused⟩ := h
  unfold Channel.log Channel.emit
  by_cases hlost : lost = []
  · subst hlost
    rw [if_pos rfl] at hhandler
    have hlose := hreceived.lose (messageOf i c.includeApp (record, world))
    have hsent (hdone : (world i).2 = .done) : ∀ e ∈ sent ++ [(record, world)], (e.2 i).2 = .done :=
      List.forall_mem_append.2 ⟨htaken, by simpa using hdone⟩
    cases first with
    | console =>
      simp only [hhandler]
      exact ⟨sent, [(record, world)], by simp,
        .print [] hconsole hhandler htaken (by simp) hlose⟩
    | datagram =>
      obtain ⟨hdatagrams, hbytes⟩ := hreceived
      cases hattempt : (world i).2 with
      | done =>
        simp only [hhandler]
        refine ⟨sent ++ [(record, world)], [], by simp, rfl, hconsole, ⟨?_, hbytes⟩, hsent hattempt,
          by simp⟩
        rw [hdatagrams, List.map_append, List.map_append]
        rfl
      | failed written =>
        simp only [hhandler]
        exact ⟨sent, [(record, world)], by simp, .print (c := { c with handler := .console })
          [] hconsole rfl htaken (by simp [hattempt]) hlose⟩
    | stream =>
      obtain ⟨hdatagrams, part, hbytes, hpart⟩ := hreceived
      obtain rfl : part = [] := by simpa using hpart
      rw [List.append_nil] at hbytes
      cases hattempt : (world i).2 with
      | done =>
        simp only [hhandler]
        refine ⟨sent ++ [(record, world)], [], by simp, rfl, hconsole,
          ⟨hdatagrams, [], ?_, .inl rfl⟩, hsent hattempt, by simp⟩
        rw [hbytes, utf8_packet, List.map_append, List.map_append, frame_append]
        simp [messageOf]
      | failed written =>
        simp only [hhandler]
        refine ⟨sent, [(record, world)], by simp, .print
          (c := { c with handler := .console, bytes := _ }) [] hconsole rfl htaken
          (by simp [hattempt])
          ⟨hdatagrams, _, congrArg (· ++ _) hbytes, .inr ⟨_, rfl, ?_⟩⟩⟩
        -- the NUL at the end is not written
        rw [utf8_packet, List.length_append, List.length_singleton, Nat.add_sub_cancel,
          List.take_append_of_le_length (Nat.min_le_right _ _)]
        exact List.take_prefix _ _
  · rw [if_neg hlost] at hhandler
    simp only [hhandler]
    refine ⟨sent, lost ++ [(record, world)], List.append_assoc _ _ _,
      .print lost hconsole hhandler htaken (fun hfirst => ?_)
        (hreceived.append (by simpa using hlost) _)⟩
    rw [List.head?_append_of_ne_nil _ hlost]
    exact hrefused hfirst

end Attempts

@[simp] theorem includeApp_log (c : Channel) (record : Record) (timestamp : String)
    (attempt : Attempt) : (c.log record timestamp attempt).includeApp = c.includeApp := by
  unfold Channel.log Channel.emit
  cases c.handler <;> cases attempt <;> rfl

/-! ## What holds after every call -/

/-- What holds of a logger that was made with a given handler. -/
structure Tells (handler : Handler) (l : Logger) (log : List Event) : Prop where
  length : l.handlers.length = (expected log).length
  pos : expected log ≠ []
  follows : ∀ i c records, l.handlers[i]? = some c → (expected log)[i]? = some records →
    ∃ sent lost, records = sent ++ lost ∧
      Follows (if i = 0 then handler else .console) i sent lost c

namespace Tells

variable {handler : Handler} {l : Logger} {log : List Event}

theorem logToConsole (h : Tells handler l log) : Tells handler l.logToConsole (.added :: log) := by
  refine ⟨?_, List.append_ne_nil_of_right_ne_nil _ (by simp), fun i c records hc hrecords => ?_⟩
  · simp [Logger.logToConsole, expected, h.length]
  · rw [Logger.logToConsole, List.getElem?_append] at hc
    rw [expected, List.getElem?_append, ← h.length] at hrecords
    split at hc
    · rename_i hi
      rw [if_pos hi] at hrecords
      exact h.follows i c records hc hrecords
    · rename_i hi
      rw [if_neg hi] at hrecords
      obtain ⟨-, rfl⟩ : _ ∧ Channel.fresh .console false = c := by
        simpa [List.getElem?_singleton] using hc
      obtain ⟨-, rfl⟩ : _ ∧ [] = records := by simpa [List.getElem?_singleton] using hrecords
      have hpos : 0 < l.handlers.length := by
        rw [h.length]
        exact List.length_pos_iff.2 h.pos
      rw [if_neg (by omega)]
      exact ⟨[], [], rfl, follows_fresh _ _ _⟩

theorem setLogLevelDebug (h : Tells handler l log) : Tells handler l.setLogLevelDebug log :=
  ⟨h.length, h.pos, h.follows⟩

/-- The knobs add at most one handler. -/
theorem applyKnobs (h : Tells handler l log) (knobs : Value) :
    Tells handler (l.applyKnobs knobs)
      (observe l (.applyKnobs knobs) (l.applyKnobs knobs) ++ log) := by
  rw [observe, Logger.applyKnobs]
  split
  · by_cases hconsole : (knobs.index "log_to_console").asBool = some true
    · have hadded : l.logToConsole.handlers.length - l.handlers.length = 1 := by
        simp [Logger.logToConsole]
      simp only [if_pos hconsole]
      split
      · rw [Logger.setLogLevelDebug, hadded]
        exact h.logToConsole.setLogLevelDebug
      · rw [hadded]
        exact h.logToConsole
    · simp only [if_neg hconsole]
      split
      · rw [Logger.setLogLevelDebug, Nat.sub_self]
        exact h.setLogLevelDebug
      · rw [Nat.sub_self]
        exact h
  · rw [Nat.sub_self]
    exact h

/-- Every handler gets a record that is enabled. -/
theorem record (h : Tells handler l log) (record : Record) (world : World) :
    Tells handler (l.log record world)
      (observe l (.log record world) (l.log record world) ++ log) := by
  rw [observe, Logger.log]
  split
  · refine ⟨?_, by simpa [expected] using h.pos, fun i c records hc hrecords => ?_⟩
    · simpa [expected] using h.length
    · rw [List.singleton_append, expected, List.getElem?_map] at hrecords
      rw [List.getElem?_mapIdx] at hc
      obtain ⟨c, hold, rfl⟩ := Option.map_eq_some_iff.1 hc
      obtain ⟨records, hrecords', rfl⟩ := Option.map_eq_some_iff.1 hrecords
      obtain ⟨sent, lost, rfl, hfollows⟩ := h.follows i c records hold hrecords'
      exact hfollows.log record world
  · exact h

theorem step (h : Tells handler l log) {op : Op} {l' : Logger} (hs : Log.step l op = some l') :
    Tells handler l' (observe l op l' ++ log) := by
  cases op with
  | log record world =>
    cases hs
    exact h.record record world
  | applyKnobs knobs =>
    cases hs
    exact h.applyKnobs knobs
  | logToConsole =>
    cases hs
    have hadded : l.logToConsole.handlers.length - l.handlers.length = 1 := by
      simp [Logger.logToConsole]
    rw [observe, hadded]
    exact h.logToConsole
  | setLogLevelDebug =>
    cases hs
    rw [observe, show l.setLogLevelDebug.handlers = l.handlers from rfl, Nat.sub_self]
    exact h.setLogLevelDebug

end Tells

/-- The logger as it is set up, and its handlers. -/
theorem tells_new (handler : Handler) (testing : Bool) :
    Tells handler (.new handler testing) (if testing then [.added] else []) := by
  have h : Tells handler ⟨[.fresh handler true], testing⟩ [] := by
    refine ⟨rfl, by simp [expected], fun i c records hc hrecords => ?_⟩
    obtain ⟨rfl, rfl⟩ : i = 0 ∧ Channel.fresh handler true = c := by
      simpa [List.getElem?_singleton] using hc
    obtain rfl : [] = records := by simpa [expected] using hrecords
    exact ⟨[], [], rfl, follows_fresh _ _ _⟩
  cases testing with
  | false => exact h
  | true => exact h.logToConsole

/-- A reader of the stream finds what was sent, and at most the beginning of one more. -/
theorem Received.unframe {sent lost : List (Level × String)} {c : Channel}
    (h : Received .stream sent lost c) (hnul : ∀ m ∈ sent ++ lost, '\x00' ∉ m.2.toList) :
    ∃ part, unframe 0 c.bytes = (sent.map fun m => utf8 (body m.1 m.2), part) ∧
      (part = [] ∨ ∃ m ∈ lost.head?, part <+: utf8 (body m.1 m.2)) := by
  obtain ⟨-, part, hbytes, hpart⟩ := h
  refine ⟨part, ?_, hpart⟩
  rw [hbytes]
  apply unframe_frame
  · intro bytes hmem
    obtain ⟨m, hm, rfl⟩ := List.mem_map.1 hmem
    exact zero_notMem_body (hnul m (List.mem_append_left _ hm))
  · rcases hpart with rfl | ⟨m, hm, hpart⟩
    · exact List.not_mem_nil
    · have hlost := List.mem_append_right sent (List.mem_of_mem_head? hm)
      exact fun hzero => zero_notMem_body (hnul m hlost) (hpart.subset hzero)

/-- **No record is swallowed.**  In every run of records, knobs and changes of the level, whatever
becomes of the sockets: a handler gets every record that is enabled from the moment on at which it is
added, once and in order, through its socket up to the first one that the socket does not take, and
from there on through the console for good.  A datagram is a packet; and a reader of the stream finds
exactly the packets that were sent, if no message contains a NUL, though the packet that was being
written when the stream failed is cut off. -/
theorem log_law (handler : Handler) (testing : Bool) (l : Logger) (log : List Event)
    (h : Reachable (logged step observe)
      (.new handler testing, if testing then [.added] else []) (l, log))
    (i : ℕ) (c : Channel) (hc : l.handlers[i]? = some c) :
    ∃ sent lost, (expected log)[i]? = some (sent ++ lost) ∧
      (∀ e ∈ sent, (e.2 i).2 = .done) ∧
      ((if i = 0 then handler else .console) ≠ .console → ∀ e ∈ lost.head?, (e.2 i).2 ≠ .done) ∧
      c.console = lost.map (fun e => formatRecord e.1 (e.2 i).1 c.includeApp) ∧
      (lost ≠ [] → c.handler = .console) ∧
      match if i = 0 then handler else .console with
      | .console => sent = [] ∧ c.datagrams = [] ∧ c.bytes = []
      | .datagram => c.bytes = [] ∧
          c.datagrams = sent.map fun e =>
            packet e.1.level (formatRecord e.1 (e.2 i).1 c.includeApp)
      | .stream => c.datagrams = [] ∧
          ((∀ e ∈ sent ++ lost, '\x00' ∉ (formatRecord e.1 (e.2 i).1 c.includeApp).toList) →
            ∃ part, unframe 0 c.bytes =
                (sent.map fun e => utf8 (body e.1.level (formatRecord e.1 (e.2 i).1 c.includeApp)),
                  part) ∧
              (part = [] ∨ ∃ e ∈ lost.head?,
                part <+: utf8 (body e.1.level (formatRecord e.1 (e.2 i).1 c.includeApp)))) := by
  have htells : Tells handler l log := by
    refine h.logged_invariant (I := Tells handler) (C := fun _ _ => True) (fun _ _ _ => trivial)
      (tells_new handler testing) ?_
    exact fun _ _ _ _ _ hi _ hs => hi.step hs
  obtain ⟨records, hrecords⟩ : ∃ records, (expected log)[i]? = some records := by
    obtain ⟨hi, -⟩ := List.getElem?_eq_some_iff.1 hc
    rw [htells.length] at hi
    exact ⟨_, List.getElem?_eq_getElem hi⟩
  obtain ⟨sent, lost, rfl, hfollows⟩ := htells.follows i c records hc hrecords
  refine ⟨sent, lost, hrecords, hfollows.taken, hfollows.refused, hfollows.console,
    fun hlost => by rw [hfollows.handler, if_neg hlost], ?_⟩
  have hreceived := hfollows.received
  generalize (if i = 0 then handler else .console) = first at hreceived
  cases first with
  | console => exact ⟨by simpa using hreceived.1, hreceived.2⟩
  | datagram => exact ⟨hreceived.2, by rw [hreceived.1, List.map_map]; rfl⟩
  | stream =>
    refine ⟨hreceived.1, fun hnul => ?_⟩
    obtain ⟨part, hpart, hcut⟩ := hreceived.unframe (by
      rw [← List.map_append, List.forall_mem_map]
      exact hnul)
    refine ⟨part, by rw [hpart, List.map_map]; rfl, hcut.imp_right ?_⟩
    rintro ⟨m, hm, hprefix⟩
    rw [List.head?_map] at hm
    obtain ⟨e, he, rfl⟩ := Option.mem_map.1 hm
    exact ⟨e, he, hprefix⟩

/-- A stream takes one record and fails in the middle of the next, which the console gets. -/
theorem log_law_stream : ∃ l log c sent lost,
    Reachable (logged step observe) (.new .stream false, []) (l, log) ∧
      l.handlers[0]? = some c ∧ (expected log)[0]? = some (sent ++ lost) ∧
      sent.length = 1 ∧ lost.length = 1 ∧
      c.console = lost.map (fun e => formatRecord e.1 (e.2 0).1 c.includeApp) ∧
      ∃ part, unframe 0 c.bytes =
        (sent.map fun e => utf8 (body e.1.level (formatRecord e.1 (e.2 0).1 c.includeApp)), part) := by
  let record : Record := ⟨"system_report", .info, none, some 7, "hello"⟩
  let written : List (Record × World) :=
    [(record, fun _ => ("now", .done)), (record, fun _ => ("later", .failed 3))]
  obtain ⟨l, log, c, hreach, hc, hconsole, happ, hwritten⟩ : ∃ l log c,
      Reachable (logged step observe) (.new .stream false, []) (l, log) ∧
        l.handlers[0]? = some c ∧ c.console.length = 1 ∧ c.includeApp = true ∧
        (expected log)[0]? = some written :=
    ⟨_, _, _, (Reach.refl.snoc (a := .log record fun _ => ("now", .done)) trivial rfl).snoc
      (a := .log record fun _ => ("later", .failed 3)) trivial rfl, rfl, rfl, rfl, rfl⟩
  obtain ⟨sent, lost, hrecords, -, -, hlost, -, -, hreceived⟩ :=
    log_law .stream false l log hreach 0 c hc
  obtain heq : written = sent ++ lost := Option.some.inj (hwritten.symm.trans hrecords)
  have hone : lost.length = 1 := by rw [← hconsole, hlost, List.length_map]
  have htwo : 2 = sent.length + lost.length := by rw [← List.length_append, ← heq]; rfl
  obtain ⟨part, hpart, -⟩ := hreceived (by
    rw [← heq, happ]
    decide)
  exact ⟨l, log, c, sent, lost, hreach, hc, hrecords, by omega, hone, hlost, part, hpart⟩

end Log
end SystemReport
