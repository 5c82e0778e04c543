import Mathlib.Tactic.NormNum
import SystemReport.Config.Load
import SystemReport.Duration
import SystemReport.Lib.F64Bounds
import SystemReport.Text

/-!
# Notifications to systemd

What `sdnotify.rs` makes of its environment: the address, and the watchdog deadline.  Sending is
best effort, and nothing depends on whether it succeeds.

Half the deadline is computed in double precision, in seconds, and becomes a `Duration` again in
`Reporter::sleep_secs`.  `toDuration_watchdogIntervalSecs` says what is left of it after both
roundings: the exact half, as long as it is not longer than five seconds.
-/

set_option autoImplicit false

open F64

namespace SystemReport

/-- `Notifier`, without its socket.  A deadline that is kept is not zero. -/
structure Notifier where
  address : Option String
  watchdogUsec : Option UInt64
  pos : ∀ usec ∈ watchdogUsec, 0 < usec.toNat

namespace Notifier

/-- `from_env`, in a process with the given number. -/
def fromEnv (pid : ℕ) (env : Env) : Notifier where
  address := ((env "NOTIFY_SOCKET").filter (· ≠ "")).map fun s =>
    match Text.stripPrefix s "@" with
    | none => s
    | some name => "\x00" ++ name
  watchdogUsec :=
    let matchesPid :=
      match env "WATCHDOG_PID" with
      | none => true
      | some value => value = "" ∨ value = toString pid
    (if matchesPid then (env "WATCHDOG_USEC").bind fun s => Text.parseU64 (Text.trim s)
      else none).filter fun value => decide (0 < value.toNat)
  pos usec h := by simpa using (Option.mem_filter_iff.1 h).2

/-- `enabled`. -/
def enabled (n : Notifier) : Bool := n.address.isSome

/-- Whether `watchdog` sends anything: `WATCHDOG=1`, to the address. -/
def sendsWatchdog (n : Notifier) : Bool := n.watchdogUsec.isSome && n.enabled

/-- `watchdog_interval_secs`: half the deadline, in seconds. -/
def watchdogIntervalSecs (n : Notifier) : Option F64 :=
  n.watchdogUsec.map fun usec => ((ofRat usec.toNat).divPos 2).divPos 1000000

/-- Half the deadline, exactly. -/
def halfDeadline (usec : UInt64) : ℕ := usec.toNat * 500

/-! ## Half the deadline -/

/-- The computed interval is within a few roundings of half the deadline. -/
theorem watchdogIntervalSecs_near (usec : UInt64) (hpos : 0 < usec.toNat) :
    ∃ secs, ((ofRat usec.toNat).divPos 2).divPos 1000000 = .finite secs ∧
      Near (1 / 2 ^ 51) (usec.toNat / 2 / 1000000) secs := by
  have hlow : (1 : ℚ) ≤ usec.toNat := by exact_mod_cast hpos
  have hhigh : (usec.toNat : ℚ) < 2 ^ 64 := by exact_mod_cast usec.toNat_lt
  obtain ⟨a, ha, hnear⟩ := ofRat_near_ordinary (by linarith) (hhigh.le.trans (by norm_num))
  obtain ⟨halow, hahigh⟩ := abs_le.1 hnear
  obtain ⟨b, hb, hnear'⟩ := @divPos_near _ _ _ 2 hnear (by norm_num) (by linarith) (by linarith)
  obtain ⟨hblow, hbhigh⟩ := abs_le.1 hnear'
  obtain ⟨c, hc, hnear''⟩ :=
    @divPos_near _ _ _ 1000000 hnear' (by norm_num) (by linarith) (by linarith)
  refine ⟨c, by rw [ha, hb, hc], hnear''.mono (by linarith) (by norm_num)⟩

/-- As a `Duration`, the interval is half the deadline, or both are at least five seconds. -/
theorem toDuration_watchdogIntervalSecs {usec : UInt64} {secs : ℚ}
    (h : Near (1 / 2 ^ 51) (usec.toNat / 2 / 1000000) secs) (hpos : 0 < usec.toNat) :
    ∃ d, Duration.tryFromSecsF64 (.finite secs) = some d ∧
      min 5000000000 d.nanos = min 5000000000 (halfDeadline usec) := by
  have hlow : (1 : ℚ) ≤ usec.toNat := by exact_mod_cast hpos
  have hhigh : (usec.toNat : ℚ) < 2 ^ 64 := by exact_mod_cast usec.toNat_lt
  have hsecs := h.pos (by linarith) (by norm_num)
  obtain ⟨hnear, hnear'⟩ := abs_le.1 h
  have hround := abs_le.1 (abs_roundEven_sub_le (secs * 1000000000))
  have hmax : (roundEven (secs * 1000000000)).toNat ≤ maxNanos := by
    have hle : (roundEven (secs * 1000000000) : ℚ) ≤ (maxNanos : ℤ) := by
      rw [maxNanos]
      push_cast
      linarith
    have hle : roundEven (secs * 1000000000) ≤ maxNanos := by exact_mod_cast hle
    omega
  refine ⟨⟨_, hmax⟩, ?_, ?_⟩
  · rw [Duration.tryFromSecsF64]
    exact dif_pos ⟨hsecs.le, hmax⟩
  · change min _ (roundEven (secs * 1000000000)).toNat = _
    rw [halfDeadline]
    by_cases hshort : usec.toNat ≤ 10000000
    · have hshort' : (usec.toNat : ℚ) ≤ 10000000 := by exact_mod_cast hshort
      have hexact : roundEven (secs * 1000000000) = ((usec.toNat * 500 : ℕ) : ℤ) := by
        apply roundEven_eq
        push_cast
        rw [abs_lt]
        constructor <;> linarith
      rw [hexact, Int.toNat_natCast]
    · have hlong : (10000001 : ℚ) ≤ usec.toNat := by exact_mod_cast Nat.lt_of_not_le hshort
      have hfive : 5000000000 ≤ roundEven (secs * 1000000000) :=
        le_roundEven (by push_cast; linarith)
      omega

end Notifier
end SystemReport
