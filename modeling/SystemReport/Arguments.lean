import SystemReport.Collectors
import SystemReport.Config.Load

/-!
# The command line

`args` in `src/main.rs`, and the script `start_system_report.sh` that hands its own arguments on to
the executable.  Both scan the arguments for a configuration path, each in its own way.  What they
look for are the operands of the command line (`operands`): the arguments that do not start with a
dash, and everything after the first `--`.

`script_agrees` says that the script adds the configuration of its checkout exactly where the
executable would find none.
-/

set_option autoImplicit false

namespace SystemReport
namespace CommandLine

/-! ## The executable -/

/-- The text of `--help`. -/
def usage : String :=
  "\n".intercalate [
    "Usage: system_report [CONFIG] [--once] [--dry-run] [--print-config]",
    "Publish Linux memory/uptime to MQTT.",
    "CONFIG defaults to data/config.yaml in the build checkout.",
    "--once         Publish one report and exit",
    "--dry-run      Print messages without network access",
    "--print-config Print effective configuration with secrets redacted",
    "--version      Print version"]

/-- `Args`. -/
structure Args where
  config : Option String
  once : Bool
  dryRun : Bool
  printConfig : Bool
deriving DecidableEq, Repr

/-- `Args::default()`. -/
def Args.default : Args := ⟨none, false, false, false⟩

/-- What `args` returns: `Ok(Some(_))`, `Ok(None)` once it has printed a line, or `Err(())`. -/
inductive Parsed
  | run (args : Args)
  | printed (line : String)
  | rejected
deriving DecidableEq, Repr

/-- How one turn of the loop of `args` ends. -/
inductive Turn
  | next (args : Args) (positional : Bool)
  | done (result : Parsed)

/-- `starts_with('-')`. -/
def dashed (arg : String) : Bool := arg.toList.head? == some '-'

/-- The `match` in the loop of `args`. -/
def turn (args : Args) : (positional : Bool) → (arg : String) → Turn
  | false, "--" => .next args true
  | false, "--help" | false, "-h" => .done (.printed usage)
  | false, "--version" => .done (.printed (Config.appName ++ " " ++ Collectors.version))
  | false, "--once" => .next { args with once := true } false
  | false, "--dry-run" => .next { args with dryRun := true } false
  | false, "--print-config" => .next { args with printConfig := true } false
  | positional, arg =>
    if !positional && dashed arg then .done .rejected
    else if args.config.isNone then .next { args with config := some arg } positional
    else .done .rejected

/-- The loop of `args`. -/
def argsFrom (args : Args) (positional : Bool) : List String → Parsed
  | [] => .run args
  | arg :: rest =>
    match turn args positional arg with
    | .next args positional => argsFrom args positional rest
    | .done result => result

/-- `args`. -/
def args (arguments : List String) : Parsed := argsFrom .default false arguments

/-! ## The script -/

/-- A checkout of the repository: `TOP_DIR` is what `pwd` prints. -/
structure Checkout where
  topDir : String
  absolute : topDir.toList.head? = some '/'

/-- `BINARY`. -/
def Checkout.binary (checkout : Checkout) : String :=
  checkout.topDir ++ "/target/release/system_report"

/-- The configuration that the script adds. -/
def Checkout.config (checkout : Checkout) : String := checkout.topDir ++ "/data/config.yaml"

/-- The loop of the script: the value of `has_config` after it. -/
def hasConfigFrom (hasConfig : Bool) : (positional : Bool) → List String → Bool
  | _, [] => hasConfig
  -- `has_config=yes`, `break`
  | true, _ :: _ => true
  | false, arg :: rest =>
    if arg = "--" then hasConfigFrom hasConfig true rest
    else if dashed arg then hasConfigFrom hasConfig false rest
    else hasConfigFrom true false rest

/-- How the script ends: with an error text, or in the executable with these arguments. -/
inductive Launch
  | failed (message : String)
  | exec (binary : String) (arguments : List String)
deriving DecidableEq, Repr

/-- `start_system_report.sh`, where the executable may be missing. -/
def startSystemReport (checkout : Checkout) (executable : Bool) (arguments : List String) :
    Launch :=
  if !executable then
    .failed ("no release binary found: run cargo build --release --locked in " ++ checkout.topDir)
  else if hasConfigFrom false false arguments then .exec checkout.binary arguments
  else .exec checkout.binary (checkout.config :: arguments)

/-! ## Operands -/

/-- The arguments that do not start with a dash, and everything after the first `--`. -/
def operands : (positional : Bool) → List String → List String
  | _, [] => []
  | true, arg :: rest => arg :: rest
  | false, arg :: rest =>
    if arg = "--" then operands true rest
    else if dashed arg then operands false rest
    else arg :: operands false rest

/-- The script looks for an operand. -/
theorem hasConfigFrom_iff : ∀ (arguments : List String) (hasConfig positional : Bool),
    hasConfigFrom hasConfig positional arguments = true ↔
      hasConfig = true ∨ operands positional arguments ≠ []
  | [], hasConfig, positional => by cases positional <;> simp [hasConfigFrom, operands]
  | arg :: rest, hasConfig, true => by simp [hasConfigFrom, operands]
  | arg :: rest, hasConfig, false => by
    rw [hasConfigFrom, operands]
    split
    · exact hasConfigFrom_iff rest hasConfig true
    · split
      · exact hasConfigFrom_iff rest hasConfig false
      · simp [hasConfigFrom_iff rest true false]

/-! ## What the executable reads -/

/-- An operand is the configuration, if there is none yet. -/
theorem turn_operand (args : Args) {positional : Bool} {arg : String}
    (h : positional = true ∨ dashed arg = false) :
    turn args positional arg =
      if args.config.isNone then .next { args with config := some arg } positional
      else .done .rejected := by
  rw [turn.eq_def]
  split
  case h_8 =>
    rw [if_neg]
    rcases h with rfl | h
    · simp
    · simp [h]
  all_goals simp [dashed] at h

theorem turn_separator (args : Args) : turn args false "--" = .next args true := rfl

/-- The flags that `args` knows. -/
def flags : List String := ["--help", "-h", "--version", "--once", "--dry-run", "--print-config"]

theorem turn_unknown (args : Args) {arg : String} (h : dashed arg = true) (hsep : arg ≠ "--")
    (hflags : arg ∉ flags) : turn args false arg = .done .rejected := by
  rw [turn.eq_def]
  split
  case h_8 => simp [h]
  all_goals first | exact absurd rfl hsep | simp [flags] at hflags

/-- The arguments after some more flags. -/
def Args.raise (args : Args) (once dryRun printConfig : Bool) : Args :=
  { args with
    once := once || args.once
    dryRun := dryRun || args.dryRun
    printConfig := printConfig || args.printConfig }

/-- A flag is read without looking at the configuration. -/
theorem turn_flag {arg : String} (h : dashed arg = true) (hsep : arg ≠ "--") :
    (∃ result, (∀ args, result ≠ .run args) ∧ ∀ args, turn args false arg = .done result) ∨
    ∃ once dryRun printConfig, ∀ args,
      turn args false arg = .next (args.raise once dryRun printConfig) false := by
  by_cases hflags : arg ∈ flags
  · simp only [flags, List.mem_cons, List.not_mem_nil, or_false] at hflags
    rcases hflags with rfl | rfl | rfl | rfl | rfl | rfl
    · exact .inl ⟨.printed usage, by simp, fun _ => rfl⟩
    · exact .inl ⟨.printed usage, by simp, fun _ => rfl⟩
    · exact .inl ⟨.printed _, by simp, fun _ => rfl⟩
    · exact .inr ⟨true, false, false, fun _ => rfl⟩
    · exact .inr ⟨false, true, false, fun _ => rfl⟩
    · exact .inr ⟨false, false, true, fun _ => rfl⟩
  · exact .inl ⟨.rejected, by simp, fun args => turn_unknown args h hsep hflags⟩

/-- The same result with another configuration. -/
def Parsed.withConfig (config : Option String) : Parsed → Parsed
  | .run args => .run { args with config }
  | .printed line => .printed line
  | .rejected => .rejected

theorem argsFrom_next {args args' : Args} {positional positional' : Bool} {arg : String}
    (h : turn args positional arg = .next args' positional') (rest : List String) :
    argsFrom args positional (arg :: rest) = argsFrom args' positional' rest := by
  rw [argsFrom, h]

theorem argsFrom_done {args : Args} {positional : Bool} {arg : String} {result : Parsed}
    (h : turn args positional arg = .done result) (rest : List String) :
    argsFrom args positional (arg :: rest) = result := by
  rw [argsFrom, h]

theorem argsFrom_operand {args args' : Args} {positional : Bool} {arg : String}
    {rest : List String} (h : positional = true ∨ dashed arg = false)
    (hrun : argsFrom args positional (arg :: rest) = .run args') :
    args.config = none ∧
      argsFrom { args with config := some arg } positional rest = .run args' := by
  rw [argsFrom, turn_operand args h] at hrun
  cases hconfig : args.config with
  | none =>
    rw [hconfig] at hrun
    exact ⟨rfl, hrun⟩
  | some _ =>
    rw [hconfig] at hrun
    cases hrun

/-- The configuration of a run that starts is its only operand. -/
theorem config_of_argsFrom : ∀ (arguments : List String) {args args' : Args} {positional : Bool},
    argsFrom args positional arguments = .run args' →
    args'.config = args.config.or (operands positional arguments).head?
  | [], args, args', positional, h => by
    cases h
    cases positional <;> simp [operands]
  | arg :: rest, args, args', true, h => by
    obtain ⟨hnone, h⟩ := argsFrom_operand (.inl rfl) h
    rw [config_of_argsFrom rest h, hnone, operands]
    rfl
  | arg :: rest, args, args', false, h => by
    rw [operands]
    split
    · rename_i hsep
      rw [hsep, argsFrom_next (turn_separator args)] at h
      exact config_of_argsFrom rest h
    · rename_i hsep
      split
      · rename_i hdashed
        rcases turn_flag hdashed hsep with ⟨result, hresult, hturn⟩ | ⟨_, _, _, hturn⟩
        · rw [argsFrom_done (hturn args)] at h
          exact absurd h (hresult args')
        · rw [argsFrom_next (hturn args)] at h
          have hrest := config_of_argsFrom rest h
          exact hrest
      · rename_i hdashed
        obtain ⟨hnone, h⟩ := argsFrom_operand (.inr (by simpa using hdashed)) h
        rw [config_of_argsFrom rest h, hnone]
        rfl

/-- Where there is no operand, the configuration goes through unchanged. -/
theorem argsFrom_withConfig (config : Option String) : ∀ (arguments : List String) (args : Args)
    {positional : Bool}, operands positional arguments = [] →
    argsFrom { args with config } positional arguments =
      (argsFrom args positional arguments).withConfig config
  | [], args, positional, _ => rfl
  | arg :: rest, args, true, h => by
    rw [operands] at h
    cases h
  | arg :: rest, args, false, h => by
    rw [operands] at h
    split at h
    · rename_i hsep
      rw [hsep, argsFrom_next (turn_separator _), argsFrom_next (turn_separator _)]
      exact argsFrom_withConfig config rest args h
    · rename_i hsep
      split at h
      · rename_i hdashed
        rcases turn_flag hdashed hsep with
          ⟨result, hresult, hturn⟩ | ⟨once, dryRun, printConfig, hturn⟩
        · rw [argsFrom_done (hturn _), argsFrom_done (hturn _)]
          cases result with
          | run args' => exact absurd rfl (hresult args')
          | printed line => rfl
          | rejected => rfl
        · rw [argsFrom_next (hturn _), argsFrom_next (hturn _)]
          have hrest := argsFrom_withConfig config rest (args.raise once dryRun printConfig) h
          exact hrest
      · cases h

/-! ## One more flag -/

/-- The arguments of a dry run. -/
def Args.dry (args : Args) : Args := { args with dryRun := true }

/-- The same result, for a dry run. -/
def Parsed.dry : Parsed → Parsed
  | .run args => .run args.dry
  | .printed line => .printed line
  | .rejected => .rejected

/-- The flag makes no difference to a turn. -/
theorem turn_dry (args : Args) (positional : Bool) (arg : String) :
    (∃ result : Parsed, result.dry = result ∧ turn args positional arg = .done result ∧
      turn args.dry positional arg = .done result) ∨
    ∃ args' positional', turn args positional arg = .next args' positional' ∧
      turn args.dry positional arg = .next args'.dry positional' := by
  rw [turn.eq_def, turn.eq_def]
  split
  case h_8 =>
    split
    · exact .inl ⟨.rejected, rfl, rfl, rfl⟩
    · cases hconfig : args.config with
      | none => exact .inr ⟨_, positional, rfl, by rw [Args.dry, hconfig]; rfl⟩
      | some config => exact .inl ⟨.rejected, rfl, rfl, by rw [Args.dry, hconfig]; rfl⟩
  all_goals first
    | exact .inl ⟨.printed _, rfl, rfl, rfl⟩
    | exact .inr ⟨_, _, rfl, rfl⟩

theorem argsFrom_dry : ∀ (arguments : List String) (args : Args) (positional : Bool),
    argsFrom args.dry positional arguments = (argsFrom args positional arguments).dry
  | [], args, positional => rfl
  | arg :: rest, args, positional => by
    rcases turn_dry args positional arg with ⟨result, hdry, hturn, hturn'⟩ | ⟨args', _, hturn, hturn'⟩
    · rw [argsFrom_done hturn, argsFrom_done hturn', hdry]
    · rw [argsFrom_next hturn, argsFrom_next hturn']
      exact argsFrom_dry rest args' _

/-- `--dry-run` in front of a command line. -/
theorem args_dryRun (arguments : List String) :
    args ("--dry-run" :: arguments) = (args arguments).dry := by
  have hnext : turn .default false "--dry-run" = .next Args.default.dry false := rfl
  rw [args, args, argsFrom_next hnext, argsFrom_dry]

/-! ## Agreement -/

/-- The same result, with a configuration for a run that has none. -/
def Parsed.orConfig (path : String) : Parsed → Parsed
  | .run args => .run { args with config := args.config.or (some path) }
  | .printed line => .printed line
  | .rejected => .rejected

theorem Checkout.config_absolute (checkout : Checkout) :
    checkout.config.toList.head? = some '/' := by
  rw [config, String.toList_append, List.head?_append, checkout.absolute]
  rfl

/-- **The script and the executable agree.**  Whatever the arguments are, the executable that the
script starts reads what it would have read from them itself, with the configuration of the checkout
if they have none. -/
theorem script_agrees (checkout : Checkout) (arguments : List String) : ∃ passed,
    startSystemReport checkout true arguments = .exec checkout.binary passed ∧
      args passed = (args arguments).orConfig checkout.config ∧
      checkout.config.toList.head? = some '/' := by
  have hscript := hasConfigFrom_iff arguments false false
  cases hoperands : operands false arguments with
  | nil =>
    have hno : hasConfigFrom false false arguments = false := by
      simpa [hoperands] using hscript
    have hpath : dashed checkout.config = false := by
      rw [dashed, checkout.config_absolute]
      rfl
    refine ⟨checkout.config :: arguments, ?_, ?_, checkout.config_absolute⟩
    · rw [startSystemReport, hno]
      rfl
    · have hnext : turn .default false checkout.config =
          .next { Args.default with config := some checkout.config } false :=
        turn_operand .default (.inr hpath)
      rw [args, args, argsFrom_next hnext, argsFrom_withConfig _ _ _ hoperands]
      cases hrun : argsFrom .default false arguments with
      | run args' =>
        have hconfig := config_of_argsFrom arguments hrun
        rw [hoperands] at hconfig
        rw [Parsed.withConfig, Parsed.orConfig, hconfig]
        rfl
      | printed line => rfl
      | rejected => rfl
  | cons operand more =>
    have hyes : hasConfigFrom false false arguments = true := by
      simp [hscript, hoperands]
    refine ⟨arguments, ?_, ?_, checkout.config_absolute⟩
    · rw [startSystemReport, hyes]
      rfl
    · rw [args]
      cases hrun : argsFrom .default false arguments with
      | run args' =>
        have hconfig := config_of_argsFrom arguments hrun
        rw [hoperands] at hconfig
        obtain ⟨config, once, dryRun, printConfig⟩ := args'
        obtain rfl : config = some operand := hconfig
        rfl
      | printed line => rfl
      | rejected => rfl

-- The calls of `tests/scripts.sh`, in a checkout at `/checkout`.
example : startSystemReport ⟨"/checkout", rfl⟩ true ["--dry-run"] =
    .exec "/checkout/target/release/system_report" ["/checkout/data/config.yaml", "--dry-run"] := by
  decide +kernel

example : startSystemReport ⟨"/checkout", rfl⟩ true ["--dry-run", "relative.yaml"] =
    .exec "/checkout/target/release/system_report" ["--dry-run", "relative.yaml"] := by
  decide +kernel

example : startSystemReport ⟨"/checkout", rfl⟩ true ["--", "--odd-name.yaml"] =
    .exec "/checkout/target/release/system_report" ["--", "--odd-name.yaml"] := by
  decide +kernel

end CommandLine
end SystemReport
