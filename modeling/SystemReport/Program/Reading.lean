import SystemReport.Config.Shown
import SystemReport.Program
import SystemReport.Reporter.Reading

/-!
# What the process writes is read back

The process writes JSON for others to read: the payloads of its reports, and what `--print-config`
prints.  A reader finds in the former what the files below `/proc` said (`reading_law`), and in the
latter the settings that are in effect (`print_law`).
-/

set_option autoImplicit false

open Machine

namespace SystemReport
namespace Program

open Mqtt Reporter Config Collectors
open Json (IsName FloatText)

variable {Certificate Identity Connector : Type}

/-- **What is printed is what is in effect.**  Asked to print its configuration, and unless a key has
no JSON text, the process prints one JSON text and ends well.  A path of names, none of them
`password`, leads in it to the setting that is in effect; if `password` follows, it leads to the
placeholder. -/
theorem print_law (w : World Certificate Identity Connector)
    (hjson : Json.RoundTrips w.platform.json.toStringPretty)
    (hfloat : ∀ q, FloatText (w.floatText q)) (arguments : List String) (args : CommandLine.Args)
    (cfg : Config) (hasked : Asked w arguments args cfg) (hprints : args.printConfig = true)
    (hends : (run w arguments).2 ≠ .panicked) :
    ∃ line json, stdoutOf (run w arguments).1 = [line] ∧ (run w arguments).2 = .exit 0 ∧
      Json.parse line = some json ∧ Shows w.floatText cfg json := by
  have hchosen : chosen w args cfg = printing w cfg := by rw [chosen, if_pos hprints]
  have hrun := hasked.run_eq
  rw [hchosen] at hrun
  rw [hrun] at hends ⊢
  cases hprint : cfg.printConfig w.floatText with
  | ok json =>
    obtain ⟨hparse, hshows⟩ := shown_of_printConfig hjson hfloat hprint
    have hprinting : printing w cfg =
        ([.stdout (w.platform.json.toStringPretty json)], .exit 0) := by
      rw [printing, hprint]
    have hwarnings : stdoutOf ((logWarnings cfg).map (record .warn 92)) = [] :=
      stdoutOf_records (logWarnings cfg) .warn 92 id
    refine ⟨w.platform.json.toStringPretty json, json, ?_, by rw [hprinting], hparse, hshows⟩
    rw [run, hasked.parsed]
    dsimp only
    rw [hasked.loaded]
    dsimp only
    rw [hchosen, hprinting, stdoutOf_append, stdoutOf_append, stdoutOf_applied, hwarnings]
    rfl
  | err e =>
    rw [printing, hprint] at hends
    exact absurd rfl hends
  | panicked =>
    rw [printing, hprint] at hends
    exact absurd rfl hends

/-- The built-in defaults. -/
theorem print_law_defaults : ∃ cfg line json, load bare CommandLine.Args.default = .ok cfg ∧
    stdoutOf (run bare ["--print-config"]).1 = [line] ∧ Json.parse line = some json ∧
      Shows bare.floatText cfg json := by
  obtain ⟨cfg, hload, -⟩ := load_bare
  have hasked : Asked bare ["--print-config"]
      { CommandLine.Args.default with printConfig := true } cfg := ⟨rfl, hload⟩
  have hzero : FloatText "0.0" := ⟨by simp [Json.isWordChar], rfl⟩
  have hends : (run bare ["--print-config"]).2 ≠ .panicked := by
    obtain ⟨yaml, found, d, htext, hdoc, hprintable⟩ := printable_of_load hload
    cases htext.symm.trans configText_bare
    have hnull : document bare.yaml "" = .ok ⟨.null, rfl⟩ :=
      document_eq_ok.2 ⟨_, SerdeYaml.parse_knowing (by decide +kernel) rfl, rfl, rfl⟩
    obtain rfl := Outcome.ok.inj (hdoc.symm.trans hnull)
    rw [hasked.run_eq, chosen, if_pos rfl]
    rcases printing_eq bare cfg with ⟨json, heq⟩ | ⟨-, hkey⟩
    · rw [heq]
      simp
    · rw [hprintable] at hkey
      cases hkey
  obtain ⟨line, json, hline, -, hparse, hshows⟩ :=
    print_law bare (Json.roundTrips_pretty 0) (fun _ => hzero) ["--print-config"] _ cfg hasked rfl hends
  exact ⟨cfg, line, json, hload, hline, hparse, hshows⟩

end Program
end SystemReport
