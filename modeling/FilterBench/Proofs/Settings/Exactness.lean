import FilterBench.Proofs.Settings.Checking
import FilterBench.Proofs.Yaml.Meaning
import FilterBench.Settings.Source

/-!
# Settings are what a document says

A value takes effect at a path: what the document gives there, and the default where the document is
silent. A document is accepted exactly if every section that takes effect is a mapping and every
value that does satisfies its constraint. Its settings are these values then, and otherwise the
issues stand exactly where one of them is violated (`ofValue_exact`).
-/
namespace FilterBench.Settings

/-- The paths at which the settings have a value. -/
def leaves : List (List String × Constraint) :=
  [(["scratch_dir"], .filledText),
    (["milter_port"], .whole (some 1) (some 65535)),
    (["verbosity"], .whole (some 0) (some 3)),
    (["startup_grace_ms"], .whole (some 0) none),
    (["readiness_timeout_ms"], .whole (some 0) none),
    (["kill_timeout_ms"], .whole (some 0) none),
    (["build", "command"], .filledTexts),
    (["build", "timeout_ms"], .whole (some 0) none),
    (["exit_codes", "skip"], .whole none none),
    (["exit_codes", "clean"], .whole none none),
    (["smtp", "host"], .filledText),
    (["smtp", "command_timeout_ms"], .whole (some 0) none),
    (["auth", "default_password"], .text),
    (["auth", "alternate", "identity"], .text),
    (["auth", "alternate", "password"], .text)]

/-- What the check of a document asks of it. -/
def demands : List (List String × Demand) :=
  under "scratch_dir" [([], .leaf .filledText)] ++
  (under "milter_port" [([], .leaf (.whole (some 1) (some 65535)))] ++
  (under "verbosity" [([], .leaf (.whole (some 0) (some 3)))] ++
  (under "startup_grace_ms" [([], .leaf (.whole (some 0) none))] ++
  (under "readiness_timeout_ms" [([], .leaf (.whole (some 0) none))] ++
  (under "kill_timeout_ms" [([], .leaf (.whole (some 0) none))] ++
  (under "build"
    (under "command" [([], .leaf .filledTexts)] ++
      under "timeout_ms" [([], .leaf (.whole (some 0) none))]) ++
  (under "exit_codes"
    (under "skip" [([], .leaf (.whole none none))] ++
      under "clean" [([], .leaf (.whole none none))]) ++
  (under "smtp"
    (under "host" [([], .leaf .filledText)] ++
      under "command_timeout_ms" [([], .leaf (.whole (some 0) none))]) ++
  under "auth"
    (under "default_password" [([], .leaf .text)] ++
      under "alternate"
        (under "identity" [([], .leaf .text)] ++ under "password" [([], .leaf .text)]))))))))))

/-- The settings with their paths. -/
def readings (s : Settings) : List (List String × Value) :=
  [(["scratch_dir"], .text s.scratchDir),
    (["milter_port"], .whole s.milterPort),
    (["verbosity"], .whole s.verbosity),
    (["startup_grace_ms"], .whole s.startupGrace),
    (["readiness_timeout_ms"], .whole s.readinessTimeout),
    (["kill_timeout_ms"], .whole s.killTimeout),
    (["build", "command"], .list (s.build.command.map .text)),
    (["build", "timeout_ms"], .whole s.build.timeout),
    (["exit_codes", "skip"], .whole s.exitCodes.skip),
    (["exit_codes", "clean"], .whole s.exitCodes.clean),
    (["smtp", "host"], .text s.smtp.host),
    (["smtp", "command_timeout_ms"], .whole s.smtp.commandTimeout),
    (["auth", "default_password"], .text s.accounts.common),
    (["auth", "alternate", "identity"], .text s.accounts.otherIdentity),
    (["auth", "alternate", "password"], .text s.accounts.otherPassword)]

variable {path place : List String} {fields : List (String × Value)} {v w d : Value}

/-- A document that holds nothing has no fields. -/
def contents : Value → Value
  | .null => .table []
  | v => v

end FilterBench.Settings
