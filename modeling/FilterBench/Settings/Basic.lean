import FilterBench.Credentials

/-!
# Settings of the bench

Where programs are built, which port the filter listens on, how long to wait for what, and how
mail servers are reached. The defaults describe a local run on the usual ports.
-/
namespace FilterBench

structure BuildSettings where
  /-- The command and its arguments; `\{output}` stands for the program to be made. -/
  command : List String := ["go", "build", "-o", "\x7boutput\x7d", "."]
  timeout : Nat := 120000
  deriving DecidableEq, Repr, Inhabited

/-- Exit codes with a meaning: the program asks to be skipped, or ended as it should. -/
structure ExitCodes where
  skip : Int := 99
  clean : Int := 0
  deriving DecidableEq, Repr, Inhabited

structure SmtpSettings where
  host : String := "127.0.0.1"
  /-- How long to wait for a reply; zero is without end. -/
  commandTimeout : Nat := 30000
  deriving DecidableEq, Repr, Inhabited

structure Settings where
  scratchDir : String := "/tmp/milter-runner"
  milterPort : Nat := 7044
  verbosity : Nat := 1
  startupGrace : Nat := 1000
  readinessTimeout : Nat := 10000
  killTimeout : Nat := 5000
  build : BuildSettings := {}
  exitCodes : ExitCodes := {}
  smtp : SmtpSettings := {}
  accounts : Accounts := {}
  deriving DecidableEq, Repr, Inhabited

end FilterBench
