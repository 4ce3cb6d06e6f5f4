import FilterBench.Program.Exit
import FilterBench.Settings.Basic
import FilterBench.Fault

/-!
# Building test programs

The build command of the settings runs in the directory of the sources, with the path of the
program to be made put in. Only an exit code of zero is a success.
-/
namespace FilterBench

/-- A command that is run, as it shows in the history. -/
structure CommandLine where
  program : String
  arguments : List String
  directory : Option String := none
  environment : Option (List (String × String)) := none
  timeout : Option Nat := none
  deriving DecidableEq, Repr, Inhabited

namespace Build

/-- Puts `value` in for each occurrence of `name` in braces, from left to right. -/
def substitute (pattern value : List Char) : Nat → List Char → List Char
  | _, [] => []
  | skip + 1, _ :: rest => substitute pattern value skip rest
  | 0, c :: rest =>
    if pattern.isPrefixOf (c :: rest) then
      value ++ substitute pattern value (pattern.length - 1) rest
    else c :: substitute pattern value 0 rest

def placeholder : List Char := "\x7boutput\x7d".toList

def words (s : BuildSettings) (output : String) : List String :=
  s.command.map fun part => String.ofList (substitute placeholder output.toList 0 part.toList)

/-- The command that builds the sources of a directory. -/
def command (s : BuildSettings) (source output : String) : CommandLine :=
  let ws := words s output
  { program := ws.headD "", arguments := ws.tail, directory := some source
    timeout := some s.timeout }

/-- How a build turned out. -/
def outcome (s : BuildSettings) (source output : String) (e : Exit) : Except Fault Unit :=
  if e.code = some 0 then .ok ()
  else
    let how := if e.timedOut then "timed out after " ++ Numeral.intText s.timeout ++ "ms"
      else e.describe
    .error
      { code := .buildFailed
        message := "build of " ++ source ++ " failed: " ++ how
        details := some
          [("dir", .text source), ("output", .text output),
            ("command", .text (String.intercalate " " (words s output))),
            ("log", .text e.output)] }

end Build

end FilterBench
