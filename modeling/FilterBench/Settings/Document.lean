import FilterBench.Settings.Check
import FilterBench.Fault

/-!
# Settings from a document

A document overrides the defaults key by key: a table is merged into a table, and anything else
replaces what stands there. The whole is then checked; keys that the settings do not know change
nothing, but for the key of what a table descends from.
-/
namespace FilterBench

namespace Value

/-- The key of what a table descends from. A table that was merged has no field of this name. -/
def ancestry : String := "__proto__"

/-- Whether a value descends from a collection or a date, so that it counts as one. -/
def Special.isInherited : Special → Bool
  | .date => true
  | .set => true
  | .orderedMap => true
  | _ => false

/-- What a table counts as that is made by merging these fields: the table that it descends from is
merged too, and what stands there under this key is what both of them descend from. -/
def guise? (fields : List (String × Value)) : Option Special :=
  match lookup fields ancestry with
  | some (.table parent) =>
    match lookup parent ancestry with
    | some (.special sort) => if sort.isInherited then some sort else none
    | _ => none
  | _ => none

mutual
/-- Lays a value over another: what has fields is merged into a table, all else replaces it. -/
def overlay (base : Value) : Value → Value
  | .table fields =>
    match base with
    | .table old =>
      match guise? fields with
      | some sort => .special sort
      | none => .table (overlayFields old fields)
    | _ => .table fields
  | v =>
    match base, v.fields? with
    | .table old, some _ => .table old
    | _, _ => v

/-- Lays the fields of a table over those of another, one after the other. -/
def overlayFields (base : List (String × Value)) : List (String × Value) → List (String × Value)
  | [] => base
  | (key, v) :: rest =>
    let merged := match lookup base key with
      | some old => old.overlay v
      | none => v
    overlayFields (if key = ancestry then base else put base key merged) rest
end

def whole (n : Int) : Value := .number (.ofInt n)

end Value

namespace Settings
open Checked

/-- The settings as a document holds them. -/
def document (s : Settings) : List (String × Value) :=
  [("scratch_dir", .text s.scratchDir), ("milter_port", .whole s.milterPort),
    ("verbosity", .whole s.verbosity), ("startup_grace_ms", .whole s.startupGrace),
    ("readiness_timeout_ms", .whole s.readinessTimeout), ("kill_timeout_ms", .whole s.killTimeout),
    ("build", .table
      [("command", .list (s.build.command.map .text)), ("timeout_ms", .whole s.build.timeout)]),
    ("exit_codes", .table
      [("skip", .whole s.exitCodes.skip), ("clean", .whole s.exitCodes.clean)]),
    ("smtp", .table
      [("host", .text s.smtp.host), ("command_timeout_ms", .whole s.smtp.commandTimeout)]),
    ("auth", .table
      [("default_password", .text s.accounts.common),
        ("alternate", .table
          [("identity", .text s.accounts.otherIdentity),
            ("password", .text s.accounts.otherPassword)])])]

def milliseconds (path : List String) (v : Value) : Checked Nat :=
  map Int.toNat (whole (some 0) none path v)

def checkBuild (path : List String) (fs : List (String × Value)) : Checked BuildSettings :=
  map (fun (command, timeout) => ⟨command, timeout⟩)
    (both (part filledTexts path fs "command") (part milliseconds path fs "timeout_ms"))

def checkExitCodes (path : List String) (fs : List (String × Value)) : Checked ExitCodes :=
  map (fun (skip, clean) => ⟨skip, clean⟩)
    (both (part (whole none none) path fs "skip") (part (whole none none) path fs "clean"))

def checkSmtp (path : List String) (fs : List (String × Value)) : Checked SmtpSettings :=
  map (fun (host, timeout) => ⟨host, timeout⟩)
    (both (part filledText path fs "host") (part milliseconds path fs "command_timeout_ms"))

def checkAlternate (path : List String) (fs : List (String × Value)) : Checked (String × String) :=
  both (part text path fs "identity") (part text path fs "password")

def checkAccounts (path : List String) (fs : List (String × Value)) : Checked Accounts :=
  map (fun (common, identity, password) => ⟨common, identity, password⟩)
    (both (part text path fs "default_password")
      (part (table checkAlternate) path fs "alternate"))

def checkPort (path : List String) (v : Value) : Checked Nat :=
  map Int.toNat (whole (some 1) (some 65535) path v)

def checkVerbosity (path : List String) (v : Value) : Checked Nat :=
  map Int.toNat (whole (some 0) (some 3) path v)

/-- Checks a whole document. -/
def check (path : List String) (fs : List (String × Value)) : Checked Settings :=
  map (fun (scratch, port, verbosity, grace, readiness, kill, build, codes, smtp, accounts) =>
      ⟨scratch, port, verbosity, grace, readiness, kill, build, codes, smtp, accounts⟩)
    (both (part filledText path fs "scratch_dir")
    (both (part checkPort path fs "milter_port")
    (both (part checkVerbosity path fs "verbosity")
    (both (part milliseconds path fs "startup_grace_ms")
    (both (part milliseconds path fs "readiness_timeout_ms")
    (both (part milliseconds path fs "kill_timeout_ms")
    (both (part (table checkBuild) path fs "build")
    (both (part (table checkExitCodes) path fs "exit_codes")
    (both (part (table checkSmtp) path fs "smtp")
      (part (table checkAccounts) path fs "auth"))))))))))

/-- The settings of a document that comes from `source`: those of its table, or the defaults when
it holds nothing. -/
def ofValue (v : Value) (source : String) : Except Fault Settings :=
  let overrides : Option Value := match v with
    | .null => some (.table [])
    | v => v.fields?.map fun _ => v
  match overrides with
  | none => .error { code := .configInvalid, message := source ++ " must contain a mapping" }
  | some v =>
    match table check [] ((Value.table (document {})).overlay v) with
    | .ok s => .ok s
    | .error issues =>
      .error
        { code := .configInvalid, message := "Invalid config in " ++ source
          details := some [("issues", .list (issues.map fun i => .text i.text))] }

end Settings

end FilterBench
