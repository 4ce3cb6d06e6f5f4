import FilterBench.Settings.Document
import FilterBench.Yaml.Document

/-!
# Where settings come from

Settings are written in a YAML file. The file is the one that the caller names, else the one that
the environment names; without either, and without the file, the defaults hold.
-/
namespace FilterBench.Settings

/-- The settings of a text that comes from `source`. -/
def ofText (text : String) (source : String) : Except Fault Settings :=
  match Yaml.ofText text with
  | some v => ofValue v source
  | none => .error { code := .configInvalid, message := "Invalid YAML in " ++ source }

/-- The code of the error that there is no such file. -/
def absentFile : String := "ENOENT"

/-- Loads the settings, and says from where; `read` is how the texts of files are read. -/
def load (named environment : Option String) (read : String → Except OtherError String) :
    Except Thrown (Settings × Option String) :=
  match named <|> environment with
  | none => .ok ({}, none)
  | some path =>
    match read path with
    | .ok text => match ofText text path with
      | .ok s => .ok (s, some path)
      | .error f => .error (.fault f)
    | .error e => if e.code = some absentFile then .ok ({}, some path) else .error (.other e)

end FilterBench.Settings
