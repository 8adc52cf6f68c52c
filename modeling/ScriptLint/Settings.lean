import ScriptLint.ConfigFile

/-!
# Settings

The settings of a check. They may be given as data of which only the known fields count; what a
field holds is kept as it is (`SettingsData`) until the settings are needed.
-/

namespace ScriptLint

/-- The settings of a check. -/
structure Settings where
  /-- The number of spaces that a tab counts for. -/
  tabWidth : Int := 4
  /-- How many further lines a folded diagnostic lists. -/
  foldLimit : Int := 10
  /-- The length up to which scripts are accepted. -/
  lengthLimit : Int := 200000
  /-- The lines of the source are checked. -/
  checksLines : Bool := true
  /-- The report ends with the statistics of the source. -/
  addsStatistics : Bool := true
deriving DecidableEq, Repr

/-- The fields of settings as they are given. -/
structure SettingsData where
  tabWidth : Value := .int 4
  foldLimit : Value := .int 10
  lengthLimit : Value := .int 200000
  checksLines : Value := .bool true
  addsStatistics : Value := .bool true

namespace SettingsData

/-- The settings with the fields of a map in place of the usual ones; other fields are ignored. -/
def ofEntries (entries : List (Value × Value)) : SettingsData :=
  let usual : SettingsData := {}
  let field (name : String) (usual : Value) : Value := (Value.field? name entries).getD usual
  { tabWidth := field "tab_width" usual.tabWidth
    foldLimit := field "fold_line_limit" usual.foldLimit
    lengthLimit := field "max_script_length" usual.lengthLimit
    checksLines := field "line_format_checks" usual.checksLines
    addsStatistics := field "statistics" usual.addsStatistics }

/-- The settings that data gives, if it is a map. -/
def ofData? : Value → Option SettingsData
  | .map entries => some (ofEntries entries)
  | _ => none

/-- Why a file holds no settings. -/
inductive FileRefusal where
  | file (failure : ConfigFile.Failure)
  | notMap

/-- The settings that a file holds. -/
def ofFile (f : ConfigFile) : Except FileRefusal SettingsData :=
  match f.load with
  | .error failure => throw (.file failure)
  | .ok v =>
    match ofData? v with
    | some data => return data
    | none => throw .notMap

/-- The settings of a check: numbers where there are whole numbers, and else the usual ones. -/
def settings (data : SettingsData) : Settings :=
  let usual : Settings := {}
  { tabWidth := data.tabWidth.whole?.getD usual.tabWidth
    foldLimit := data.foldLimit.whole?.getD usual.foldLimit
    lengthLimit := data.lengthLimit.whole?.getD usual.lengthLimit
    checksLines := data.checksLines.truthy
    addsStatistics := data.addsStatistics.truthy }

end SettingsData

/-- A script that is longer than the settings allow. -/
structure TooLarge where
  length : Int
  limit : Int
deriving DecidableEq, Repr

/-- What users are told. -/
def TooLarge.message (e : TooLarge) : String :=
  "Script is too large to check (" ++ toString e.length ++ " characters, limit is " ++
    toString e.limit ++ ")"

/-- Refuses a script that is too long. -/
def Settings.accept (s : Settings) (t : Text) : Except TooLarge Text :=
  if s.lengthLimit < t.length then throw ⟨t.length, s.lengthLimit⟩ else return t

end ScriptLint
