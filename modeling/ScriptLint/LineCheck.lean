import ScriptLint.Fault
import ScriptLint.Issue
import ScriptLint.Source
import ScriptLint.Text.Class
import ScriptLint.Yaml.Load

/-!
# Checks of the source lines

Some checks look at the lines of a script as they are written: whether the script can be loaded as
YAML, whether a line is neither a key nor an entry of a list, and whether outdated notations are
used. Commands may hold colons and number signs that YAML would take for its own, so these are
escaped before the script is loaded (`yamlText`).
-/

namespace ScriptLint

/-! ## YAML -/

/-- Escapes each colon before a space. -/
def escapeColons : Text → Text
  | [] => []
  | ':' :: ' ' :: r => "<&co>".toList ++ escapeColons r
  | c :: r => c :: escapeColons r

/-- Escapes number signs. -/
def escapeSigns (t : Text) : Text := t.flatMap fun c => if c = '#' then "<&ns>".toList else [c]

namespace SourceLine

/-- The line is an entry of a list that opens no block. -/
def isPlainItem (line : SourceLine) : Bool :=
  Text.beginsWith ['-'] line.trimmed && !Text.endsWith [':'] line.trimmed

/-- The line as YAML is to read it. -/
def yamlText (line : SourceLine) : Text :=
  if line.trimmed.isEmpty then []
  else if line.isPlainItem then escapeSigns (escapeColons line.raw)
  else line.raw

end SourceLine

/-- The script as YAML is to read it. -/
def yamlText (source : Source) : Text :=
  Text.joined ['\n'] (source.lines.map SourceLine.yamlText ++ [[]])

/-- What YAML texts without a file are called. -/
def unnamedText : Text := "<unicode string>".toList

/-- Checks that the script can be loaded. -/
def checkYaml (source : Source) : Check Unit :=
  match Yaml.load (yamlText source) with
  | .ok _ => pure ()
  | .error (.error e) => Check.report [(Issue.invalidYaml e.problem.text).onLine e.place.line]
  | .error (.character code index) =>
    Check.report [(Issue.invalidYaml (Yaml.characterText unnamedText code index)).onLine (-1)]
  | .error (.value fault) => Check.stop (.value fault)

/-! ## The form of lines -/

/-- The issue of the form of a line. -/
def SourceLine.formIssue? (line : SourceLine) : Option Issue :=
  let t := line.trimmed
  if t.isEmpty then none
  else if Text.endsWith [' '] line.raw then some .strayBlank
  else if Text.beginsWith ['-'] t || Text.endsWith [':'] t then none
  else if !t.contains ':' then some .uselessLine
  else if Text.holds [':', ' '] t then none
  else some .textAfterKey

/-- What is reported of the form of each line. -/
def formLog (source : Source) : Log :=
  source.lines.zipIdx.filterMap fun (line, i) => line.formIssue?.map (·.onLine i)

/-! ## Outdated notations -/

/-- What is reported on the first line with a property. -/
def firstLineLog (source : Source) (p : Text → Bool) (issue : Issue) : Log :=
  match source.lines.findIdx? fun line => p line.raw with
  | some i => [issue.onLine i]
  | none => []

/-- A character of the name of a definition. -/
def isDefinitionPart (c : Char) : Bool := Text.isWord c || c = '.'

/-- After a percent sign, a name and another percent sign come next. -/
def isPercentName (t : Text) : Bool :=
  t.head?.any isDefinitionPart && (t.dropWhile isDefinitionPart).head? = some '%'

/-- The text holds a name between percent signs. -/
def holdsPercentName : Text → Bool
  | [] => false
  | c :: r => (c = '%' && isPercentName r) || holdsPercentName r

/-- What is reported of outdated notations, each where it comes first. -/
def legacyLog (source : Source) : Log :=
  firstLineLog source (fun t => t.contains '\t' && !(Text.trim t).isEmpty) .rawTab ++
  firstLineLog source (fun t => Text.endsWith ['\x7b'] t || Text.endsWith ['\x7d'] t) .oldBraces ++
  firstLineLog source holdsPercentName .ancientDefinition ++
  firstLineLog source (Text.holds "<def[".toList) .oldDefinition

/-! ## The start of the script -/

/-- A script begins with the name of a container, which is not indented. -/
def startLog (source : Source) : Log :=
  match source.lines.zipIdx.find? fun (line, _) => !(Text.trim line.raw).isEmpty with
  | some (line, i) =>
    if line.raw.head? = some ' ' || line.raw.head? = some '\t' then
      [Issue.indentedStart.onLine i]
    else []
  | none => []

/-- Checks the lines of a script. -/
def checkLines (source : Source) : Check Unit := do
  checkYaml source
  Check.report (formLog source ++ legacyLog source ++ startLog source)

end ScriptLint
