import ScriptLint.Container
import ScriptLint.Diagnostic
import ScriptLint.Document.Build
import ScriptLint.LineCheck
import ScriptLint.ScriptType.Builtin
import ScriptLint.Settings

/-!
# Reports

A script is checked in a context: what is known of the language, which script types there are, and
the settings. The check reads the lines of the script, checks them if the settings say so, builds
the document and checks its containers. It always gives a report: a fault that is not inside of a
container is reported for the whole script (`checkText`).
-/

namespace ScriptLint

/-- What a script is checked against. -/
structure Context where
  vocabulary : Vocabulary := {}
  types : Registry := .builtin
  settings : Settings := {}

/-- The outcome of a check. -/
structure Report where
  log : Log
  statistics : Statistics
  foldLimit : Int

/-- The statistics of a source as they are reported. -/
def statisticsLog (s : Statistics) : Log :=
  [Issue.headingCount s.headings, Issue.codeCount s.codes, Issue.commentCount s.comments,
    Issue.blankCount s.blanks].map (·.onLine (-1))

/-- Checks a source. -/
def checkSource (context : Context) (source : Source) : Check Unit := do
  if context.settings.checksLines then checkLines source
  let (entries, log) ← Check.ofExcept (Document.read context.settings.tabWidth source)
  Check.report (log ++ checkDocument context.vocabulary context.types entries)

/-- The report on a fault that stopped the check of a script. -/
def Fault.scriptLog (fault : Fault) : Log :=
  [Issue.faultTrace.onLine (-1), (Issue.faultInScript fault.label fault.reason).onLine (-1)]

/-- The log of a check, which ends with the fault if there was one. -/
def sourceLog (context : Context) (source : Source) : Log :=
  let check := checkSource context source
  match check.result with
  | .ok () => check.log
  | .error fault => check.log ++ fault.scriptLog

/-- Checks a script. -/
def checkText (context : Context) (t : Text) : Report :=
  let source := Source.ofText t
  { log := sourceLog context source ++
      (if context.settings.addsStatistics then statisticsLog source.statistics else [])
    statistics := source.statistics
    foldLimit := context.settings.foldLimit }

namespace Report

/-- The categories that users are shown. -/
def shown : List Category := [.error, .warning, .minorWarning, .info]

/-- The lines that users are shown, by category; a category without any is left out. -/
def render (r : Report) : List (Category × List String) :=
  (shown.map fun c => (c, r.log.render c r.foldLimit)).filter fun (_, lines) => !lines.isEmpty

end Report

end ScriptLint
