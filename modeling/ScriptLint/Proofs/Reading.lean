import ScriptLint.Report

/-!
# Reading a script

The content lines of a script are measured before its document is built, all with the same tab. So
either all of them are measured or the first one fails: a script can be read if its tab has a width
that is an index, or if it has no content line (`Document.Legible`, `Document.read_eq_ok_iff`).
What is found in a script beyond the checks of its source lines is the log of its document, or the
one fault that stopped the reading (`sourceLog_of_checked`, `sourceLog_of_unchecked`).
-/

namespace ScriptLint

variable {tab : Int} {source : Source}

namespace Document

/-- The script can be read: its tab has a width that is an index, or it has no content line. -/
def Legible (tab : Int) (source : Source) : Prop := isIndex tab = true ∨ lines tab source = []

instance : Decidable (Legible tab source) := inferInstanceAs (Decidable (_ ∨ _))

/-- With a tab that is an index, every content line is measured. -/
theorem readLinesFrom_of_isIndex (h : isIndex tab = true) (number : Nat)
    (source : List SourceLine) :
    readLinesFrom tab number source = .ok (linesFrom tab number source) := by
  induction source generalizing number with
  | nil => rfl
  | cons l rest ih =>
    rw [readLinesFrom, linesFrom, ih]
    split
    · rfl
    · rw [measureIndent, if_pos h]
      rfl

/-- With a tab that is no index, the first content line fails, if there is one. -/
theorem readLinesFrom_of_not_isIndex (h : isIndex tab = false) (number : Nat)
    (source : List SourceLine) :
    readLinesFrom tab number source =
      if linesFrom tab number source = [] then .ok [] else .error .width := by
  induction source generalizing number with
  | nil => rfl
  | cons l rest ih =>
    rw [readLinesFrom, linesFrom, ih]
    split
    · rfl
    · rw [measureIndent, h, if_neg (List.cons_ne_nil _ _)]
      rfl

/-- A legible script has the document of its lines. -/
theorem read_of_legible (h : Legible tab source) :
    read tab source = .ok (ofSource tab source) := by
  have hlines : readLines tab source = .ok (lines tab source) := by
    cases hi : isIndex tab with
    | true => exact readLinesFrom_of_isIndex hi 0 source.lines
    | false =>
      have hnil : lines tab source = [] := h.resolve_left (Bool.eq_false_iff.1 hi)
      rw [hnil]
      exact (readLinesFrom_of_not_isIndex hi 0 source.lines).trans (if_pos hnil)
  rw [read, hlines]
  rfl

/-- A script that is not legible has no document. -/
theorem read_of_not_legible (h : ¬ Legible tab source) : read tab source = .error .width := by
  obtain ⟨hi, hlines⟩ := not_or.1 h
  have hread : readLines tab source = .error .width :=
    (readLinesFrom_of_not_isIndex (Bool.eq_false_iff.2 hi) 0 source.lines).trans (if_neg hlines)
  rw [read, hread]
  rfl

/-- Exactly the legible scripts are read, and what is read of them is the document of their
lines. -/
theorem read_eq_ok_iff {tree : Entries × Log} :
    read tab source = .ok tree ↔ Legible tab source ∧ ofSource tab source = tree := by
  by_cases h : Legible tab source
  · rw [read_of_legible h, Except.ok.injEq]
    exact ⟨fun htree => ⟨h, htree⟩, fun htree => htree.2⟩
  · rw [read_of_not_legible h]
    exact ⟨nofun, fun htree => absurd htree.1 h⟩

/-- The other scripts have no document as their tab is too wide. -/
theorem read_eq_error_iff {fault : Fault} :
    read tab source = .error fault ↔ ¬ Legible tab source ∧ fault = .width := by
  by_cases h : Legible tab source
  · rw [read_of_legible h]
    exact ⟨nofun, fun hfault => absurd h hfault.1⟩
  · rw [read_of_not_legible h, Except.error.injEq]
    exact ⟨fun hfault => ⟨h, hfault.symm⟩, fun hfault => hfault.2.symm⟩

end Document

/-- What is found when the document of a source is read and checked. -/
def documentLog (context : Context) (source : Source) : Log :=
  match Document.read context.settings.tabWidth source with
  | .ok (entries, log) => log ++ checkDocument context.vocabulary context.types entries
  | .error fault => fault.scriptLog

variable {context : Context}

/-- The document of a legible script is checked. -/
theorem documentLog_of_legible (h : Document.Legible context.settings.tabWidth source) :
    documentLog context source = (Document.ofSource context.settings.tabWidth source).2 ++
      checkDocument context.vocabulary context.types
        (Document.ofSource context.settings.tabWidth source).1 := by
  rw [documentLog, Document.read_of_legible h]

/-- All that is found in a script that is not legible is the fault. -/
theorem documentLog_of_not_legible (h : ¬ Document.Legible context.settings.tabWidth source) :
    documentLog context source = Fault.width.scriptLog := by
  rw [documentLog, Document.read_of_not_legible h]

/-- Without the checks of source lines, the log is that of the document. -/
theorem sourceLog_of_unchecked (h : context.settings.checksLines = false) (source : Source) :
    sourceLog context source = documentLog context source := by
  simp only [sourceLog, checkSource, documentLog, h]
  cases Document.read context.settings.tabWidth source <;> rfl

/-- If the checks of source lines do not stop, their log comes before that of the document. -/
theorem sourceLog_of_checked (h : context.settings.checksLines = true)
    (hlines : (checkLines source).result = .ok ()) :
    sourceLog context source = (checkLines source).log ++ documentLog context source := by
  simp only [sourceLog, checkSource, documentLog, h, if_true]
  rw [Check.bind_of_ok hlines]
  cases Document.read context.settings.tabWidth source with
  | ok tree => rfl
  | error fault => exact congrArg (· ++ fault.scriptLog) (List.append_nil _)

/-- A context in which only documents are checked, with a tab of more spaces than any text has. -/
def wideContext : Context :=
  { settings := { tabWidth := indexBound, checksLines := false, addsStatistics := false } }

/-- Even a line without a tab is not measured then. -/
example : Document.read indexBound (Source.ofText "a: 1".toList) = .error .width := by
  exact Document.read_of_not_legible (by decide)

end ScriptLint
