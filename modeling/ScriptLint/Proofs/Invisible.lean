import Mathlib.Data.List.InsertIdx
import ScriptLint.Proofs.Document.Account
import ScriptLint.Proofs.Reindent

/-!
# Blank lines and comments

A line that is blank or a comment is of no consequence to a script. Wherever it is put in
(`insertLine`), the document is the same and the checks find the same, and the lines from there on
have gone up by one (`checkText_insertLine`). Only the statistics tell of the line.

Such a line is no content line, whatever its indentation is, so the content lines of the longer
script are the old ones under new numbers (`linesFrom_insertIdx`). The rest is known of renumbered
lines.
-/

namespace ScriptLint

/-- The number of a line once another one is put in before line `n`. -/
def movedFrom (n k : Nat) : Nat := if k < n then k else k + 1

/-- The text with a line put in before its line `n`. -/
def insertLine (n : Nat) (line t : Text) : Text :=
  Text.joined ['\n'] ((Source.rawLines (normalizeBreaks t)).insertIdx n line)

/-! ## Lines -/

/-- The lines of the longer text are the old ones with the line among them. -/
theorem rawLines_insertLine (n : Nat) {line : Text} (hn : '\n' ∉ line) (hr : '\r' ∉ line)
    (t : Text) :
    Source.rawLines (normalizeBreaks (insertLine n line t)) =
      (Source.rawLines (normalizeBreaks t)).insertIdx n line := by
  apply Source.rawLines_joined
  · intro hnil
    have hold : Source.rawLines (normalizeBreaks t) ≠ [] := List.splitOn_ne_nil '\n' _
    exact hold (List.eq_nil_of_subset_nil (hnil ▸ List.subset_insertIdx _ n line))
  · intro raw hraw
    rcases List.eq_or_mem_of_mem_insertIdx hraw with rfl | hraw
    · exact ⟨hn, hr⟩
    · exact ⟨fun h => (Text.mem_of_mem_fields hraw h).2 rfl,
        fun h => not_mem_normalizeBreaks t (Text.mem_of_mem_fields hraw h).1⟩

namespace Document

/-- A line without text is no content line, so the others only get new numbers. -/
theorem linesFrom_insertIdx (tab : Int) {line : SourceLine} (h : line.trimmed = []) {n : Nat}
    {lines : List SourceLine} (hn : n ≤ lines.length) (number : Nat) :
    linesFrom tab number (lines.insertIdx n line) =
      (linesFrom tab number lines).map (Line.renumber (movedFrom (number + n))) := by
  induction n generalizing lines number with
  | zero =>
    rw [List.insertIdx_zero, linesFrom, if_pos (by rw [h]; rfl), linesFrom_add]
    refine List.map_congr_left fun l hl => ?_
    have hle := (linesFrom_increasing tab number lines).2 l hl
    rw [Line.renumber, Line.renumber, movedFrom, if_neg (by omega)]
  | succ n ih =>
    cases lines with
    | nil => simp at hn
    | cons l rest =>
      have hrest := ih (Nat.le_of_succ_le_succ hn) (number + 1)
      rw [Nat.add_right_comm] at hrest
      rw [List.insertIdx_succ_cons, linesFrom, linesFrom, hrest]
      split
      · rfl
      · have hfirst : movedFrom (number + (n + 1)) number = number := if_pos (by omega)
        rw [List.map_cons, Line.renumber, hfirst]
        rfl

/-- The content lines of the longer script are those of the script under new numbers. -/
theorem lines_insertLine (tab : Int) {n : Nat} {line t : Text} (hlen : n ≤ lineCount t)
    (hn : '\n' ∉ line) (hr : '\r' ∉ line) (hkind : LineKind.ofTrimmed (Text.trim line) = .blank ∨
      LineKind.ofTrimmed (Text.trim line) = .comment) :
    lines tab (Source.ofText (insertLine n line t)) =
      (lines tab (Source.ofText t)).map (Line.renumber (movedFrom n)) := by
  have hempty := SourceLine.trimmed_ofRaw_eq_nil.2 hkind
  have hlines := linesFrom_insertIdx tab hempty hlen 0
  rw [Nat.zero_add] at hlines
  rw [lines, lines, ← hlines, Source.ofText, Source.ofText, rawLines_insertLine n hn hr,
    List.map_insertIdx]

end Document

/-! ## Statistics -/

/-- The line is counted among those of its kind. -/
theorem Source.count_insertLine (kind : LineKind) {n : Nat} {line t : Text}
    (hlen : n ≤ lineCount t) (hn : '\n' ∉ line) (hr : '\r' ∉ line) :
    count kind (rawLines (normalizeBreaks (insertLine n line t))) =
      count kind (rawLines (normalizeBreaks t)) +
        if LineKind.ofTrimmed (Text.trim line) = kind then 1 else 0 := by
  have hlen' : n ≤ (rawLines (normalizeBreaks t)).length := by
    rw [lineCount, ofText, List.length_map] at hlen
    exact hlen
  rw [rawLines_insertLine n hn hr, count, ((List.perm_insertIdx line _ hlen').filter _).length_eq,
    List.filter_cons, count]
  split <;> simp_all

/-- Only the line itself is counted on top. -/
theorem Source.statistics_insertLine {n : Nat} {line t : Text} (hlen : n ≤ lineCount t)
    (hn : '\n' ∉ line) (hr : '\r' ∉ line) (hkind : LineKind.ofTrimmed (Text.trim line) = .blank ∨
      LineKind.ofTrimmed (Text.trim line) = .comment) :
    (ofText (insertLine n line t)).statistics =
      { (ofText t).statistics with
        comments := (ofText t).statistics.comments +
          if LineKind.ofTrimmed (Text.trim line) = .comment then 1 else 0
        blanks := (ofText t).statistics.blanks +
          if LineKind.ofTrimmed (Text.trim line) = .blank then 1 else 0 } := by
  simp only [ofText, count_insertLine _ hlen hn hr]
  rcases hkind with hkind | hkind <;> simp [hkind]

/-! ## Reports -/

/-- Nothing but the statistics is for information. -/
theorem statisticsLog_ofCategory {category : Category} (h : category ≠ .info) (s : Statistics) :
    (statisticsLog s).ofCategory category = [] := by
  refine List.filter_eq_nil_iff.2 fun d hd hc => h ?_
  obtain ⟨issue, hi, rfl⟩ := List.mem_map.1 hd
  simp only [List.mem_cons, List.not_mem_nil, or_false] at hi
  have hc : issue.category = category := of_decide_eq_true hc
  rcases hi with rfl | rfl | rfl | rfl <;> exact hc.symm

/-- What a report says of the statistics. -/
def statisticsPart (context : Context) (s : Statistics) : Log :=
  if context.settings.addsStatistics then statisticsLog s else []

/-- The statistics are written after all else. -/
theorem checkText_log_eq (context : Context) (t : Text) :
    (checkText context t).log = sourceLog context (Source.ofText t) ++
      statisticsPart context (checkText context t).statistics :=
  rfl

/-- The statistics have no finding that is not for information. -/
theorem statisticsPart_ofCategory {category : Category} (h : category ≠ .info) (context : Context)
    (s : Statistics) : (statisticsPart context s).ofCategory category = [] := by
  unfold statisticsPart
  split
  · exact statisticsLog_ofCategory h s
  · rfl

/-- A line that is blank or a comment may be put in anywhere. The document is the same, and so are
all errors, warnings and findings for debugging, in their order and with their messages; only lines
from the new one on have gone up by one. What else is in the report are the statistics, of which
the count of lines of its kind has gone up by one. -/
theorem checkText_insertLine (context : Context)
    (hc : context.settings.checksLines = false) {n : Nat} {line t : Text} (hlen : n ≤ lineCount t)
    (hn : '\n' ∉ line) (hr : '\r' ∉ line)
    (hkind : LineKind.ofTrimmed (Text.trim line) = .blank ∨
      LineKind.ofTrimmed (Text.trim line) = .comment) :
    Source.rawLines (normalizeBreaks (insertLine n line t)) =
      (Source.rawLines (normalizeBreaks t)).insertIdx n line ∧
    (Document.ofText context.settings.tabWidth (insertLine n line t)).1 =
      (Document.ofText context.settings.tabWidth t).1.renumber (movedFrom n) ∧
    (∀ category : Category, category ≠ .info →
      (checkText context (insertLine n line t)).log.ofCategory category =
        ((checkText context t).log.ofCategory category).renumber (movedFrom n)) ∧
    (∃ log : Log, (checkText context t).log =
        log ++ statisticsPart context (checkText context t).statistics ∧
      (checkText context (insertLine n line t)).log = log.renumber (movedFrom n) ++
        statisticsPart context (checkText context (insertLine n line t)).statistics) ∧
    (checkText context (insertLine n line t)).statistics =
      { (checkText context t).statistics with
        comments := (checkText context t).statistics.comments +
          if LineKind.ofTrimmed (Text.trim line) = .comment then 1 else 0
        blanks := (checkText context t).statistics.blanks +
          if LineKind.ofTrimmed (Text.trim line) = .blank then 1 else 0 } := by
  have hdocument :
      Document.ofSource context.settings.tabWidth (Source.ofText (insertLine n line t)) =
      ((Document.ofText context.settings.tabWidth t).1.renumber (movedFrom n),
        (Document.ofText context.settings.tabWidth t).2.renumber (movedFrom n)) := by
    rw [Document.ofSource, Document.lines_insertLine _ hlen hn hr hkind, Document.ofLines_renumber]
    rfl
  have hlegible :
      Document.Legible context.settings.tabWidth (Source.ofText (insertLine n line t)) ↔
      Document.Legible context.settings.tabWidth (Source.ofText t) := by
    rw [Document.Legible, Document.Legible, Document.lines_insertLine _ hlen hn hr hkind,
      List.map_eq_nil_iff]
  have hsource : sourceLog context (Source.ofText (insertLine n line t)) =
      (sourceLog context (Source.ofText t)).renumber (movedFrom n) := by
    rw [sourceLog_of_unchecked hc, sourceLog_of_unchecked hc]
    by_cases hl : Document.Legible context.settings.tabWidth (Source.ofText t)
    · rw [documentLog_of_legible hl, documentLog_of_legible (hlegible.2 hl), hdocument,
        checkDocument_renumber, Log.renumber_append]
      rfl
    · rw [documentLog_of_not_legible hl, documentLog_of_not_legible (mt hlegible.1 hl)]
      rfl
  refine ⟨rawLines_insertLine n hn hr t, congrArg Prod.fst hdocument, fun category hinfo => ?_,
    ⟨_, checkText_log_eq context t, ?_⟩, Source.statistics_insertLine hlen hn hr hkind⟩
  · rw [checkText_log_eq, checkText_log_eq, Log.ofCategory_append, Log.ofCategory_append, hsource,
      statisticsPart_ofCategory hinfo, statisticsPart_ofCategory hinfo, List.append_nil,
      List.append_nil, Log.renumber_ofCategory]
  · rw [checkText_log_eq, hsource]

/-- A script with a block, and a line at a width that nothing has. -/
def blockScript : Text := "a:\n  - if x:\n      - y\n - z".toList

/-- A comment that is indented deeper than any line of the script. -/
def deepComment : Text := "          # k:".toList

/-- A comment that is deeper than all else, at the start of a block: the report on a later line
moves by one, and the comment is counted. -/
theorem checkText_insertLine_in_block :
    plainContext.settings.checksLines = false ∧ 2 ≤ lineCount blockScript ∧ '\n' ∉ deepComment ∧
    '\r' ∉ deepComment ∧ LineKind.ofTrimmed (Text.trim deepComment) = .comment ∧
    insertLine 2 deepComment blockScript =
      "a:\n  - if x:\n          # k:\n      - y\n - z".toList ∧
    (Document.ofText 4 (insertLine 2 deepComment blockScript)).1 =
      (Document.ofText 4 blockScript).1.renumber (movedFrom 2) ∧
    (checkText plainContext blockScript).log.ofCategory .warning =
      [(Issue.shrunkSpacing 6 1 [0]).onLine 3] ∧
    (checkText plainContext (insertLine 2 deepComment blockScript)).log.ofCategory .warning =
      [(Issue.shrunkSpacing 6 1 [0]).onLine 4] ∧
    (checkText plainContext (insertLine 2 deepComment blockScript)).statistics.comments = 1 := by
  have hlen : 2 ≤ lineCount blockScript := by decide
  have hn : '\n' ∉ deepComment := by decide
  have hr : '\r' ∉ deepComment := by decide
  have hkind : LineKind.ofTrimmed (Text.trim deepComment) = .comment := by decide
  have hold : (checkText plainContext blockScript).log.ofCategory .warning =
      [(Issue.shrunkSpacing 6 1 [0]).onLine 3] := by decide +kernel
  obtain ⟨-, htree, hlog, -, hstatistics⟩ :=
    checkText_insertLine plainContext rfl hlen hn hr (.inr hkind)
  refine ⟨rfl, hlen, hn, hr, hkind, by decide, htree, hold, ?_, ?_⟩
  · rw [hlog .warning (by decide), hold]
    rfl
  · rw [hstatistics, if_pos hkind]
    rfl

end ScriptLint
