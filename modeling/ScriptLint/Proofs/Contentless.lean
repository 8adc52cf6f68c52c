import ScriptLint.Proofs.Located
import ScriptLint.Proofs.Resynchronize
import ScriptLint.Proofs.Yaml.Breaks

/-!
# Scripts without content

A script that has nothing but blank lines and comments is in order: its report is made of the
statistics alone, whatever stands in the comments and whichever blanks the lines have
(`checkText_contentless`).

Such a script has no content line. So its document is empty, the checks of source lines find
nothing on it, and what YAML is given of it are line breaks.
-/

namespace ScriptLint

/-- The line has nothing but blanks, or its first character that is not blank is a number sign. -/
def IsIdleLine (raw : Text) : Prop :=
  (∀ c ∈ raw, Text.isBlank c = true) ∨ (Text.trim raw).head? = some '#'

/-- All lines of the script are blank or comments. -/
def IsContentless (t : Text) : Prop := ∀ raw ∈ Source.rawLines (normalizeBreaks t), IsIdleLine raw

/-- The lines that say nothing are those that are counted as blank or as comments. -/
theorem isIdleLine_iff {raw : Text} : IsIdleLine raw ↔
    LineKind.ofTrimmed (Text.trim raw) = .blank ∨
      LineKind.ofTrimmed (Text.trim raw) = .comment := by
  rw [IsIdleLine, ← Text.trim_eq_nil_iff, LineKind.ofTrimmed_eq_blank,
    LineKind.ofTrimmed_eq_comment]

namespace IsContentless

variable {t : Text}

/-- A script without content has no content line. -/
theorem not_isContentLine (h : IsContentless t) {n : Int} : ¬ IsContentLine t n := by
  rintro ⟨i, raw, -, hraw, hblank, hcomment⟩
  rcases isIdleLine_iff.1 (h raw (List.mem_of_getElem? hraw)) with hk | hk
  · exact hblank hk
  · exact hcomment hk

/-- What the checks of source lines see of a script without content are empty lines. -/
theorem trimmed_eq_nil (h : IsContentless t) {line : SourceLine}
    (hl : line ∈ (Source.ofText t).lines) :
    line.trimmed = [] := by
  obtain ⟨raw, hraw, rfl⟩ := List.mem_map.1 hl
  exact SourceLine.trimmed_ofRaw_eq_nil.2 (isIdleLine_iff.1 (h raw hraw))

/-! ## The document -/

/-- The tree of a script without content is built from no lines. -/
theorem lines_eq_nil (h : IsContentless t) (tab : Int) :
    Document.lines tab (Source.ofText t) = [] := by
  refine List.eq_nil_iff_forall_not_mem.2 fun line hl => ?_
  exact h.not_isContentLine (Document.raw_of_mem_lines hl).1

/-- The document of a script without content is empty, whatever a tab counts as. -/
theorem read_eq (h : IsContentless t) (tab : Int) :
    Document.read tab (Source.ofText t) = .ok ([], []) := by
  rw [Document.read_of_legible (.inr (h.lines_eq_nil tab)), Document.ofSource, h.lines_eq_nil]
  rfl

/-! ## The source lines -/

/-- As YAML, a script without content is read as line breaks only. -/
theorem onlyBreaks_yamlText (h : IsContentless t) :
    Yaml.OnlyBreaks (yamlText (Source.ofText t)) := by
  intro c hc
  rcases Text.mem_joined hc with hc | ⟨text, htext, hc⟩
  · exact List.mem_singleton.1 hc
  · have hempty : text = [] := by
      rcases List.mem_append.1 htext with hm | hm
      · obtain ⟨line, hl, rfl⟩ := List.mem_map.1 hm
        rw [SourceLine.yamlText, h.trimmed_eq_nil hl]
        rfl
      · exact List.mem_singleton.1 hm
    rw [hempty] at hc
    cases hc

/-- The checks of source lines find nothing in a script without content. -/
theorem checkLines_eq (h : IsContentless t) : checkLines (Source.ofText t) = pure () := by
  have hyaml : checkYaml (Source.ofText t) = pure () := by
    rw [checkYaml, Yaml.load_of_breaks h.onlyBreaks_yamlText]
  have hlogs : formLog (Source.ofText t) ++ legacyLog (Source.ofText t) ++
      startLog (Source.ofText t) = [] := by
    refine List.eq_nil_iff_forall_not_mem.2 fun d hd => ?_
    exact lineLogs_every (P := fun _ => False) (fun hl _ => h.not_isContentLine hl) d hd
  rw [checkLines, hyaml, hlogs]
  rfl

/-- Nothing is found in a script without content. -/
theorem sourceLog_eq_nil (h : IsContentless t) (context : Context) :
    sourceLog context (Source.ofText t) = [] := by
  have hcheck : checkSource context (Source.ofText t) = pure () := by
    rw [checkSource, h.checkLines_eq, h.read_eq]
    cases context.settings.checksLines <;> rfl
  rw [sourceLog, hcheck]
  rfl

end IsContentless

/-! ## Statistics -/

namespace Source

/-- Lines of a kind are counted one by one. -/
theorem count_cons (kind : LineKind) (raw : Text) (rest : List Text) :
    count kind (raw :: rest) =
      (if LineKind.ofTrimmed (Text.trim raw) = kind then 1 else 0) + count kind rest := by
  rw [count, List.filter_cons]
  split <;> simp_all [count, Nat.add_comm]

/-- Every idle line is counted as a comment or as blank, and none of them is counted twice. -/
theorem count_of_idle {raws : List Text} (h : ∀ raw ∈ raws, IsIdleLine raw) :
    count .comment raws + count .blank raws = raws.length ∧ count .heading raws = 0 ∧
      count .code raws = 0 := by
  induction raws with
  | nil => exact ⟨rfl, rfl, rfl⟩
  | cons raw rest ih =>
    obtain ⟨hraw, hrest⟩ := List.forall_mem_cons.1 h
    obtain ⟨hsum, hheading, hcode⟩ := ih hrest
    simp only [count_cons, hheading, hcode, List.length_cons]
    rcases isIdleLine_iff.1 hraw with hk | hk <;> simp [hk] <;> omega

end Source

/-! ## Reports -/

/-- A script whose lines are all blank or comments is reported on by its four statistics and by
nothing else, whether its source lines are checked or not. There is no heading and no code, and the
comments and blank lines are all lines there are. -/
theorem checkText_contentless (context : Context)
    (hs : context.settings.addsStatistics = true) {t : Text} (h : IsContentless t) :
    ∃ comments blanks : Nat, comments + blanks = lineCount t ∧
      (checkText context t).statistics = { comments, blanks, headings := 0, codes := 0 } ∧
      (checkText context t).log =
        [(Issue.headingCount 0).onLine (-1), (Issue.codeCount 0).onLine (-1),
          (Issue.commentCount comments).onLine (-1), (Issue.blankCount blanks).onLine (-1)] ∧
      ∀ category : Category, category ≠ .info →
        (checkText context t).log.ofCategory category = [] := by
  obtain ⟨hsum, hheading, hcode⟩ := Source.count_of_idle h
  have hstatistics : (checkText context t).statistics =
      { comments := (Source.ofText t).statistics.comments
        blanks := (Source.ofText t).statistics.blanks
        headings := 0, codes := 0 } := by
    simp only [checkText, Source.ofText, hheading, hcode]
  have hlog : (checkText context t).log = statisticsLog (checkText context t).statistics := by
    show sourceLog context (Source.ofText t) ++
      (if context.settings.addsStatistics then _ else []) = _
    rw [h.sourceLog_eq_nil, if_pos hs]
    rfl
  refine ⟨_, _, ?_, hstatistics, ?_, fun category hinfo => ?_⟩
  · rw [lineCount, Source.ofText, List.length_map]
    exact hsum
  · rw [hlog, hstatistics]
    rfl
  · rw [hlog, hstatistics]
    cases category with
    | info => exact absurd rfl hinfo
    | _ => rfl

/-- A comment with outdated notations and a stray brace, a line of a tab and a wide blank, and an
empty line. -/
def idleScript : Text := "  #\t<def[a]> %b% \x7b\n\t\u3000\n".toList

/-- A comment and two blank lines leave only the statistics, of three lines in sum. -/
theorem checkText_contentless_idle : IsContentless idleScript ∧
    ({} : Context).settings.checksLines = true ∧ ({} : Context).settings.addsStatistics = true ∧
    ∃ comments blanks : Nat, comments + blanks = 3 ∧
      (checkText {} idleScript).statistics = { comments, blanks, headings := 0, codes := 0 } ∧
      (checkText {} idleScript).log =
        [(Issue.headingCount 0).onLine (-1), (Issue.codeCount 0).onLine (-1),
          (Issue.commentCount comments).onLine (-1), (Issue.blankCount blanks).onLine (-1)] ∧
      ∀ category : Category, category ≠ .info →
        (checkText {} idleScript).log.ofCategory category = [] := by
  have hlines : Source.rawLines (normalizeBreaks idleScript) =
      ["  #\t<def[a]> %b% \x7b".toList, "\t\u3000".toList, []] := by decide
  have hidle : IsContentless idleScript := by
    rw [IsContentless, hlines]
    refine List.forall_mem_cons.2 ⟨.inr (by decide), List.forall_mem_cons.2 ⟨.inl ?_, ?_⟩⟩
    · exact List.all_eq_true.1 (by decide)
    · exact List.forall_mem_singleton.2 (.inl nofun)
  have hcount : lineCount idleScript = 3 := by decide
  exact ⟨hidle, rfl, rfl, hcount ▸ checkText_contentless {} rfl hidle⟩

end ScriptLint
