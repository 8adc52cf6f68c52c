import ScriptLint.Proofs.Document.Record

/-!
# Every line is accounted for

Each text of a document is one that a content line dictates. If no key is repeated, the entries of
a document are in the order of their lines, and a line without an entry is reported, continues an
entry of a list, is nested under a line that was left out, or says nothing (`ofSource_accounted`).

Why a line has no entry is a matter of the state in which the builder meets it. A line is skipped
because of a line before it that was left out, and all lines in between are deeper than that one
(`Builder.skipped_of_run`).
-/

namespace ScriptLint

/-- The lines of the entries among marks. -/
def entryLines (marks : List Mark) : List Int := (marks.filter (·.isEntry)).map (·.text.line)

/-- The lines of entries in two groups of marks are those in each. -/
theorem entryLines_append (first rest : List Mark) :
    entryLines (first ++ rest) = entryLines first ++ entryLines rest := by
  rw [entryLines, List.filter_append, List.map_append]
  rfl

/-- The lines of entries are those of the marks of entries. -/
theorem mem_entryLines {marks : List Mark} {n : Int} :
    n ∈ entryLines marks ↔ ∃ mark ∈ marks, mark.isEntry = true ∧ mark.text.line = n := by
  simp [entryLines, and_assoc]

/-- The log has a finding with one of the keys on the line. -/
def Log.Reports (log : Log) (keys : List String) (line : Document.Line) : Prop :=
  ∃ d ∈ log, d.line = line.number ∧ d.key ∈ keys

/-- What is reported with some keys is reported in a longer log and with more keys. -/
theorem Log.Reports.mono {log log' : Log} {keys keys' : List String} {line : Document.Line}
    (h : log.Reports keys line) (hl : log ⊆ log') (hk : keys ⊆ keys') :
    log'.Reports keys' line := by
  obtain ⟨d, hd, hline, hkey⟩ := h
  exact ⟨d, hl hd, hline, hk hkey⟩

/-- The issue at the end of a log is reported. -/
theorem Log.reports_last {first : Log} {issue : Issue} {line : Document.Line} {keys : List String}
    (h : issue.key ∈ keys) : Reports (first ++ [issue.onLine line.number]) keys line :=
  ⟨_, List.mem_append_right _ (List.mem_singleton_self _), rfl, h⟩

namespace Document

/-! ## The order of entries -/

/-- The numbers of content lines go up. -/
theorem linesFrom_increasing (tab : Int) (number : Nat) (source : List SourceLine) :
    (linesFrom tab number source).Pairwise (fun a b => a.number < b.number) ∧
      ∀ line ∈ linesFrom tab number source, number ≤ line.number := by
  induction source generalizing number with
  | nil => exact ⟨.nil, nofun⟩
  | cons l rest ih =>
    obtain ⟨hp, hle⟩ := ih (number + 1)
    rw [linesFrom]
    split
    · exact ⟨hp, fun line hl => Nat.le_of_succ_le (hle line hl)⟩
    · refine ⟨.cons hle hp, List.forall_mem_cons.2 ⟨Nat.le_refl _, fun line hl => ?_⟩⟩
      exact Nat.le_of_succ_le (hle line hl)

namespace Line

/-- A line has at most one entry, which is on this line. -/
theorem entryLines_marks (line : Line) :
    entryLines line.marks = if line.marks = [] then [] else [(line.number : Int)] := by
  unfold marks
  split
  · split <;> rfl
  · split
    · rfl
    · split <;> rfl

/-- The marks of a line are on it. -/
theorem line_of_mem_marks {line : Line} {mark : Mark} (h : mark ∈ line.marks) :
    mark.text.line = line.number := by
  cases dictates_of_mem h <;> rfl

end Line

namespace Builder

/-- A line adds at most one entry, which is on it. -/
theorem entryLines_added (b : Builder) (line : Line) :
    entryLines (b.added line) = [] ∨ entryLines (b.added line) = [(line.number : Int)] := by
  rw [added]
  split
  · rw [Line.entryLines_marks]
    split
    · exact .inl rfl
    · exact .inr rfl
  · exact .inl rfl

/-- Entries are recorded in the order of their lines. -/
theorem recorded_increasing {lines : List Line}
    (h : lines.Pairwise (fun l l' => l.number < l'.number)) (b : Builder) :
    (entryLines (b.recorded lines)).Pairwise (· < ·) := by
  induction lines generalizing b with
  | nil => exact .nil
  | cons line rest ih =>
    obtain ⟨hfirst, hrest⟩ := List.pairwise_cons.1 h
    have hlater : ∀ n ∈ entryLines ((b.step line).1.recorded rest), (line.number : Int) < n := by
      intro n hn
      obtain ⟨mark, hm, -, rfl⟩ := mem_entryLines.1 hn
      obtain ⟨l, hl, hml⟩ := mem_marks_of_mem_recorded hm
      rw [Line.line_of_mem_marks hml]
      exact Int.ofNat_lt.2 (hfirst l hl)
    rw [recorded, entryLines_append]
    rcases b.entryLines_added line with he | he
    · rw [he]
      exact ih hrest _
    · rw [he]
      exact .cons hlater (ih hrest _)

end Builder

/-! ## Lines without an entry -/

/-- The line is a key line inside of a list whose last entry opened a map on its own line. -/
structure Builder.Continues (b : Builder) (line : Line) : Prop where
  unskipped : b.skips line = false
  fits : b.shrinks line = false
  isKey : line.isItem = false
  inline : (b.landing line).top.block.continuesInline = true

/-- A key line in a list is reported or continues an entry. -/
theorem Move.strayKey_cases {b : Builder} {line : Line} (hk : b.skips line = false)
    (hs : b.shrinks line = false) (hi : line.isItem = false) :
    Log.Reports (b.waitingLog ++ if (b.landing line).top.block.continuesInline then []
      else [Issue.orphanKey.onLine line.number]) ["shrunk_spacing", "orphan_key"] line ∨
    b.Continues line := by
  cases hc : (b.landing line).top.block.continuesInline with
  | true => exact .inr ⟨hk, hs, hi, hc⟩
  | false => exact .inl (Log.reports_last (by decide))

/-- Lines are skipped after a line that is left out with all that is nested under it. -/
theorem Move.skipped_cases {b b' : Builder} {line : Line} {log : Log} (hm : Move b line b' log)
    {width : Int} (h : b'.skipped = some width) :
    (b' = b ∧ b.skips line = true) ∨
      (log.Reports ["shrunk_spacing", "orphan_key"] line ∨ b.Continues line) ∧
        line.width = width := by
  cases hm with
  | skip hk => exact .inl ⟨rfl, hk⟩
  | shrink => exact .inr ⟨.inl (Log.reports_last (by simp [Issue.key])), Option.some.inj h⟩
  | strayKey hk hs hi => exact .inr ⟨Move.strayKey_cases hk hs hi, Option.some.inj h⟩
  | _ => cases h

namespace Builder

variable {b : Builder} {line : Line}

/-- The line is left out with all that is nested under it. -/
def Drops (b : Builder) (line : Line) : Prop :=
  (b.step line).2.Reports ["shrunk_spacing", "orphan_key"] line ∨ b.Continues line

/-- What is left out because of another line is deeper than that line, and so are all lines in
between. -/
theorem skipped_of_run {lines : List Line} {width : Int}
    (h : (b.run lines).1.skipped = some width) :
    (b.skipped = some width ∧ ∀ line ∈ lines, width < line.width) ∨
    ∃ first dropped between, lines = first ++ dropped :: between ∧ (b.run first).1.Drops dropped ∧
      dropped.width = width ∧ ∀ line ∈ between, width < line.width := by
  induction lines generalizing b with
  | nil => exact .inl ⟨h, nofun⟩
  | cons line rest ih =>
    rw [run_cons] at h
    rcases ih h with ⟨hskip, hdeep⟩ | ⟨first, dropped, between, rfl, hd, hw, hdeep⟩
    · rcases (b.step_move line).skipped_cases hskip with ⟨hb, hk⟩ | ⟨hd, hw⟩
      · rw [hb] at hskip
        rw [skips, hskip] at hk
        exact .inl ⟨hskip, List.forall_mem_cons.2 ⟨of_decide_eq_true hk, hdeep⟩⟩
      · exact .inr ⟨[], line, rest, rfl, hd, hw, hdeep⟩
    · exact .inr ⟨line :: first, dropped, between, rfl, hd, hw, hdeep⟩

/-- Why a line adds nothing. -/
theorem added_eq_nil_cases (h : b.added line = []) :
    b.skips line = true ∨
    (b.step line).2.Reports ["shrunk_spacing", "orphan_list_entry", "orphan_key"] line ∨
    b.Continues line ∨ line.SaysNothing := by
  have hm := b.step_move line
  generalize b.step line = r at hm
  obtain ⟨b', log⟩ := r
  have hnothing : b.skips line = false → b.shrinks line = false →
      (b.landing line).top.block.isList = line.isItem → line.SaysNothing := fun hk hs hp =>
    Line.saysNothing_of_marks ((added_of_places hk hs hp).symm.trans h)
  cases hm with
  | skip hk => exact .inl hk
  | shrink => exact .inr (.inl (Log.reports_last (by simp [Issue.key])))
  | orphanEntry => exact .inr (.inl (Log.reports_last (by simp [Issue.key])))
  | strayKey hk hs hi =>
    rcases Move.strayKey_cases hk hs hi with hr | hc
    · exact .inr (.inl (hr.mono (List.Subset.refl _) (by simp)))
    · exact .inr (.inr (.inl hc))
  | block hk hs hi hb | scalar hk hs hi hb | heading hk hs hi hb | inline hk hs hi hb
  | unread hk hs hi hb =>
    exact .inr (.inr (.inr (hnothing hk hs (by rw [hb, hi]; rfl))))

/-- What a step says is said in the end. -/
theorem step_subset_run (b : Builder) (before after : List Line) (line : Line) :
    ((b.run before).1.step line).2 ⊆ (b.run (before ++ line :: after)).2 := by
  rw [run_append, run_cons]
  exact fun d hd => List.mem_append_right _ (List.mem_append_left _ hd)

end Builder

/-- Why a line after the lines `before` has no entry: it is reported, it continues an entry of a
list, or it is deeper than a line before it that was left out, and so are all lines in between. -/
inductive Explained (log : Log) (before : List Line) (line : Line) : Prop
  | reported : log.Reports ["shrunk_spacing", "orphan_list_entry", "orphan_key"] line →
      Explained log before line
  | continues : (Builder.run {} before).1.Continues line → Explained log before line
  | nested {first between : List Line} {dropped : Line} : before = first ++ dropped :: between →
      log.Reports ["shrunk_spacing", "orphan_key"] dropped ∨
        (Builder.run {} first).1.Continues dropped →
      (∀ l ∈ between, dropped.width < l.width) → dropped.width < line.width →
      Explained log before line

/-- What the builder reports is reported of the document. -/
theorem run_subset_ofLines (lines : List Line) : (Builder.run {} lines).2 ⊆ (ofLines lines).2 :=
  List.subset_append_left ..

/-- A line that adds nothing is explained or says nothing. -/
theorem explained_of_added {before after : List Line} {line : Line}
    (h : (Builder.run {} before).1.added line = []) :
    Explained (ofLines (before ++ line :: after)).2 before line ∨ line.SaysNothing := by
  have hsub :=
    fun before after line => List.Subset.trans (Builder.step_subset_run {} before after line)
    (run_subset_ofLines _)
  rcases Builder.added_eq_nil_cases h with hk | hr | hc | hn
  · unfold Builder.skips at hk
    split at hk
    · next width hskip =>
      rcases Builder.skipped_of_run hskip with ⟨hstart, -⟩
        | ⟨first, dropped, between, rfl, hd, rfl, hdeep⟩
      · cases hstart
      · have hdeeper := Int.ofNat_lt.1 (of_decide_eq_true hk)
        refine .inl (.nested rfl ?_ (fun l hl => Int.ofNat_lt.1 (hdeep l hl)) hdeeper)
        rcases hd with hr | hc
        · refine .inl (hr.mono ?_ (List.Subset.refl _))
          have := hsub first (between ++ line :: after) dropped
          rwa [List.append_assoc, List.cons_append]
        · exact .inr hc
    · cases hk
  · exact .inl (.reported (hr.mono (hsub before after line) (List.Subset.refl _)))
  · exact .inl (.continues hc)
  · exact .inr hn

/-- A line that adds something adds an entry. -/
theorem Builder.entryLines_of_added {b : Builder} {line : Line} (h : b.added line ≠ []) :
    entryLines (b.added line) = [(line.number : Int)] := by
  rw [added] at h ⊢
  split at h
  · next hp => rw [if_pos hp, Line.entryLines_marks, if_neg h]
  · exact absurd rfl h

/-- A line that adds an entry is the line of an entry. -/
theorem mem_entryLines_recorded {before after : List Line} {line : Line}
    (h : (Builder.run {} before).1.added line ≠ []) :
    (line.number : Int) ∈ entryLines (Builder.recorded {} (before ++ line :: after)) := by
  rw [Builder.recorded_append, Builder.recorded, entryLines_append, entryLines_append,
    Builder.entryLines_of_added h]
  exact List.mem_append_right _ (List.mem_append_left _ (List.mem_singleton_self _))

/-- Every text of a document is dictated by the content line that it is on. If no key is repeated,
the entries are in the order of their lines, and every content line has an entry, is explained, or
says nothing. -/
theorem ofSource_accounted (tab : Int) (t : Text) :
    (∀ mark ∈ (ofSource tab (Source.ofText t)).1.marks,
      ∃ line ∈ lines tab (Source.ofText t), line.Dictates mark) ∧
    ((ofSource tab (Source.ofText t)).2.NoRepeat →
      (entryLines (ofSource tab (Source.ofText t)).1.marks).Pairwise (· < ·) ∧
      ∀ before line after, lines tab (Source.ofText t) = before ++ line :: after →
        (line.number : Int) ∈ entryLines (ofSource tab (Source.ofText t)).1.marks ∨
        Explained (ofSource tab (Source.ofText t)).2 before line ∨ line.SaysNothing) := by
  refine ⟨fun mark hm => ?_, fun h => ?_⟩
  · obtain ⟨line, hl, hmark⟩ := Builder.mem_marks_of_mem_recorded (ofLines_marks_subset _ hm)
    exact ⟨line, hl, Line.dictates_of_mem hmark⟩
  · have hmarks : (ofSource tab (Source.ofText t)).1.marks =
        Builder.recorded {} (lines tab (Source.ofText t)) := ofLines_marks h
    rw [hmarks]
    refine ⟨Builder.recorded_increasing (linesFrom_increasing tab 0 _).1 _,
      fun before line after hl => ?_⟩
    rw [ofSource, hl]
    by_cases ha : (Builder.run {} before).1.added line = []
    · exact .inr (explained_of_added ha)
    · exact .inl (mem_entryLines_recorded ha)

/-- A script with an entry that goes on below itself, a line under that one, a width that nothing
has, and a line that says nothing. -/
def mixedScript : Text := "a:\n  - x: y\n    k: v\n      d: e\n b: c\nword\ne: f".toList

/-- A script with lines of all sorts: entered, reported, skipped, and saying nothing. -/
theorem ofSource_accounted_mixed : (ofSource 4 (Source.ofText mixedScript)).2.NoRepeat ∧
    (entryLines (ofSource 4 (Source.ofText mixedScript)).1.marks).Pairwise (· < ·) ∧
    ∀ before line after, lines 4 (Source.ofText mixedScript) = before ++ line :: after →
      (line.number : Int) ∈ entryLines (ofSource 4 (Source.ofText mixedScript)).1.marks ∨
      Explained (ofSource 4 (Source.ofText mixedScript)).2 before line ∨ line.SaysNothing := by
  have h : (ofSource 4 (Source.ofText mixedScript)).2.NoRepeat := by decide
  exact ⟨h, (ofSource_accounted 4 mixedScript).2 h⟩

/-- A line without a colon has no entry, and nothing but its text explains this. -/
theorem not_every_line_explained : ¬ ∀ (tab : Int) (t : Text),
    (ofSource tab (Source.ofText t)).2.NoRepeat →
      ∀ before line after, lines tab (Source.ofText t) = before ++ line :: after →
        (line.number : Int) ∈ entryLines (ofSource tab (Source.ofText t)).1.marks ∨
        Explained (ofSource tab (Source.ofText t)).2 before line := by
  intro h
  have hlines : lines 4 (Source.ofText "word".toList) = [] ++ ⟨0, 0, "word".toList⟩ ::
      [] := by decide
  rcases h 4 "word".toList (by decide) [] _ [] hlines with hrec | hexp
  · exact absurd hrec (by decide)
  · cases hexp with
    | reported hr =>
      have hlog : (ofSource 4 (Source.ofText "word".toList)).2 = [] := by decide
      obtain ⟨d, hd, -⟩ := hr
      rw [hlog] at hd
      cases hd
    | continues hc => exact absurd hc.inline (by decide)
    | @nested first between dropped hb => cases first <;> cases hb

end Document

end ScriptLint
