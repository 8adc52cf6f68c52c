import ScriptLint.Proofs.Document.Account

/-!
# Lines that are left out

A line at a width that nothing has, and a key line inside of a list, are left out with all that is
nested under them: none of these lines has a text in the document, and the nested ones might as
well not be there (`ofSource_drops`). An entry that is in no list is left out alone. What is nested
under it may get into the map that it did not fit in (`not_every_nested_line_dropped`).

That a line was reported is said at the end, in the log of the whole script. But findings on the
place of a line are made in the step that reads it (`Move.reported`), and the numbers of lines go
up, so the report leads back to this step (`reports_step`). From there on the builder skips what is
deeper (`Builder.run_of_deeper`).
-/

namespace ScriptLint.Document

/-! ## Reports and the steps they come from -/

namespace Builder

variable {b : Builder}

/-- What is reported of the waiting key is that it is repeated. -/
theorem key_of_mem_waitingLog {d : Diagnostic} (h : d ∈ b.waitingLog) :
    d.key = "duplicate_key" := by
  unfold waitingLog repeatLog at h
  split at h
  · split at h
    · rw [List.mem_singleton.1 h]
      rfl
    · cases h
  · cases h

/-- A run reports on its own lines, or on repeated keys. -/
theorem run_reported (b : Builder) (lines : List Line) {d : Diagnostic} (h : d ∈ (b.run lines).2) :
    d.key = "duplicate_key" ∨ ∃ line ∈ lines, d.line = line.number := by
  induction lines generalizing b with
  | nil => cases h
  | cons line rest ih =>
    rcases List.mem_append.1 h with h | h
    · rcases (b.step_move line).reported d h with hw | hl
      · exact .inl (b.key_of_mem_waitingLog hw)
      · exact .inr ⟨line, List.mem_cons_self, hl⟩
    · rcases ih _ h with hk | ⟨l, hl, hd⟩
      · exact .inl hk
      · exact .inr ⟨l, List.mem_cons_of_mem _ hl, hd⟩

end Builder

/-- A finding on a line, other than on a repeated key, was made when the line was read. -/
theorem mem_step_of_mem_ofLines {before after : List Line} {line : Line}
    (hnumbers : (before ++ line :: after).Pairwise (fun l l' => l.number < l'.number))
    {d : Diagnostic} (hd : d ∈ (ofLines (before ++ line :: after)).2)
    (hline : d.line = line.number)
    (hrepeat : d.key ≠ "duplicate_key") : d ∈ ((Builder.run {} before).1.step line).2 := by
  obtain ⟨-, hafter, hbefore⟩ := List.pairwise_append.1 hnumbers
  have hlog : d ∈ (Builder.run {} (before ++ line :: after)).2 := by
    rcases List.mem_append.1 hd with hd | hd
    · exact hd
    · exact absurd (Builder.key_of_mem_waitingLog hd) hrepeat
  rw [Builder.run_append, Builder.run_cons] at hlog
  rcases List.mem_append.1 hlog with hd | hd
  · rcases Builder.run_reported {} before hd with hk | ⟨l, hl, hdl⟩
    · exact absurd hk hrepeat
    · have := hbefore l hl line List.mem_cons_self
      omega
  · rcases List.mem_append.1 hd with hd | hd
    · exact hd
    · rcases Builder.run_reported _ after hd with hk | ⟨l, hl, hdl⟩
      · exact absurd hk hrepeat
      · have := (List.pairwise_cons.1 hafter).1 l hl
        omega

/-- The same of a report with one of several keys. -/
theorem reports_step {before after : List Line} {line : Line}
    (hnumbers : (before ++ line :: after).Pairwise (fun l l' => l.number < l'.number))
    {keys : List String} (hkeys : "duplicate_key" ∉ keys)
    (h : (ofLines (before ++ line :: after)).2.Reports keys line) :
    ((Builder.run {} before).1.step line).2.Reports keys line := by
  obtain ⟨d, hd, hline, hkey⟩ := h
  have hrepeat : d.key ≠ "duplicate_key" := fun hk => hkeys (hk ▸ hkey)
  exact ⟨d, mem_step_of_mem_ofLines hnumbers hd hline hrepeat, hline, hkey⟩

/-- A report that is not on a repeated key is not on the waiting key. -/
theorem mem_of_reports {b : Builder} {log : Log} {keys : List String} {line : Line}
    (hkeys : "duplicate_key" ∉ keys) (h : Log.Reports (b.waitingLog ++ log) keys line) :
    ∃ d ∈ log, d.key ∈ keys := by
  obtain ⟨d, hd, -, hkey⟩ := h
  rcases List.mem_append.1 hd with hd | hd
  · exact absurd (Builder.key_of_mem_waitingLog hd ▸ hkey) hkeys
  · exact ⟨d, hd, hkey⟩

/-! ## Lines that are left out -/

/-- A line that is reported for its place adds nothing. What is deeper is skipped from then on,
unless the line is an entry that is in no list. -/
theorem Move.of_reports {b b' : Builder} {line : Line} {log : Log} (hm : Move b line b' log)
    {keys : List String} (hrepeat : "duplicate_key" ∉ keys)
    (hgrown : "growing_spaces_in_script" ∉ keys) (h : log.Reports keys line) :
    b.added line = [] ∧ (b'.skipped = some (line.width : Int) ∨ "orphan_list_entry" ∈ keys) := by
  cases hm with
  | skip =>
    obtain ⟨d, hd, -⟩ := h
    cases hd
  | shrink _ hs => exact ⟨Builder.added_of_shrinks hs, .inl rfl⟩
  | strayKey _ _ hi hb => exact ⟨Builder.added_of_mismatch (by rw [hb, hi]; exact nofun), .inl rfl⟩
  | orphanEntry _ _ hi hb =>
    obtain ⟨d, hd, hkey⟩ := mem_of_reports hrepeat h
    rw [List.mem_singleton.1 hd] at hkey
    exact ⟨Builder.added_of_mismatch (by rw [hb, hi]; exact nofun), .inr hkey⟩
  | block | scalar =>
    obtain ⟨d, hd, hkey⟩ := mem_of_reports hrepeat h
    split at hd
    · rw [List.mem_singleton.1 hd] at hkey
      exact absurd hkey hgrown
    · cases hd
  | heading | unread =>
    obtain ⟨d, hd, -, hkey⟩ := h
    exact absurd (Builder.key_of_mem_waitingLog hd ▸ hkey) hrepeat
  | inline =>
    obtain ⟨d, hd, hkey⟩ := mem_of_reports hrepeat h
    unfold repeatLog at hd
    split at hd
    · rw [List.mem_singleton.1 hd] at hkey
      exact absurd hkey hrepeat
    · cases hd

namespace Builder

variable {b : Builder} {width : Int} {lines : List Line}

/-- Lines that are deeper than a line left out change nothing. -/
theorem run_of_deeper (hs : b.skipped = some width) (h : ∀ line ∈ lines, width < line.width) :
    b.run lines = (b, []) := by
  induction lines with
  | nil => rfl
  | cons line rest ih =>
    obtain ⟨hline, hrest⟩ := List.forall_mem_cons.1 h
    have hskip : b.skips line = true := by
      rw [skips, hs]
      exact decide_eq_true hline
    rw [run_cons, step_of_skips hskip, ih hrest]
    rfl

end Builder

/-- The line of a recorded mark is one of the lines that are read. -/
theorem line_of_mem_recorded {b : Builder} {lines : List Line} {mark : Mark}
    (h : mark ∈ b.recorded lines) :
    ∃ line ∈ lines, mark.text.line = line.number := by
  obtain ⟨line, hl, hm⟩ := Builder.mem_marks_of_mem_recorded h
  exact ⟨line, hl, Line.line_of_mem_marks hm⟩

/-- A line without a mark of its own is the line of no mark of the document. -/
theorem line_ne_of_added {before after : List Line} {line : Line}
    (hnumbers : (before ++ line :: after).Pairwise (fun l l' => l.number < l'.number))
    (h : (Builder.run {} before).1.added line = []) :
    ∀ mark ∈ (ofLines (before ++ line :: after)).1.marks, mark.text.line ≠ line.number := by
  intro mark hm hline
  obtain ⟨-, hafter, hbefore⟩ := List.pairwise_append.1 hnumbers
  have hrec := ofLines_marks_subset _ hm
  rw [Builder.recorded_append, Builder.recorded, h, List.nil_append] at hrec
  rcases List.mem_append.1 hrec with hrec | hrec
  · obtain ⟨l, hl, hml⟩ := line_of_mem_recorded hrec
    have := hbefore l hl line List.mem_cons_self
    omega
  · obtain ⟨l, hl, hml⟩ := line_of_mem_recorded hrec
    have := (List.pairwise_cons.1 hafter).1 l hl
    omega

/-- After a line from which on deeper lines are skipped, deeper lines have no mark, and the
document is the same without them. -/
theorem ofLines_of_skipped {before deep rest : List Line} {line : Line}
    (hnumbers : (before ++ line :: (deep ++ rest)).Pairwise (fun l l' => l.number < l'.number))
    (h : ((Builder.run {} before).1.step line).1.skipped = some (line.width : Int))
    (hdeep : ∀ l ∈ deep, (line.width : Int) < l.width) :
    (∀ nested ∈ deep, ∀ mark ∈ (ofLines (before ++ line :: (deep ++ rest))).1.marks,
      mark.text.line ≠ nested.number) ∧
    ofLines (before ++ line :: (deep ++ rest)) = ofLines (before ++ line :: rest) := by
  refine ⟨fun nested hn => ?_, ?_⟩
  · -- The lines between the two are skipped, so the nested line is met in the same state.
    obtain ⟨first, last, rfl⟩ := List.append_of_mem hn
    have hrun := Builder.run_of_deeper h fun l hl => hdeep l (List.mem_append_left _ hl)
    have hcut : before ++ line :: (first ++ nested :: last ++ rest) =
        (before ++ line :: first) ++ nested :: (last ++ rest) := by simp
    rw [hcut] at hnumbers ⊢
    apply line_ne_of_added hnumbers
    apply Builder.added_of_skips
    rw [Builder.run_append, Builder.run_cons, hrun, Builder.skips, h]
    exact decide_eq_true (hdeep nested hn)
  · have hrun := Builder.run_of_deeper h hdeep
    have heq : Builder.run {} (before ++ line :: (deep ++ rest)) =
        Builder.run {} (before ++ line :: rest) := by
      simp only [Builder.run_append, Builder.run_cons, hrun, List.nil_append]
    rw [ofLines, ofLines, heq]

/-! ## Scripts -/

/-- A line that is reported for its place has no text in the document. If it is at a width that
nothing has, or is a key line inside of a list, then neither have the lines that are nested under
it: those up to the first one that is not deeper. Without these the document and the reports are
the same. -/
theorem ofSource_drops (tab : Int) (t : Text) {before after : List Line} {line : Line}
    (h : lines tab (Source.ofText t) = before ++ line :: after) :
    ((ofSource tab (Source.ofText t)).2.Reports ["shrunk_spacing", "orphan_list_entry",
      "orphan_key"] line →
      ∀ mark ∈ (ofSource tab (Source.ofText t)).1.marks, mark.text.line ≠ line.number) ∧
    ((ofSource tab (Source.ofText t)).2.Reports ["shrunk_spacing", "orphan_key"] line →
      (∀ nested ∈ after.takeWhile (line.width < ·.width),
        ∀ mark ∈ (ofSource tab (Source.ofText t)).1.marks, mark.text.line ≠ nested.number) ∧
      ofSource tab (Source.ofText t) =
        ofLines (before ++ line :: after.dropWhile (line.width < ·.width))) := by
  have hnumbers := (linesFrom_increasing tab 0 (Source.ofText t).lines).1
  rw [← lines, h] at hnumbers
  rw [ofSource, h]
  have hmove := (Builder.run {} before).1.step_move line
  refine ⟨fun hreport => ?_, fun hreport => ?_⟩
  · have hstep := reports_step hnumbers (by decide) hreport
    exact line_ne_of_added hnumbers (hmove.of_reports (by decide) (by decide) hstep).1
  · have hstep := reports_step hnumbers (by decide) hreport
    rcases (hmove.of_reports (by decide) (by decide) hstep).2 with hskip | hkey
    · have hdeep : ∀ l ∈ after.takeWhile (line.width < ·.width), (line.width : Int) < l.width := by
        intro l hl
        have := List.all_eq_true.1 List.all_takeWhile l hl
        exact Int.ofNat_lt.2 (of_decide_eq_true this)
      have hcut : after = after.takeWhile (line.width < ·.width) ++
          after.dropWhile (line.width < ·.width) :=
        List.takeWhile_append_dropWhile.symm
      rw [hcut] at hnumbers
      have hnested := ofLines_of_skipped hnumbers hskip hdeep
      rwa [← hcut] at hnested
    · exact absurd hkey (by decide)

/-- A script with a key line inside of a list, three lines under it and one that is not deeper. -/
def strayScript : Text := "a:\n  - x\n    k:\n      - y\n        z: w\n      u: v\n  - e".toList

/-- The lines after the key line. -/
def strayLines : List Line :=
  [⟨3, 6, "- y".toList⟩, ⟨4, 8, "z: w".toList⟩, ⟨5, 6, "u: v".toList⟩, ⟨6, 2, "- e".toList⟩]

/-- A key that is deeper than an entry of a list is reported, and the three lines below it are left
out. -/
theorem ofSource_drops_stray :
    lines 4 (Source.ofText strayScript) =
      [⟨0, 0, "a:".toList⟩, ⟨1, 2, "- x".toList⟩] ++ ⟨2, 4, "k:".toList⟩ :: strayLines ∧
    (ofSource 4 (Source.ofText strayScript)).2 = [Issue.orphanKey.onLine 2] ∧
    strayLines.takeWhile (4 < ·.width) = strayLines.take 3 ∧
    (∀ mark ∈ (ofSource 4 (Source.ofText strayScript)).1.marks, mark.text.line ≠ 2) ∧
    (∀ nested ∈ strayLines.takeWhile (4 < ·.width),
      ∀ mark ∈ (ofSource 4 (Source.ofText strayScript)).1.marks,
      mark.text.line ≠ nested.number) := by
  have hlines : lines 4 (Source.ofText strayScript) =
      [⟨0, 0, "a:".toList⟩, ⟨1, 2, "- x".toList⟩] ++ ⟨2, 4, "k:".toList⟩ :: strayLines := by
      decide +kernel
  have hlog : (ofSource 4 (Source.ofText strayScript)).2 = [Issue.orphanKey.onLine 2] := by
    decide +kernel
  obtain ⟨hown, hnested⟩ := ofSource_drops 4 strayScript hlines
  have hreport : ∀ keys : List String, "orphan_key" ∈ keys →
      (ofSource 4 (Source.ofText strayScript)).2.Reports keys ⟨2, 4, "k:".toList⟩ := by
    intro keys hk
    rw [hlog]
    exact ⟨_, List.mem_singleton_self _, rfl, hk⟩
  exact ⟨hlines, hlog,
    by decide, hown (hreport _ (by decide)), (hnested (hreport _ (by decide))).1⟩

/-- Under an entry that is in no list a key line gets into the document. -/
theorem not_every_nested_line_dropped :
    ¬ ∀ (tab : Int) (t : Text) (before after : List Line)
    (line : Line), lines tab (Source.ofText t) = before ++ line :: after →
    (ofSource tab (Source.ofText t)).2.Reports ["shrunk_spacing", "orphan_list_entry",
      "orphan_key"] line →
    ∀ nested ∈ line :: after.takeWhile (line.width < ·.width),
      ∀ mark ∈ (ofSource tab (Source.ofText t)).1.marks, mark.text.line ≠ nested.number := by
  intro h
  have hlines : lines 4 (Source.ofText "- w\n  k: v".toList) =
      [] ++ ⟨0, 0, "- w".toList⟩ :: [⟨1, 2, "k: v".toList⟩] := by decide +kernel
  have hlog : (ofSource 4 (Source.ofText "- w\n  k: v".toList)).2 =
      [Issue.orphanEntry.onLine 0] := by
    decide +kernel
  have hmarks : (ofSource 4 (Source.ofText "- w\n  k: v".toList)).1.marks =
      [⟨.key, ['k'], 1⟩, ⟨.value, ['v'], 1⟩] := by decide +kernel
  have hreport : (ofSource 4 (Source.ofText "- w\n  k: v".toList)).2.Reports
      ["shrunk_spacing", "orphan_list_entry", "orphan_key"] ⟨0, 0, "- w".toList⟩ := by
    rw [hlog]
    exact ⟨_, List.mem_singleton_self _, rfl, by decide⟩
  have hne := h 4 _ [] _ _ hlines hreport ⟨1, 2, "k: v".toList⟩ (by decide) ⟨.key, ['k'], 1⟩
  rw [hmarks] at hne
  exact hne List.mem_cons_self rfl

end ScriptLint.Document
