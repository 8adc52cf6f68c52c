import ScriptLint.Proofs.Document.Survive
import ScriptLint.Proofs.Located

/-!
# No line is lost silently

Building the document and checking the form of the lines go over the same lines with different
tests. Between them, every content line has an entry, is explained by the builder, or has an issue
of its form (`Covered`), but for one sort of lines. A line that begins with a hyphen is left to the
builder by the check of forms, and the builder takes it for a key line if no space follows the
hyphen. If such a line has no key either, nobody says anything about it (`ofSource_covered`,
`not_every_line_covered`).

A line whose entry is not in the document although it was recorded has lost it to a repeated key,
on which there is a report.
-/

namespace ScriptLint.Document

/-- The line begins with a hyphen, but it is no entry of a list, and it has no key. -/
structure Line.IsStray (line : Line) : Prop where
  hyphen : Text.beginsWith ['-'] line.text = true
  nothing : line.SaysNothing

/-- What becomes of a content line after the lines `before` and before the lines `after`. -/
inductive Covered (tab : Int) (source : Source) (before : List Line) (line : Line)
    (after : List Line) : Prop
  /-- It has an entry in the document. -/
  | entry : (line.number : Int) ∈ entryLines (ofSource tab source).1.marks →
      Covered tab source before line after
  /-- Its entry was recorded, and it or a line after it repeats a key. -/
  | replaced {l : Line} : (Builder.run {} before).1.added line ≠ [] → l ∈ line :: after →
      (ofSource tab source).2.Reports ["duplicate_key"] l → Covered tab source before line after
  /-- The builder says why it has none. -/
  | explained : Explained (ofSource tab source).2 before line →
      Covered tab source before line after
  /-- Its form has an issue. -/
  | malformed :
      (formLog source).Reports ["stray_space_eol", "text_after_key", "useless_line"] line →
      Covered tab source before line after

/-- A line that says nothing has an issue of its form, unless it begins with a hyphen. -/
theorem malformed_of_saysNothing {tab : Int} {source : Source} {line : Line}
    (hl : line ∈ lines tab source) (h : line.SaysNothing)
    (hhyphen : Text.beginsWith ['-'] line.text = false) :
    (formLog source).Reports ["stray_space_eol", "text_after_key", "useless_line"] line := by
  obtain ⟨i, l, hi, hnumber, htext, hne⟩ := getElem?_of_mem_linesFrom hl
  rw [Nat.zero_add] at hnumber
  have hissue : ∃ issue, l.formIssue? = some issue ∧
      issue.key ∈ ["stray_space_eol", "text_after_key", "useless_line"] := by
    rw [htext] at hhyphen
    have hheading := htext ▸ h.noHeading
    have hinline := htext ▸ h.noInline
    simp only [SourceLine.formIssue?, List.isEmpty_iff, hne, hhyphen, hheading, hinline,
      Bool.or_self, Bool.false_eq_true, if_false]
    split
    · exact ⟨_, rfl, by simp [Issue.key]⟩
    split
    · exact ⟨_, rfl, by simp [Issue.key]⟩
    · exact ⟨_, rfl, by simp [Issue.key]⟩
  obtain ⟨issue, hissue, hkey⟩ := hissue
  refine ⟨issue.onLine i, ?_, by rw [hnumber]; rfl, hkey⟩
  exact List.mem_filterMap.2 ⟨(l, i), List.mem_zipIdx_iff_getElem?.2 hi,
    congrArg (Option.map (·.onLine i)) hissue⟩

/-- Every content line is covered, whatever the script and the width of a tab are, unless it begins
with a hyphen without being an entry of a list and has no key. -/
theorem ofSource_covered (tab : Int) (t : Text) {before after : List Line} {line : Line}
    (h : lines tab (Source.ofText t) = before ++ line :: after) :
    Covered tab (Source.ofText t) before line after ∨ line.IsStray := by
  have hline : line ∈ lines tab (Source.ofText t) := by simp [h]
  by_cases ha : (Builder.run {} before).1.added line = []
  · have hcases : Explained (ofSource tab (Source.ofText t)).2 before line ∨ line.SaysNothing := by
      rw [ofSource, h]
      exact explained_of_added ha
    rcases hcases with hexplained | hnothing
    · exact .inl (.explained hexplained)
    · cases hhyphen : Text.beginsWith ['-'] line.text with
      | true => exact .inr ⟨hhyphen, hnothing⟩
      | false => exact .inl (.malformed (malformed_of_saysNothing hline hnothing hhyphen))
  · have hentry : (line.number : Int) ∈ entryLines ((Builder.run {} before).1.added line) := by
      rw [Builder.entryLines_of_added ha]
      exact List.mem_singleton_self _
    obtain ⟨mark, hmark, hisEntry, hnumber⟩ := mem_entryLines.1 hentry
    rcases ofLines_survives after hmark with hin | ⟨l, hl, hr⟩
    · refine .inl (.entry (mem_entryLines.2 ⟨mark, ?_, hisEntry, hnumber⟩))
      rwa [ofSource, h]
    · refine .inl (.replaced ha hl ?_)
      rwa [ofSource, h]

/-- A script whose last line repeats a key, after a line with text right after its key. -/
def repeatingScript : Text := "a:\n  b: c\nd:e\na: f".toList

/-- The line of a value below a key that a later line repeats. -/
theorem ofSource_covered_repeating :
    lines 4 (Source.ofText repeatingScript) =
      [⟨0, 0, "a:".toList⟩] ++ ⟨1, 2, "b: c".toList⟩ ::
      [⟨2, 0, "d:e".toList⟩, ⟨3, 0, "a: f".toList⟩] ∧
    (Covered 4 (Source.ofText repeatingScript) [⟨0, 0, "a:".toList⟩] ⟨1, 2, "b: c".toList⟩
        [⟨2, 0, "d:e".toList⟩, ⟨3, 0, "a: f".toList⟩] ∨
      Line.IsStray ⟨1, 2, "b: c".toList⟩) := by
  have hlines : lines 4 (Source.ofText repeatingScript) =
      [⟨0, 0, "a:".toList⟩] ++ ⟨1, 2, "b: c".toList⟩ ::
      [⟨2, 0, "d:e".toList⟩, ⟨3, 0, "a: f".toList⟩] := by
    decide +kernel
  exact ⟨hlines, ofSource_covered 4 repeatingScript hlines⟩

/-- Nothing is said of a word right after a hyphen. -/
theorem not_every_line_covered :
    ¬ ∀ (tab : Int) (t : Text) (before after : List Line)
    (line : Line), lines tab (Source.ofText t) = before ++ line :: after →
    Covered tab (Source.ofText t) before line after := by
  intro h
  have hlines : lines 4 (Source.ofText "-word".toList) = [] ++ ⟨0, 0, "-word".toList⟩ ::
      [] := by decide
  have hlog : (ofSource 4 (Source.ofText "-word".toList)).2 = [] := by decide
  have hform : formLog (Source.ofText "-word".toList) = [] := by decide
  cases h 4 "-word".toList [] [] _ hlines with
  | entry hentry => exact absurd hentry (by decide)
  | replaced ha => exact ha (by decide)
  | explained hexplained =>
    cases hexplained with
    | reported hr =>
      obtain ⟨d, hd, -⟩ := hr
      rw [hlog] at hd
      cases hd
    | continues hc => exact absurd hc.inline (by decide)
    | @nested first between dropped hb => cases first <;> cases hb
  | malformed hr =>
    obtain ⟨d, hd, -⟩ := hr
    rw [hform] at hd
    cases hd

end ScriptLint.Document
