import Mathlib.Data.List.TakeWhile
import ScriptLint.Proofs.Document.Rescale
import ScriptLint.Proofs.Reading
import ScriptLint.Proofs.Resynchronize

/-!
# Scripts with another indentation

The indentation of a script may be changed: the spaces and tabs that a line begins with are
replaced by spaces, as many as a function gives for their width (`reindentLine`). If the function
is strictly increasing and leaves zero where it is, the script has the same document as before, and
all that is reported of it is the same but for the widths that are quoted (`checkText_reindented`).
So it does not matter how deep the levels of a script are and whether it is indented by tabs or by
spaces.

A line keeps its trimmed text, and its width is the new one (`trim_reindentLine`,
`indentWidth_reindentLine`), so its content line is the rescaled one (`Reindents.lines_eq`). The
rest is known of rescaled lines.
-/

namespace ScriptLint

/-! ## Lines -/

/-- The character may indent a line. -/
def isIndent (c : Char) : Bool := c = ' ' || c = '\t'

/-- The line with spaces for its indentation, as many as `f` gives for its width. -/
def reindentLine (tab : Int) (f : Nat → Nat) (raw : Text) : Text :=
  List.replicate (f (indentWidth tab raw)) ' ' ++ raw.dropWhile isIndent

section

variable (tab : Int) (f : Nat → Nat) (raw : Text)

/-- Trimming a line does not depend on its indentation. -/
theorem trim_dropWhile_isIndent : Text.trim (raw.dropWhile isIndent) = Text.trim raw := by
  have hblank : ∀ c ∈ raw.takeWhile isIndent, Text.isBlank c = true := by
    intro c hc
    have hindent := List.mem_takeWhile_imp hc
    simp only [isIndent, Bool.or_eq_true, decide_eq_true_eq] at hindent
    rcases hindent with rfl | rfl <;> rfl
  conv_rhs => rw [← List.takeWhile_append_dropWhile (p := isIndent) (l := raw)]
  rw [Text.trim_append_of_blank hblank]

/-- A line has the same trimmed text with another indentation. -/
theorem trim_reindentLine : Text.trim (reindentLine tab f raw) = Text.trim raw := by
  have hblank : ∀ c ∈ List.replicate (f (indentWidth tab raw)) ' ', Text.isBlank c = true := by
    intro c hc
    rw [List.eq_of_mem_replicate hc]
    rfl
  rw [reindentLine, Text.trim_append_of_blank hblank, trim_dropWhile_isIndent]

/-- Without its indentation, a line has the width nothing. -/
theorem indentWidth_dropWhile_isIndent : indentWidth tab (raw.dropWhile isIndent) = 0 := by
  induction raw with
  | nil => rfl
  | cons c r ih =>
    cases hc : isIndent c with
    | true => rwa [List.dropWhile_cons_of_pos hc]
    | false =>
      simp only [isIndent, Bool.or_eq_false_iff, decide_eq_false_iff_not] at hc
      rw [List.dropWhile_cons_of_neg (by simp [isIndent, hc]), indentWidth, if_neg hc.1,
        if_neg hc.2]

/-- Spaces before a line add to the width of its indentation. -/
theorem indentWidth_replicate_append (n : Nat) (rest : Text) :
    indentWidth tab (List.replicate n ' ' ++ rest) = indentWidth tab rest + n := by
  induction n with
  | zero => rfl
  | succ n ih =>
    rw [List.replicate_succ, List.cons_append, indentWidth, if_pos rfl, ih, Nat.add_assoc]

/-- The width of a line with another indentation is the new one. -/
theorem indentWidth_reindentLine :
    indentWidth tab (reindentLine tab f raw) = f (indentWidth tab raw) := by
  rw [reindentLine, indentWidth_replicate_append, indentWidth_dropWhile_isIndent, Nat.zero_add]

end

/-! ## Scripts -/

/-- The lines of the second text are those of the first one with another indentation, whatever
their line breaks are. -/
def Reindents (tab : Int) (f : Nat → Nat) (t t' : Text) : Prop :=
  Source.rawLines (normalizeBreaks t') =
    (Source.rawLines (normalizeBreaks t)).map (reindentLine tab f)

instance (tab : Int) (f : Nat → Nat) (t t' : Text) : Decidable (Reindents tab f t t') :=
  inferInstanceAs (Decidable (_ = _))

/-- Every script can be given another indentation. -/
theorem exists_reindents (tab : Int) (f : Nat → Nat) (t : Text) : ∃ t', Reindents tab f t t' := by
  refine ⟨Text.joined ['\n'] ((Source.rawLines (normalizeBreaks t)).map (reindentLine tab f)), ?_⟩
  apply Source.rawLines_joined
  · rw [ne_eq, List.map_eq_nil_iff]
    exact List.splitOn_ne_nil '\n' _
  · intro raw hraw
    obtain ⟨line, hline, rfl⟩ := List.mem_map.1 hraw
    have hchar : ∀ c ∈ reindentLine tab f line, c ≠ '\n' ∧ c ≠ '\r' := by
      intro c hc
      rcases List.mem_append.1 hc with hc | hc
      · rw [List.eq_of_mem_replicate hc]
        decide
      · obtain ⟨hmem, hfeed⟩ := Text.mem_of_mem_fields hline (List.dropWhile_suffix _ |>.subset hc)
        exact ⟨hfeed, fun hr => not_mem_normalizeBreaks t (hr ▸ hmem)⟩
    exact ⟨fun h => (hchar _ h).1 rfl, fun h => (hchar _ h).2 rfl⟩

/-- The content lines of lines with another indentation are the rescaled ones. -/
theorem linesFrom_reindentLine (tab : Int) (f : Nat → Nat) (raws : List Text) (number : Nat) :
    Document.linesFrom tab number ((raws.map (reindentLine tab f)).map SourceLine.ofRaw) =
      (Document.linesFrom tab number (raws.map SourceLine.ofRaw)).map
        (Document.Line.rescale f) := by
  induction raws generalizing number with
  | nil => rfl
  | cons raw rest ih =>
    simp only [List.map_cons, Document.linesFrom, ih, SourceLine.ofRaw, trim_reindentLine]
    by_cases hc : LineKind.ofTrimmed (Text.trim raw) = .comment
    · rw [if_pos hc, if_pos hc]
      rfl
    · rw [if_neg hc, if_neg hc, indentWidth_reindentLine]
      split <;> rfl

namespace Reindents

variable {tab : Int} {f : Nat → Nat} {t t' : Text}

/-- The content lines of the reindented script have the same texts at the new widths. -/
theorem lines_eq (h : Reindents tab f t t') :
    Document.lines tab (Source.ofText t') =
      (Document.lines tab (Source.ofText t)).map (Document.Line.rescale f) := by
  rw [Document.lines, Document.lines, Source.ofText, Source.ofText, h, linesFrom_reindentLine]

/-- Another indentation makes no line one of another kind. -/
theorem statistics_eq (h : Reindents tab f t t') :
    (Source.ofText t').statistics = (Source.ofText t).statistics := by
  have hcount : ∀ kind, Source.count kind (Source.rawLines (normalizeBreaks t')) =
      Source.count kind (Source.rawLines (normalizeBreaks t)) := by
    intro kind
    rw [h, Source.count, Source.count, List.filter_map, List.length_map]
    simp only [Function.comp_def, trim_reindentLine]
  simp only [Source.ofText, hcount]

/-- The document of a script with another indentation is the same. -/
theorem ofText_eq (h : Reindents tab f t t') (hf : StrictMono f) (h0 : f 0 = 0) :
    (Document.ofText tab t').1 = (Document.ofText tab t).1 ∧
      Log.Rescaled f (Document.ofText tab t).2 (Document.ofText tab t').2 := by
  have hdocument := Document.ofLines_rescale hf h0 (Document.lines tab (Source.ofText t))
  rwa [← h.lines_eq] at hdocument

/-- With another indentation a script is legible if it was before. -/
theorem legible_iff (h : Reindents tab f t t') :
    Document.Legible tab (Source.ofText t') ↔ Document.Legible tab (Source.ofText t) := by
  rw [Document.Legible, Document.Legible, h.lines_eq, List.map_eq_nil_iff]

/-- What is found in the document of a script with another indentation quotes other widths only. -/
theorem documentLog_rescaled {context : Context} (h : Reindents context.settings.tabWidth f t t')
    (hf : StrictMono f) (h0 : f 0 = 0) :
    Log.Rescaled f (documentLog context (Source.ofText t))
      (documentLog context (Source.ofText t')) := by
  by_cases hl : Document.Legible context.settings.tabWidth (Source.ofText t)
  · obtain ⟨htree, hlog⟩ := h.ofText_eq hf h0
    rw [documentLog_of_legible hl, documentLog_of_legible (h.legible_iff.2 hl)]
    exact hlog.append (htree ▸ .refl f _)
  · rw [documentLog_of_not_legible hl, documentLog_of_not_legible (mt h.legible_iff.1 hl)]
    exact .refl f _

end Reindents

/-- Only the order of the widths of its lines matters to a script. Its indentation may be changed
by any strictly increasing function that leaves zero where it is. The document is the same then,
its building reports findings of the same sorts on the same lines, of which only those on shrunk
spacing quote other widths, and the checks find the same. -/
theorem checkText_reindented {f : Nat → Nat} (hf : StrictMono f) (h0 : f 0 = 0) (tab : Int)
    (t : Text) :
    (∃ t', Reindents tab f t t') ∧
    ∀ t', Reindents tab f t t' →
      (Document.ofText tab t').1 = (Document.ofText tab t).1 ∧
      Log.Rescaled f (Document.ofText tab t).2 (Document.ofText tab t').2 ∧
      (Document.ofText tab t').2.map (fun d => (d.category, d.key, d.line)) =
        (Document.ofText tab t).2.map (fun d => (d.category, d.key, d.line)) ∧
      (∀ v types, checkDocument v types (Document.ofText tab t').1 =
        checkDocument v types (Document.ofText tab t).1) ∧
      ∀ context : Context, context.settings.tabWidth = tab → context.settings.checksLines = false →
        Log.Rescaled f (checkText context t).log (checkText context t').log := by
  refine ⟨exists_reindents tab f t, fun t' h => ?_⟩
  obtain ⟨htree, hlog⟩ := h.ofText_eq hf h0
  refine ⟨htree, hlog, hlog.outline, fun v types => by rw [htree], ?_⟩
  rintro context rfl hc
  simp only [checkText, sourceLog_of_unchecked hc, h.statistics_eq]
  exact (h.documentLog_rescaled hf h0).append (.refl f _)

/-- Half as many more. -/
def halfMore (n : Nat) : Nat := n + n / 2

/-- To add half of a number keeps the order. -/
theorem halfMore_strictMono : StrictMono halfMore := by
  intro a b hab
  unfold halfMore
  omega

/-- A script that is indented by tabs, with a line that is less deep than the one before and has a
width that nothing has. -/
def tabbedScript : Text :=
  "a:\r\n\ttype: task\r\n\tscript:\r\n\t\t- if x:\r\n\t\t\t- y\r\n  - z".toList

/-- The same script, indented by six spaces for a tab. -/
def spacedScript : Text :=
  "a:\n      type: task\n      script:\n            - if x:\n                  - y\n   - z".toList

/-- A script with tabs, reindented with spaces by half more: the same tree, and the same reports at
the new widths. -/
theorem checkText_reindented_tabbed :
    StrictMono halfMore ∧ halfMore 0 = 0 ∧ Reindents 4 halfMore tabbedScript spacedScript ∧
    (Document.ofText 4 spacedScript).1 = (Document.ofText 4 tabbedScript).1 ∧
    (Document.ofText 4 tabbedScript).2 = [(Issue.shrunkSpacing 12 2 [0]).onLine 5] ∧
    (Document.ofText 4 spacedScript).2 = [(Issue.shrunkSpacing 18 3 [0]).onLine 5] ∧
    Log.Rescaled halfMore (Document.ofText 4 tabbedScript).2
      (Document.ofText 4 spacedScript).2 := by
  have h : Reindents 4 halfMore tabbedScript spacedScript := by decide
  obtain ⟨htree, hlog, -⟩ := (checkText_reindented halfMore_strictMono rfl 4 tabbedScript).2 _ h
  exact ⟨halfMore_strictMono, rfl, h, htree, by decide +kernel, by decide +kernel, hlog⟩

end ScriptLint
