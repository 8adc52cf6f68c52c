import Mathlib.Data.List.Forall2
import ScriptLint.LineCheck
import ScriptLint.Proofs.Text.Replace

/-!
# The escapes of the text for YAML

A script is loaded line by line as it is written, but for comments and blanks, which are empty
lines, and for the entries of lists that open no block, in which colons before a space and number
signs are escaped. So the line of the script is the line of the text that is loaded
(`yamlText_rows`), and no escaped line holds what YAML would take for its own. The escapes can be
undone, number signs first, unless the line had one in it from the start (`YamlRow.restored`).

Both escapes are replacements everywhere in a line. Each of them begins with an angle bracket,
which neither holds at another place, so neither one is made or broken by the other.
-/

namespace ScriptLint

open Text (replaceAll Apart)

/-- The mark that is escaped as `<&co>`. -/
def colonMark : Text := [':', ' ']

/-- Colons before spaces are escaped by replacing both. -/
theorem escapeColons_eq (t : Text) : escapeColons t = replaceAll colonMark "<&co>".toList t := by
  fun_induction escapeColons t with
  | case1 => exact Text.replaceAll_nil.symm
  | case2 r ih => rw [ih]; exact (Text.replaceAll_append (List.cons_ne_nil _ _) r).symm
  | case3 c r hr ih =>
    have hfront : ¬ colonMark <+: c :: r := by
      rintro ⟨rest, hrest⟩
      obtain ⟨rfl, rfl⟩ := List.cons_eq_cons.1 hrest
      exact hr rest rfl rfl
    rw [Text.replaceAll_cons hfront, ih]

/-- Hash signs are escaped by replacing them. -/
theorem escapeSigns_eq (t : Text) : escapeSigns t = replaceAll ['#'] "<&ns>".toList t := by
  induction t with
  | nil => exact Text.replaceAll_nil.symm
  | cons c r ih =>
    rw [escapeSigns, List.flatMap_cons, ← escapeSigns, ih]
    split
    · next hc =>
      subst hc
      exact (Text.replaceAll_append (List.cons_ne_nil _ _) r).symm
    · next hc =>
      have hfront : ¬ ['#'] <+: c :: r := fun h => hc (List.cons_prefix_cons.1 h).1.symm
      rw [Text.replaceAll_cons hfront]
      rfl

/-! ## Escaped lines -/

/-- A line with both escapes. -/
def escaped (raw : Text) : Text := escapeSigns (escapeColons raw)

/-- A line is brought back by undoing both escapes, the later one first. -/
def restore (row : Text) : Text :=
  replaceAll "<&co>".toList colonMark (replaceAll "<&ns>".toList ['#'] row)

/-- No colon of an escaped line is before a space. -/
theorem not_colonMark_infix_escaped (raw : Text) : ¬ colonMark <:+: escaped raw := by
  rw [escaped, escapeSigns_eq]
  intro h
  have hcolons : colonMark <:+: escapeColons raw :=
    Text.infix_of_infix_replaceAll (m := '<') (List.cons_ne_nil _ _) (by decide) (by decide) h
  rw [escapeColons_eq] at hcolons
  exact Text.not_infix_replaceAll (m := '<') (List.cons_ne_nil _ _) (by decide)
    (by decide) raw hcolons

/-- An escaped line has no hash sign. -/
theorem sign_not_mem_escaped (raw : Text) : '#' ∉ escaped raw := by
  rw [← List.singleton_infix_iff, escaped, escapeSigns_eq]
  exact Text.not_infix_replaceAll (m := '<') (List.cons_ne_nil _ _) (by decide) (by decide) _

/-- Escaping colons makes no escaped number sign. -/
theorem not_infix_escapeColons {raw : Text} (h : ¬ "<&ns>".toList <:+: raw) :
    ¬ "<&ns>".toList <:+: escapeColons raw := by
  rw [escapeColons_eq]
  exact fun hi =>
    h (Text.infix_of_infix_replaceAll (m := '<') (List.cons_ne_nil _ _) (by decide) (by decide) hi)

/-- The escapes are undone if the line has none of its own. -/
theorem restore_escaped {raw : Text} (hsign : ¬ "<&ns>".toList <:+: raw)
    (hcolon : ¬ "<&co>".toList <:+: raw) :
    restore (escaped raw) = raw := by
  have hsigns : replaceAll "<&ns>".toList ['#'] (escaped raw) = escapeColons raw := by
    rw [escaped, escapeSigns_eq]
    exact Text.replaceAll_replaceAll (m := '<') (List.cons_ne_nil _ _) (by decide)
      (not_infix_escapeColons hsign)
  rw [restore, hsigns, escapeColons_eq]
  exact Text.replaceAll_replaceAll (m := '<') (List.cons_ne_nil _ _) (by decide) hcolon

example : escaped "- x:: #: y".toList = "- x:<&co><&ns><&co>y".toList := by decide

/-- Escaping brings in no line break. -/
theorem newline_not_mem_escaped {raw : Text} (h : '\n' ∉ raw) : '\n' ∉ escaped raw := by
  intro hmem
  rw [escaped, escapeSigns_eq] at hmem
  rcases Text.mem_of_mem_replaceAll (List.cons_ne_nil _ _) hmem with hmem | hmem
  · exact absurd hmem (by decide)
  · rw [escapeColons_eq] at hmem
    rcases Text.mem_of_mem_replaceAll (List.cons_ne_nil _ _) hmem with hmem | hmem
    · exact absurd hmem (by decide)
    · exact h hmem

/-! ## The lines of a script -/

/-- The line is an entry of a list that opens no block: it begins with a hyphen and does not end
with a colon. -/
def IsPlainItem (raw : Text) : Prop :=
  (Text.trim raw).head? = some '-' ∧ (Text.trim raw).getLast? ≠ some ':'

/-- The line is neither blank nor a comment. -/
def HasContent (raw : Text) : Prop := Text.trim raw ≠ [] ∧ (Text.trim raw).head? ≠ some '#'

/-- How a line of a script is loaded. -/
structure YamlRow (raw row : Text) : Prop where
  empty : ¬ HasContent raw → row = []
  kept : HasContent raw → ¬ IsPlainItem raw → row = raw
  /-- YAML takes nothing in an entry for a key or a comment. -/
  plain : IsPlainItem raw → ¬ colonMark <:+: row ∧ '#' ∉ row
  restored : IsPlainItem raw → ¬ "<&ns>".toList <:+: raw → ¬ "<&co>".toList <:+: raw →
    restore row = raw

/-- An entry with plain text has content. -/
theorem IsPlainItem.hasContent {raw : Text} (h : IsPlainItem raw) : HasContent raw := by
  constructor <;> intro hc <;> simp [IsPlainItem, hc] at h

namespace SourceLine

variable {raw : Text}

/-- A line without content is an empty row. -/
theorem yamlText_of_empty (h : ¬ HasContent raw) : (ofRaw raw).yamlText = [] := by
  have htrimmed : (ofRaw raw).trimmed = [] := by
    rw [trimmed_ofRaw_eq_nil, LineKind.ofTrimmed_eq_blank, LineKind.ofTrimmed_eq_comment]
    rwa [HasContent, not_and_or, not_not, not_not] at h
  rw [yamlText, htrimmed]
  rfl

/-- A line with content is read as it is. -/
theorem ofRaw_of_hasContent (h : HasContent raw) : ofRaw raw = ⟨raw, Text.trim raw⟩ :=
  ofRaw_of_not_comment fun hc => h.2 (LineKind.ofTrimmed_eq_comment.1 hc)

/-- The test on a source line tells the entries with plain text. -/
theorem isPlainItem_iff (h : HasContent raw) :
    (ofRaw raw).isPlainItem = true ↔ IsPlainItem raw := by
  rw [ofRaw_of_hasContent h, isPlainItem, Bool.and_eq_true, Bool.not_eq_true',
    Text.beginsWith_singleton, ← Bool.not_eq_true, Text.endsWith_singleton]
  rfl

/-- A line with content is escaped if it is an entry that opens no block. -/
theorem yamlText_of_hasContent (h : HasContent raw) :
    (ofRaw raw).yamlText = if (ofRaw raw).isPlainItem then escaped raw else raw := by
  have hempty : ¬ (ofRaw raw).trimmed.isEmpty = true := by
    rw [ofRaw_of_hasContent h, List.isEmpty_iff]
    exact h.1
  rw [yamlText, if_neg hempty, ofRaw_of_hasContent h]
  rfl

/-- An entry with plain text is escaped. -/
theorem yamlText_of_plain (h : IsPlainItem raw) : (ofRaw raw).yamlText = escaped raw := by
  rw [yamlText_of_hasContent h.hasContent, if_pos ((isPlainItem_iff h.hasContent).2 h)]

/-- Any other line with content is kept. -/
theorem yamlText_of_kept (hc : HasContent raw) (hp : ¬ IsPlainItem raw) :
    (ofRaw raw).yamlText = raw := by
  rw [yamlText_of_hasContent hc, if_neg fun h => hp ((isPlainItem_iff hc).1 h)]

/-- The row of a source line is as the specification has it. -/
theorem yamlRow_ofRaw (raw : Text) : YamlRow raw (ofRaw raw).yamlText where
  empty := yamlText_of_empty
  kept := yamlText_of_kept
  plain h := by
    rw [yamlText_of_plain h]
    exact ⟨not_colonMark_infix_escaped raw, sign_not_mem_escaped raw⟩
  restored h hsign hcolon := by
    rw [yamlText_of_plain h]
    exact restore_escaped hsign hcolon

/-- A row has no line feed if the line has none. -/
theorem newline_not_mem_yamlText (h : '\n' ∉ raw) : '\n' ∉ (ofRaw raw).yamlText := by
  by_cases hc : HasContent raw
  · rw [yamlText_of_hasContent hc]
    split
    · exact newline_not_mem_escaped h
    · exact h
  · rw [yamlText_of_empty hc]
    exact List.not_mem_nil

end SourceLine

/-- The text that is loaded has a line for each line of the script, and an empty line after
them. -/
theorem yamlText_rows (t : Text) : ∃ rows : List Text,
    Text.fields '\n' (yamlText (Source.ofText t)) = rows ++ [[]] ∧
    List.Forall₂ YamlRow (Source.rawLines (normalizeBreaks t)) rows := by
  refine ⟨(Source.ofText t).lines.map SourceLine.yamlText, ?_, ?_⟩
  · rw [yamlText]
    refine List.splitOn_intercalate _ (fun row hrow => ?_) (by simp)
    rcases List.mem_append.1 hrow with hrow | hrow
    · obtain ⟨line, hline, rfl⟩ := List.mem_map.1 hrow
      obtain ⟨raw, hraw, rfl⟩ := List.mem_map.1 hline
      exact SourceLine.newline_not_mem_yamlText fun hn => (Text.mem_of_mem_fields hraw hn).2 rfl
    · rw [List.mem_singleton.1 hrow]
      exact List.not_mem_nil
  · rw [Source.ofText, List.map_map, List.forall₂_map_right_iff, List.forall₂_same]
    exact fun raw _ => SourceLine.yamlRow_ofRaw raw

end ScriptLint
