import Mathlib.Data.List.Chain
import Mathlib.Data.List.Forall2
import ScriptLint.Proofs.Contentless

/-!
# Line breaks

A script is written as lines with breaks between them, each of which is a line feed, a carriage
return or both (`BrokenText`). Which of them it is does not matter: the source is that of the lines
with line feeds between them, and so is the report (`checkText_breaks`). Only a carriage return and
a line feed that come one right after the other are one break, so there must be something between
the two if they are meant as two breaks (`BrokenText.Separate`).

The lines of the source are those of the script, in order, and the statistics are sums over them
(`statistics_eq_sum`). A line adds one to one of the four statistics, or nothing to any of them
(`Statistics.Share`).
-/

namespace ScriptLint

/-! ## Lines and breaks -/

/-- A line break. -/
inductive LineBreak where
  /-- A line feed. -/
  | lf
  /-- A carriage return and a line feed. -/
  | crlf
  /-- A carriage return. -/
  | cr
deriving DecidableEq, Repr

/-- The characters of a line break. -/
def LineBreak.text : LineBreak → Text
  | .lf => ['\n']
  | .crlf => ['\r', '\n']
  | .cr => ['\r']

/-- Lines with a break in front of each. -/
def brokenLines (rest : List (LineBreak × Text)) : Text :=
  rest.flatMap fun (b, line) => b.text ++ line

/-- A text in lines: the first one, and the others with the breaks in front of them. -/
structure BrokenText where
  first : Text
  rest : List (LineBreak × Text)

namespace BrokenText

/-- The lines. -/
def lines (w : BrokenText) : List Text := w.first :: w.rest.map (·.2)

/-- The text as it is written. -/
def text (w : BrokenText) : Text := w.first ++ brokenLines w.rest

/-- No carriage return that is a break of its own is right in front of a line feed that is another
one. -/
def Separate (w : BrokenText) : Prop :=
  w.rest.IsChain fun before after => ¬ (before = (.cr, []) ∧ after.1 = .lf)

instance (w : BrokenText) : Decidable w.Separate := inferInstanceAs (Decidable (List.IsChain _ _))

end BrokenText

/-! ## Uniform breaks -/

/-- A text without carriage returns passes through unchanged. -/
theorem normalizeBreaks_append {line : Text} (h : '\r' ∉ line) (t : Text) :
    normalizeBreaks (line ++ t) = line ++ normalizeBreaks t := by
  induction line with
  | nil => rfl
  | cons c r ih =>
    rw [List.mem_cons, not_or] at h
    have hreturn : ∀ rest, c = '\r' → r ++ t = '\n' :: rest → False := fun _ hc _ => h.1 hc.symm
    rw [List.cons_append, normalizeBreaks, if_neg (Ne.symm h.1), ih h.2, List.cons_append]
    exact hreturn

/-- A break is written as a line feed, unless it is only half of one. -/
theorem normalizeBreaks_break {b : LineBreak} {t : Text} (h : b = .cr → t.head? ≠ some '\n') :
    normalizeBreaks (b.text ++ t) = '\n' :: normalizeBreaks t := by
  cases b with
  | lf => rfl
  | crlf => rfl
  | cr =>
    have hfeed : ∀ rest, '\r' = '\r' → t = '\n' :: rest → False := by
      rintro rest - rfl
      exact h rfl rfl
    show normalizeBreaks ('\r' :: t) = _
    rw [normalizeBreaks, if_pos rfl]
    exact hfeed

/-- A line with its break stands before the lines after it. -/
theorem brokenLines_cons (b : LineBreak) (line : Text) (rest : List (LineBreak × Text)) :
    brokenLines ((b, line) :: rest) = b.text ++ (line ++ brokenLines rest) := by
  rw [brokenLines, List.flatMap_cons, List.append_assoc, ← brokenLines]

/-- A line feed comes first only if it is the first break. -/
theorem lf_of_head?_brokenLines {rest : List (LineBreak × Text)}
    (h : (brokenLines rest).head? = some '\n') :
    ∃ entry ∈ rest.head?, entry.1 = .lf := by
  cases rest with
  | nil => cases h
  | cons entry rest =>
    obtain ⟨b, line⟩ := entry
    refine ⟨(b, line), rfl, ?_⟩
    cases b with
    | lf => rfl
    | crlf => cases h
    | cr => cases h

namespace BrokenText

/-- With uniform breaks, a text is its lines with line feeds between them. -/
theorem normalizeBreaks_text {w : BrokenText}
    (hlines : ∀ line ∈ w.lines, '\n' ∉ line ∧ '\r' ∉ line) (hseparate : w.Separate) :
    normalizeBreaks w.text = Text.joined ['\n'] w.lines := by
  obtain ⟨first, rest⟩ := w
  obtain ⟨hfirst, hrest⟩ := List.forall_mem_cons.1 hlines
  rw [text, lines, normalizeBreaks_append hfirst.2]
  clear hfirst hlines
  induction rest generalizing first with
  | nil =>
    rw [brokenLines, List.flatMap_nil, List.map_nil, Text.joined_singleton, normalizeBreaks,
      List.append_nil]
  | cons entry rest ih =>
    obtain ⟨b, line⟩ := entry
    obtain ⟨hnext, hchain⟩ := List.isChain_cons.1 hseparate
    obtain ⟨hline, hrest⟩ := List.forall_mem_cons.1 hrest
    -- Nothing but a line feed could take the carriage return for its other half.
    have hfeed : b = .cr → (line ++ brokenLines rest).head? ≠ some '\n' := by
      intro hb hhead
      cases line with
      | nil =>
        obtain ⟨entry, hentry, hlf⟩ := lf_of_head?_brokenLines hhead
        exact hnext entry hentry ⟨by rw [hb], hlf⟩
      | cons c r =>
        obtain rfl : c = '\n' := Option.some.inj hhead
        exact hline.1 List.mem_cons_self
    rw [brokenLines_cons, normalizeBreaks_break hfeed, normalizeBreaks_append hline.2,
      ih line hchain hrest, List.map_cons, Text.joined_cons (List.cons_ne_nil _ _)]

end BrokenText

namespace Source

variable {w : BrokenText} (hlines : ∀ line ∈ w.lines, '\n' ∉ line ∧ '\r' ∉ line)
    (hseparate : w.Separate)
include hlines hseparate

/-- A text that is printed from lines and separate breaks is read as these lines. -/
theorem rawLines_text : rawLines (normalizeBreaks w.text) = w.lines := by
  rw [w.normalizeBreaks_text hlines hseparate]
  exact List.splitOn_intercalate _ (fun line hline => (hlines line hline).1) (List.cons_ne_nil _ _)

/-- The source is that of the lines with line feeds between them. -/
theorem ofText_text : ofText w.text = ofText (Text.joined ['\n'] w.lines) := by
  have huniform : normalizeBreaks (Text.joined ['\n'] w.lines) = normalizeBreaks w.text := by
    rw [← w.normalizeBreaks_text hlines hseparate,
      normalizeBreaks_of_not_mem (not_mem_normalizeBreaks w.text)]
  rw [ofText, ofText, huniform]

end Source

/-! ## Lines -/

/-- How a line is read: as it is written and as it is trimmed, unless it is a comment. -/
structure ReadsAs (raw : Text) (line : SourceLine) : Prop where
  comment : (Text.trim raw).head? = some '#' → line = ⟨[], []⟩
  other : (Text.trim raw).head? ≠ some '#' → line = ⟨raw, Text.trim raw⟩

/-- A source line is read from its raw text alone. -/
theorem SourceLine.readsAs_ofRaw (raw : Text) : ReadsAs raw (ofRaw raw) where
  comment h := ofRaw_of_comment (LineKind.ofTrimmed_eq_comment.2 h)
  other h := ofRaw_of_not_comment fun hc => h (LineKind.ofTrimmed_eq_comment.1 hc)

/-! ## Statistics -/

namespace Statistics

instance : Zero Statistics := ⟨{}⟩

/-- The statistics of two scripts together. -/
instance : Add Statistics where
  add s t :=
    ⟨s.comments + t.comments, s.blanks + t.blanks, s.headings + t.headings, s.codes + t.codes⟩

/-- How often lines are counted. -/
def total (s : Statistics) : Nat := s.comments + s.blanks + s.headings + s.codes

/-- What a line of a kind adds. -/
def ofKind : LineKind → Statistics
  | .comment => { comments := 1 }
  | .blank => { blanks := 1 }
  | .code => { codes := 1 }
  | .heading => { headings := 1 }
  | .other => {}

/-- What the statistics of a script are if the line is all of it. -/
structure Share (raw : Text) (s : Statistics) : Prop where
  once : s.total ≤ 1
  comment : s.comments = 1 ↔ (Text.trim raw).head? = some '#'
  blank : s.blanks = 1 ↔ Text.trim raw = []
  code : s.codes = 1 ↔ (Text.trim raw).head? = some '-'
  heading : s.headings = 1 ↔ (Text.trim raw).head? ≠ some '#' ∧ (Text.trim raw).head? ≠ some '-' ∧
    (Text.trim raw).getLast? = some ':'
  uncounted : s.total = 0 ↔ Text.trim raw ≠ [] ∧ (Text.trim raw).head? ≠ some '#' ∧
    (Text.trim raw).head? ≠ some '-' ∧ (Text.trim raw).getLast? ≠ some ':'

/-- A line is counted as a comment, as blank, as code or as a heading exactly if it is one. -/
theorem ofKind_eq_one (kind : LineKind) :
    ((ofKind kind).comments = 1 ↔ kind = .comment) ∧ ((ofKind kind).blanks = 1 ↔ kind = .blank) ∧
      ((ofKind kind).codes = 1 ↔ kind = .code) ∧
        ((ofKind kind).headings = 1 ↔ kind = .heading) := by
  cases kind <;> decide

/-- A line is counted once, unless it is of no kind that is counted. -/
theorem total_ofKind (kind : LineKind) : (ofKind kind).total = if kind = .other then 0 else 1 := by
  cases kind <;> rfl

/-- The share of a line in the statistics is that of its kind. -/
theorem share_ofKind (raw : Text) : Share raw (ofKind (LineKind.ofTrimmed (Text.trim raw))) := by
  obtain ⟨hcomment, hblank, hcode, hheading⟩ := ofKind_eq_one (LineKind.ofTrimmed (Text.trim raw))
  have htotal := total_ofKind (LineKind.ofTrimmed (Text.trim raw))
  refine ⟨?_, hcomment.trans LineKind.ofTrimmed_eq_comment,
    hblank.trans LineKind.ofTrimmed_eq_blank, hcode.trans LineKind.ofTrimmed_eq_code,
    hheading.trans LineKind.ofTrimmed_eq_heading, ?_⟩
  · rw [htotal]
    split <;> decide
  · rw [← LineKind.ofTrimmed_eq_other, htotal]
    split <;> simp_all

end Statistics

namespace Source

/-- Lines are counted one after the other. -/
theorem counts_eq_sum (raws : List Text) :
    (⟨count .comment raws, count .blank raws, count .heading raws,
      count .code raws⟩ : Statistics) =
      (raws.map fun raw => Statistics.ofKind (LineKind.ofTrimmed (Text.trim raw))).sum := by
  induction raws with
  | nil => rfl
  | cons raw rest ih =>
    rw [List.map_cons, List.sum_cons, ← ih]
    simp only [count_cons]
    cases LineKind.ofTrimmed (Text.trim raw) <;> rfl

/-- The statistics are summed up over the lines. -/
theorem statistics_eq_sum (t : Text) : (ofText t).statistics =
    ((rawLines (normalizeBreaks t)).map fun raw =>
      Statistics.ofKind (LineKind.ofTrimmed (Text.trim raw))).sum :=
  counts_eq_sum _

/-- A line alone has the statistics of its kind. -/
theorem statistics_line {line : Text} (h : '\n' ∉ line ∧ '\r' ∉ line) :
    (ofText line).statistics = Statistics.ofKind (LineKind.ofTrimmed (Text.trim line)) := by
  have hline := rawLines_joined (List.cons_ne_nil line []) (List.forall_mem_singleton.2 h)
  rw [Text.joined_singleton] at hline
  rw [statistics_eq_sum, hline, List.map_singleton]
  cases LineKind.ofTrimmed (Text.trim line) <;> rfl

end Source

/-- It does not matter how the lines of a script are broken: the source and the report are those of
the lines with line feeds between them. The source has these lines, in order, and its statistics
are the sum of those of the lines, each of which is counted once at most. -/
theorem checkText_breaks (w : BrokenText) (hlines : ∀ line ∈ w.lines, '\n' ∉ line ∧ '\r' ∉ line)
    (hseparate : w.Separate) :
    Source.ofText w.text = Source.ofText (Text.joined ['\n'] w.lines) ∧
      (∀ context : Context, checkText context w.text =
        checkText context (Text.joined ['\n'] w.lines)) ∧
      List.Forall₂ ReadsAs w.lines (Source.ofText w.text).lines ∧
      (Source.ofText w.text).statistics =
        (w.lines.map fun line => (Source.ofText line).statistics).sum ∧
      ∀ line ∈ w.lines, Statistics.Share line (Source.ofText line).statistics := by
  have hsource := Source.ofText_text hlines hseparate
  have hraws := Source.rawLines_text hlines hseparate
  refine ⟨hsource, fun context => ?_, ?_, ?_, fun line hline => ?_⟩
  · rw [checkText, checkText, hsource]
  · rw [Source.ofText, hraws, List.forall₂_map_right_iff, List.forall₂_same]
    exact fun raw _ => SourceLine.readsAs_ofRaw raw
  · rw [Source.statistics_eq_sum, hraws]
    congr 1
    exact List.map_congr_left fun line hline => (Source.statistics_line (hlines line hline)).symm
  · rw [Source.statistics_line (hlines line hline)]
    exact Statistics.share_ofKind line

/-- Two breaks that would be one: the source has a line less. -/
example : Source.rawLines (normalizeBreaks (BrokenText.text ⟨['a'], [(.cr, []), (.lf, ['b'])]⟩)) =
      [['a'], ['b']] := by
  decide

/-- A script with all kinds of breaks, empty lines between them, and lines of all kinds. -/
def brokenScript : BrokenText :=
  ⟨"task:".toList, [(.crlf, "  # note".toList), (.cr, []), (.crlf, " - say".toList),
    (.cr, "word".toList), (.lf, [])]⟩

/-- A script with all three breaks is checked like the one with line feeds only. -/
theorem checkText_breaks_mixed :
    (∀ line ∈ brokenScript.lines, '\n' ∉ line ∧ '\r' ∉ line) ∧ brokenScript.Separate ∧
      (∀ context : Context, checkText context "task:\r\n  # note\r\r\n - say\rword\n".toList =
        checkText context "task:\n  # note\n\n - say\nword\n".toList) ∧
      (Source.ofText brokenScript.text).statistics = ⟨1, 2, 1, 1⟩ := by
  have hlines : ∀ line ∈ brokenScript.lines, '\n' ∉ line ∧ '\r' ∉ line := by decide
  have hseparate : brokenScript.Separate := by decide
  obtain ⟨-, hreport, -, hstatistics, -⟩ := checkText_breaks brokenScript hlines hseparate
  refine ⟨hlines, hseparate, hreport, hstatistics.trans ?_⟩
  decide

end ScriptLint
