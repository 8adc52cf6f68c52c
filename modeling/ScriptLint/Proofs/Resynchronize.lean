import ScriptLint.Proofs.Document.Resume
import ScriptLint.Proofs.Reading
import ScriptLint.Proofs.Renumber
import ScriptLint.Proofs.Text

/-!
# Scripts that are written one after the other

A script may follow another one in the same text. If its first content line is a key line that is
not indented, nothing in the first script changes how it is read or checked, however the first one
ends: its entries are set in the document of the first one, on their new lines, and its findings
come after those of the first one (`checkText_resynchronizes`). This joins what is known of lines
that are read on top of others (`ofLines_append`) with what is known of their numbers
(`ofLines_renumber`, `checkDocument_renumber`).
-/

namespace ScriptLint

/-- The lines of two texts with a line break in between are those of the one, then those of the
other. -/
theorem Source.lines_append {a b : Text} (ha : '\r' ∉ a) (hb : '\r' ∉ b) :
    (ofText (a ++ '\n' :: b)).lines = (ofText a).lines ++ (ofText b).lines := by
  have hab : '\r' ∉ a ++ '\n' :: b := by simp [ha, hb]
  simp only [ofText, normalizeBreaks_of_not_mem ha, normalizeBreaks_of_not_mem hb,
    normalizeBreaks_of_not_mem hab, rawLines, Text.fields, List.splitOn_append_cons_self,
    List.map_append]

/-- The number of lines of a text. -/
def lineCount (t : Text) : Nat := (Source.ofText t).lines.length

namespace Document

/-- The document of a text, and what building it gave rise to. -/
def ofText (tab : Int) (t : Text) : Entries × Log := ofSource tab (Source.ofText t)

/-- The first content line of a text, if there is one, is a key line that is not indented. -/
def StartsFresh (tab : Int) (t : Text) : Prop :=
  ∀ line, (lines tab (Source.ofText t)).head? = some line → line.width = 0 ∧ line.isItem = false

/-- The content lines of the second text are numbered on from the first text. -/
theorem lines_append (tab : Int) {a b : Text} (ha : '\r' ∉ a) (hb : '\r' ∉ b) :
    lines tab (Source.ofText (a ++ '\n' :: b)) = lines tab (Source.ofText a) ++
      (lines tab (Source.ofText b)).map (Line.renumber (· + lineCount a)) := by
  rw [lines, Source.lines_append ha hb, linesFrom_append, linesFrom_add]
  rfl

/-- What is read of a text is its document. -/
theorem ofText_of_read {tab : Int} {t : Text} {tree : Entries} {log : Log}
    (h : read tab (Source.ofText t) = .ok (tree, log)) :
    Legible tab (Source.ofText t) ∧ (ofText tab t).1 = tree ∧ (ofText tab t).2 = log := by
  obtain ⟨hl, htree⟩ := read_eq_ok_iff.1 h
  exact ⟨hl, Prod.mk.inj htree⟩

/-- Both texts can be read together if each can be read. -/
theorem legible_append (tab : Int) {a b : Text} (ha : '\r' ∉ a) (hb : '\r' ∉ b) :
    Legible tab (Source.ofText (a ++ '\n' :: b)) ↔
      Legible tab (Source.ofText a) ∧ Legible tab (Source.ofText b) := by
  rw [Legible, Legible, Legible, lines_append tab ha hb, List.append_eq_nil_iff,
    List.map_eq_nil_iff, or_and_left]

/-- The second text is read on top of the first one. -/
theorem ofText_append (tab : Int) {a b : Text} (ha : '\r' ∉ a) (hb : '\r' ∉ b)
    (hfresh : StartsFresh tab b) :
    (ofText tab (a ++ '\n' :: b)).1 =
      (ofText tab a).1.setAll ((ofText tab b).1.renumber (· + lineCount a)) ∧
    Log.Agree ((ofText tab a).2 ++ (ofText tab b).2.renumber (· + lineCount a))
      (ofText tab (a ++ '\n' :: b)).2 := by
  have hfirst : ∀ line, ((lines tab (Source.ofText b)).map
      (Line.renumber (· + lineCount a))).head? = some line →
      line.width = 0 ∧ line.isItem = false := by
    intro line hline
    rw [List.head?_map] at hline
    obtain ⟨l, hl, rfl⟩ := Option.map_eq_some_iff.1 hline
    exact hfresh l hl
  have h := ofLines_append (lines tab (Source.ofText a)) hfirst
  rw [← lines_append tab ha hb, ofLines_renumber] at h
  exact h

/-- Building a document gives rise to warnings and to what is for debugging only. -/
theorem ofText_ofCategory {category : Category} (hw : category ≠ .warning) (hd : category ≠ .debug)
    (tab : Int) (t : Text) : (ofText tab t).2.ofCategory category = [] := by
  refine List.filter_eq_nil_iff.2 fun d hmem hc => ?_
  obtain ⟨issue, line, hs, rfl⟩ := ofLines_structural _ d hmem
  have hc : issue.category = category := of_decide_eq_true hc
  cases issue with
  | repeatedKey => exact hd hc.symm
  | shrunkSpacing | grownSpacing | orphanEntry | orphanKey => exact hw hc.symm
  | _ => cases hs

end Document

/-! ## Reports -/

/-- Without the checks of lines and the statistics, the report on a script that can be read is on
its document. -/
theorem checkText_log {context : Context} (hl : context.settings.checksLines = false)
    (hs : context.settings.addsStatistics = false) {t : Text}
    (h : Document.Legible context.settings.tabWidth (Source.ofText t)) :
    (checkText context t).log = (Document.ofText context.settings.tabWidth t).2 ++
      checkDocument context.vocabulary context.types
        (Document.ofText context.settings.tabWidth t).1 := by
  simp only [checkText, sourceLog_of_unchecked hl, documentLog_of_legible h, hs]
  exact List.append_nil _

/-- Keys that are distinct stay so on other lines. -/
theorem Entries.Distinct.renumber {entries : Entries} (h : entries.Distinct) (g : Nat → Nat) :
    (entries.renumber g).Distinct := by
  induction entries with
  | nil => trivial
  | cons e rest ih => exact ⟨(Entries.hasKey_renumber g _ _).trans h.1, ih h.2⟩

/-- Documents that share no key are checked one after the other. -/
theorem checkDocument_setAll (v : Vocabulary) (types : Registry) {base entries : Entries}
    (h : entries.Distinct) (hd : ∀ e ∈ entries, base.hasKey e.1.text = false) (g : Nat → Nat) :
    checkDocument v types (base.setAll (entries.renumber g)) =
      checkDocument v types base ++ (checkDocument v types entries).renumber g := by
  have hd' : ∀ e ∈ entries.renumber g, base.hasKey e.1.text = false := by
    rw [Entries.renumber_eq_map]
    exact List.forall_mem_map.2 hd
  rw [Entries.setAll_of_disjoint (h.renumber g) hd', ← checkDocument_renumber]
  exact List.flatMap_append

/-- The findings of one category on two texts that share no key, but for those for debugging. -/
theorem checkText_ofCategory {context : Context} (hl : context.settings.checksLines = false)
    (hs : context.settings.addsStatistics = false) {a b : Text} (ha : '\r' ∉ a) (hb : '\r' ∉ b)
    (h : Document.Legible context.settings.tabWidth (Source.ofText (a ++ '\n' :: b)))
    (hfresh : Document.StartsFresh context.settings.tabWidth b)
    (hd : ∀ e ∈ (Document.ofText context.settings.tabWidth b).1,
      (Document.ofText context.settings.tabWidth a).1.hasKey e.1.text = false)
    {category : Category} (hc : category ≠ .debug) :
    (checkText context (a ++ '\n' :: b)).log.ofCategory category =
      (Document.ofText context.settings.tabWidth a).2.ofCategory category ++
      ((Document.ofText context.settings.tabWidth b).2.ofCategory category).renumber
        (· + lineCount a) ++
      (checkDocument context.vocabulary context.types
        (Document.ofText context.settings.tabWidth a).1).ofCategory category ++
      ((checkDocument context.vocabulary context.types
        (Document.ofText context.settings.tabWidth b).1).ofCategory category).renumber
          (· + lineCount a) := by
  obtain ⟨htree, hlog⟩ := Document.ofText_append context.settings.tabWidth ha hb hfresh
  have hdistinct : (Document.ofText context.settings.tabWidth b).1.Distinct :=
    Document.ofLines_distinct _
  rw [checkText_log hl hs h, Log.ofCategory_append, htree, checkDocument_setAll _ _ hdistinct hd,
    hlog category hc, Log.ofCategory_append, Log.ofCategory_append, Log.renumber_ofCategory,
    Log.renumber_ofCategory, ← List.append_assoc]

/-- A script whose first content line is a key line that is not indented is read and checked alike
on its own and after any other text: its entries are set in the document of that text, its warnings
come after those of that text, and if the two share no key, so do the findings of the checks, all
on the lines where they are now. If one of the two cannot be read, both together cannot. -/
theorem checkText_resynchronizes (context : Context) {a b : Text} (ha : '\r' ∉ a) (hb : '\r' ∉ b)
    (hfresh : Document.StartsFresh context.settings.tabWidth b) :
    (∀ treeA logA treeB logB,
      Document.read context.settings.tabWidth (Source.ofText a) = .ok (treeA, logA) →
      Document.read context.settings.tabWidth (Source.ofText b) = .ok (treeB, logB) →
      (∃ log, Document.read context.settings.tabWidth (Source.ofText (a ++ '\n' :: b)) =
          .ok (Entries.setAll treeA (treeB.renumber (· + lineCount a)), log) ∧
        log.ofCategory .warning =
          logA.ofCategory .warning ++ (logB.ofCategory .warning).renumber (· + lineCount a)) ∧
      (context.settings.checksLines = false → context.settings.addsStatistics = false →
        (∀ e ∈ treeB, treeA.hasKey e.1.text = false) →
        (∀ category : Category, category = .error ∨ category = .minorWarning →
          (checkText context (a ++ '\n' :: b)).log.ofCategory category =
            (checkText context a).log.ofCategory category ++
              ((checkText context b).log.ofCategory category).renumber (· + lineCount a)) ∧
        (checkText context (a ++ '\n' :: b)).log.ofCategory .warning =
          logA.ofCategory .warning ++ (logB.ofCategory .warning).renumber (· + lineCount a) ++
          (checkDocument context.vocabulary context.types treeA).ofCategory .warning ++
          ((checkDocument context.vocabulary context.types treeB).ofCategory .warning).renumber
            (· + lineCount a))) ∧
    ∀ fault,
      Document.read context.settings.tabWidth (Source.ofText a) = .error fault ∨
        Document.read context.settings.tabWidth (Source.ofText b) = .error fault →
      Document.read context.settings.tabWidth (Source.ofText (a ++ '\n' :: b)) = .error fault := by
  have happend := Document.legible_append context.settings.tabWidth ha hb
  refine ⟨fun treeA logA treeB logB hreadA hreadB => ?_, fun fault hread => ?_⟩
  · obtain ⟨hla, rfl, rfl⟩ := Document.ofText_of_read hreadA
    obtain ⟨hlb, rfl, rfl⟩ := Document.ofText_of_read hreadB
    have hlab := happend.2 ⟨hla, hlb⟩
    obtain ⟨htree, hlog⟩ := Document.ofText_append context.settings.tabWidth ha hb hfresh
    refine ⟨⟨_, Document.read_eq_ok_iff.2 ⟨hlab, Prod.ext htree rfl⟩, ?_⟩,
      fun hl hs hd => ⟨fun category hc => ?_, ?_⟩⟩
    · refine (hlog .warning (by decide)).trans ?_
      rw [Log.ofCategory_append, Log.renumber_ofCategory]
    · have hw : category ≠ .warning := by rcases hc with rfl | rfl <;> decide
      have hdebug : category ≠ .debug := by rcases hc with rfl | rfl <;> decide
      rw [checkText_ofCategory hl hs ha hb hlab hfresh hd hdebug, checkText_log hl hs hla,
        checkText_log hl hs hlb, Log.ofCategory_append, Log.ofCategory_append,
        Document.ofText_ofCategory hw hdebug, Document.ofText_ofCategory hw hdebug]
      rfl
    · exact checkText_ofCategory hl hs ha hb hlab hfresh hd (by decide)
  · rw [Document.read_eq_error_iff, Document.read_eq_error_iff] at hread
    rw [Document.read_eq_error_iff, happend]
    rcases hread with ⟨hl, rfl⟩ | ⟨hl, rfl⟩
    · exact ⟨fun hlab => hl hlab.1, rfl⟩
    · exact ⟨fun hlab => hl hlab.2, rfl⟩

/-- A context in which only documents are checked. -/
def plainContext : Context := { settings := { checksLines := false, addsStatistics := false } }

/-- A script with a width that nothing has and an entry under no key, which ends with a key that is
waiting. -/
def openScript : Text := "a:\n    script:\n    - if x:\n        - y\n      k: v\n- w\nc:".toList

/-- A script that starts with a comment and a key line that is not indented. -/
def freshScript : Text := "# next\nb:\n  type: task\n    - u\n e: f".toList

/-- The script begins at the margin with a key. -/
theorem startsFresh_freshScript : Document.StartsFresh 4 freshScript := by
  rintro line ⟨⟩
  exact ⟨rfl, rfl⟩

/-- A script that leaves a block open is continued by one that begins at the margin. -/
theorem checkText_resynchronizes_after_open :
    '\r' ∉ openScript ∧ '\r' ∉ freshScript ∧ Document.StartsFresh 4 freshScript ∧
    ∃ treeA logA treeB logB,
      Document.read 4 (Source.ofText openScript) = .ok (treeA, logA) ∧
      Document.read 4 (Source.ofText freshScript) = .ok (treeB, logB) ∧
      (∀ e ∈ treeB, Entries.hasKey e.1.text treeA = false) ∧
      (∃ log, Document.read 4 (Source.ofText (openScript ++ '\n' :: freshScript)) =
          .ok (Entries.setAll treeA (treeB.renumber (· + 7)), log) ∧
        log.ofCategory .warning =
          logA.ofCategory .warning ++ (logB.ofCategory .warning).renumber (· + 7)) ∧
      (checkText plainContext (openScript ++ '\n' :: freshScript)).log.ofCategory .error =
        (checkText plainContext openScript).log.ofCategory .error ++
          ((checkText plainContext freshScript).log.ofCategory .error).renumber (· + 7) := by
  have hopen : '\r' ∉ openScript := by decide
  have hfresh : '\r' ∉ freshScript := by decide
  have hkeys : ∀ e ∈ (Document.ofText 4 freshScript).1,
      (Document.ofText 4 openScript).1.hasKey e.1.text = false := by decide
  have hreadA : Document.read 4 (Source.ofText openScript) = .ok (Document.ofText 4 openScript) :=
    Document.read_of_legible (.inl (by decide))
  have hreadB : Document.read 4 (Source.ofText freshScript) =
      .ok (Document.ofText 4 freshScript) :=
    Document.read_of_legible (.inl (by decide))
  obtain ⟨htree, hchecks⟩ := (checkText_resynchronizes plainContext hopen hfresh
    startsFresh_freshScript).1 _ _ _ _ hreadA hreadB
  exact ⟨hopen, hfresh, startsFresh_freshScript, _, _, _, _, hreadA, hreadB, hkeys, htree,
    (hchecks rfl rfl hkeys).1 .error (.inl rfl)⟩

/-- With a tab that is no index, two texts have no document together, as neither has one. -/
theorem not_always_resynchronized : ¬ ∀ (context : Context) (a b : Text), '\r' ∉ a → '\r' ∉ b →
    Document.StartsFresh context.settings.tabWidth b →
    ∃ treeA logA treeB logB log,
      Document.read context.settings.tabWidth (Source.ofText a) = .ok (treeA, logA) ∧
      Document.read context.settings.tabWidth (Source.ofText b) = .ok (treeB, logB) ∧
      Document.read context.settings.tabWidth (Source.ofText (a ++ '\n' :: b)) =
        .ok (Entries.setAll treeA (treeB.renumber (· + lineCount a)), log) := by
  intro h
  have hfresh : Document.StartsFresh indexBound "b: 2".toList := by
    rintro line ⟨⟩
    exact ⟨rfl, rfl⟩
  obtain ⟨_, _, _, _, _, hread, -⟩ :=
    h wideContext "a: 1".toList "b: 2".toList (by decide) (by decide) hfresh
  have hfault : Document.read indexBound (Source.ofText "a: 1".toList) = .error .width :=
    Document.read_of_not_legible (by decide)
  cases hfault.symm.trans hread

end ScriptLint
