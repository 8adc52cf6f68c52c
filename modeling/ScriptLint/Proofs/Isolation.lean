import ScriptLint.Proofs.Container.Course
import ScriptLint.Proofs.Container.Finding
import ScriptLint.Proofs.Faultless

/-!
# Faults stay in their containers

A document may hold foreign nodes anywhere. Its check has a log all the same, category by category
one contribution after the other, and what a container contributes depends on its name and its node
alone (`contributions`). If nothing stops the check of a container, then it contributes all that
its course says, and none of this tells of a fault. Otherwise it contributes what its course says
before the first fault, and then one trace and one warning on the line of its name
(`Contribution`). In another order the containers contribute the same (`checkDocument_isolated`).
-/

namespace ScriptLint

open Course

/-- What the containers of a document add to a category, container by container. -/
def contributions (v : Vocabulary) (types : Registry) (category : Category)
    (entries : Entries) : List Log :=
  entries.map fun e => (containerLog v types e.1 e.2).ofCategory category

/-- What is reported of a fault in a container. -/
def faultLog (name : Tracked) (fault : Fault) : Log :=
  [Issue.faultTrace.onLine name.line,
    (Issue.faultInContainer name.text fault.label fault.reason).onLine name.line]

/-- What a container adds to the log: all that its course says, or what it says before the first
fault and the report on the fault. No other report on a fault is among it. -/
inductive Contribution (v : Vocabulary) (types : Registry) (name : Tracked)
    (node : Node) : Log → Prop
  | whole {log : Log} : containerCourse v types name node = said log →
      checkContainer v types name node = ⟨log, .ok ()⟩ → log.Ordinary →
      Contribution v types name node log
  | cut {log : Log} {fault : Fault} {rest : Course} :
      containerCourse v types name node = said log ++ .error fault :: rest →
      checkContainer v types name node = ⟨log, .error fault⟩ → log.Ordinary →
      Contribution v types name node (log ++ faultLog name fault)

/-- Nothing that a check finds among the texts of a document tells of a fault. -/
theorem Finding.ordinary {v : Vocabulary} {marks : List Mark} {d : Diagnostic}
    (h : Finding v marks d) :
    d.Ordinary := by
  cases h with
  | command _ _ hi =>
    exact Issue.onLine_ordinary (Command.lineIssues_isOnCommand _ _ _ _ hi).isFault_eq_false _
  | tag _ hi => exact Issue.onLine_ordinary (tagIssues_isOnTag _ _ _ hi).isFault_eq_false _
  | @container _ issue _ hi =>
    refine Issue.onLine_ordinary ?_ _
    cases issue with
    | faultTrace | faultInContainer | faultInScript => cases hi
    | _ => rfl

/-- What a container adds to the report is its own contribution. -/
theorem containerLog_contribution (v : Vocabulary) (types : Registry) (name : Tracked)
    (node : Node) :
    Contribution v types name node (containerLog v types name node) := by
  have hcheck := checkContainer_eq v types name node
  have hname : (⟨.key, name⟩ : Mark) ∈ (⟨.key, name⟩ : Mark) :: node.marks := List.mem_cons_self
  have hordinary : (checkContainer v types name node).log.Ordinary := fun d hd =>
    (checkContainer_finds v types hname (List.subset_cons_self _ _) d hd).ordinary
  rcases (containerCourse v types name node).cases with ⟨log, hc⟩ | ⟨log, fault, rest, hc⟩
  · rw [hc, check_said] at hcheck
    rw [hcheck] at hordinary
    simp only [containerLog, hcheck]
    exact .whole hc hcheck hordinary
  · rw [hc, check_stopped] at hcheck
    rw [hcheck] at hordinary
    simp only [containerLog, hcheck]
    exact .cut hc hcheck hordinary

/-- The log of a document is the contributions of its containers in order, whatever nodes they
hold. A container contributes all that it finds, or what it finds before a fault with the report on
the fault. In another order the containers contribute the same. -/
theorem checkDocument_isolated (v : Vocabulary) (types : Registry) (entries : Entries) :
    (∀ category, (checkDocument v types entries).ofCategory category =
      (contributions v types category entries).flatten) ∧
    (∀ e ∈ entries, Contribution v types e.1 e.2 (containerLog v types e.1 e.2)) ∧
    ∀ category entries', entries.Perm entries' →
      (contributions v types category entries).Perm (contributions v types category entries') ∧
      (checkDocument v types entries').ofCategory category =
        (contributions v types category entries').flatten := by
  have hflat : ∀ category entries, (checkDocument v types entries).ofCategory category =
      (contributions v types category entries).flatten := by
    intro category entries
    rw [contributions, ← List.flatMap_def]
    exact List.filter_flatMap ..
  exact ⟨fun category => hflat category entries,
    fun e _ => containerLog_contribution v types e.1 e.2,
    fun category entries' h => ⟨h.map _, hflat category entries'⟩⟩

/-- A container with a foreign node in the block of a command. -/
def brokenNode : Node :=
  .map [(⟨"type".toList, 1⟩, .scalar ⟨"task".toList, 1⟩),
    (⟨"script".toList, 2⟩, .list [.scalar ⟨"zap".toList, 3⟩,
      .map [(⟨"if x".toList, 4⟩, .list [.foreign "int"] 5)] 4, .scalar ⟨"bar".toList, 6⟩] 3)] 1

/-- A document with a container that breaks off, one that is foreign, and one without a type. -/
def brokenDocument : Entries :=
  [(⟨['a'], 0⟩, brokenNode), (⟨['b'], 7⟩, .foreign "str"), (⟨['c'], 8⟩, .map [] 8)]

/-- Of three containers, the first two meet a fault. The report keeps what each found before it, in
either order of the containers. -/
theorem checkDocument_isolated_broken :
    brokenDocument.Perm brokenDocument.reverse ∧
    contributions {} .builtin .error brokenDocument =
      [[(Issue.unknownCommand "zap".toList).onLine 3,
        (Issue.unknownCommand "if".toList).onLine 4], [], [(Issue.missingType ['c']).onLine 8]] ∧
    (checkDocument {} .builtin brokenDocument.reverse).ofCategory .error =
      [(Issue.missingType ['c']).onLine 8, (Issue.unknownCommand "zap".toList).onLine 3,
        (Issue.unknownCommand "if".toList).onLine 4] ∧
    contributions {} .builtin .debug brokenDocument =
      [[Issue.faultTrace.onLine 0], [Issue.faultTrace.onLine 7], []] ∧
    (checkContainer {} .builtin ⟨['a'], 0⟩ brokenNode).result = .error (.node "int" .commandList) ∧
    Contribution {} .builtin ⟨['a'], 0⟩ brokenNode
      (containerLog {} .builtin ⟨['a'], 0⟩ brokenNode) := by
  have hperm : brokenDocument.Perm brokenDocument.reverse := (List.reverse_perm _).symm
  obtain ⟨-, hcontribution, hreorder⟩ := checkDocument_isolated {} .builtin brokenDocument
  refine ⟨hperm,
    by decide +kernel, ?_, by decide +kernel, by rfl, hcontribution _ List.mem_cons_self⟩
  rw [(hreorder .error _ hperm).2]
  decide +kernel

end ScriptLint
