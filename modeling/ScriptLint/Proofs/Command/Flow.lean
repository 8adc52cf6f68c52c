import Mathlib.Data.List.Basic
import ScriptLint.Proofs.Faultless

/-!
# Names along a script

A script is a tree of commands, but names flow through it in one line: the commands in the order
they are written (`commandLines`), each before the ones in its block. What a command introduces
(`introducedBy`) and what it refers to (`referencesOf`) depend on its text alone. Checking a script
makes known exactly what was known at the start and what its commands introduce, and a reference is
reported exactly if the name is not among what was known at the start and what the commands before
introduce (`checkCommands_flow`).

The check hands what is known from one command to the next. A check that follows a list of commands
(`Check.Follows`) reports the references that are unknown where they stand and ends with what is
known after them; one check after another follows one list after the other (`Follows.bind`).
-/

namespace ScriptLint

/-! ## The commands of a script -/

mutual

/-- The commands of a script in the order they are written. -/
def commandLines : List Node → List Tracked
  | [] => []
  | node :: rest => node.entryLines ++ commandLines rest

/-- The commands of an entry of a script. -/
def Node.entryLines : Node → List Tracked
  | .scalar t => [t]
  | .map entries _ => blockLines entries
  | _ => []

/-- `Node.entryLines` over commands with blocks: a command comes before those in its block. -/
def blockLines : List (Tracked × Node) → List Tracked
  | [] => []
  | (key, block) :: rest => key :: (block.linesBelow ++ blockLines rest)

/-- The commands in the block of a command; only a list holds some. -/
def Node.linesBelow : Node → List Tracked
  | .list items _ => commandLines items
  | _ => []

end

mutual

/-- The list is a script: commands, some of which have blocks, and all blocks are scripts again,
maps or values. -/
def isScript : List Node → Bool
  | [] => true
  | node :: rest => node.isScriptEntry && isScript rest

/-- The node may stand in a script. -/
def Node.isScriptEntry : Node → Bool
  | .scalar _ => true
  | .map entries _ => areBlocks entries
  | _ => false

/-- `Node.isBlock` over commands with blocks. -/
def areBlocks : List (Tracked × Node) → Bool
  | [] => true
  | (_, block) :: rest => block.isBlock && areBlocks rest

/-- The node may be the block of a command. -/
def Node.isBlock : Node → Bool
  | .list items _ => isScript items
  | .map _ _ => true
  | .scalar _ => true
  | .foreign _ => false

end

/-! ## What commands introduce -/

namespace Command

/-- The names that a command introduces. -/
def introduced (c : Command) : Known where
  definitions := c.definitions.map Text.lower ++ if c.widens then [everyName] else []
  entries := c.saved?.toList.map Text.lower ++ if c.widens then [everyName] else []

/-- The names that the command on a line introduces. -/
def introducedBy (t : Text) : Known := ((ofText? t).map introduced).getD {}

end Command

namespace Known

/-- What is known, together with what commands introduce. -/
def united (k : Known) (lines : List Tracked) : Known where
  definitions := k.definitions ++ lines.flatMap fun t => (Command.introducedBy t.text).definitions
  entries := k.entries ++ lines.flatMap fun t => (Command.introducedBy t.text).entries

/-- What is known after commands are passed one by one. -/
def after (k : Known) (lines : List Tracked) : Known :=
  lines.foldl (fun k t => Command.extendByLine k t.text) k

/-- What is known after two scripts is known after the second, begun with what is known after the
first. -/
theorem after_append (k : Known) (first rest : List Tracked) :
    k.after (first ++ rest) = (k.after first).after rest :=
  List.foldl_append

/-- The same names are known. -/
structure Same (k k' : Known) : Prop where
  definitions : ∀ x, x ∈ k.definitions ↔ x ∈ k'.definitions
  entries : ∀ x, x ∈ k.entries ↔ x ∈ k'.entries

/-- Defining names makes these names known, in lower case, beside those that were. -/
theorem mem_definitions_foldl_define (names : List Text) (k : Known) (x : Text) :
    x ∈ (names.foldl define k).definitions ↔ x ∈ k.definitions ∨ x ∈ names.map Text.lower := by
  induction names generalizing k with
  | nil => simp
  | cons name rest ih =>
    rw [List.foldl_cons, ih, define, List.mem_insert_iff, List.map_cons, List.mem_cons]
    exact ⟨by rintro ((h | h) | h) <;> simp [h], by rintro (h | h | h) <;> simp [h]⟩

/-- Defining names saves no entries. -/
theorem entries_foldl_define (names : List Text) (k : Known) :
    (names.foldl define k).entries = k.entries := by
  induction names generalizing k with
  | nil => rfl
  | cons name rest ih => exact ih _

end Known

/-- A command makes known what it introduces, and nothing else. -/
theorem Command.mem_extend (c : Command) (k : Known) (x : Text) :
    (x ∈ (c.extend k).definitions ↔ x ∈ k.definitions ∨ x ∈ c.introduced.definitions) ∧
      (x ∈ (c.extend k).entries ↔ x ∈ k.entries ∨ x ∈ c.introduced.entries) := by
  have hd := Known.mem_definitions_foldl_define c.definitions k x
  have he := Known.entries_foldl_define c.definitions k
  generalize hk : c.definitions.foldl Known.define k = k' at hd he
  simp only [extend, hk, introduced]
  cases c.widens <;> cases c.saved? <;>
    simp [Known.widen, Known.save, hd, he, or_assoc, or_comm, or_left_comm]

/-- After a line those names are known that were known before or that it introduces. -/
theorem Command.mem_extendByLine (k : Known) (t x : Text) :
    (x ∈ (extendByLine k t).definitions ↔ x ∈ k.definitions ∨ x ∈ (introducedBy t).definitions) ∧
      (x ∈ (extendByLine k t).entries ↔ x ∈ k.entries ∨ x ∈ (introducedBy t).entries) := by
  unfold extendByLine introducedBy
  cases ofText? t with
  | none => simp
  | some c => exact c.mem_extend k x

/-- After commands, what was known before and what they introduce is known. -/
theorem Known.after_same (k : Known) (lines : List Tracked) :
    (k.after lines).Same (k.united lines) := by
  induction lines generalizing k with
  | nil => exact ⟨fun x => by simp [after, united], fun x => by simp [after, united]⟩
  | cons t rest ih =>
    have hrest := ih (Command.extendByLine k t.text)
    have hline := Command.mem_extendByLine k t.text
    refine ⟨fun x => ?_, fun x => ?_⟩
    · rw [after, List.foldl_cons, ← after, hrest.definitions]
      simp [united, (hline x).1, or_assoc]
    · rw [after, List.foldl_cons, ← after, hrest.entries]
      simp [united, (hline x).2, or_assoc]

/-! ## What commands refer to -/

/-- A reference by a name that is written out. -/
inductive Reference where
  | definition (name : Text)
  | entry (name : Text)
deriving DecidableEq, Repr

/-- What a tag refers to; nothing if its name is built by another tag. -/
def Tag.reference? (tag : Tag) : Option Reference :=
  match tag.definition? with
  | some t => (Command.referenceName? t).map .definition
  | none => (tag.entry?.bind Command.referenceName?).map .entry

/-- What the tags of the command on a line refer to. -/
def Command.referencesOf (t : Text) : List Reference :=
  ((ofText? t).map arguments).getD [] |>.flatMap fun argument =>
    (tagsOf argument).filterMap Tag.reference?

namespace Reference

/-- What is reported of a reference to a name that is not known. -/
def issue : Reference → Issue
  | .definition name => .undefinedName name
  | .entry name => .unsavedEntry name

/-- The name is known, or every name is. -/
def Within (k : Known) : Reference → Prop
  | .definition name => everyName ∈ k.definitions ∨ Text.lower name ∈ k.definitions
  | .entry name => everyName ∈ k.entries ∨ Text.lower name ∈ k.entries

instance (k : Known) : (r : Reference) → Decidable (r.Within k)
  | .definition _ => inferInstanceAs (Decidable (_ ∨ _))
  | .entry _ => inferInstanceAs (Decidable (_ ∨ _))

@[simp] theorem decide_within_definition (k : Known) (name : Text) :
    decide ((definition name).Within k) = k.hasDefinition name := by
  rw [Known.hasDefinition, List.contains_eq_mem, List.contains_eq_mem, ← Bool.decide_or]
  rfl

@[simp] theorem decide_within_entry (k : Known) (name : Text) :
    decide ((entry name).Within k) = k.hasEntry name := by
  rw [Known.hasEntry, List.contains_eq_mem, List.contains_eq_mem, ← Bool.decide_or]
  rfl

/-- Of names known alike, a reference is within the ones or the others. -/
theorem within_congr {k k' : Known} (h : k.Same k') (r : Reference) :
    r.Within k ↔ r.Within k' := by
  cases r with
  | definition name => simp only [Within, h.definitions]
  | entry name => simp only [Within, h.entries]

/-- The references whose names are not known. -/
def unknownTo (k : Known) (references : List Reference) : List Reference :=
  references.filter fun r => !decide (r.Within k)

end Reference

/-- What is reported of the references of a command. -/
def referenceLog (k : Known) (t : Tracked) : Log :=
  (Reference.unknownTo k (Command.referencesOf t.text)).map (·.issue.onLine t.line)

/-- What is reported of the references of commands that are passed one by one. -/
def referenceLogs (k : Known) : List Tracked → Log
  | [] => []
  | t :: rest => referenceLog k t ++ referenceLogs (Command.extendByLine k t.text) rest

/-- In the second of two scripts, references are looked up among what is known after the first. -/
theorem referenceLogs_append (k : Known) (first rest : List Tracked) :
    referenceLogs k (first ++ rest) = referenceLogs k first ++
      referenceLogs (k.after first) rest := by
  induction first generalizing k with
  | nil => rfl
  | cons t first ih =>
    rw [List.cons_append, referenceLogs, ih, referenceLogs, List.append_assoc]; rfl

/-- Every command is checked against what was known at the start and what the commands before it
introduce. -/
theorem referenceLogs_eq (k : Known) (lines : List Tracked) :
    referenceLogs k lines =
      lines.zipIdx.flatMap fun (t, j) => referenceLog (k.united (lines.take j)) t := by
  have hthreaded : referenceLogs k lines =
      lines.zipIdx.flatMap fun (t, j) => referenceLog (k.after (lines.take j)) t := by
    induction lines generalizing k with
    | nil => rfl
    | cons t rest ih =>
      rw [referenceLogs, ih, List.zipIdx_cons', List.flatMap_cons, List.flatMap_map]
      rfl
  rw [hthreaded]
  congr 1
  funext ⟨t, j⟩
  have hsame := k.after_same (lines.take j)
  simp only [referenceLog, Reference.unknownTo, Reference.within_congr hsame]

/-! ## Reports on references -/

/-- The issue is a reference to a name that is not known. -/
def Issue.isReference : Issue → Bool
  | undefinedName _ | unsavedEntry _ => true
  | _ => false

/-- The diagnostic is about a reference to a name that is not known. -/
def Diagnostic.isReference (d : Diagnostic) : Bool :=
  d.key = "def_of_nothing" || d.key = "entry_to_nowhere"

/-- The keys of references are the keys of no other issues. -/
theorem Issue.onLine_isReference (issue : Issue) (line : Int) :
    (issue.onLine line).isReference = issue.isReference := by
  cases issue with
  | missingKey | forbiddenKey | valueForCollection | listForSection | sectionForValue
  | sectionForList | unknownKey =>
    refine Bool.or_eq_false_iff.2 ⟨decide_eq_false ?_, decide_eq_false ?_⟩ <;>
      exact append_ne_of_not_isPrefixOf (by decide) _
  | _ => rfl

/-- None of the issues is about a reference. -/
def NoReference (issues : List Issue) : Prop := Every (·.isReference = false) issues

/-- What is found on tags is not on references. -/
theorem noReference_tagIssues (v : Vocabulary) (argument : Text) :
    NoReference (tagIssues v argument) := by
  intro issue h
  cases tagIssues_isOnTag v argument issue h <;> rfl

/-- Among issues that are not on references, there are none that are. -/
theorem NoReference.filter_eq_nil {issues : List Issue} (h : NoReference issues) :
    issues.filter Issue.isReference = [] :=
  List.filter_eq_nil_iff.2 fun issue hi => Bool.eq_false_iff.1 (h issue hi)

namespace Command

/-- A tag is reported if it refers to a name that is not known. -/
theorem referenceIssues_eq (k : Known) (tag : Tag) :
    referenceIssues k tag = (Reference.unknownTo k tag.reference?.toList).map Reference.issue := by
  unfold referenceIssues Tag.reference? Reference.unknownTo
  cases tag.definition? with
  | some t =>
    cases h : referenceName? t with
    | none => simp [h]
    | some name => cases hk : k.hasDefinition name <;> simp [h, hk, Reference.issue]
  | none =>
    cases tag.entry? with
    | none => rfl
    | some t =>
      cases h : referenceName? t with
      | none => simp [h]
      | some name => cases hk : k.hasEntry name <;> simp [h, hk, Reference.issue]

/-- What is found on the references of a tag is on references only. -/
theorem referenceIssues_isReference (k : Known) (tag : Tag) :
    (referenceIssues k tag).filter Issue.isReference = referenceIssues k tag := by
  rw [referenceIssues_eq, List.filter_map, List.filter_eq_self.2]
  rintro (name | name) - <;> rfl

/-- On references, what is found in an argument is on those of its tags that are not known. -/
theorem argumentIssues_filter (v : Vocabulary) (k : Known) (argument : Text) :
    (argumentIssues v k argument).filter Issue.isReference =
      (Reference.unknownTo k ((tagsOf argument).filterMap Tag.reference?)).map
        Reference.issue := by
  have hform :
      NoReference ((if isRawObject (Text.lower argument) then [.rawObject argument] else []) ++
      tagIssues v argument) :=
    .append (.ite (.single rfl) .nil) (noReference_tagIssues v argument)
  rw [argumentIssues, List.filter_append, hform.filter_eq_nil, List.nil_append,
    List.filter_flatMap, List.filterMap_eq_flatMap_toList, Reference.unknownTo,
    List.filter_flatMap, List.map_flatMap]
  congr 1
  funext tag
  rw [referenceIssues_isReference, referenceIssues_eq]
  rfl

/-- On references, what is found in a command is on those of its arguments that are not known. -/
theorem issues_filter (v : Vocabulary) (k : Known) (c : Command) :
    (c.issues v k).filter Issue.isReference =
      (Reference.unknownTo k (c.arguments.flatMap fun argument =>
        (tagsOf argument).filterMap Tag.reference?)).map Reference.issue := by
  have hname : NoReference (c.nameIssues v) :=
    nameIssues_every (fun _ => rfl) (fun _ _ _ => rfl) v c
  have hspecial : NoReference (c.specialIssues v) :=
    specialIssues_every (by rfl) (fun _ => rfl) (by rfl) v c
  rw [issues, List.filter_append, List.filter_append, hname.filter_eq_nil, hspecial.filter_eq_nil,
    List.nil_append, List.append_nil, List.filter_flatMap, Reference.unknownTo,
    List.filter_flatMap, List.map_flatMap]
  congr 1
  funext argument
  exact argumentIssues_filter v k argument

/-- Of all that is reported of a command line, what is about references is on names that are not
known. -/
theorem lineLog_filter (v : Vocabulary) (k : Known) (t : Tracked) :
    (lineLog v k t).filter Diagnostic.isReference = referenceLog k t := by
  have hissues : (lineIssues v k t.text).filter Issue.isReference =
      (Reference.unknownTo k (referencesOf t.text)).map Reference.issue := by
    have hsplit : NoReference (Argument.split t.text).2 :=
      Argument.splitFrom_every (by rfl) (by rfl) _ _ _ _
    rw [lineIssues, List.filter_append, hsplit.filter_eq_nil, List.nil_append,
      referencesOf, ofText?]
    cases ofArguments? (Argument.split t.text).1 with
    | none => rfl
    | some c => exact issues_filter v k c
  have hline : (Diagnostic.isReference ∘ fun issue : Issue => issue.onLine t.line) =
      Issue.isReference :=
    funext fun issue => issue.onLine_isReference t.line
  rw [lineLog, List.filter_map, hline, hissues, List.map_map]
  rfl

end Command

/-! ## Checks that follow commands -/

/-- The check reports the references of commands that are unknown where they stand, and it ends
with what is known after the commands. -/
structure Check.Follows (check : Check Known) (k : Known) (lines : List Tracked) : Prop where
  result : check.result = .ok (k.after lines)
  references : check.log.filter Diagnostic.isReference = referenceLogs k lines

namespace Check.Follows

/-- A check that does nothing follows no commands. -/
theorem pure (k : Known) : (Pure.pure k : Check Known).Follows k [] := ⟨rfl, rfl⟩

/-- One check after another follows the commands of both. -/
theorem bind {check : Check Known} {next : Known → Check Known} {k : Known}
    {first rest : List Tracked} (hc : check.Follows k first)
    (hn : (next (k.after first)).Follows (k.after first) rest) :
    (check >>= next).Follows k (first ++ rest) := by
  rw [Check.bind_of_ok hc.result]
  refine ⟨?_, ?_⟩
  · rw [Known.after_append]
    exact hn.result
  · rw [List.filter_append, hc.references, hn.references, referenceLogs_append]

end Check.Follows

/-- The command that is checked at a step. -/
def Step.command? : Step → Option Tracked
  | command t => some t
  | keys _ | search _ | refused _ _ => none

/-- The commands that are checked at steps. -/
def commandsOf (steps : List Step) : List Tracked := steps.filterMap Step.command?

/-- A step that refuses no node follows its command, if it has one. -/
theorem Step.check_follows (v : Vocabulary) {step : Step} (h : step.isRefused = false)
    (k : Known) :
    (step.check v k).Follows k step.command?.toList := by
  have htag : ∀ t : Tracked, (tagLog v t).filter Diagnostic.isReference = [] := by
    intro t
    refine List.filter_eq_nil_iff.2 fun d hd => Bool.eq_false_iff.1 ?_
    obtain ⟨issue, hissue, rfl⟩ := List.mem_map.1 hd
    exact (issue.onLine_isReference t.line).trans (noReference_tagIssues v t.text issue hissue)
  cases step with
  | command t =>
    refine ⟨rfl, (Command.lineLog_filter v k t).trans ?_⟩
    exact (List.append_nil (referenceLog k t)).symm
  | keys key => exact ⟨rfl, rfl⟩
  | search t => exact ⟨rfl, htag t⟩
  | refused kind place => cases h

/-- Steps that refuse no node follow their commands. -/
theorem checkSteps_follows (v : Vocabulary) {steps : List Step} (h : Unrefused steps) (k : Known) :
    (checkSteps v steps k).Follows k (commandsOf steps) := by
  induction steps generalizing k with
  | nil => exact .pure k
  | cons step rest ih =>
    obtain ⟨hstep, hrest⟩ := List.forall_mem_cons.1 h
    have hcommands : commandsOf (step :: rest) = step.command?.toList ++ commandsOf rest := by
      cases step <;> rfl
    rw [hcommands]
    exact (step.check_follows v hstep k).bind (ih hrest _)

/-! ## Lists that are no scripts -/

/-- The check stops. -/
def Check.Stops {α : Type} (check : Check α) : Prop := ∃ fault, check.result = .error fault

namespace Check.Stops

variable {α β : Type} {check : Check α} {next : α → Check β}

/-- If the first of two checks stops, both together do. -/
theorem bind_left (h : check.Stops) : (check >>= next).Stops := by
  obtain ⟨fault, hf⟩ := h
  exact ⟨fault, by rw [Check.bind_of_error hf]⟩

/-- If the second of two checks stops, both together do. -/
theorem bind_right {a : α} (hc : check.result = .ok a) (h : (next a).Stops) :
    (check >>= next).Stops := by
  obtain ⟨fault, hf⟩ := h
  exact ⟨fault, by rw [Check.bind_of_ok hc, hf]⟩

end Check.Stops

/-- Steps stop if one of them refuses a node. -/
theorem checkSteps_stops (v : Vocabulary) {steps : List Step} (h : steps.any Step.isRefused = true)
    (k : Known) : (checkSteps v steps k).Stops := by
  induction steps generalizing k with
  | nil => cases h
  | cons step rest ih =>
    cases hs : step.isRefused with
    | true =>
      cases step with
      | refused kind place => exact .bind_left ⟨_, rfl⟩
      | _ => cases hs
    | false =>
      rw [List.any_cons, hs, Bool.false_or] at h
      exact .bind_right (step.check_follows v hs k).result (ih h _)

/-! ## Scripts and their steps -/

mutual

/-- The commands of a list are those that are checked on the walk over it. -/
theorem commandsOf_itemSteps : ∀ items : List Node,
    commandsOf (itemSteps .commands items) = commandLines items
  | [] => by rw [itemSteps, commandLines]; rfl
  | node :: rest => by
    rw [itemSteps, commandLines, commandsOf, List.filterMap_append, ← commandsOf, ← commandsOf,
      commandsOf_entrySteps node, commandsOf_itemSteps rest]

/-- The commands at an entry are those that are checked at it. -/
theorem commandsOf_entrySteps : ∀ node : Node,
    commandsOf (node.entrySteps .commands) = node.entryLines
  | .scalar _ | .list _ _ | .foreign _ => rfl
  | .map entries _ => by
    rw [Node.entrySteps, Node.entryLines]
    exact commandsOf_keySteps entries

/-- The commands with blocks are those that are checked at their keys, and below. -/
theorem commandsOf_keySteps : ∀ entries : Entries,
    commandsOf (keySteps .commands entries) = blockLines entries
  | [] => by rw [keySteps, blockLines]; rfl
  | (key, block) :: rest => by
    rw [keySteps, blockLines, ← commandsOf_stepsBelow key block,
      ← commandsOf_keySteps rest, commandsOf, commandsOf, commandsOf, ← List.filterMap_append]
    rfl

/-- The commands in a block are those that are checked below its key. -/
theorem commandsOf_stepsBelow (key : Tracked) : ∀ node : Node,
    commandsOf (node.stepsBelow .commands key) = node.linesBelow
  | .list items _ => by
    rw [Node.stepsBelow, Node.linesBelow]
    exact commandsOf_itemSteps items
  | .map entries _ => by cases entries <;> rfl
  | .scalar _ | .foreign _ => rfl

end

mutual

/-- A list is a script if no node is refused on the walk over it. -/
theorem any_itemSteps : ∀ items : List Node,
    (itemSteps .commands items).any Step.isRefused = !isScript items
  | [] => rfl
  | node :: rest => by
    rw [itemSteps, isScript, List.any_append, any_entrySteps node, any_itemSteps rest,
      Bool.not_and]

/-- A node may stand in a script if none is refused at it. -/
theorem any_entrySteps : ∀ node : Node,
    (node.entrySteps .commands).any Step.isRefused = !node.isScriptEntry
  | .scalar _ | .list _ _ | .foreign _ => rfl
  | .map entries _ => by
    rw [Node.entrySteps, Node.isScriptEntry]
    exact any_keySteps entries

/-- The nodes of keys are blocks if none is refused at the keys and below. -/
theorem any_keySteps : ∀ entries : Entries,
    (keySteps .commands entries).any Step.isRefused = !areBlocks entries
  | [] => rfl
  | (key, block) :: rest => by
    rw [keySteps, areBlocks, List.any_cons, List.any_append, any_stepsBelow key block,
      any_keySteps rest, Bool.not_and]
    rfl

/-- A node may be a block if none is refused below its key. -/
theorem any_stepsBelow (key : Tracked) : ∀ node : Node,
    (node.stepsBelow .commands key).any Step.isRefused = !node.isBlock
  | .list items _ => by
    rw [Node.stepsBelow, Node.isBlock]
    exact any_itemSteps items
  | .map entries _ => by cases entries <;> rfl
  | .scalar _ | .foreign _ => rfl

end

/-- Checking a script follows its commands. -/
theorem checkCommands_follows (v : Vocabulary) {items : List Node} (h : isScript items = true)
    (k : Known) : (checkCommands v items k).Follows k (commandLines items) := by
  have hsteps : Unrefused (itemSteps .commands items) := by
    have hany := any_itemSteps items
    rw [h, Bool.not_true, List.any_eq_false] at hany
    exact fun step hs => Bool.eq_false_iff.2 (hany step hs)
  rw [checkCommands_eq_steps, ← commandsOf_itemSteps]
  exact checkSteps_follows v hsteps k

/-- Checking a list that is no script stops. -/
theorem checkCommands_stops (v : Vocabulary) {items : List Node} (h : isScript items = false)
    (k : Known) : (checkCommands v items k).Stops := by
  rw [checkCommands_eq_steps]
  exact checkSteps_stops v ((any_itemSteps items).trans (by rw [h, Bool.not_false])) k

/-! ## The flow of names -/

/-- Names flow through a script along its commands in the order they are written, whatever their
blocks are. The check ends if the list is a script; then exactly what was known at the start and
what the commands introduce is known. A reference of command number `j` is reported if and only if
its name, and the name that makes every name known, are neither known at the start nor introduced
by a command before number `j`: these are the reports on references, in order. -/
theorem checkCommands_flow (v : Vocabulary) (items : List Node) (k : Known) :
    ((∃ k', (checkCommands v items k).result = .ok k') ↔ isScript items = true) ∧
    (isScript items = true →
      (∃ k', (checkCommands v items k).result = .ok k' ∧ k'.Same (k.united (commandLines items))) ∧
      (checkCommands v items k).log.filter Diagnostic.isReference =
        (commandLines items).zipIdx.flatMap fun (t, j) =>
          ((Command.referencesOf t.text).filter fun r =>
            !decide (r.Within (k.united ((commandLines items).take j)))).map
              (·.issue.onLine t.line)) := by
  refine ⟨⟨fun ⟨k', hk⟩ => ?_, fun h => ⟨_, (checkCommands_follows v h k).result⟩⟩, fun h => ?_⟩
  · by_contra hs
    obtain ⟨fault, hf⟩ := checkCommands_stops v (Bool.eq_false_iff.2 hs) k
    rw [hk] at hf
    cases hf
  · have hfollows := checkCommands_follows v h k
    refine ⟨⟨_, hfollows.result, k.after_same _⟩, ?_⟩
    rw [hfollows.references, referenceLogs_eq]
    rfl

/-- A script with two levels of blocks. Its first command uses the name it defines, a command in a
block saves an entry, and the last one refers to what came before it and to two names that nothing
introduces. -/
def nestedScript : List Node :=
  [.scalar ⟨"define a <[a]>".toList, 0⟩,
    .map [(⟨"foreach <[A]> as:b".toList, 1⟩,
      .list [.map [(⟨"if <[b]>".toList, 2⟩,
        .list [.scalar ⟨"run x save:q".toList, 3⟩] 3)] 2] 2)] 1,
    .map [(⟨"while <entry[p]>".toList, 4⟩,
      .map [(⟨"k".toList, 5⟩, .scalar ⟨"define p".toList, 5⟩)] 5)] 4,
    .scalar ⟨"narrate <entry[q]><[value]><[loop_index.1]>".toList, 6⟩]

/-- A loop with a block in a block, and references to what is known, too early or not at all. -/
theorem checkCommands_flow_nested :
    isScript nestedScript = true ∧
    (∃ k', (checkCommands {} nestedScript {}).result = .ok k' ∧
      k'.Same (Known.united {} (commandLines nestedScript))) ∧
    (checkCommands {} nestedScript {}).log.filter Diagnostic.isReference =
      [(Issue.undefinedName ['a']).onLine 0, (Issue.unsavedEntry ['p']).onLine 4,
        (Issue.undefinedName "value".toList).onLine 6] := by
  have hscript : isScript nestedScript = true := by decide
  obtain ⟨hresult, hlog⟩ := (checkCommands_flow {} nestedScript {}).2 hscript
  refine ⟨hscript, hresult, hlog.trans ?_⟩
  decide +kernel

end ScriptLint
