import ScriptLint.Proofs.Container.Steps
import ScriptLint.Proofs.Tag.Recase

/-!
# Commands in another case

No check of a script depends on the case of its ASCII letters. Two scripts that differ in nothing
else have the same uncased form (`uncasedItems`), so it is enough to compare a script with that
form.

A line is split at spaces and quotes, and its tags are found by marks. Its names are looked up in
lower case, and names are stored in lower case. So a command in another case introduces the same
names (`Command.extend_uncased`) and has issues of the same sorts (`Command.lineIssues_uncased`).
Two checks are alike (`Check.Alike`) if they have the same result and their logs differ in messages
only. The steps over a script without case are those over the script without case
(`itemSteps_uncased`), and from one step this is followed through all of them
(`checkCommands_uncased`).
-/

namespace ScriptLint

open Text (uncased)

/-! ## Arguments -/

namespace Argument

/-- The argument in another case. -/
def uncased (a : Argument) : Argument := ⟨Text.uncased a.text, a.quoted⟩

/-- Quotes are not letters. -/
theorem isMark_of_isQuote {c : Char} (h : isQuote c = true) : Text.IsMark c := by
  rw [isQuote, Bool.or_eq_true, decide_eq_true_eq, decide_eq_true_eq] at h
  rcases h with rfl | rfl <;> decide

/-- A character is a quote in either case. -/
theorem isQuote_toLower (c : Char) : isQuote c.toLower = isQuote c :=
  Text.apply_toLower (by decide) c

/-- Whether quotes are needed does not depend on case. -/
theorem quoteIssues_uncased (t : Text) : quoteIssues (Text.uncased t) = quoteIssues t := by
  rw [quoteIssues, quoteIssues, Text.contains_uncased (by decide)]

/-- A line is split at the same places in either case. -/
theorem splitFrom_uncased (t : Text) : ∀ quote : Option Char, (∀ q ∈ quote, Text.IsMark q) →
    ∀ (fresh : Bool) (current : Text),
      splitFrom quote fresh (Text.uncased current) (Text.uncased t) =
      ((splitFrom quote fresh current t).1.map uncased, (splitFrom quote fresh current t).2) := by
  have hspace : Text.IsMark ' ' := by decide
  induction t with
  | nil =>
    rintro (_ | q) _ fresh current
    · simp only [Text.uncased_nil, splitFrom, Text.isEmpty_uncased, ← Text.uncased_reverse]
      split <;> rfl
    · simp only [Text.uncased_nil, splitFrom, ← Text.uncased_reverse]
      rfl
  | cons c r ih =>
    -- Outside of quotes, then inside of them, where the next character decides as well.
    rintro (_ | q) hq fresh current
    · simp only [Text.uncased_cons, splitFrom, hspace.toLower_eq_iff, isQuote_toLower,
        Text.isEmpty_uncased, ← Text.uncased_reverse]
      split
      · have hrest := ih none nofun true []
        rw [Text.uncased_nil] at hrest
        rw [hrest]
        split <;> rfl
      split
      · next hopens =>
        have hmark : Text.IsMark c := isMark_of_isQuote (by simp_all)
        rw [(hmark.toLower_eq_iff c).2 rfl]
        exact ih (some c) (fun q hq => Option.some.inj hq ▸ hmark) false []
      · exact ih none hq false (c :: current)
    · simp only [Text.uncased_cons, splitFrom, (hq q rfl).toLower_eq_iff, Text.isEmpty_uncased,
        Text.head?_uncased_eq hspace, ← Text.uncased_reverse, quoteIssues_uncased]
      split
      · have hrest := ih none nofun false []
        rw [Text.uncased_nil] at hrest
        rw [hrest]
        rfl
      · exact ih (some q) hq false (c :: current)

/-- A line in another case is split at the same places. -/
theorem split_uncased (t : Text) :
    split (Text.uncased t) = ((split t).1.map uncased, (split t).2) :=
  splitFrom_uncased t none nofun true []

end Argument

/-! ## Known names -/

namespace Known

/-- A definition is known in either case. -/
theorem hasDefinition_uncased (k : Known) (name : Text) :
    k.hasDefinition (uncased name) = k.hasDefinition name := by
  rw [hasDefinition, Text.lower_uncased, hasDefinition]

/-- An entry is known in either case. -/
theorem hasEntry_uncased (k : Known) (name : Text) :
    k.hasEntry (uncased name) = k.hasEntry name := by
  rw [hasEntry, Text.lower_uncased, hasEntry]

/-- Names that are alike in lower case define the same. -/
theorem foldl_define_congr {names names' : List Text}
    (h : names'.map Text.lower = names.map Text.lower) (k : Known) :
    names'.foldl define k = names.foldl define k := by
  have hlower : ∀ names : List Text, names.foldl define k =
      (names.map Text.lower).foldl (fun k name =>
        { k with definitions := k.definitions.insert name }) k := by
    intro names
    rw [List.foldl_map]
    rfl
  rw [hlower, hlower, h]

end Known

/-! ## What a command introduces -/

namespace Command

/-- The command in another case; its name is in lower case already. -/
def uncased (c : Command) : Command := ⟨c.name, c.arguments.map Text.uncased⟩

/-- A command is read alike in either case. -/
theorem ofArguments?_uncased (arguments : List Argument) :
    ofArguments? (arguments.map Argument.uncased) = (ofArguments? arguments).map uncased := by
  cases arguments with
  | nil => rfl
  | cons first rest =>
    simp only [List.map_cons, ofArguments?, Argument.uncased, Text.lower_uncased, List.map_map,
      Option.map_some, uncased]
    rfl

/-- A line is read as the command in its case. -/
theorem ofText?_uncased (t : Text) : ofText? (Text.uncased t) = (ofText? t).map uncased := by
  rw [ofText?, Argument.split_uncased, ofArguments?_uncased, ofText?]

/-- The value after a mark is the one in its case. -/
theorem valueOf?_uncased (mark : String) (arguments : List Text) :
    valueOf? mark (arguments.map Text.uncased) = (valueOf? mark arguments).map Text.uncased := by
  have hbegins : (fun a => Text.beginsWith mark.toList (Text.lower a)) ∘ Text.uncased =
      fun a => Text.beginsWith mark.toList (Text.lower a) := by
    funext a
    simp
  rw [valueOf?, List.find?_map, hbegins, valueOf?, Option.map_map, Option.map_map]
  congr 1
  funext a
  exact (Text.uncased_drop mark.length a).symm

/-- The name after a mark is the same in lower case. -/
theorem lower_nameOf_uncased (mark usual : String) (arguments : List Text) :
    Text.lower (nameOf mark usual (arguments.map Text.uncased)) =
      Text.lower (nameOf mark usual arguments) := by
  rw [nameOf, valueOf?_uncased, nameOf]
  cases valueOf? mark arguments with
  | none => rfl
  | some name =>
    rw [Option.map_some, Option.bind_some, Option.bind_some, Text.nonempty?_uncased]
    cases Text.nonempty? name with
    | none => rfl
    | some name => exact Text.lower_uncased name

/-- The name of a reference is the one in its case. -/
theorem referenceName?_uncased (t : Text) :
    referenceName? (Text.uncased t) = (referenceName? t).map Text.uncased := by
  simp (disch := decide) only [referenceName?, Text.contains_uncased, Text.before_uncased,
    Text.trim_uncased, Text.nonempty?_uncased]
  split <;> rfl

/-- A command defines the same names in lower case. -/
theorem definitions_uncased (c : Command) :
    c.uncased.definitions.map Text.lower = c.definitions.map Text.lower := by
  have hname : c.uncased.name = c.name := rfl
  have harguments : c.uncased.arguments = c.arguments.map Text.uncased := rfl
  rw [definitions, definitions, hname, harguments]
  split
  · cases c.arguments with
    | nil => rfl
    | cons a rest =>
      rw [List.map_cons, List.head?_cons, List.head?_cons, Option.bind_some, Option.bind_some,
        Text.before_uncased (by decide), referenceName?_uncased]
      cases referenceName? (Text.before ':' a) with
      | none => rfl
      | some name => exact congrArg (fun n => [n]) (Text.lower_uncased name)
  split
  · simp only [List.map_cons, lower_nameOf_uncased]
  split
  · simp only [List.map_cons, lower_nameOf_uncased]
  · rfl

/-- A command in another case makes the same names known. -/
theorem extend_uncased (c : Command) (k : Known) : c.uncased.extend k = c.extend k := by
  have hsaved : c.uncased.saved? = c.saved?.map Text.uncased := by
    rw [saved?, uncased, valueOf?_uncased, saved?]
    cases valueOf? "save:" c.arguments with
    | none => rfl
    | some name => exact Text.nonempty?_uncased name
  have hwidens : c.uncased.widens = c.widens := rfl
  rw [extend, extend, hsaved, hwidens, Known.foldl_define_congr c.definitions_uncased]
  cases c.saved? with
  | none => rfl
  | some name => simp only [Option.map_some, Known.save, Text.lower_uncased]

/-- A line makes the same names known in either case. -/
theorem extendByLine_uncased (k : Known) (t : Text) :
    extendByLine k (Text.uncased t) = extendByLine k t := by
  rw [extendByLine, ofText?_uncased, extendByLine]
  cases ofText? t with
  | none => rfl
  | some c => exact c.extend_uncased k

/-! ## Issues of a command -/

/-- The references of a tag have issues of the same sorts in either case. -/
theorem referenceIssues_uncased (k : Known) (tag : Tag) :
    (referenceIssues k tag.uncased).map Issue.sort = (referenceIssues k tag).map Issue.sort := by
  rw [referenceIssues, tag.definition?_uncased, tag.entry?_uncased, referenceIssues]
  cases tag.definition? with
  | some t =>
    simp only [Option.map_some, referenceName?_uncased]
    cases referenceName? t with
    | none => rfl
    | some name =>
      simp only [Option.map_some]
      rw [k.hasDefinition_uncased]
      split <;> rfl
  | none =>
    cases tag.entry? with
    | none => rfl
    | some t =>
      simp only [Option.map_none, Option.map_some, referenceName?_uncased]
      cases referenceName? t with
      | none => rfl
      | some name =>
        simp only [Option.map_some]
        rw [k.hasEntry_uncased]
        split <;> rfl

/-- An argument has issues of the same sorts in either case. -/
theorem argumentIssues_uncased (v : Vocabulary) (k : Known) (t : Text) :
    (argumentIssues v k (Text.uncased t)).map Issue.sort =
      (argumentIssues v k t).map Issue.sort := by
  simp only [argumentIssues, Text.lower_uncased, List.map_append, tagIssues_uncased,
    tagsOf_uncased, List.flatMap_map, List.map_flatMap, referenceIssues_uncased]
  congr 2
  split <;> rfl

/-- A mechanism has issues of the same sorts in either case. -/
theorem mechanismIssues_uncased (v : Vocabulary) (arguments : List Text) :
    (mechanismIssues v (arguments.map Text.uncased)).map Issue.sort =
      (mechanismIssues v arguments).map Issue.sort := by
  induction arguments with
  | nil => rfl
  | cons argument rest ih =>
    have hangle : Text.IsMark '<' := by decide
    have hcolon : Text.IsMark ':' := by decide
    simp only [List.map_cons, mechanismIssues]
    rw [Text.before_uncased hcolon, Text.contains_uncased hangle, Text.contains_uncased hcolon,
      Text.isEmpty_uncased, Vocabulary.hasMechanism, Text.lower_uncased, ← Vocabulary.hasMechanism]
    split
    · rfl
    split
    · exact ih
    split <;> rfl

/-- The rules of single commands find issues of the same sorts in either case. -/
theorem specialIssues_uncased (v : Vocabulary) (c : Command) :
    (c.uncased.specialIssues v).map Issue.sort = (c.specialIssues v).map Issue.sort := by
  have hlower : (c.arguments.map Text.uncased).map Text.lower = c.arguments.map Text.lower := by
    rw [List.map_map]
    congr 1
    funext t
    exact Text.lower_uncased t
  simp only [specialIssues, uncased, List.length_map, hlower]
  split
  · split
    · rw [← List.map_tail, mechanismIssues_uncased]
    · rw [mechanismIssues_uncased]
  · rfl

/-- A command has issues of the same sorts in either case. -/
theorem issues_uncased (v : Vocabulary) (k : Known) (c : Command) :
    (c.uncased.issues v k).map Issue.sort = (c.issues v k).map Issue.sort := by
  have harguments : c.uncased.arguments = c.arguments.map Text.uncased := rfl
  have hname : c.uncased.nameIssues v = c.nameIssues v := by
    rw [nameIssues, harguments, List.length_map]
    rfl
  simp only [issues, List.map_append, hname, harguments, List.flatMap_map, List.map_flatMap,
    argumentIssues_uncased, specialIssues_uncased]

/-- The issues of a line in another case are of the same sorts. -/
theorem lineIssues_uncased (v : Vocabulary) (k : Known) (t : Text) :
    (lineIssues v k (Text.uncased t)).map Issue.sort = (lineIssues v k t).map Issue.sort := by
  simp only [lineIssues, Argument.split_uncased, ofArguments?_uncased, List.map_append]
  congr 1
  cases ofArguments? (Argument.split t).1 with
  | none => rfl
  | some c => exact c.issues_uncased v k

end Command

/-! ## Checks that are alike -/

/-- What a diagnostic says without its message. -/
def Diagnostic.outline (d : Diagnostic) : Category × String × Int := (d.category, d.key, d.line)

/-- The checks have the same result and find the same on the same lines; their messages may
differ. -/
structure Check.Alike {α : Type} (x y : Check α) : Prop where
  result : x.result = y.result
  log : x.log.map Diagnostic.outline = y.log.map Diagnostic.outline

namespace Check.Alike

variable {α β : Type}

/-- A check is like itself. -/
theorem refl (x : Check α) : x.Alike x := ⟨rfl, rfl⟩

/-- If a check is like another, that one is like it. -/
theorem symm {x y : Check α} (h : x.Alike y) : y.Alike x := ⟨h.result.symm, h.log.symm⟩

/-- Checks that are like the same check are alike. -/
theorem trans {x y z : Check α} (h : x.Alike y) (h' : y.Alike z) : x.Alike z :=
  ⟨h.result.trans h'.result, h.log.trans h'.log⟩

/-- Two checks in a row are like two others one by one. -/
theorem bind {x y : Check α} {next next' : α → Check β} (h : x.Alike y)
    (hn : ∀ a, (next a).Alike (next' a)) :
    (x >>= next).Alike (y >>= next') := by
  cases hx : x.result with
  | ok a =>
    rw [Check.bind_of_ok hx, Check.bind_of_ok (h.result ▸ hx)]
    refine ⟨(hn a).result, ?_⟩
    rw [List.map_append, List.map_append, h.log, (hn a).log]
  | error fault =>
    rw [Check.bind_of_error hx, Check.bind_of_error (h.result ▸ hx)]
    exact ⟨rfl, h.log⟩

/-- In every category, checks that are alike find the same on the same lines, in the same order. -/
theorem ofCategory {x y : Check α} (h : x.Alike y) (category : Category) :
    (x.log.ofCategory category).map (fun d => (d.key, d.line)) =
      (y.log.ofCategory category).map fun d => (d.key, d.line) := by
  have houtline : ∀ log : Log, (log.ofCategory category).map (fun d => (d.key, d.line)) =
      ((log.map Diagnostic.outline).filter (·.1 = category)).map (·.2) := by
    intro log
    rw [List.filter_map, List.map_map]
    rfl
  rw [houtline, houtline, h.log]

end Check.Alike

/-! ## Scripts -/

mutual

/-- The node with the ASCII capitals of all its texts made small. -/
def Node.uncased : Node → Node
  | .scalar t => .scalar ⟨Text.uncased t.text, t.line⟩
  | .list items line => .list (uncasedItems items) line
  | .map entries line => .map (uncasedEntries entries) line
  | .foreign kind => .foreign kind

/-- `Node.uncased` over the entries of a list. -/
def uncasedItems : List Node → List Node
  | [] => []
  | item :: rest => item.uncased :: uncasedItems rest

/-- `Node.uncased` over the entries of a map, with their keys. -/
def uncasedEntries : List (Tracked × Node) → List (Tracked × Node)
  | [] => []
  | (key, node) :: rest => (⟨Text.uncased key.text, key.line⟩, node.uncased) :: uncasedEntries rest

end

/-- The step with the ASCII capitals of its text made small. -/
def Step.uncased : Step → Step
  | command t => .command ⟨Text.uncased t.text, t.line⟩
  | keys key => .keys ⟨Text.uncased key.text, key.line⟩
  | search t => .search ⟨Text.uncased t.text, t.line⟩
  | refused kind place => .refused kind place

/-- The step of a text is that of the text in its case. -/
theorem Walk.step_uncased (w : Walk) (t : Tracked) :
    w.step ⟨uncased t.text, t.line⟩ = (w.step t).uncased := by
  cases w <;> rfl

mutual

/-- The steps over a list without case are the steps over the list without case. -/
theorem itemSteps_uncased (w : Walk) : ∀ items : List Node,
    itemSteps w (uncasedItems items) = (itemSteps w items).map Step.uncased
  | [] => by rw [uncasedItems, itemSteps]; rfl
  | node :: rest => by
    rw [uncasedItems, itemSteps, itemSteps, List.map_append, entrySteps_uncased w node,
      itemSteps_uncased w rest]

/-- The steps at an entry without case. -/
theorem entrySteps_uncased (w : Walk) : ∀ node : Node,
    node.uncased.entrySteps w = (node.entrySteps w).map Step.uncased
  | .scalar t => by
    rw [Node.uncased, Node.entrySteps, Node.entrySteps, w.step_uncased]
    rfl
  | .map entries _ => by
    rw [Node.uncased, Node.entrySteps, Node.entrySteps]
    exact keySteps_uncased w entries
  | .list _ _ | .foreign _ => rfl

/-- The steps at keys without case. -/
theorem keySteps_uncased (w : Walk) : ∀ entries : Entries,
    keySteps w (uncasedEntries entries) = (keySteps w entries).map Step.uncased
  | [] => by rw [uncasedEntries, keySteps]; rfl
  | (key, node) :: rest => by
    rw [uncasedEntries, keySteps, keySteps, List.map_cons, List.map_append, w.step_uncased,
      stepsBelow_uncased w key node, keySteps_uncased w rest]

/-- The steps below a key without case. -/
theorem stepsBelow_uncased (w : Walk) (key : Tracked) : ∀ node : Node,
    node.uncased.stepsBelow w ⟨uncased key.text, key.line⟩ =
      (node.stepsBelow w key).map Step.uncased
  | .list items _ => by
    rw [Node.uncased, Node.stepsBelow, Node.stepsBelow]
    exact itemSteps_uncased w items
  | .map entries _ => by
    have hempty : (uncasedEntries entries).isEmpty = entries.isEmpty := by cases entries <;> rfl
    rw [Node.uncased, Node.stepsBelow, Node.stepsBelow, hempty]
    split <;> rfl
  | .scalar _ => rfl
  | .foreign _ => by cases w <;> rfl

end

/-- A step without case is like the step. -/
theorem Step.check_uncased (v : Vocabulary) (step : Step) (k : Known) :
    (step.uncased.check v k).Alike (step.check v k) := by
  have hlog : ∀ {issues issues' : List Issue} (line : Int),
      issues.map Issue.sort = issues'.map Issue.sort →
      (issues.map (·.onLine line)).map Diagnostic.outline =
        (issues'.map (·.onLine line)).map Diagnostic.outline := by
    intro issues issues' line h
    have houtline : Diagnostic.outline ∘ (fun issue : Issue => issue.onLine line) =
        (fun s : Category × String => (s.1, s.2, line)) ∘ Issue.sort := rfl
    rw [List.map_map, List.map_map, houtline, ← List.map_map, h, List.map_map]
  cases step with
  | command t =>
    refine ⟨?_, hlog t.line (Command.lineIssues_uncased v k t.text)⟩
    exact congrArg Except.ok (Command.extendByLine_uncased k t.text)
  | keys key => exact ⟨rfl, rfl⟩
  | search t => exact ⟨rfl, hlog t.line (tagIssues_uncased v t.text)⟩
  | refused kind place => exact .refl _

/-- Steps without case are like the steps. -/
theorem checkSteps_uncased (v : Vocabulary) (steps : List Step) (k : Known) :
    (checkSteps v (steps.map Step.uncased) k).Alike (checkSteps v steps k) := by
  induction steps generalizing k with
  | nil => exact .refl _
  | cons step rest ih => exact (step.check_uncased v k).bind ih

/-- Checking a script without case is like checking the script. -/
theorem checkCommands_uncased (v : Vocabulary) (items : List Node) (k : Known) :
    (checkCommands v (uncasedItems items) k).Alike (checkCommands v items k) := by
  rw [checkCommands_eq_steps, checkCommands_eq_steps, itemSteps_uncased]
  exact checkSteps_uncased v _ k

/-- The case of the ASCII letters in a script does not matter. If two scripts differ in it only, be
it in the commands or in the keys of blocks, then the same is known after them, and in every
category the same is found on the same lines in the same order. -/
theorem checkCommands_recased (v : Vocabulary) (k : Known) {items items' : List Node}
    (h : uncasedItems items' = uncasedItems items) :
    (checkCommands v items' k).result = (checkCommands v items k).result ∧
    ∀ category : Category,
      ((checkCommands v items' k).log.ofCategory category).map (fun d => (d.key, d.line)) =
        ((checkCommands v items k).log.ofCategory category).map fun d => (d.key, d.line) := by
  have halike : (checkCommands v items' k).Alike (checkCommands v items k) :=
    (checkCommands_uncased v items' k).symm.trans (h ▸ checkCommands_uncased v items k)
  exact ⟨halike.result, halike.ofCategory⟩

/-- A loop over two commands, and a command after it. -/
def loopScript (loop first second last : Text) : List Node :=
  [.map [(⟨loop, 0⟩, .list [.scalar ⟨first, 1⟩, .scalar ⟨second, 2⟩] 1)] 0, .scalar ⟨last, 3⟩]

/-- A loop in lower case. -/
def quietScript : List Node :=
  loopScript "foreach <[all]> as:one".toList "define found <[one].name>".toList
    "run x save:Σ".toList
    "narrate <entry[σ]> <[found]> p@someone".toList

/-- The loop in other cases. -/
def loudScript : List Node :=
  loopScript "FOREACH <[All]> AS:One".toList "Define FOUND <[oNE].Name>".toList
    "Run X Save:Σ".toList
    "NARRATE <ENTRY[σ]> <[Found]> P@someone".toList

/-- A script in capitals, with references, tags and an object, is checked like the one in small
letters. -/
theorem checkCommands_recased_loud :
    uncasedItems loudScript = uncasedItems quietScript ∧
    (checkCommands {} loudScript {}).result = (checkCommands {} quietScript {}).result ∧
    ((checkCommands {} loudScript {}).log.ofCategory .warning).map (fun d => (d.key, d.line)) =
      [("def_of_nothing", 0), ("bad_tag_part", 1), ("raw_object_notation", 3)] := by
  have huncased : ∀ loop first second last, uncasedItems (loopScript loop first second last) =
      loopScript (uncased loop) (uncased first) (uncased second) (uncased last) :=
      fun _ _ _ _ => rfl
  have hloop : uncased "FOREACH <[All]> AS:One".toList =
      uncased "foreach <[all]> as:one".toList := by decide +kernel
  have hfirst : uncased "Define FOUND <[oNE].Name>".toList =
      uncased "define found <[one].name>".toList := by
    decide +kernel
  have hsecond : uncased "Run X Save:Σ".toList = uncased "run x save:Σ".toList := by decide +kernel
  have hlast : uncased "NARRATE <ENTRY[σ]> <[Found]> P@someone".toList =
      uncased "narrate <entry[σ]> <[found]> p@someone".toList := by decide +kernel
  have hcase : uncasedItems loudScript = uncasedItems quietScript := by
    rw [loudScript, quietScript, huncased, huncased, hloop, hfirst, hsecond, hlast]
  obtain ⟨hresult, hlog⟩ := checkCommands_recased {} {} hcase
  refine ⟨hcase, hresult, (hlog .warning).trans ?_⟩
  decide +kernel

end ScriptLint
