import ScriptLint.Proofs.Container.Placed
import ScriptLint.Proofs.Faultless

/-!
# Where a container violates its schema

The keys of a container, at any depth of sections, are its places (`places`). A place violates the
schema if a strict schema does not know its path, or if what it holds is of another sort than its
path asks for (`Schema.violatedBy`). The check of the keys goes over the places in order, and all
that it does at a place depends on that place alone: at a violation it reports the key, and it goes
on below a place only if the place is no violation (`checkKeys_eq_forM`). So it comes to the places
without a violation above them, and to each of them once.

What is reported of schemas are the outermost violations, then, and nothing in a violation is
looked at. A check that stops at a fault has reported those before it (`checkKeys_outermost`).
-/

namespace ScriptLint

open Course

/-! ## Violations -/

namespace Schema

/-- What a path that is known should not hold. -/
def refuses (s : Schema) (path : Text) : Node → Bool
  | .scalar _ => !s.isValue path
  | .list _ _ => !s.isScript path && !s.isList path
  | .map entries _ =>
    !entries.isEmpty && !s.isSection path && !s.values.contains .any && !s.lists.contains .any &&
      !s.scripts.contains .any
  | .foreign _ => false

/-- The path is not known to a strict schema, or it should not hold the node. -/
def violatedBy (s : Schema) (path : Text) (node : Node) : Bool :=
  !s.recognizes path && s.strict || s.recognizes path && s.refuses path node

/-- None of the keys, given by their paths and what they hold, violates the schema. -/
def holdsFor (s : Schema) (keys : List (Text × Node)) : Bool :=
  keys.all fun (path, node) => !s.violatedBy path node

end Schema

/-- A key of a container, with its path, what it holds, and the paths and the nodes of the keys
above it. -/
structure Place where
  path : Text
  key : Tracked
  node : Node
  above : List (Text × Node)

namespace Place

/-- What the key holds violates the schema. -/
def isViolation (s : Schema) (p : Place) : Bool := s.violatedBy p.path p.node

/-- No key above the place violates the schema. -/
def isReached (s : Schema) (p : Place) : Bool := s.holdsFor p.above

/-- What is reported of a violation. -/
def issue (type : ContainerType) (p : Place) : Issue :=
  let s := type.schema
  if !s.recognizes p.path then .unknownKey type.name p.key.text
  else
    match p.node with
    | .list _ _ =>
      if s.isValue p.path then .listForValue p.key.text else .listForSection type.name p.key.text
    | .map _ _ =>
      if s.isValue p.path then .sectionForValue type.name p.key.text
      else .sectionForList type.name p.key.text
    | _ => .valueForCollection type.name p.key.text

/-- The warning on a violation, on the line of the key. -/
def warning (type : ContainerType) (p : Place) : Diagnostic := (p.issue type).onLine p.key.line

/-- What is done at a place: a violation is reported; a value is searched for tags, unless it is
the usage; a list is checked as a script or searched as data. The keys of a section are places of
their own. -/
def check (v : Vocabulary) (type : ContainerType) (p : Place) : Check Unit :=
  let s := type.schema
  if p.isViolation s then Check.report [p.warning type]
  else
    match p.node with
    | .scalar value => if p.path = "usage".toList then pure () else Check.report (tagLog v value)
    | .list items _ =>
      if s.isScript p.path || !s.isList p.path && s.embedsScripts then checkScript v type items
      else checkData v items
    | .map _ _ => pure ()
    | node => Check.refuse node (.key p.key.text)

end Place

mutual

/-- The place of a key, and the places below it. -/
def Node.places (above : List (Text × Node)) (path : Text) (key : Tracked) : Node → List Place
  | .map entries line =>
    ⟨path, key, .map entries line, above⟩ ::
    placesBelow ((path, .map entries line) :: above) path entries
  | node => [⟨path, key, node, above⟩]

/-- The places of the keys of a section, with those below them. -/
def placesBelow (above : List (Text × Node)) (path : Text) : List (Tracked × Node) → List Place
  | [] => []
  | (key, node) :: rest =>
    node.places above (pathBelow path key.text) key ++ placesBelow above path rest

end

/-- The places of a container, but for those of keys that are reserved or forbidden. -/
def places (type : ContainerType) (entries : Entries) : List Place :=
  (entries.filter fun (key, _) =>
    !(isReserved (Text.lower key.text) || type.forbids (Text.lower key.text))).flatMap
    fun (key, node) => node.places [] (Text.lower key.text) key

/-! ## The way over the places -/

/-- A place without a violation above it is reached. -/
theorem filter_reached_cons {s : Schema} {p : Place} (h : s.holdsFor p.above = true)
    (rest : List Place) :
    (p :: rest).filter (Place.isReached s) = p :: rest.filter (Place.isReached s) :=
  List.filter_cons_of_pos h

/-- At a single place without a violation above it, what is done there is all that is done. -/
theorem flatMap_reached_singleton {s : Schema} {p : Place} (h : s.holdsFor p.above = true)
    (f : Place → Course) :
    ([p].filter (Place.isReached s)).flatMap f = f p := by
  rw [filter_reached_cons h, List.filter_nil, List.flatMap_singleton]

mutual

/-- Nothing below a violation is reached. -/
theorem filter_places_eq_nil {s : Schema} {above : List (Text × Node)}
    (h : s.holdsFor above = false) (path : Text) (key : Tracked) :
    ∀ node : Node, (node.places above path key).filter (Place.isReached s) = []
  | .map entries line => by
    rw [Node.places, List.filter_cons_of_neg (by rw [Place.isReached, h]; decide)]
    refine filter_placesBelow_eq_nil ?_ path entries
    rw [Schema.holdsFor, List.all_cons, ← Schema.holdsFor, h, Bool.and_false]
  | .scalar _ | .list _ _ | .foreign _ =>
    List.filter_cons_of_neg (by rw [Place.isReached, h]; decide)

/-- Below a violation no place is reached. -/
theorem filter_placesBelow_eq_nil {s : Schema} {above : List (Text × Node)}
    (h : s.holdsFor above = false) (path : Text) :
    ∀ entries : Entries, (placesBelow above path entries).filter (Place.isReached s) = []
  | [] => rfl
  | (key, node) :: rest => by
    rw [placesBelow, List.filter_append, filter_places_eq_nil h _ key node,
      filter_placesBelow_eq_nil h path rest, List.append_nil]

end

namespace Schema

/-- A schema recognizes the paths of its values. -/
theorem recognizes_of_isValue {s : Schema} {path : Text} (h : s.isValue path = true) :
    s.recognizes path = true := by
  simp [recognizes, h]

/-- A section is refused unless it is empty or may have keys in it. -/
theorem refuses_map (s : Schema) (path : Text) (entries : Entries) (line : Int) :
    s.refuses path (.map entries line) = (!entries.isEmpty && !s.allowsNesting path) := by
  simp [refuses, allowsNesting, Bool.not_or, Bool.and_assoc]

end Schema

section

variable (v : Vocabulary) (type : ContainerType)

/-- The course of what is done at a place. -/
def Place.course (p : Place) : Course :=
  let s := type.schema
  if p.isViolation s then said [p.warning type]
  else
    match p.node with
    | .scalar value => if p.path = "usage".toList then [] else said (tagLog v value)
    | .list items _ =>
      if s.isScript p.path || !s.isList p.path &&
        s.embedsScripts then commandsCourse v items type.known
      else dataCourse v items
    | .map _ _ => []
    | node => refused node (.key p.key.text)

/-- The check at a place follows its course. -/
theorem Place.check_eq (p : Place) : p.check v type = Course.check () (p.course v type) := by
  obtain ⟨path, key, node, above⟩ := p
  simp only [Place.check, Place.course, check_ite, report_eq]
  cases node with
  | scalar value => simp only [check_ite, check_nil]
  | list items line => simp only [check_ite, checkScript_eq, checkData_eq]
  | map entries line => rfl
  | foreign kind => rfl

section
variable (above : List (Text × Node)) (path : Text) (key : Tracked)

/-- Under a key with a value, what happens is what is done at its place. -/
theorem keyCourse_scalar (value : Tracked) :
    keyCourse v type path key (.scalar value) =
      Place.course v type ⟨path, key, .scalar value, above⟩ := by
  simp only [keyCourse, unlessUnknownCourse, valueCourse, Place.course, Place.isViolation,
    Schema.violatedBy, Schema.refuses, Place.warning, Place.issue]
  cases type.schema.recognizes path <;> cases type.schema.strict <;>
    cases type.schema.isValue path <;> rfl

/-- Under a key with a list, what happens is what is done at its place. -/
theorem keyCourse_list (items : List Node) (line : Int) :
    keyCourse v type path key (.list items line) =
      Place.course v type ⟨path, key, .list items line, above⟩ := by
  have hvalue := @Schema.recognizes_of_isValue type.schema path
  simp only [keyCourse, unlessUnknownCourse, listCourse, Place.course, Place.isViolation,
    Schema.violatedBy, Schema.refuses, Place.warning, Place.issue]
  cases hr : type.schema.recognizes path <;> cases hs : type.schema.strict <;>
    cases type.schema.isScript path <;> cases type.schema.isList path <;>
    cases hv : type.schema.isValue path <;> simp_all

/-- The keys of a section are checked unless it is a violation. -/
theorem keyCourse_map (entries : Entries) (line : Int) :
    keyCourse v type path key (.map entries line) =
      Place.course v type ⟨path, key, .map entries line, above⟩ ++
        if type.schema.violatedBy path (.map entries line) then []
        else keysBelowCourse v type path entries := by
  simp only [keyCourse, unlessUnknownCourse, sectionCourse, Place.course, Place.isViolation,
    Schema.violatedBy, Schema.refuses_map, Place.warning, Place.issue]
  cases entries with
  | nil =>
    rw [keysBelowCourse]
    cases type.schema.recognizes path <;> cases type.schema.strict <;> rfl
  | cons e rest =>
    cases type.schema.recognizes path <;> cases type.schema.strict <;>
      cases type.schema.allowsNesting path <;>
      cases type.schema.isValue path <;> simp

/-- Under a key with a node of no kind, what happens is what is done at its place. -/
theorem keyCourse_foreign (kind : String) :
    keyCourse v type path key (.foreign kind) =
      Place.course v type ⟨path, key, .foreign kind, above⟩ := by
  simp only [keyCourse, unlessUnknownCourse, Place.course, Place.isViolation, Schema.violatedBy,
    Schema.refuses, Place.warning, Place.issue]
  cases type.schema.recognizes path <;> cases type.schema.strict <;> rfl

end

mutual

/-- The check of a key does at each place that is reached what is to be done there, in order. -/
theorem keyCourse_eq_places {above : List (Text × Node)} (h : type.schema.holdsFor above = true)
    (path : Text) (key : Tracked) : ∀ node : Node,
    keyCourse v type path key node =
      ((node.places above path key).filter (Place.isReached type.schema)).flatMap
        (Place.course v type)
  | .scalar value => by
    rw [keyCourse_scalar v type above]
    exact (flatMap_reached_singleton h _).symm
  | .list items line => by
    rw [keyCourse_list v type above]
    exact (flatMap_reached_singleton h _).symm
  | .foreign kind => by
    rw [keyCourse_foreign v type above]
    exact (flatMap_reached_singleton h _).symm
  | .map entries line => by
    rw [Node.places, filter_reached_cons h, List.flatMap_cons,
      keyCourse_map v type above path key entries line]
    congr 1
    -- A violation at the section ends the check there and hides every place below it.
    have hnext : type.schema.holdsFor ((path, .map entries line) :: above) =
        !type.schema.violatedBy path (.map entries line) := by
      rw [Schema.holdsFor, List.all_cons, ← Schema.holdsFor, h, Bool.and_true]
    cases hv : type.schema.violatedBy path (.map entries line) with
    | true =>
      rw [hv] at hnext
      rw [filter_placesBelow_eq_nil hnext]
      rfl
    | false =>
      rw [hv] at hnext
      exact keysBelowCourse_eq_places hnext path entries

/-- In a section without a violation above it, what happens is what is done at the places that are
reached. -/
theorem keysBelowCourse_eq_places {above : List (Text × Node)}
    (h : type.schema.holdsFor above = true) (path : Text) :
    ∀ entries : Entries,
    keysBelowCourse v type path entries =
      ((placesBelow above path entries).filter (Place.isReached type.schema)).flatMap
        (Place.course v type)
  | [] => by rw [keysBelowCourse]; rfl
  | (key, node) :: rest => by
    rw [keysBelowCourse, placesBelow, List.filter_append, List.flatMap_append,
      ← keyCourse_eq_places h _ key node, ← keysBelowCourse_eq_places h path rest]

end

/-- The course of checking the keys of a container goes over the places that are reached. -/
theorem keysCourse_eq_places (entries : Entries) :
    keysCourse v type entries =
      ((places type entries).filter (Place.isReached type.schema)).flatMap
        (Place.course v type) := by
  induction entries with
  | nil => rfl
  | cons e rest ih =>
    obtain ⟨key, node⟩ := e
    cases hskip : isReserved (Text.lower key.text) || type.forbids (Text.lower key.text) with
    | true =>
      have hplaces : places type ((key, node) :: rest) = places type rest := by
        rw [places, List.filter_cons_of_neg (by simp [hskip])]
        rfl
      rw [keysCourse, if_pos hskip, List.nil_append, hplaces, ih]
    | false =>
      have hplaces : places type ((key, node) :: rest) =
          node.places [] (Text.lower key.text) key ++ places type rest := by
        rw [places, List.filter_cons_of_pos (by simp [hskip]), List.flatMap_cons]
        rfl
      rw [keysCourse, if_neg (by simp [hskip]), hplaces, List.filter_append,
        List.flatMap_append, ← ih]
      congr 1
      exact keyCourse_eq_places v type rfl _ key node

/-- The check of the keys of a container does at each place that is reached what is to be done
there. -/
theorem checkKeys_eq_forM (entries : Entries) :
    checkKeys v type entries =
      ((places type entries).filter (Place.isReached type.schema)).forM (Place.check v type) := by
  rw [checkKeys_eq, keysCourse_eq_places]
  generalize (places type entries).filter (Place.isReached type.schema) = reached
  induction reached with
  | nil => rfl
  | cons p rest ih =>
    show _ = Place.check v type p >>= fun _ => rest.forM (Place.check v type)
    rw [List.flatMap_cons, Place.check_eq]
    symm
    refine check_bind ?_
    exact ih.symm

end

/-! ## Warnings -/

/-- The issue is on a key that is missing, forbidden or unknown, or on what a key holds. -/
def Issue.isOnSchema : Issue → Bool
  | missingKey .. | forbiddenKey .. | unknownKey .. | valueForCollection .. | listForValue _
  | listForSection ..
  | sectionForValue .. | sectionForList .. => true
  | _ => false

/-- The finding is one of the warnings on keys that violate the schema of a type. -/
def Diagnostic.isOnSchema (type : ContainerType) (d : Diagnostic) : Bool :=
  d.category = .warning ∧
    (d.key = "unknown_key_" ++ type.name.string ∨ d.key = "list_should_be_value" ∨
      d.key = "bad_key_" ++ type.name.string)

namespace Course

variable {α : Type} {course : Course}

/-- The findings on a course, with those after a fault. -/
def findings (course : Course) : Log := course.filterMap Except.toOption

/-- The findings of two courses are those of each. -/
theorem findings_append (first rest : Course) :
    findings (first ++ rest) = first.findings ++ rest.findings :=
  List.filterMap_append

@[simp] theorem findings_said (log : Log) : findings (said log) = log := by
  rw [findings, said, List.filterMap_map]
  exact List.filterMap_some

/-- A finding of a course is an event on it. -/
theorem mem_findings {d : Diagnostic} : d ∈ course.findings ↔ .ok d ∈ course := by
  rw [findings, List.mem_filterMap]
  constructor
  · rintro ⟨_ | d', hd, ⟨⟩⟩
    exact hd
  · exact fun h => ⟨_, h, rfl⟩

/-- A check writes the first findings on its course. -/
theorem isPrefix_log_check (a : α) : (check a course).log <+: course.findings := by
  rcases course.cases with ⟨log, rfl⟩ | ⟨log, fault, rest, rfl⟩
  · have hlog : (check a (said log)).log = findings (said log) := by rw [check_said, findings_said]
    exact hlog ▸ List.prefix_refl _
  · rw [check_stopped, findings_append, findings_said]
    exact List.prefix_append ..

/-- A check that ends writes all findings on its course. -/
theorem log_check_of_ok {a b : α} (h : (check a course).result = .ok b) :
    (check a course).log = course.findings := by
  rcases course.cases with ⟨log, rfl⟩ | ⟨log, fault, rest, rfl⟩
  · rw [check_said, findings_said]
  · rw [check_stopped] at h
    cases h

/-- A check ends if all that happens on its course is a finding. -/
theorem result_check_of_every (h : Every (fun event => ∃ d, event = .ok d) course) (a : α) :
    (check a course).result = .ok a := by
  rcases course.cases with ⟨log, rfl⟩ | ⟨log, fault, rest, rfl⟩
  · rw [check_said]
  · obtain ⟨d, hd⟩ := h (.error fault) (by simp)
    cases hd

end Course

section

variable {v : Vocabulary} {type : ContainerType}

/-- The keys of issues on schemas are the keys of no other issues. -/
theorem Issue.onLine_isOnSchema_eq_false {issue : Issue} (h : issue.isOnSchema = false)
    (line : Int) :
    (issue.onLine line).isOnSchema type = false := by
  have hkey : issue.key ≠ "unknown_key_" ++ type.name.string ∧ issue.key ≠ "list_should_be_value" ∧
      issue.key ≠ "bad_key_" ++ type.name.string := by
    cases issue with
    | missingKey | forbiddenKey | unknownKey | valueForCollection | listForValue | listForSection
    | sectionForValue | sectionForList => cases h
    | _ =>
      simp only [Issue.key]
      exact ⟨Ne.symm (append_ne_of_not_isPrefixOf (by decide) _), by decide,
        Ne.symm (append_ne_of_not_isPrefixOf (by decide) _)⟩
  refine decide_eq_false ?_
  rintro ⟨-, heq | heq | heq⟩
  · exact hkey.1 heq
  · exact hkey.2.1 heq
  · exact hkey.2.2 heq

/-- The warning at a place is on the schema. -/
theorem Place.isOnSchema_warning (p : Place) : (p.warning type).isOnSchema type = true := by
  refine decide_eq_true ?_
  simp only [Place.warning, Place.issue, Issue.onLine]
  split
  · exact ⟨rfl, .inl rfl⟩
  · split
    · split
      · exact ⟨rfl, .inr (.inl rfl)⟩
      · exact ⟨rfl, .inr (.inr rfl)⟩
    · split <;> exact ⟨rfl, .inr (.inr rfl)⟩
    · exact ⟨rfl, .inr (.inr rfl)⟩

/-- What is found on a tag is not on a schema. -/
theorem Issue.IsOnTag.isOnSchema_eq_false {issue : Issue} (h : issue.IsOnTag) :
    issue.isOnSchema = false := by
  cases h <;> rfl

/-- What is found on a command is not on a schema. -/
theorem Issue.IsOnCommand.isOnSchema_eq_false {issue : Issue} (h : issue.IsOnCommand) :
    issue.isOnSchema = false := by
  cases h with
  | tag h => exact h.isOnSchema_eq_false
  | _ => rfl

/-- Nothing that is found in a list is a warning on a schema. -/
theorem ofFindings_isOnSchema :
    OfFindings v fun event => ∀ d, event = .ok d → d.isOnSchema type = false where
  command k t := List.forall_mem_map.2 fun issue hissue d hd => by
    cases hd
    exact Issue.onLine_isOnSchema_eq_false
      (Command.lineIssues_isOnCommand v k t.text issue hissue).isOnSchema_eq_false _
  block key d hd := by
    cases hd
    exact Issue.onLine_isOnSchema_eq_false rfl _
  tag t := List.forall_mem_map.2 fun issue hissue d hd => by
    cases hd
    exact Issue.onLine_isOnSchema_eq_false
      (tagIssues_isOnTag v t.text issue hissue).isOnSchema_eq_false _

/-- What happens at a place that is no violation is found in a list or in a value. -/
theorem Place.course_every {P : Except Fault Diagnostic → Prop} (hP : OfFindings v P) {p : Place}
    (hviolation : p.isViolation type.schema = false)
    (h : p.node.isPlaced = true ∨ ∀ fault, P (.error fault)) : Every P (p.course v type) := by
  rw [Place.course, if_neg (by simp [hviolation])]
  obtain ⟨path, key, node, above⟩ := p
  cases node with
  | scalar value => exact .ite .nil (every_said (hP.tag value))
  | list items line => exact .ite (commandsCourse_every hP h type.known) (dataCourse_every hP h)
  | map entries line => exact .nil
  | foreign kind =>
    rcases h with h | h
    · cases h
    · exact every_refused h _ _

/-- What is reported of schemas at a place is the violation there. -/
theorem Place.filter_findings (p : Place) :
    (p.course v type).findings.filter (Diagnostic.isOnSchema type) =
      if p.isViolation type.schema then [p.warning type] else [] := by
  cases hviolation : p.isViolation type.schema with
  | true =>
    rw [Place.course, if_pos hviolation, findings_said,
      List.filter_cons_of_pos p.isOnSchema_warning]
    rfl
  | false =>
    have hevery :
        Every (fun event => ∀ d, event = .ok d → d.isOnSchema type = false) (p.course v type) :=
      p.course_every ofFindings_isOnSchema hviolation (.inr fun fault d hd => by cases hd)
    refine List.filter_eq_nil_iff.2 fun d hd => ?_
    rw [hevery _ (mem_findings.1 hd) d rfl]
    exact Bool.false_ne_true

/-- What is reported of schemas at places are the violations among them. -/
theorem filter_findings_flatMap (reached : List Place) :
    (findings (reached.flatMap (Place.course v type))).filter (Diagnostic.isOnSchema type) =
      (reached.filter (Place.isViolation type.schema)).map (Place.warning type) := by
  induction reached with
  | nil => rfl
  | cons p rest ih =>
    rw [List.flatMap_cons, findings_append, List.filter_append, ih, p.filter_findings]
    cases hviolation : p.isViolation type.schema with
    | true => rw [List.filter_cons_of_pos hviolation]; rfl
    | false => rw [List.filter_cons_of_neg (by simp [hviolation])]; rfl

/-- There is no fault at a place below which all nodes have a place. -/
theorem Place.course_faultless {p : Place} (h : p.node.isPlaced = true) :
    Every (fun event => ∃ d, event = .ok d) (p.course v type) := by
  cases hviolation : p.isViolation type.schema with
  | true =>
    rw [Place.course, if_pos hviolation]
    exact .single ⟨_, rfl⟩
  | false =>
    have hfindings : OfFindings v fun event => ∃ d, event = .ok d :=
      ⟨fun _ _ d _ => ⟨d, rfl⟩, fun _ => ⟨_, rfl⟩, fun _ d _ => ⟨d, rfl⟩⟩
    exact p.course_every hfindings hviolation (.inl h)

end

mutual

/-- If a node has only nodes with a place, so has each place under it. -/
theorem isPlaced_of_mem_places {above : List (Text × Node)} {path : Text} {key : Tracked} :
    ∀ {node : Node}, node.isPlaced = true →
      Every (fun p : Place => p.node.isPlaced = true) (node.places above path key)
  | .map entries line, h => by
    rw [Node.places]
    exact .cons h (isPlaced_of_mem_placesBelow h)
  | .scalar _, h | .list _ _, h | .foreign _, h => .single h

/-- If a map has only nodes with a place, so has each place in it. -/
theorem isPlaced_of_mem_placesBelow {above : List (Text × Node)} {path : Text} :
    ∀ {entries : Entries}, arePlaced entries = true →
      Every (fun p : Place => p.node.isPlaced = true) (placesBelow above path entries)
  | [], _ => by rw [placesBelow]; exact .nil
  | (key, node) :: rest, h => by
    rw [arePlaced, Bool.and_eq_true] at h
    rw [placesBelow]
    exact .append (isPlaced_of_mem_places h.1) (isPlaced_of_mem_placesBelow h.2)

end

/-- If a container has only nodes with a place, so has each of its places. -/
theorem isPlaced_of_mem_containerPlaces {type : ContainerType} {entries : Entries}
    (h : arePlaced entries = true) :
    Every (fun p : Place => p.node.isPlaced = true) (places type entries) := by
  have hnodes : ∀ {entries : Entries}, arePlaced entries = true →
      ∀ e ∈ entries, e.2.isPlaced = true := by
    intro entries h
    induction entries with
    | nil => exact List.forall_mem_nil _
    | cons e rest ih =>
      rw [arePlaced, Bool.and_eq_true] at h
      exact List.forall_mem_cons.2 ⟨h.1, ih h.2⟩
  exact .flatMap fun e he => isPlaced_of_mem_places (hnodes h e (List.mem_filter.1 he).1)

/-! ## The outermost violations -/

/-- The check of the keys of a container does at each place without a violation above it what is to
be done there, once and in order, and nothing else. The warnings on the schema are those on the
violations among these places, on the lines of their keys, up to a fault. There is none if every
node has a place. -/
theorem checkKeys_outermost (v : Vocabulary) (type : ContainerType) (entries : Entries) :
    let reached := (places type entries).filter (Place.isReached type.schema)
    let warnings := (reached.filter (Place.isViolation type.schema)).map (Place.warning type)
    let check := checkKeys v type entries
    check = reached.forM (Place.check v type) ∧
      check.log.filter (Diagnostic.isOnSchema type) <+: warnings ∧
      (check.result = .ok () → check.log.filter (Diagnostic.isOnSchema type) = warnings) ∧
      (arePlaced entries = true → check.result = .ok ()) := by
  refine ⟨checkKeys_eq_forM v type entries, ?_, ?_, ?_⟩
  · rw [checkKeys_eq, keysCourse_eq_places, ← filter_findings_flatMap (v := v)]
    exact (isPrefix_log_check ()).filter _
  · rw [checkKeys_eq, keysCourse_eq_places, ← filter_findings_flatMap (v := v)]
    exact fun h => congrArg _ (log_check_of_ok h)
  · intro h
    rw [checkKeys_eq, keysCourse_eq_places]
    refine result_check_of_every (.flatMap fun p hp => Place.course_faultless ?_) ()
    exact isPlaced_of_mem_containerPlaces h p (List.mem_filter.1 hp).1

/-- A type with one key of each sort. -/
def itemType : ContainerType where
  name := "item".toList
  schema :=
    { values := [.exact "name".toList]
      lists := [.exact "lore".toList]
      scripts := [.below "events".toList]
      strict := true }
  known := {}

/-- A container with a violation of each sort. The second one holds a known key, which is not
looked at. -/
def strayKeys : Entries :=
  [(⟨"Type".toList, 1⟩, .scalar ⟨"item".toList, 1⟩),
    (⟨"name".toList, 2⟩, .list [.scalar ⟨"<a>".toList, 3⟩] 3),
    (⟨"extra".toList, 4⟩, .map [(⟨"name".toList, 5⟩, .scalar ⟨"<b>".toList, 5⟩)] 5),
    (⟨"lore".toList, 6⟩, .map [(⟨"line".toList, 7⟩, .scalar ⟨"<c>".toList, 7⟩)] 7),
    (⟨"events".toList, 8⟩,
      .map [(⟨"on a".toList, 9⟩, .scalar ⟨"<d>".toList, 9⟩),
        (⟨"on b".toList, 10⟩, .list [] 10)] 9)]

/-- Each of the four violations is reported once, and nothing below them. -/
theorem checkKeys_outermost_stray :
    arePlaced strayKeys = true ∧ (checkKeys {} itemType strayKeys).result = .ok () ∧
      (checkKeys {} itemType strayKeys).log.filter (Diagnostic.isOnSchema itemType) =
        [(Issue.listForValue "name".toList).onLine 2,
          (Issue.unknownKey "item".toList "extra".toList).onLine 4,
          (Issue.sectionForList "item".toList "lore".toList).onLine 6,
          (Issue.valueForCollection "item".toList "on a".toList).onLine 9] := by
  have hplaced : arePlaced strayKeys = true := by decide
  obtain ⟨-, -, hlog, hresult⟩ := checkKeys_outermost {} itemType strayKeys
  refine ⟨hplaced, hresult hplaced, (hlog (hresult hplaced)).trans ?_⟩
  decide +kernel

end ScriptLint
