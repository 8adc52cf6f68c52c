import ScriptLint.Proofs.Container.Course
import ScriptLint.Proofs.Document.Pair
import ScriptLint.ScriptType.Builtin

/-!
# The texts of a data list

The texts of a data list are its scalar entries, the keys of the entries that open a block, and all
that stands below such a key: the texts of a list, and the values in a section of keys, at any
depth (`dataTexts`). The search for tags goes into the lists and stays outside of the sections. A
list of a document that is searched is searched to its end, and every text outside of sections is
searched once, in order and on its own line (`checkKey_data`). A text in a section is not searched
(`not_every_text_searched`).
-/

namespace ScriptLint

/-- A text of a data list, and whether it stands in a section of keys. -/
structure Datum where
  text : Tracked
  inSection : Bool

mutual

/-- The texts of the entries of a list, from top to bottom. `inner` says that the list is in a
section. -/
def dataTexts (inner : Bool) : List Node → List Datum
  | [] => []
  | .scalar t :: rest => ⟨t, inner⟩ :: dataTexts inner rest
  | .map entries _ :: rest => entryTexts inner entries ++ dataTexts inner rest
  | .list items _ :: rest => dataTexts inner items ++ dataTexts inner rest
  | .foreign _ :: rest => dataTexts inner rest

/-- The keys of an entry and the texts below them. -/
def entryTexts (inner : Bool) : List (Tracked × Node) → List Datum
  | [] => []
  | (key, node) :: rest => ⟨key, inner⟩ :: (node.textsBelow inner ++ entryTexts inner rest)

/-- The texts of what stands under a key. -/
def Node.textsBelow (inner : Bool) : Node → List Datum
  | .scalar t => [⟨t, inner⟩]
  | .list items _ => dataTexts inner items
  | .map entries _ => sectionTexts entries
  | .foreign _ => []

/-- The texts in a section of keys; the keys themselves are none. -/
def sectionTexts : List (Tracked × Node) → List Datum
  | [] => []
  | (_, node) :: rest => node.textsBelow true ++ sectionTexts rest

end

/-- The texts that are not in a section. -/
def outside (texts : List Datum) : List Tracked := (texts.filter (!·.inSection)).map (·.text)

/-- Of two groups of texts, those outside of sections are those in each. -/
theorem outside_append (first rest : List Datum) :
    outside (first ++ rest) = outside first ++ outside rest := by
  rw [outside, List.filter_append, List.map_append]
  rfl

mutual

/-- In a section there is nothing outside of it. -/
theorem outside_dataTexts : ∀ items : List Node, outside (dataTexts true items) = []
  | [] => rfl
  | .scalar _ :: rest | .foreign _ :: rest => outside_dataTexts rest
  | .map entries _ :: rest => by
    rw [dataTexts, outside_append, outside_entryTexts entries, outside_dataTexts rest,
      List.append_nil]
  | .list items _ :: rest => by
    rw [dataTexts, outside_append, outside_dataTexts items, outside_dataTexts rest,
      List.append_nil]

/-- In a section, none of the texts of entries is outside of one. -/
theorem outside_entryTexts :
    ∀ entries : List (Tracked × Node), outside (entryTexts true entries) = []
  | [] => rfl
  | (_, node) :: rest => by
    show outside (node.textsBelow true ++ entryTexts true rest) = []
    rw [outside_append, outside_textsBelow node, outside_entryTexts rest, List.append_nil]

/-- In a section, none of the texts below a key is outside of one. -/
theorem outside_textsBelow : ∀ node : Node, outside (node.textsBelow true) = []
  | .scalar _ | .foreign _ => rfl
  | .list items _ => outside_dataTexts items
  | .map entries _ => outside_sectionTexts entries

/-- None of the texts of a section is outside of one. -/
theorem outside_sectionTexts :
    ∀ entries : List (Tracked × Node), outside (sectionTexts entries) = []
  | [] => rfl
  | (_, node) :: rest => by
    rw [sectionTexts, outside_append, outside_textsBelow node, outside_sectionTexts rest,
      List.append_nil]

end

namespace Course

/-- Two logs are said one after the other. -/
theorem said_append (first rest : Log) : said (first ++ rest) = said first ++ said rest :=
  List.map_append

end Course

open Course

/-- The walk over a data list that is built from lines searches the texts outside of sections. -/
theorem itemSteps_built : ∀ {items : List Node}, ItemsBuilt items →
    itemSteps .data items = (outside (dataTexts false items)).map .search
  | [], _ => rfl
  | .scalar t :: rest, h => by
    rw [itemSteps, itemSteps_built h.2]
    rfl
  | .map [(key, .list items line)] line' :: rest, h => by
    have houtside : outside (dataTexts false (.map [(key, .list items line)] line' :: rest)) =
        key :: (outside (dataTexts false items) ++ outside (dataTexts false rest)) := by
      rw [dataTexts, entryTexts, entryTexts, List.append_nil, Node.textsBelow, ← outside_append]
      rfl
    rw [houtside, itemSteps, Node.entrySteps, keySteps, keySteps, Node.stepsBelow,
      itemSteps_built h.1.2.1, itemSteps_built h.2, List.append_nil, List.map_cons,
      List.map_append]
    rfl
  | .map [(key, .map entries line)] line' :: rest, h => by
    have houtside : outside (dataTexts false (.map [(key, .map entries line)] line' :: rest)) =
        key :: outside (dataTexts false rest) := by
      rw [dataTexts, entryTexts, entryTexts, List.append_nil, Node.textsBelow, List.cons_append]
      show key :: outside (sectionTexts entries ++ _) = _
      rw [outside_append, outside_sectionTexts]
      rfl
    rw [houtside, itemSteps, itemSteps_built h.2]
    rfl

/-- Searching texts one after the other finds their tags in order. -/
theorem stepsCourse_search (v : Vocabulary) (texts : List Tracked) (k : Known) :
    stepsCourse v (texts.map .search) k = said (texts.flatMap (tagLog v)) := by
  induction texts with
  | nil => rfl
  | cons t rest ih =>
    rw [List.map_cons, stepsCourse, List.flatMap_cons, said_append]
    exact congrArg _ ih

/-- Searching a list that is built from lines searches the texts outside of sections. -/
theorem dataCourse_built (v : Vocabulary) {items : List Node} (h : ItemsBuilt items) :
    dataCourse v items = said ((outside (dataTexts false items)).flatMap (tagLog v)) := by
  rw [dataCourse, itemSteps_built h, stepsCourse_search]

/-- A list under the path is searched as a data list. -/
def Schema.searches (s : Schema) (path : Text) : Bool :=
  !s.isScript path && (s.isList path || !s.recognizes path && !s.strict && !s.embedsScripts)

/-- A list that the schema has searched is searched as a data list. -/
theorem checkKey_of_searches (v : Vocabulary) {type : ContainerType} {path : Text}
    (h : type.schema.searches path = true) (key : Tracked) (items : List Node) (line : Int) :
    checkKey v type path key (.list items line) = checkData v items := by
  simp only [Schema.searches, Bool.and_eq_true, Bool.or_eq_true, Bool.not_eq_true'] at h
  obtain ⟨hscript, hlist | ⟨⟨hrecognizes, hstrict⟩, hembeds⟩⟩ := h
  · have hrecognizes : type.schema.recognizes path = true := by simp [Schema.recognizes, hlist]
    simp [checkKey, unlessUnknown, checkList, hscript, hlist, hrecognizes]
  · obtain ⟨⟨⟨hvalue, hlist⟩, -⟩,
      -⟩ : ((type.schema.isValue path = false ∧ type.schema.isList path = false) ∧
        type.schema.isScript path = false) ∧ type.schema.isSection path = false := by
      simpa [Schema.recognizes] using hrecognizes
    simp [checkKey, unlessUnknown, checkList, hscript, hlist, hvalue, hrecognizes,
      hstrict, hembeds]

/-- A list of a document that is searched as a data list is searched to its end: every text of it
that is not in a section of keys, and no other one, is searched once, in order and on its own
line. -/
theorem checkKey_data (v : Vocabulary) (type : ContainerType) (path : Text) (tab : Int) (t : Text)
    {key : Tracked} {items : List Node} {line : Int}
    (hmem : (key, .list items line) ∈ (Document.ofSource tab (Source.ofText t)).1.pairs)
    (h : type.schema.searches path = true) :
    checkKey v type path key (.list items line) =
      Check.report ((outside (dataTexts false items)).flatMap (tagLog v)) := by
  have hbuilt : ItemsBuilt items := keyPairs_built (Document.ofLines_built _) _ hmem
  rw [checkKey_of_searches v h, checkData_eq, dataCourse_built v hbuilt, report_eq]

/-- A container of data with a list whose entry opens a section of keys. -/
def hidingScript : Text := "d:\n    type: data\n    entries:\n    - k:\n        s: <bogus>".toList

/-- The key of the list. -/
def hidingKey : Tracked := ⟨['e', 'n', 't', 'r', 'i', 'e', 's'], 2⟩

/-- The entries of the list. -/
def hidingItems : List Node :=
  [.map [(⟨['k'], 3⟩, .map [(⟨['s'], 4⟩, .scalar ⟨['<', 'b', 'o', 'g', 'u', 's', '>'], 4⟩)] 4)] 3]

/-- The type of the container. -/
def dataType : ContainerType := ⟨"data".toList, .data, {}⟩

/-- The list with a hidden text is in the document, under its key. -/
theorem mem_hidingScript_pairs :
    (hidingKey, .list hidingItems 3) ∈
      (Document.ofSource 4 (Source.ofText hidingScript)).1.pairs := by
  have hlines : Document.lines 4 (Source.ofText hidingScript) =
      [⟨0, 0, ['d', ':']⟩, ⟨1, 4, ['t', 'y', 'p', 'e', ':', ' ', 'd', 'a', 't', 'a']⟩,
        ⟨2, 4, ['e', 'n', 't', 'r', 'i', 'e', 's', ':']⟩, ⟨3, 4, ['-', ' ', 'k', ':']⟩,
        ⟨4, 8, ['s', ':', ' ', '<', 'b', 'o', 'g', 'u', 's', '>']⟩] := by
    decide +kernel
  have hentries : (Document.ofSource 4 (Source.ofText hidingScript)).1 =
      [(⟨['d'], 0⟩, .map [(⟨['t', 'y', 'p', 'e'], 1⟩, .scalar ⟨['d', 'a', 't', 'a'], 1⟩),
        (hidingKey, .list hidingItems 3)] 1)] := by
    rw [Document.ofSource, hlines]
    rfl
  rw [hentries]
  -- After the container itself and its type.
  exact List.mem_cons_of_mem _ (List.mem_cons_of_mem _ List.mem_cons_self)

/-- Of a data list with a section, only the texts outside of it are searched. -/
theorem checkKey_data_hiding :
    dataType.schema.searches hidingKey.text = true ∧
    checkKey {} dataType hidingKey.text hidingKey (.list hidingItems 3) =
      Check.report ((outside (dataTexts false hidingItems)).flatMap (tagLog {})) := by
  have h : dataType.schema.searches hidingKey.text = true := by decide +kernel
  exact ⟨h, checkKey_data {} dataType _ 4 hidingScript mem_hidingScript_pairs h⟩

/-- The tag in the section is not searched. -/
theorem not_every_text_searched :
    ¬ ∀ (v : Vocabulary) (type : ContainerType) (path : Text) (tab : Int) (t : Text)
    (key : Tracked) (items : List Node) (line : Int),
    (key, .list items line) ∈ (Document.ofSource tab (Source.ofText t)).1.pairs →
    type.schema.searches path = true →
    checkKey v type path key (.list items line) =
      Check.report (((dataTexts false items).map (·.text)).flatMap (tagLog v)) := by
  intro h
  have hall :=
    h {} dataType hidingKey.text 4 hidingScript _ _ _ mem_hidingScript_pairs (by decide +kernel)
  have hlog : (checkKey {} dataType hidingKey.text hidingKey (.list hidingItems 3)).log = [] := by
    decide +kernel
  rw [hall] at hlog
  exact absurd hlog (by decide +kernel)

end ScriptLint
