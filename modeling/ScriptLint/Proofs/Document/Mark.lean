import ScriptLint.Document.Build
import ScriptLint.Proofs.Document.Entries
import ScriptLint.Proofs.Text

/-!
# The texts of a document and the lines they come from

A document is read from top to bottom as a list of marks: its keys, the entries of its lists and
its values, each with its line (`Entries.marks`). A content line by itself says which marks it can
add (`Line.marks`), and `Line.Dictates` says the same in terms of the line's text. A key with its
node adds its marks at the end of a collection (`Block.marks_attach`), unless the collection is a
map that has the key already; no mark comes from elsewhere in any case
(`Block.marks_attach_subset`).
-/

namespace ScriptLint

/-- What a text is in a document. -/
inductive Role where
  /-- A key of a map. -/
  | key
  /-- The key of an entry of a list that opens a block. -/
  | block
  /-- An entry of a list that is a scalar. -/
  | item
  /-- The value of a key. -/
  | value
deriving DecidableEq, Repr

/-- A text of a document and what it is there. -/
structure Mark where
  role : Role
  text : Tracked
deriving DecidableEq, Repr

/-- The mark is an entry of a map or of a list. -/
def Mark.isEntry (mark : Mark) : Bool := mark.role != .value

mutual

/-- The marks of a node under a key, from top to bottom. -/
def Node.marks : Node → List Mark
  | .scalar value => [⟨.value, value⟩]
  | .list items _ => itemMarks items
  | .map entries _ => keyMarks .key entries
  | .foreign _ => []

/-- The marks of the entries of a list. -/
def itemMarks : List Node → List Mark
  | [] => []
  | .scalar value :: rest => ⟨.item, value⟩ :: itemMarks rest
  | .map entries _ :: rest => keyMarks .block entries ++ itemMarks rest
  | .list items _ :: rest => itemMarks items ++ itemMarks rest
  | .foreign _ :: rest => itemMarks rest

/-- The marks of keys of one role and of what stands under them. -/
def keyMarks (role : Role) : List (Tracked × Node) → List Mark
  | [] => []
  | (key, node) :: rest => ⟨role, key⟩ :: (node.marks ++ keyMarks role rest)

end

/-- The marks of a document, from top to bottom. -/
def Entries.marks (entries : Entries) : List Mark := keyMarks .key entries

/-- The marks of two groups of items are those of each. -/
theorem itemMarks_append (first rest : List Node) :
    itemMarks (first ++ rest) = itemMarks first ++ itemMarks rest := by
  induction first with
  | nil => rfl
  | cons item first ih => cases item <;> simp [itemMarks, ih]

/-- The marks of two groups of entries are those of each. -/
theorem keyMarks_append (role : Role) (first rest : Entries) :
    keyMarks role (first ++ rest) = keyMarks role first ++ keyMarks role rest := by
  induction first with
  | nil => rfl
  | cons e first ih => simp [keyMarks, ih]

/-- Setting an entry adds no other marks than those of the entry. -/
theorem keyMarks_insert_subset (role : Role) (key : Tracked) (node : Node) (entries : Entries) :
    keyMarks role (entries.insert key node) ⊆ keyMarks role entries ++
      ⟨role, key⟩ :: node.marks := by
  induction entries with
  | nil => simp [Entries.insert, keyMarks]
  | cons e rest ih =>
    obtain ⟨k, n⟩ := e
    rw [Entries.insert]
    split
    · intro m hm
      simp only [keyMarks, List.mem_cons, List.mem_append] at hm ⊢
      rcases hm with hm | hm | hm
      · exact .inl (.inl hm)
      · exact .inr (.inr hm)
      · exact .inl (.inr (.inr hm))
    · intro m hm
      simp only [keyMarks, List.mem_cons, List.mem_append] at hm ⊢
      rcases hm with hm | hm | hm
      · exact .inl (.inl hm)
      · exact .inl (.inr (.inl hm))
      · have := ih hm
        simp only [List.mem_cons, List.mem_append] at this
        rcases this with h | h
        · exact .inl (.inr (.inr h))
        · exact .inr h

namespace Document

/-! ## Open collections -/

namespace Block

/-- The marks of a collection. -/
def marks : Block → List Mark
  | .list items => itemMarks items
  | .map entries => keyMarks .key entries

/-- What a key is in the collection. -/
def keyRole : Block → Role
  | .list _ => .block
  | .map _ => .key

@[simp] theorem marks_toNode (line : Int) (block : Block) :
    (block.toNode line).marks = block.marks := by
  cases block <;> rfl

/-- A new key adds its marks at the end. -/
theorem marks_attach {key : Tracked} {block : Block} (h : block.repeats key = false)
    (node : Node) :
    (block.attach key node).marks = block.marks ++ ⟨block.keyRole, key⟩ :: node.marks := by
  cases block with
  | list items => simp [attach, marks, itemMarks_append, itemMarks, keyMarks, keyRole]
  | map entries =>
    have hnew : entries.hasKey key.text = false := h
    simp [attach, marks, Entries.insert_of_not_hasKey hnew, keyMarks_append, keyMarks, keyRole]

/-- A key adds no other marks than its own ones. -/
theorem marks_attach_subset (key : Tracked) (node : Node) (block : Block) :
    (block.attach key node).marks ⊆ block.marks ++ ⟨block.keyRole, key⟩ :: node.marks := by
  cases block with
  | list items =>
    rw [marks_attach rfl node]
    exact List.Subset.refl _
  | map entries => exact keyMarks_insert_subset .key key node entries

end Block

/-! ## What a line says -/

/-- A colon starts the text, and a space follows it, only if this is how the text goes on. -/
theorem isPrefixOf_eq_false {c : Char} {r : Text} (h : ∀ rest, c = ':' → r = ' ' :: rest → False) :
    List.isPrefixOf [':', ' '] (c :: r) = false := by
  cases r with
  | nil => simp [List.isPrefixOf]
  | cons d r =>
    simp only [List.isPrefixOf, Bool.and_true, Bool.and_eq_false_iff, beq_eq_false_iff_ne, ne_eq]
    by_cases hc : c = ':'
    · exact .inr fun hd => h r hc (by rw [hd])
    · exact .inl (Ne.symm hc)

/-- A line is cut at its first colon that a space follows. -/
theorem splitInline_eq_some {t key value : Text} (h : splitInline t = some (key, value)) :
    t = key ++ ':' :: ' ' :: value ∧ Text.holds [':', ' '] key = false := by
  fun_induction splitInline t generalizing key with
  | case1 => cases h
  | case2 r => cases h; exact ⟨rfl, rfl⟩
  | case3 c r hne ih =>
    obtain ⟨⟨k, v⟩, hr, he⟩ := Option.map_eq_some_iff.1 h
    cases he
    obtain ⟨rfl, hk⟩ := ih hr
    refine ⟨rfl, ?_⟩
    rw [Text.holds, hk, isPrefixOf_eq_false fun rest hc hr => hne _ hc (by rw [hr]; rfl)]
    rfl

/-- A text that is not split into a key and a value has no colon before a space. -/
theorem splitInline_eq_none {t : Text} (h : splitInline t = none) :
    Text.holds [':', ' '] t = false := by
  fun_induction splitInline t with
  | case1 => rfl
  | case2 r => cases h
  | case3 c r hne ih =>
    rw [Text.holds, ih (Option.map_eq_none_iff.1 h), isPrefixOf_eq_false hne]
    rfl

namespace Line

/-- The marks that a line can add, by its text alone. -/
def marks (line : Line) : List Mark :=
  if line.isItem then
    if Text.endsWith [':'] line.itemText then
      [⟨.block, Text.trim line.itemText.dropLast, line.number⟩]
    else [⟨.item, line.itemText, line.number⟩]
  else if Text.endsWith [':'] line.text then [⟨.key, Text.trim line.text.dropLast, line.number⟩]
  else
    match splitInline line.text with
    | none => []
    | some (key, value) =>
      [⟨.key, Text.trim key, line.number⟩, ⟨.value, Text.trim value, line.number⟩]

section

variable {line : Line}

/-- An entry that opens a block has the mark of its key. -/
theorem marks_of_block (hi : line.isItem = true) (he : Text.endsWith [':'] line.itemText = true) :
    line.marks = [⟨.block, Text.trim line.itemText.dropLast, line.number⟩] := by
  rw [marks, if_pos hi, if_pos he]

/-- An entry that is a value has the mark of its text. -/
theorem marks_of_scalar (hi : line.isItem = true)
    (he : Text.endsWith [':'] line.itemText = false) :
    line.marks = [⟨.item, line.itemText, line.number⟩] := by
  rw [marks, if_pos hi, if_neg (by simp [he])]

/-- A key whose collection follows has its own mark. -/
theorem marks_of_heading (hi : line.isItem = false) (he : Text.endsWith [':'] line.text = true) :
    line.marks = [⟨.key, Text.trim line.text.dropLast, line.number⟩] := by
  rw [marks, if_neg (by simp [hi]), if_pos he]

/-- A key with a value has a mark for each. -/
theorem marks_of_inline {key value : Text} (hi : line.isItem = false)
    (he : Text.endsWith [':'] line.text = false) (hp : splitInline line.text = some (key, value)) :
    line.marks = [⟨.key, Text.trim key, line.number⟩, ⟨.value, Text.trim value, line.number⟩] := by
  rw [marks, if_neg (by simp [hi]), if_neg (by simp [he]), hp]

/-- A line that is neither has no mark. -/
theorem marks_of_unread (hi : line.isItem = false) (he : Text.endsWith [':'] line.text = false)
    (hp : splitInline line.text = none) : line.marks = [] := by
  rw [marks, if_neg (by simp [hi]), if_neg (by simp [he]), hp]

end

/-- The line has the mark: after the hyphen of an entry stands the text, or the text and a colon; a
key line has its key before a colon at the end, or else before the first colon that a space
follows, with its value after it. Blanks at the ends of a text do not count. -/
inductive Dictates (line : Line) : Mark → Prop
  | item : line.isItem = true → Text.endsWith [':'] (Text.trim (line.text.drop 1)) = false →
      Dictates line ⟨.item, Text.trim (line.text.drop 1), line.number⟩
  | block {key : Text} : line.isItem = true → Text.trim (line.text.drop 1) = key ++ [':'] →
      Dictates line ⟨.block, Text.trim key, line.number⟩
  | heading {key : Text} : line.isItem = false → line.text = key ++ [':'] →
      Dictates line ⟨.key, Text.trim key, line.number⟩
  | key {key value : Text} : line.isItem = false → Text.endsWith [':'] line.text = false →
      line.text = key ++ ':' :: ' ' :: value → Text.holds [':', ' '] key = false →
      Dictates line ⟨.key, Text.trim key, line.number⟩
  | value {key value : Text} : line.isItem = false → Text.endsWith [':'] line.text = false →
      line.text = key ++ ':' :: ' ' :: value → Text.holds [':', ' '] key = false →
      Dictates line ⟨.value, Text.trim value, line.number⟩

/-- The line says nothing: it is no entry of a list, and no colon is at its end or before a
space. -/
structure SaysNothing (line : Line) : Prop where
  isKey : line.isItem = false
  noHeading : Text.endsWith [':'] line.text = false
  noInline : Text.holds [':', ' '] line.text = false

/-- The marks of a line are dictated by it. -/
theorem dictates_of_mem {line : Line} {mark : Mark} (h : mark ∈ line.marks) :
    line.Dictates mark := by
  unfold marks at h
  split at h
  · next hi =>
    split at h
    · next he =>
      rw [List.mem_singleton.1 h]
      exact .block hi (Text.eq_dropLast_append he)
    · next he =>
      rw [List.mem_singleton.1 h]
      exact .item hi (Bool.eq_false_iff.2 he)
  · next hi =>
    have hi := Bool.eq_false_iff.2 hi
    split at h
    · next he =>
      rw [List.mem_singleton.1 h]
      exact .heading hi (Text.eq_dropLast_append he)
    · next he =>
      have he := Bool.eq_false_iff.2 he
      split at h
      · cases h
      · next key value hs =>
        obtain ⟨ht, hk⟩ := splitInline_eq_some hs
        rcases List.mem_cons.1 h with rfl | h
        · exact .key hi he ht hk
        · rw [List.mem_singleton.1 h]
          exact .value hi he ht hk

/-- A line that can add no mark says nothing. -/
theorem saysNothing_of_marks {line : Line} (h : line.marks = []) : line.SaysNothing := by
  unfold marks at h
  split at h
  · split at h <;> cases h
  · next hi =>
    split at h
    · cases h
    · next he =>
      split at h
      · next hs => exact ⟨Bool.eq_false_iff.2 hi, Bool.eq_false_iff.2 he, splitInline_eq_none hs⟩
      · cases h

end Line

end Document

end ScriptLint
