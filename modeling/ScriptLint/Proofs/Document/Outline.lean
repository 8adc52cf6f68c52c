import ScriptLint.Document.Build
import ScriptLint.Proofs.Text

/-!
# Outlines

An outline is a document tree together with the indentation it is to be written with: each
collection carries the width of its entries. It can be written as a script, one entry per row
(`rows`, `printed`), and it says which tree the script stands for, with the number of the row of
each entry (`tree`).

Which outlines can be written is `Fits`. It asks that the texts stay on their rows and are not
taken for something else, that a collection is deeper than the row that owns it, and that the keys
of a map are distinct. A list under a plain key may also be at the width of the key.
-/

namespace ScriptLint.Document.Outline

mutual

/-- What stands below a key. A map may be empty; then it takes no rows. -/
inductive Body where
  | map (width : Nat) (entries : List Entry)
  | list (width : Nat) (items : List Item)

/-- An entry of a map: a key with its value on the same row, or a key with a collection below
it. -/
inductive Entry where
  | inline (key value : Text)
  | heading (key : Text) (body : Body)

/-- An entry of a list: a text, or a map of one key with a collection below it. -/
inductive Item where
  | scalar (text : Text)
  | block (key : Text) (body : Body)

end

/-- The key of an entry. -/
def Entry.key : Entry → Text
  | inline key _ => key
  | heading key _ => key

/-! ## Rows -/

/-- A row of a script: how far it is indented, and what stands on it. -/
structure Row where
  width : Nat
  text : Text

mutual

/-- The rows of what stands below a key. -/
def Body.rows : Body → List Row
  | .map width entries => entryRows width entries
  | .list width items => itemRows width items

/-- The rows of an entry of a map. -/
def Entry.rows (width : Nat) : Entry → List Row
  | .inline key value => [⟨width, key ++ ':' :: ' ' :: value⟩]
  | .heading key body => ⟨width, key ++ [':']⟩ :: body.rows

/-- The rows of an entry of a list. -/
def Item.rows (width : Nat) : Item → List Row
  | .scalar text => [⟨width, '-' :: ' ' :: text⟩]
  | .block key body => ⟨width, '-' :: ' ' :: (key ++ [':'])⟩ :: body.rows

/-- The rows of the entries of a map. -/
def entryRows (width : Nat) : List Entry → List Row
  | [] => []
  | entry :: rest => entry.rows width ++ entryRows width rest

/-- The rows of the entries of a list. -/
def itemRows (width : Nat) : List Item → List Row
  | [] => []
  | item :: rest => item.rows width ++ itemRows width rest

end

/-- Rows as they are written: `margin` gives the indentation of each row, from its number and its
width. -/
def written (margin : Nat → Nat → Text) (number : Nat) : List Row → List Text
  | [] => []
  | row :: rest => (margin number row.width ++ row.text) :: written margin (number + 1) rest

/-- The outline of a document as a script. -/
def printed (margin : Nat → Nat → Text) (entries : List Entry) : Text :=
  Text.joined ['\n'] (written margin 0 (entryRows 0 entries))

/-- The text indents a row by `width`: it holds spaces and tabs only. -/
def IsMargin (tab : Int) (width : Nat) (t : Text) : Prop :=
  (∀ c ∈ t, c = ' ' ∨ c = '\t') ∧ indentWidth tab t = width

/-! ## Trees -/

mutual

/-- The node of what stands below a key on row `number`. -/
def Body.tree (number : Nat) : Body → Node
  | .map width entries =>
    if entries.isEmpty then .map [] number
    else .map (entryTrees (number + 1) width entries) (number + 1 : Nat)
  | .list width items => .list (itemTrees (number + 1) width items) (number + 1 : Nat)

/-- The key and the node of an entry of a map on row `number`. -/
def Entry.tree (number : Nat) : Entry → Tracked × Node
  | .inline key value => (⟨key, number⟩, .scalar ⟨value, number⟩)
  | .heading key body => (⟨key, number⟩, body.tree number)

/-- The node of an entry of a list on row `number`. -/
def Item.tree (number : Nat) : Item → Node
  | .scalar text => .scalar ⟨text, number⟩
  | .block key body => .map [(⟨key, number⟩, body.tree number)] number

/-- The keys and nodes of the entries of a map, from row `number` on. -/
def entryTrees (number width : Nat) : List Entry → Entries
  | [] => []
  | entry :: rest =>
    entry.tree number :: entryTrees (number + (entry.rows width).length) width rest

/-- The nodes of the entries of a list, from row `number` on. -/
def itemTrees (number width : Nat) : List Item → List Node
  | [] => []
  | item :: rest => item.tree number :: itemTrees (number + (item.rows width).length) width rest

end

/-- The tree that the outline of a document stands for. -/
def tree (entries : List Entry) : Entries := entryTrees 0 0 entries

/-! ## Outlines that can be written -/

/-- The text stays on its row and has no blanks at its ends. -/
structure OnRow (t : Text) : Prop where
  noFeed : '\n' ∉ t
  noReturn : '\r' ∉ t
  trimmed : Text.trim t = t

/-- The text can be the key of a map: it begins neither a comment nor an entry of a list. -/
structure IsKey (t : Text) : Prop extends OnRow t where
  noComment : Text.beginsWith ['#'] t = false
  noItem : Text.beginsWith ['-', ' '] t = false

instance (t : Text) : Decidable (OnRow t) :=
  decidable_of_iff ('\n' ∉ t ∧ '\r' ∉ t ∧ Text.trim t = t)
    ⟨fun ⟨hf, hr, ht⟩ => ⟨hf, hr, ht⟩, fun h => ⟨h.noFeed, h.noReturn, h.trimmed⟩⟩

instance (t : Text) : Decidable (IsKey t) :=
  decidable_of_iff (OnRow t ∧ Text.beginsWith ['#'] t = false ∧
    Text.beginsWith ['-', ' '] t = false)
    ⟨fun ⟨ht, hc, hi⟩ => ⟨ht, hc, hi⟩, fun h => ⟨h.toOnRow, h.noComment, h.noItem⟩⟩

mutual

/-- What stands below a key on a row of width `owner`; `plain` tells a key of a map from one of a
list. -/
def Body.Fits (owner : Nat) (plain : Bool) : Body → Prop
  | .map width entries =>
    (entries = [] ∨ owner < width) ∧ (entries.map Entry.key).Nodup ∧ EntriesFit width entries
  | .list width items =>
    items ≠ [] ∧ (owner < width ∨ plain = true ∧ owner = width) ∧ ItemsFit width items

/-- An entry of a map of some width. -/
def Entry.Fits (width : Nat) : Entry → Prop
  | .inline key value =>
    IsKey key ∧ Text.holds [':', ' '] key = false ∧
      OnRow value ∧ value ≠ [] ∧ Text.endsWith [':'] value = false
  | .heading key body => IsKey key ∧ body.Fits width true

/-- An entry of a list of some width. -/
def Item.Fits (width : Nat) : Item → Prop
  | .scalar text => OnRow text ∧ Text.endsWith [':'] text = false
  | .block key body => OnRow key ∧ body.Fits width false

/-- The entries of a map of some width. -/
def EntriesFit (width : Nat) : List Entry → Prop
  | [] => True
  | entry :: rest => entry.Fits width ∧ EntriesFit width rest

/-- The entries of a list of some width. -/
def ItemsFit (width : Nat) : List Item → Prop
  | [] => True
  | item :: rest => item.Fits width ∧ ItemsFit width rest

end

/-- The outline of a document can be written. -/
def Fits (entries : List Entry) : Prop := (entries.map Entry.key).Nodup ∧ EntriesFit 0 entries

end ScriptLint.Document.Outline
