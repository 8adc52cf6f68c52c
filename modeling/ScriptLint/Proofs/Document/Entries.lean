import ScriptLint.Document.Node

/-!
# The entries of a map

A map that gets its entries one after the other has each key once (`Distinct.insert`), and a new
key comes last (`insert_of_not_hasKey`). The entries of one map can be set on top of another
(`setAll`); this may be done before or after one more entry is set (`setAll_insert`), and if no key
is in both maps it puts the one after the other (`setAll_of_disjoint`).
-/

namespace ScriptLint.Entries

/-- A key is that of the first entry or of a later one. -/
theorem hasKey_cons (key : Text) (e : Tracked × Node) (rest : Entries) :
    hasKey key (e :: rest) = (decide (e.1.text = key) || hasKey key rest) := rfl

/-- A key is in one of two groups of entries. -/
theorem hasKey_append (key : Text) (first rest : Entries) :
    hasKey key (first ++ rest) = (hasKey key first || hasKey key rest) := by
  simp [hasKey]

/-- The keys of a map in order. -/
def keys (entries : Entries) : List Tracked := entries.map (·.1)

/-- A new key comes last. -/
theorem insert_of_not_hasKey {key : Tracked} {entries : Entries}
    (h : entries.hasKey key.text = false) (node : Node) :
    insert key node entries = entries ++ [(key, node)] := by
  induction entries with
  | nil => rfl
  | cons e rest ih =>
    simp only [hasKey, List.any_cons, Bool.or_eq_false_iff, decide_eq_false_iff_not] at h
    rw [insert, if_neg h.1, ih h.2]
    rfl

/-- Setting an entry adds its key. -/
theorem hasKey_insert (key : Tracked) (node : Node) (entries : Entries) (k : Text) :
    hasKey k (insert key node entries) = (decide (key.text = k) || hasKey k entries) := by
  induction entries with
  | nil => rfl
  | cons e rest ih =>
    rw [insert]
    split
    · next he => rw [hasKey_cons, hasKey_cons, he, ← Bool.or_assoc, Bool.or_self]
    · rw [hasKey_cons, hasKey_cons, ih, Bool.or_left_comm]

/-! ## Keys that are different -/

/-- No two entries have the same key. -/
def Distinct : Entries → Prop
  | [] => True
  | e :: rest => hasKey e.1.text rest = false ∧ Distinct rest

/-- Putting a node under a key keeps the keys distinct. -/
theorem Distinct.insert {entries : Entries} (h : entries.Distinct) (key : Tracked) (node : Node) :
    (entries.insert key node).Distinct := by
  induction entries with
  | nil => exact ⟨rfl, trivial⟩
  | cons e rest ih =>
    rw [Entries.insert]
    split
    · exact h
    · next hne =>
      refine ⟨?_, ih h.2⟩
      rw [hasKey_insert, h.1, decide_eq_false (Ne.symm hne), Bool.or_false]

/-! ## One map on top of another -/

/-- The later of two entries of a key wins. -/
theorem insert_insert {key key' : Tracked} (h : key'.text = key.text) (node node' : Node)
    (entries : Entries) :
    insert key node (insert key' node' entries) = insert key' node entries := by
  induction entries with
  | nil => rw [insert, insert, insert, if_pos h]
  | cons e rest ih =>
    by_cases he : e.1.text = key.text
    · rw [insert, if_pos (he.trans h.symm), insert, if_pos he, insert, if_pos (he.trans h.symm)]
    · have he' : e.1.text ≠ key'.text := fun hk => he (hk.trans h)
      rw [insert, if_neg he', insert, if_neg he, ih, insert, if_neg he']

/-- A key that is there already may be set before or after another one. -/
theorem insert_comm {key key' : Tracked} {entries : Entries} (h : entries.hasKey key.text = true)
    (hne : key'.text ≠ key.text) (node node' : Node) :
    insert key node (insert key' node' entries) = insert key' node' (insert key node entries) := by
  induction entries with
  | nil => cases h
  | cons e rest ih =>
    by_cases he : e.1.text = key.text
    · have he' : e.1.text ≠ key'.text := fun hk => hne (hk.symm.trans he)
      rw [insert, if_neg he', insert, if_pos he, insert, if_pos he, insert, if_neg he']
    · have hr : hasKey key.text rest = true := by simpa [hasKey_cons, he] using h
      by_cases he' : e.1.text = key'.text
      · rw [insert, if_pos he', insert, if_neg he, insert, if_neg he, insert, if_pos he']
      · rw [insert, if_neg he', insert, if_neg he, ih hr, insert, if_neg he, insert, if_neg he']

/-- The map that entries give when they are set, one after the other, in another one. -/
def setAll (base : Entries) : Entries → Entries
  | [] => base
  | e :: rest => setAll (base.insert e.1 e.2) rest

/-- A key that is in the lower map only may be set before the other map is. -/
theorem insert_setAll {key : Tracked} {base entries : Entries} (hb : base.hasKey key.text = true)
    (he : entries.hasKey key.text = false) (node : Node) :
    (setAll base entries).insert key node = setAll (base.insert key node) entries := by
  induction entries generalizing base with
  | nil => rfl
  | cons e rest ih =>
    rw [hasKey_cons, Bool.or_eq_false_iff, decide_eq_false_iff_not] at he
    have hb' : (base.insert e.1 e.2).hasKey key.text = true := by
      rw [hasKey_insert, hb, Bool.or_true]
    rw [setAll, ih hb' he.2, insert_comm hb he.1, setAll]

/-- An entry may be set in the upper map or in both maps together. -/
theorem setAll_insert {entries : Entries} (h : entries.Distinct) (base : Entries) (key : Tracked)
    (node : Node) : setAll base (entries.insert key node) =
      (setAll base entries).insert key node := by
  induction entries generalizing base with
  | nil => rfl
  | cons e rest ih =>
    rw [insert, setAll]
    split
    · next he =>
      have hb : (base.insert e.1 e.2).hasKey key.text = true := by
        rw [hasKey_insert, decide_eq_true he, Bool.true_or]
      rw [insert_setAll hb (he ▸ h.1), insert_insert he, setAll]
    · rw [setAll, ih h.2]

/-- If no key is in both maps, the entries of the upper one come last. -/
theorem setAll_of_disjoint {base entries : Entries} (h : entries.Distinct)
    (hd : ∀ e ∈ entries, base.hasKey e.1.text = false) :
    setAll base entries = base ++ entries := by
  induction entries generalizing base with
  | nil => rw [List.append_nil]; rfl
  | cons e rest ih =>
    have hnew := hd e (List.mem_cons_self ..)
    rw [setAll, insert_of_not_hasKey hnew, ih h.2, List.append_assoc]
    · rfl
    · intro e' he'
      have hne : e.1.text ≠ e'.1.text := by
        intro heq
        have : hasKey e.1.text rest = true := List.any_eq_true.2 ⟨e', he', by simp [heq]⟩
        rw [h.1] at this
        cases this
      rw [hasKey_append, hd e' (List.mem_cons_of_mem _ he'), hasKey_cons, decide_eq_false hne]
      rfl

end ScriptLint.Entries
