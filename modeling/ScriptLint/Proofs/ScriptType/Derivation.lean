import ScriptLint.Proofs.Names
import ScriptLint.Proofs.Text.Lowered
import ScriptLint.ScriptType

/-!
# Registries that are derived from one another

Every derivation reads the table of the registry again, so a name is put in lower case once for
each derivation after the one that added it, and once more for that one. As lowercase forms are
their own lowercase forms, a chain of derivations is the registry of all its types in the order in
which they were added (`foldl_addAll`), and look-ups give the latest type with a name
(`derived_latest`).
-/

namespace ScriptLint.Registry

variable {types : List (Text × Schema)} {name : Text}

/-- Types are put in lower case one by one. -/
theorem lowered_append (types more : List (Text × Schema)) :
    lowered (types ++ more) = lowered types ++ lowered more :=
  List.map_append

/-- A table in lower case is left as it is. -/
theorem lowered_lowered (types : List (Text × Schema)) :
    lowered (lowered types) = lowered types := by
  rw [lowered, lowered, List.map_map]
  exact List.map_congr_left fun t _ => by simp

/-- Adding types to the registry of a table adds them to the table. -/
theorem addAll_ofTypes (types more : List (Text × Schema)) :
    (ofTypes types).addAll more = ofTypes (types ++ more) := by
  rw [addAll, ofTypes, ofTypes, ofTypes, List.reverse_reverse, lowered_append, lowered_lowered,
    lowered_lowered, lowered_append]

/-- A chain of derivations adds the types of all its steps to the table. -/
theorem foldl_addAll (types : List (Text × Schema)) (steps : List (List (Text × Schema))) :
    steps.foldl addAll (ofTypes types) = ofTypes (types ++ steps.flatten) := by
  induction steps generalizing types with
  | nil => rw [List.foldl_nil, List.flatten_nil, List.append_nil]
  | cons more steps ih =>
    rw [List.foldl_cons, addAll_ofTypes, ih, List.flatten_cons, List.append_assoc]

/-! ## The registry of a table -/

/-- The type has the name, in any case. -/
def HasName (name : Text) (t : Text × Schema) : Prop := Text.lower t.1 = Text.lower name

instance (name : Text) : DecidablePred (HasName name) :=
  fun t => inferInstanceAs (Decidable (t.1.lower = name.lower))

/-- A type is looked up from the end. -/
theorem get?_ofTypes (types : List (Text × Schema)) (name : Text) :
    (ofTypes types).get? name =
      (types.reverse.find? fun t => decide (HasName name t)).map (·.2) := by
  rw [get?, ofTypes, lowered, ← List.map_reverse, List.find?_map, Option.map_map]
  rfl

/-- A look-up gives the last type of the name. -/
theorem get?_ofTypes_eq_some {schema : Schema} :
    (ofTypes types).get? name = some schema ↔
      ∃ added, IsLast (HasName name) types (added, schema) := by
  rw [get?_ofTypes, Option.map_eq_some_iff]
  constructor
  · rintro ⟨⟨added, _⟩, hlast, rfl⟩
    exact ⟨added, find?_reverse_eq_some.1 hlast⟩
  · rintro ⟨added, hlast⟩
    exact ⟨(added, schema), find?_reverse_eq_some.2 hlast, rfl⟩

/-- A look-up fails if no type has the name. -/
theorem get?_ofTypes_eq_none :
    (ofTypes types).get? name = none ↔ ∀ t ∈ types, ¬ HasName name t := by
  rw [get?_ofTypes, Option.map_eq_none_iff, List.find?_eq_none]
  simp

/-- A registry has the names whose look-up succeeds. -/
theorem contains_iff (r : Registry) (name : Text) :
    r.contains name = true ↔ r.get? name ≠ none := by
  rw [contains, get?, List.any_eq_true, ne_eq, Option.map_eq_none_iff, List.find?_eq_none]
  simp

/-- The names of a registry are those of its types, in order, each once. -/
theorem names_ofTypes (types : List (Text × Schema)) :
    SortedOnce (fun a b => Text.le a b = true) (types.map fun t => Text.lower t.1)
      (ofTypes types).names := by
  have h := Text.sortedOnce_spec ((ofTypes types).types.map (·.1))
  refine ⟨h.ordered, h.nodup, fun n => (h.mem_iff n).trans ?_⟩
  simp [ofTypes, lowered]

/-! ## Chains -/

/-- After a chain of derivations, a look-up gives the schema of the latest type with the name in
any case: the one of the latest step, and of one step the last one. A type is known if there is
such a type, and the names are those that were ever added, in lower case, in order and each
once. -/
theorem derived_latest (types : List (Text × Schema)) (steps : List (List (Text × Schema)))
    (name : Text) :
    let r := steps.foldl addAll (ofTypes types)
    (∀ schema, r.get? name = some schema ↔
      ∃ added, IsLast (HasName name) (types ++ steps.flatten) (added, schema)) ∧
    (r.get? name = none ↔ ∀ t ∈ types ++ steps.flatten, ¬ HasName name t) ∧
    (r.contains name = true ↔ r.get? name ≠ none) ∧
    SortedOnce (fun a b => Text.le a b = true) ((types ++ steps.flatten).map fun t =>
      Text.lower t.1) r.names := by
  intro r
  have hr : r = ofTypes (types ++ steps.flatten) := foldl_addAll types steps
  rw [hr]
  exact ⟨fun _ => get?_ofTypes_eq_some, get?_ofTypes_eq_none, contains_iff _ name, names_ofTypes _⟩

end ScriptLint.Registry
