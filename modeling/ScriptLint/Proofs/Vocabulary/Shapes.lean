import Mathlib.Data.List.Induction
import ScriptLint.Proofs.Names
import ScriptLint.Vocabulary.Data

/-!
# The shapes of command data

Commands with their least numbers of arguments are given in one of three shapes: a map from names
to numbers, a map from names to descriptions, or a list of descriptions with names
(`CommandShape`). Each shape gives the same commands, and of several names that are one key, in
lower case and without blanks around it, the last one counts (`ofData_shapes`).

A list is turned into a map first. Its names are different texts, so this map has the descriptions
in their order (`commandEntries_listed`). From then on all shapes are maps from the same names, and
what differs is what stands for the number (`commandsOfEntries_map`).
-/

namespace ScriptLint.Vocabulary

/-! ## Keys -/

/-- The key of a name. -/
def keyOf (name : Text) : Text := Text.lower (Text.trim name)

section

variable {α β : Type}

/-- A later entry is put in front, and replaces those with its key. -/
theorem byKey_concat (entries : List (Value × α)) (e : Value × α) :
    byKey (entries ++ [e]) = (keyOf e.1.name, e.2) ::
    (byKey entries).filter (·.1 ≠ keyOf e.1.name) := by
  rw [byKey, List.foldl_append]
  rfl

/-- What the entries hold does not matter to their keys. -/
theorem byKey_map (f : α → β) (entries : List (Value × α)) :
    byKey (entries.map fun e => (e.1, f e.2)) = (byKey entries).map fun e => (e.1, f e.2) := by
  induction entries using List.reverseRecOn with
  | nil => rfl
  | append_singleton entries e ih =>
    rw [List.map_append, List.map_singleton, byKey_concat, ih, byKey_concat, List.filter_map,
      List.map_cons]
    rfl

/-- Leaving out the entries of another key does not change a look-up. -/
theorem lookup_filter_ne {key other : Text} (h : key ≠ other) (l : List (Text × α)) :
    (l.filter (·.1 ≠ other)).lookup key = l.lookup key := by
  induction l with
  | nil => rfl
  | cons e rest ih =>
    by_cases he : e.1 = other
    · have hkey : (key == e.1) = false := by simpa [he] using h
      rw [List.filter_cons_of_neg (by simpa using he), ih, List.lookup_cons, hkey]
    · rw [List.filter_cons_of_pos (by simpa using he), List.lookup_cons, List.lookup_cons, ih]

/-- The last entry of a key is the one that is found. -/
theorem lookup_byKey (entries : List (Value × α)) (key : Text) :
    (byKey entries).lookup key =
      (entries.reverse.find? fun e => decide (keyOf e.1.name = key)).map (·.2) := by
  induction entries using List.reverseRecOn with
  | nil => rfl
  | append_singleton entries e ih =>
    rw [byKey_concat, List.reverse_concat, List.lookup_cons, List.find?_cons]
    by_cases he : keyOf e.1.name = key
    · simp [he]
    · have hkey : (key == keyOf e.1.name) = false := by simpa using Ne.symm he
      rw [hkey, decide_eq_false he]
      exact (lookup_filter_ne (Ne.symm he) _).trans ih

end

/-! ## Shapes -/

/-- How commands are given. -/
inductive CommandShape where
  /-- A map from names to numbers. -/
  | numbers
  /-- A map from names to descriptions. -/
  | descriptions
  /-- A list of descriptions with names. -/
  | listed

/-- The field of a description for the least number of arguments. -/
def leastField (least : Nat) : Value × Value := (.text "min_required_args".toList, .int least)

/-- A description with a name. -/
def listedCommand (c : Text × Nat) : Value :=
  .map [(.text "name".toList, .text c.1), leastField c.2]

/-- Commands with their least numbers of arguments as data. -/
def CommandShape.data (commands : List (Text × Nat)) : CommandShape → Value
  | numbers => .map (commands.map fun c => (.text c.1, .int c.2))
  | descriptions => .map (commands.map fun c => (.text c.1, .map [leastField c.2]))
  | listed => .list (commands.map listedCommand)

/-- The commands by their keys. -/
def commandTable (commands : List (Text × Nat)) : List (Text × CommandInfo) :=
  (byKey (commands.map fun c => (Value.text c.1, c))).map fun e => (e.1, ⟨e.1, e.2.2⟩)

/-- A number is read as the fewest arguments of a command. -/
theorem commandWithLeast_int (key : Text) (least : Nat) :
    commandWithLeast key (.int least) = .ok ⟨key, least⟩ := by
  have hnonneg : ¬ (least : Int) < 0 := Int.not_lt.2 (Int.natCast_nonneg least)
  simp only [commandWithLeast, leastOf, pure, Except.pure, if_neg hnonneg, Int.toNat_natCast]

/-- A description is read by its field for the fewest arguments. -/
theorem commandOf_description (key : Text) {fields : List (Value × Value)} {least : Nat}
    (h : Value.field? "min_required_args" fields = some (.int least)) :
    commandOf key (.map fields) = .ok ⟨key, least⟩ := by
  rw [commandOf, h]
  exact commandWithLeast_int key least

/-- A field of another name does not matter. -/
theorem field?_cons_ne {field : String} {key : Text} (h : key ≠ field.toList) (v : Value)
    (rest : List (Value × Value)) :
    Value.field? field ((.text key, v) :: rest) = Value.field? field rest := by
  rw [Value.field?, if_neg h]

/-- A field is found if it comes first. -/
theorem field?_cons_self (field : String) (v : Value) (rest : List (Value × Value)) :
    Value.field? field ((.text field.toList, v) :: rest) = some v := by
  rw [Value.field?, if_pos rfl]

/-- A map from names to what stands for their numbers gives the commands. -/
theorem commandsOfEntries_map (commands : List (Text × Nat)) {say : Text × Nat → Value}
    (hsay : ∀ key c, commandOf key (say c) = .ok ⟨key, c.2⟩) :
    commandsOfEntries (commands.map fun c => (.text c.1, say c)) =
      (commandTable commands, []) := by
  have hentries : (commands.map fun c => (Value.text c.1, say c)) =
      (commands.map fun c => (Value.text c.1, c)).map fun e => (e.1, say e.2) := by
    rw [List.map_map]
    rfl
  rw [commandsOfEntries, hentries, byKey_map, commandTable]
  induction byKey (commands.map fun c => (Value.text c.1, c)) with
  | nil => rfl
  | cons e rest ih =>
    rw [List.map_cons, List.foldr_cons, ih]
    simp only [hsay, List.map_cons]

/-- An entry with a new key is put at the end. -/
theorem insertEntry_fresh {α : Type} {key : Value} {found : List (Value × α)}
    (h : ∀ e ∈ found, Value.sameKey e.1 key = false) (v : α) :
    Value.insertEntry key v found = found ++ [(key, v)] := by
  induction found with
  | nil => rfl
  | cons e rest ih =>
    obtain ⟨he, hrest⟩ := List.forall_mem_cons.1 h
    rw [Value.insertEntry, if_neg (by simp [he]), ih hrest, List.cons_append]

/-- Different names stay apart and in order. -/
theorem commandEntries_listed {commands : List (Text × Nat)} (h : (commands.map (·.1)).Nodup) :
    commandEntries (commands.map listedCommand) =
      .ok (commands.map fun c => (.text c.1, listedCommand c)) := by
  induction commands using List.reverseRecOn with
  | nil => rfl
  | append_singleton commands c ih =>
    rw [List.map_append, List.map_singleton, ← List.concat_eq_append, List.nodup_concat] at h
    have hfresh : ∀ e ∈ commands.map (fun c => (Value.text c.1, listedCommand c)),
        Value.sameKey e.1 (.text c.1) = false := by
      intro e he
      obtain ⟨d, hd, rfl⟩ := List.mem_map.1 he
      have hne : d.1 ≠ c.1 := fun hdc => h.1 (List.mem_map.2 ⟨d, hd, hdc⟩)
      simpa [Value.sameKey] using hne
    have hname : Value.field? "name" [(.text "name".toList, .text c.1), leastField c.2] =
        some (.text c.1) :=
      field?_cons_self "name" _ _
    have hbefore := ih h.2
    rw [commandEntries] at hbefore ⊢
    rw [List.map_append, List.foldlM_append, hbefore, List.map_append]
    simp only [bind, Except.bind, List.map_singleton, List.foldlM_cons, List.foldlM_nil,
      listedCommand, hname, Value.isKey, if_true, pure, Except.pure]
    exact congrArg Except.ok (insertEntry_fresh hfresh _)

/-! ## Data -/

/-- Each shape gives the commands by their keys. -/
theorem commandsOf_data {commands : List (Text × Nat)} (h : (commands.map (·.1)).Nodup)
    (shape : CommandShape) :
    commandsOf (shape.data commands) = .ok (commandTable commands, []) := by
  cases shape with
  | numbers =>
    exact congrArg Except.ok
      (commandsOfEntries_map commands fun key c => commandWithLeast_int key c.2)
  | descriptions =>
    refine congrArg Except.ok (commandsOfEntries_map commands fun key c => ?_)
    exact commandOf_description key (field?_cons_self "min_required_args" _ _)
  | listed =>
    rw [CommandShape.data, commandsOf, commandEntries_listed h]
    refine congrArg Except.ok
      (commandsOfEntries_map commands fun key c => commandOf_description key ?_)
    rw [field?_cons_ne (by decide)]
    exact field?_cons_self "min_required_args" _ _

/-- If two computations in a row give a value, the first one gives one that leads to it. -/
theorem exists_of_bind_eq_ok {ε α β : Type} {x : Except ε α} {next : α → Except ε β} {b : β}
    (h : x >>= next = .ok b) : ∃ a, x = .ok a ∧ next a = .ok b := by
  cases x with
  | error e => cases h
  | ok a => exact ⟨a, rfl, h⟩

/-- Reading a field passes over one of another name. -/
theorem fieldOf_cons_ne {α : Type} {field : String} {key : Text}
    (h : key ≠ field.toList) (v : Value) (others : List (Value × Value))
    (check : String → Value → Except DataFault (Checked (List α))) :
    fieldOf ((.text key, v) :: others) field check = fieldOf others field check := by
  rw [fieldOf, fieldOf, field?_cons_ne h]

/-- The field for commands is read apart from the others. -/
theorem ofFields_commands {others : List (Value × Value)} {data : Value} {v : Vocabulary}
    {commands : List (Text × CommandInfo)} (hdata : commandsOf data = .ok (commands, []))
    (h : ofFields others = .ok (v, [])) :
    ofFields ((.text "commands".toList, data) :: others) = .ok ({ v with commands }, []) := by
  obtain ⟨⟨_, p₁⟩, -, h⟩ := exists_of_bind_eq_ok h
  obtain ⟨⟨mechanisms, p₂⟩, h₂, h⟩ := exists_of_bind_eq_ok h
  obtain ⟨⟨tagBases, p₃⟩, h₃, h⟩ := exists_of_bind_eq_ok h
  obtain ⟨⟨tagParts, p₄⟩, h₄, h⟩ := exists_of_bind_eq_ok h
  obtain ⟨⟨actions, p₅⟩, h₅, h⟩ := exists_of_bind_eq_ok h
  obtain ⟨⟨actionPatterns, p₆⟩, h₆, h⟩ := exists_of_bind_eq_ok h
  obtain ⟨⟨events, p₇⟩, h₇, h⟩ := exists_of_bind_eq_ok h
  obtain ⟨⟨eventPatterns, p₈⟩, h₈, h⟩ := exists_of_bind_eq_ok h
  obtain ⟨rfl, hproblems⟩ := Prod.mk.inj (Except.ok.inj h)
  simp only [List.append_eq_nil_iff] at hproblems
  obtain ⟨⟨⟨⟨⟨⟨⟨-, rfl⟩, rfl⟩, rfl⟩, rfl⟩, rfl⟩, rfl⟩, rfl⟩ := hproblems
  have hcommands :
      fieldOf ((.text "commands".toList, data) :: others) "commands" (fun _ => commandsOf) =
      .ok (commands, []) := by
    rw [fieldOf, field?_cons_self]
    exact hdata
  unfold ofFields
  rw [hcommands, fieldOf_cons_ne (by decide), h₂, fieldOf_cons_ne (by decide), h₃,
    fieldOf_cons_ne (by decide), h₄, fieldOf_cons_ne (by decide), h₅, fieldOf_cons_ne (by decide),
    h₆, fieldOf_cons_ne (by decide), h₇,
    fieldOf_cons_ne (by decide), h₈]
  rfl

/-- Data is accepted if it has no problem. -/
theorem ofData_eq_ok {fields : List (Value × Value)} {v : Vocabulary} :
    ofData (.map fields) = .ok v ↔ ofFields fields = .ok (v, []) := by
  rw [ofData]
  cases hfields : ofFields fields with
  | error fault => exact ⟨nofun, nofun⟩
  | ok checked =>
    obtain ⟨w, problems⟩ := checked
    cases problems with
    | nil => exact ⟨fun h => by cases h; rfl, fun h => by cases h; rfl⟩
    | cons problem problems => exact ⟨nofun, nofun⟩

/-! ## Look-ups -/

/-- The table has the last command of each key. -/
theorem lookup_commandTable (commands : List (Text × Nat)) (key : Text) :
    (commandTable commands).lookup key =
      (commands.reverse.find? fun c => decide (keyOf c.1 = key)).map fun c => ⟨key, c.2⟩ := by
  have hmap : ∀ l : List (Text × Text × Nat),
      (l.map fun e => (e.1, (⟨e.1, e.2.2⟩ : CommandInfo))).lookup key =
        (l.lookup key).map fun c => ⟨key, c.2⟩ := by
    intro l
    induction l with
    | nil => rfl
    | cons e rest ih =>
      rw [List.map_cons, List.lookup_cons, List.lookup_cons, ih]
      cases he : key == e.1 with
      | false => rfl
      | true => rw [eq_of_beq he]; rfl
  rw [commandTable, hmap, lookup_byKey, ← List.map_reverse, List.find?_map, Option.map_map,
    Option.map_map]
  rfl

/-- A look-up gives the last command whose name has the key. -/
theorem command?_eq_some {v : Vocabulary} {commands : List (Text × Nat)} {name : Text}
    {info : CommandInfo} :
    ({ v with commands := commandTable commands } : Vocabulary).command? name = some info ↔
      ∃ c, IsLast (fun c : Text × Nat => keyOf c.1 = Text.lower name) commands c ∧
      info = ⟨keyOf c.1, c.2⟩ := by
  rw [command?, lookup_commandTable, Option.map_eq_some_iff]
  refine exists_congr fun c => ?_
  rw [find?_reverse_eq_some]
  refine and_congr_right fun hlast => ?_
  obtain ⟨-, -, -, hkey, -⟩ := hlast
  rw [hkey]
  exact eq_comm

/-- A look-up fails if no command has the key. -/
theorem command?_eq_none {v : Vocabulary} {commands : List (Text × Nat)} {name : Text} :
    ({ v with commands := commandTable commands } : Vocabulary).command? name = none ↔
      ∀ c ∈ commands, keyOf c.1 ≠ Text.lower name := by
  rw [command?, lookup_commandTable, Option.map_eq_none_iff, List.find?_eq_none]
  simp

/-- Commands with different names and their least numbers of arguments give one table of commands
in each shape, whatever else the data holds. A look-up gives the last command whose name, without
blanks around it, is the name looked up, in any case; the command is called by its key. -/
theorem ofData_shapes {others : List (Value × Value)} {v : Vocabulary}
    (hothers : ofData (.map others) = .ok v) {commands : List (Text × Nat)}
    (hnames : (commands.map (·.1)).Nodup) :
    ∃ table : List (Text × CommandInfo),
      (∀ shape : CommandShape,
        ofData (.map ((.text "commands".toList, shape.data commands) :: others)) =
        .ok { v with commands := table }) ∧
      ∀ name : Text,
        (∀ info, ({ v with commands := table } : Vocabulary).command? name = some info ↔
          ∃ c, IsLast (fun c : Text × Nat => keyOf c.1 = Text.lower name) commands c ∧
          info = ⟨keyOf c.1, c.2⟩) ∧
        (({ v with commands := table } : Vocabulary).command? name = none ↔
          ∀ c ∈ commands, keyOf c.1 ≠ Text.lower name) := by
  refine ⟨commandTable commands, fun shape => ?_,
    fun name => ⟨fun info => command?_eq_some, command?_eq_none⟩⟩
  exact ofData_eq_ok.2 (ofFields_commands (commandsOf_data hnames shape) (ofData_eq_ok.1 hothers))

/-- Three commands, two of which have one key. -/
def collidingCommands : List (Text × Nat) :=
  [("ΣΟΣ".toList, 1), ("walk".toList, 0), (" Σος ".toList, 2)]

/-- A field next to the commands. -/
def baseField : List (Value × Value) := [(.text "tag_bases".toList, .text "Player".toList)]

/-- Two names with one key, in each of the three shapes: the later one is known. -/
theorem ofData_shapes_colliding :
    ofData (.map baseField) = .ok { tagBases := ["player".toList] } ∧
      (collidingCommands.map (·.1)).Nodup ∧
    ∃ table : List (Text × CommandInfo),
      (∀ shape : CommandShape,
        ofData (.map ((.text "commands".toList, shape.data collidingCommands) :: baseField)) =
          .ok { tagBases := ["player".toList], commands := table }) ∧
      ({ commands := table } : Vocabulary).command? "Σοσ".toList = none ∧
      ({ commands := table } : Vocabulary).command? "σΟΣ".toList = some ⟨"σος".toList, 2⟩ := by
  have hothers : ofData (.map baseField) = .ok { tagBases := ["player".toList] } := by rfl
  have hnames : (collidingCommands.map (·.1)).Nodup := by decide
  obtain ⟨table, hshapes, hlookup⟩ := ofData_shapes hothers hnames
  refine ⟨hothers, hnames, table, hshapes, (hlookup _).2.2 (by decide), ((hlookup _).1 _).2 ?_⟩
  exact ⟨(" Σος ".toList, 2),
    ⟨collidingCommands.take 2, [], by decide, by decide, by decide⟩, by decide⟩

end ScriptLint.Vocabulary
