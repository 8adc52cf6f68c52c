import ScriptLint.ScriptType

/-!
# Built-in script types

The script types that every script may use, with their schemas: the core types, then the types of
the server platform.
-/

namespace ScriptLint.Schema

/-- Patterns that each cover one path. -/
def exactly (paths : List String) : List KeyPattern := paths.map fun p => .exact p.toList

/-- Patterns that each cover what is below a stem. -/
def sections (stems : List String) : List KeyPattern := stems.map fun p => .below p.toList

/-- The keys that only types with scripts have. -/
def generalForbidden : List KeyPattern := exactly ["script", "actions", "steps", "events"]

/-- Data of any shape. -/
def data : Schema where
  forbidden := generalForbidden
  values := [.any]
  lists := [.any]
  embedsScripts := false

end ScriptLint.Schema

namespace ScriptLint.Registry

open Schema

/-- The built-in types and their schemas. -/
def builtinTypes : List (String × Schema) := [
  ("custom", {
    forbidden := generalForbidden,
    values := exactly ["inherit"] ++ [.any],
    scripts := sections ["tags", "mechanisms"] }),
  ("procedure", {
    required := exactly ["script"],
    forbidden := exactly ["events", "actions", "steps"],
    values := exactly ["definitions"],
    scripts := exactly ["script"],
    strict := true }),
  ("task", {
    required := exactly ["script"],
    forbidden := exactly ["events", "actions", "steps"],
    values := exactly ["definitions"],
    scripts := exactly ["script"] }),
  ("world", {
    required := exactly ["events"],
    forbidden := exactly ["script", "actions", "steps"],
    scripts := sections ["events"] }),
  ("data", Schema.data),
  ("yaml data", Schema.data),
  ("assignment", {
    required := exactly ["actions", "interact scripts"],
    forbidden := exactly ["script", "steps", "events"],
    values := sections ["default constants", "constants"],
    lists := exactly ["interact scripts"],
    scripts := sections ["actions"],
    strict := true }),
  ("book", {
    required := exactly ["title", "author", "text"],
    forbidden := generalForbidden,
    values := exactly ["title", "author", "signed"],
    lists := exactly ["text"],
    strict := true,
    embedsScripts := false }),
  ("command", {
    required := exactly ["name", "description", "usage", "script"],
    forbidden := exactly ["steps", "actions", "events"],
    values := exactly ["name", "description", "usage", "permission", "permission message"],
    lists := exactly ["aliases"],
    scripts := exactly ["allowed help", "tab complete", "script"] }),
  ("economy", {
    required := exactly ["priority", "name single", "name plural", "digits", "format", "balance",
      "has", "withdraw", "deposit"],
    forbidden := generalForbidden,
    values := exactly ["priority", "name single", "name plural", "digits", "format", "balance",
      "has"],
    scripts := exactly ["withdraw", "deposit"],
    strict := true }),
  ("entity", {
    required := exactly ["entity_type"],
    forbidden := generalForbidden,
    values := [.any],
    embedsScripts := false }),
  ("format", {
    required := exactly ["format"],
    forbidden := generalForbidden,
    values := exactly ["format"],
    strict := true,
    embedsScripts := false }),
  ("interact", {
    required := exactly ["steps"],
    forbidden := exactly ["script", "actions", "events"],
    scripts := sections ["steps"],
    strict := true }),
  ("inventory", {
    required := exactly ["inventory"],
    forbidden := generalForbidden,
    values := exactly ["inventory", "title", "size"] ++ sections ["definitions"],
    lists := exactly ["slots"],
    scripts := exactly ["procedural items"],
    strict := true }),
  ("item", {
    required := exactly ["material"],
    forbidden := generalForbidden,
    values := exactly ["material", "display name", "durability", "no_id", "color", "book"] ++
      sections ["mechanisms", "recipes"],
    lists := exactly ["lore", "enchantments"] ++ sections ["mechanisms", "recipes"],
    embedsScripts := false }),
  ("map", {
    forbidden := generalForbidden,
    values := exactly ["original", "display name", "auto update"] ++ sections ["objects"],
    strict := true,
    embedsScripts := false })]

/-- The registry of the built-in types. -/
def builtin : Registry := ofTypes (builtinTypes.map fun (name, schema) => (name.toList, schema))

end ScriptLint.Registry
