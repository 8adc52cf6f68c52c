import ScriptLint.Regex
import ScriptLint.Text.Case

/-!
# Vocabularies

What is known of the scripting language: the commands with the least number of arguments they take,
the names of mechanisms, tag bases, tag parts, actions and events, and patterns for further actions
and events. All names are kept in lower case, and look-ups lower the name they are given.
-/

namespace ScriptLint

/-- A command and the least number of arguments it takes. -/
structure CommandInfo where
  name : Text
  least : Nat := 0
deriving DecidableEq, Repr

/-- A pattern for names, as it is written and as it is read. -/
structure NamePattern where
  source : Text
  regex : Regex

/-- What is known of the scripting language. -/
structure Vocabulary where
  commands : List (Text × CommandInfo) := []
  mechanisms : List Text := []
  tagBases : List Text := []
  tagParts : List Text := []
  actions : List Text := []
  actionPatterns : List NamePattern := []
  events : List Text := []
  eventPatterns : List NamePattern := []

namespace Vocabulary

/-- The command of a given name. -/
def command? (v : Vocabulary) (name : Text) : Option CommandInfo :=
  v.commands.lookup (Text.lower name)

/-- The mechanism is known. -/
def hasMechanism (v : Vocabulary) (name : Text) : Bool := v.mechanisms.contains (Text.lower name)

/-- The action is known by its name. -/
def hasAction (v : Vocabulary) (name : Text) : Bool := v.actions.contains (Text.lower name)

/-- Some pattern for actions is found in the name. -/
def matchesAction (v : Vocabulary) (name : Text) : Bool :=
  v.actionPatterns.any (·.regex.foundIn name)

/-- The event is known by its name. -/
def hasEvent (v : Vocabulary) (name : Text) : Bool := v.events.contains (Text.lower name)

/-- Some pattern for events is found in the name. -/
def matchesEvent (v : Vocabulary) (name : Text) : Bool :=
  v.eventPatterns.any (·.regex.foundIn name)

end Vocabulary

end ScriptLint
