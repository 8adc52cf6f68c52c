import ScriptLint.Yaml.Problem

/-!
# YAML tokens

The tokens of a YAML text, with the places where they begin and end. Block collections have tokens
for their starts and ends, which come from the indentation of lines; a key that is followed by a
colon has a key token in front of it.
-/

namespace ScriptLint.Yaml

/-- A line that starts with a percent sign. -/
inductive Directive where
  | version (major minor : Nat)
  /-- The start of the tags that are written with a handle. -/
  | handle (name start : Text)
  | other (name : Text)
deriving DecidableEq, Repr

/-- What a token is. -/
inductive TokenKind where
  | streamEnd
  | directive (d : Directive)
  | documentStart
  | documentEnd
  | blockSequenceStart
  | blockMappingStart
  | blockEnd
  | flowSequenceStart
  | flowMappingStart
  | flowSequenceEnd
  | flowMappingEnd
  | blockEntry
  | flowEntry
  | key
  | value
  /-- Another occurrence of an anchored node. -/
  | reference (name : Text)
  | anchor (name : Text)
  | tag (handle : Option Text) (suffix : Text)
  | scalar (text : Text) (plain : Bool)
deriving DecidableEq, Repr

/-- What a token is called in messages. -/
def TokenKind.name : TokenKind → String
  | streamEnd => "<stream end>"
  | directive _ => "<directive>"
  | documentStart => "<document start>"
  | documentEnd => "<document end>"
  | blockSequenceStart => "<block sequence start>"
  | blockMappingStart => "<block mapping start>"
  | blockEnd => "<block end>"
  | flowSequenceStart => "["
  | flowMappingStart => "\x7b"
  | flowSequenceEnd => "]"
  | flowMappingEnd => "\x7d"
  | blockEntry => "-"
  | flowEntry => ","
  | key => "?"
  | value => ":"
  | reference _ => "<alias>"
  | anchor _ => "<anchor>"
  | tag .. => "<tag>"
  | scalar .. => "<scalar>"

/-- A token and where it begins and ends. -/
structure Token where
  kind : TokenKind
  first : Place
  last : Place
deriving DecidableEq, Repr

/-- Stops at a cursor with a problem. -/
def Cursor.fail {α : Type} (c : Cursor) (context : Option Context) (since : Option Place)
    (problem : Problem) : Except Failure α :=
  .error (.error { phase := .tokens, context, since, problem, place := c.place })

end ScriptLint.Yaml
