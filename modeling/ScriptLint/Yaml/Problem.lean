import ScriptLint.Text.Quoted
import ScriptLint.Yaml.Cursor

/-!
# What can be wrong with a YAML text

A text that cannot be loaded has a problem at a place, and often a context: what was being read,
and where that began. Problems and contexts are causes with what their wording quotes. A value may
also be impossible although the text is sound, such as a day of a thirteenth month; such a fault
has a kind and a reason, but no place (`ValueFault`).
-/

namespace ScriptLint.Yaml

/-- What is wrong. -/
inductive Problem where
  -- Tokens.
  | noColon
  | entriesNotAllowed
  | keysNotAllowed
  | valuesNotAllowed
  | cannotStart (c : Char)
  | notName (c : Char)
  | notDigit (c : Char)
  | notDigitOrPoint (c : Char)
  | notDigitOrSpace (c : Char)
  | notSpace (c : Char)
  | notLineEnd (c : Char)
  | notTagEnd (c : Char)
  | notHandle (c : Char)
  | notUri (c : Char)
  | notUriEscape (c : Char)
  | notUriText (reason : String)
  | zeroIndent
  | notHeader (c : Char)
  | endOfStream
  | separatorInside
  | notEscape (digits : Nat) (c : Char)
  | unknownEscape (c : Char)
  -- Documents and nodes.
  | notDocumentStart (token : String)
  | repeatedVersion
  | foreignVersion
  | repeatedHandle (handle : Text)
  | unknownHandle (handle : Text)
  | noContent (token : String)
  | notBlockEnd (token : String)
  | notSequenceEnd (token : String)
  | notMappingEnd (token : String)
  | unknownAnchor (name : Text)
  | secondAnchor
  | secondDocument
  -- Values.
  | unknownTag (tag : Text)
  | unusableKey
  | mergeItem (kind : String)
  | mergeValue (kind : String)
  | wrongNode (expected kind : String)
  | notSequence (kind : String)
  | notPair (kind : String)
  | notOnePair (count : Nat)
  | notAscii (reason : String)
  | notBase64 (reason : String)
deriving DecidableEq, Repr

/-- A character between quotes. -/
def quotedChar (c : Char) : String := (Text.quoted [c]).string

/-- A problem in words. -/
def Problem.text : Problem → String
  | noColon => "could not find expected ':'"
  | entriesNotAllowed => "sequence entries are not allowed here"
  | keysNotAllowed => "mapping keys are not allowed here"
  | valuesNotAllowed => "mapping values are not allowed here"
  | cannotStart c => "found character " ++ quotedChar c ++ " that cannot start any token"
  | notName c => "expected alphabetic or numeric character, but found " ++ quotedChar c
  | notDigit c => "expected a digit, but found " ++ quotedChar c
  | notDigitOrPoint c => "expected a digit or '.', but found " ++ quotedChar c
  | notDigitOrSpace c => "expected a digit or ' ', but found " ++ quotedChar c
  | notSpace c => "expected ' ', but found " ++ quotedChar c
  | notLineEnd c => "expected a comment or a line break, but found " ++ quotedChar c
  | notTagEnd c => "expected '>', but found " ++ quotedChar c
  | notHandle c => "expected '!', but found " ++ quotedChar c
  | notUri c => "expected URI, but found " ++ quotedChar c
  | notUriEscape c =>
    "expected URI escape sequence of 2 hexadecimal numbers, but found " ++ quotedChar c
  | notUriText reason => reason
  | zeroIndent => "expected indentation indicator in the range 1-9, but found 0"
  | notHeader c => "expected chomping or indentation indicators, but found " ++ quotedChar c
  | endOfStream => "found unexpected end of stream"
  | separatorInside => "found unexpected document separator"
  | notEscape digits c =>
    "expected escape sequence of " ++ toString digits ++ " hexadecimal numbers, but found " ++
      quotedChar c
  | unknownEscape c => "found unknown escape character " ++ quotedChar c
  | notDocumentStart token => "expected '<document start>', but found '" ++ token ++ "'"
  | repeatedVersion => "found duplicate YAML directive"
  | foreignVersion => "found incompatible YAML document (version 1.* is required)"
  | repeatedHandle handle => "duplicate tag handle " ++ (Text.quoted handle).string
  | unknownHandle handle => "found undefined tag handle " ++ (Text.quoted handle).string
  | noContent token => "expected the node content, but found '" ++ token ++ "'"
  | notBlockEnd token => "expected <block end>, but found '" ++ token ++ "'"
  | notSequenceEnd token => "expected ',' or ']', but got '" ++ token ++ "'"
  | notMappingEnd token => "expected ',' or '\x7d', but got '" ++ token ++ "'"
  | unknownAnchor name => "found undefined alias " ++ (Text.quoted name).string
  | secondAnchor => "second occurrence"
  | secondDocument => "but found another document"
  | unknownTag tag => "could not determine a constructor for the tag " ++ (Text.quoted tag).string
  | unusableKey => "found unhashable key"
  | mergeItem kind => "expected a mapping for merging, but found " ++ kind
  | mergeValue kind => "expected a mapping or list of mappings for merging, but found " ++ kind
  | wrongNode expected kind => "expected a " ++ expected ++ " node, but found " ++ kind
  | notSequence kind => "expected a sequence, but found " ++ kind
  | notPair kind => "expected a mapping of length 1, but found " ++ kind
  | notOnePair count => "expected a single mapping item, but found " ++ toString count ++ " items"
  | notAscii reason => "failed to convert base64 data into ascii: " ++ reason
  | notBase64 reason => "failed to decode base64 data: " ++ reason

/-- What was being read. -/
inductive Context where
  | nextToken
  | simpleKey
  | directive
  | directivePart
  | reference
  | anchor
  | tag
  | tagPart
  | blockScalar
  | doubleQuoted
  | quoted
  | node
  | blockNode
  | flowNode
  | blockCollection
  | blockMapping
  | flowSequence
  | flowMapping
  | singleDocument
  | firstAnchor (name : Text)
  | mapping
  | orderedMap
  | pairs
deriving DecidableEq, Repr

/-- A context in words. -/
def Context.text : Context → String
  | nextToken => "while scanning for the next token"
  | simpleKey => "while scanning a simple key"
  | directive => "while scanning a directive"
  | directivePart => "while parsing a directive"
  | reference => "while scanning an alias"
  | anchor => "while scanning an anchor"
  | tag => "while scanning a tag"
  | tagPart => "while parsing a tag"
  | blockScalar => "while scanning a block scalar"
  | doubleQuoted => "while scanning a double-quoted scalar"
  | quoted => "while scanning a quoted scalar"
  | node => "while parsing a node"
  | blockNode => "while parsing a block node"
  | flowNode => "while parsing a flow node"
  | blockCollection => "while parsing a block collection"
  | blockMapping => "while parsing a block mapping"
  | flowSequence => "while parsing a flow sequence"
  | flowMapping => "while parsing a flow mapping"
  | singleDocument => "expected a single document in the stream"
  | firstAnchor name =>
    "found duplicate anchor " ++ (Text.quoted name).string ++ "; first occurrence"
  | mapping => "while constructing a mapping"
  | orderedMap => "while constructing an ordered map"
  | pairs => "while constructing pairs"

/-- What the text was being turned into when the problem came up. -/
inductive Phase where
  | tokens
  | nodes
  | anchors
  | values
deriving DecidableEq, Repr

/-- A problem at a place. -/
structure Error where
  phase : Phase
  context : Option Context := none
  /-- Where what was being read began. -/
  since : Option Place := none
  problem : Problem
  place : Place
deriving DecidableEq, Repr

/-- A place in words; lines and columns count from one. -/
def Place.text (source : Text) (p : Place) : String :=
  "  in \"" ++ source.string ++ "\", line " ++ toString (p.line + 1) ++ ", column " ++
    toString (p.column + 1)

/-- An error in words: the context and its place, the problem and its place, each on a line; the
place of the context is left out if it is the place of the problem. -/
def Error.text (source : Text) (e : Error) : String :=
  let context := (e.context.map Context.text).toList
  let since := match e.since with
    | some p => if p.line = e.place.line ∧ p.column = e.place.column then [] else [p.text source]
    | none => []
  "\n".intercalate (context ++ since ++ [e.problem.text, e.place.text source])

/-- Why a value is impossible. -/
inductive ValueFault where
  | emptyNumber
  | notWhole (base : Nat) (t : Text)
  | notNumber (t : Text)
  | notTruth (t : Text)
  | notMoment
  | year (n : Nat)
  | month
  | day
  | hour
  | minute
  | second
  /-- An offset of a day or more, in minutes. -/
  | offset (minutes : Int)
  | character
deriving DecidableEq, Repr

namespace ValueFault

/-- The kind of a fault. -/
def kind : ValueFault → String
  | emptyNumber => "IndexError"
  | notTruth _ => "KeyError"
  | notMoment => "AttributeError"
  | _ => "ValueError"

/-- A span of time as days and seconds of the last day. -/
def spanText (minutes : Int) : String :=
  let days := minutes.fdiv 1440
  let seconds := minutes.fmod 1440 * 60
  let parts := (if days = 0 then [] else ["days=" ++ toString days]) ++
    (if seconds = 0 then [] else ["seconds=" ++ toString seconds])
  "datetime.timedelta(" ++ ", ".intercalate parts ++ ")"

/-- The reason of a fault in words. -/
def reason : ValueFault → String
  | emptyNumber => "string index out of range"
  | notWhole base t =>
    "invalid literal for int() with base " ++ toString base ++ ": " ++ (Text.quoted t).string
  | notNumber t => "could not convert string to float: " ++ (Text.quoted t).string
  | notTruth t => (Text.quoted t).string
  | notMoment => "'NoneType' object has no attribute 'groupdict'"
  | year n => "year " ++ toString n ++ " is out of range"
  | month => "month must be in 1..12"
  | day => "day is out of range for month"
  | hour => "hour must be in 0..23"
  | minute => "minute must be in 0..59"
  | second => "second must be in 0..59"
  | offset minutes =>
    "offset must be a timedelta strictly between " ++
      "-timedelta(hours=24) and timedelta(hours=24), not " ++ spanText minutes ++ "."
  | character => "chr() arg not in range(0x110000)"

end ValueFault

/-- Why a text cannot be loaded. -/
inductive Failure where
  /-- A character that no YAML text may hold, by its code and its index. -/
  | character (code index : Nat)
  | error (e : Error)
  | value (fault : ValueFault)
deriving DecidableEq, Repr

/-- A character that is not allowed, in words. -/
def characterText (source : Text) (code index : Nat) : String :=
  "unacceptable character #x" ++ (Text.hex 4 code).string ++
    ": special characters are not allowed\n  in \"" ++
    source.string ++ "\", position " ++ toString index

end ScriptLint.Yaml
