import ScriptLint.Diagnostic
import ScriptLint.Text

/-!
# Issues

An issue is the cause of a diagnostic, with what its message quotes. Its severity, its key and its
wording are functions of the cause (`Issue.category`, `Issue.key`, `Issue.message`), so that a
check only says what it found and where (`Issue.onLine`).
-/

namespace ScriptLint

/-- What a check may find. -/
inductive Issue where
  -- The shape of the document.
  | repeatedKey (key : Text)
  | shrunkSpacing (previous width : Int) (expected : List Int)
  | grownSpacing
  | orphanEntry
  | orphanKey
  -- The arguments of a command.
  | pointlessQuotes
  | openQuote
  -- Tags.
  | unevenTag (argument : Text)
  | unknownTagBase (name : Text)
  | unknownTagPart (name : Text)
  | documentedTag (name : Text)
  -- Commands.
  | keysInBlock (command : Text)
  | emptyCommand
  | unknownCommand (name : Text)
  | tooFewArguments (name : Text) (least given : Nat)
  | queueClear
  | rawObject (argument : Text)
  | undefinedName (name : Text)
  | unsavedEntry (name : Text)
  | unknownMechanism (name : Text)
  | noMechanism
  -- Containers.
  | notContainer (name : Text)
  | missingType (name : Text)
  | unknownType (type : Text)
  | debugTrue
  | debugUnknown
  | missingKey (type pattern : Text)
  | forbiddenKey (type key : Text)
  | unknownKey (type key : Text)
  | valueForCollection (type key : Text)
  | listForValue (key : Text)
  | listForSection (type key : Text)
  | sectionForValue (type key : Text)
  | sectionForList (type key : Text)
  | unlikeUsage (expected : Text)
  | objectInAction
  | unknownAction (name : Text)
  | objectInEvent
  | unknownEvent (name : Text)
  -- The lines of the source.
  | invalidYaml (problem : String)
  | strayBlank
  | textAfterKey
  | uselessLine
  | rawTab
  | oldBraces
  | ancientDefinition
  | oldDefinition
  | indentedStart
  -- Statistics.
  | headingCount (n : Nat)
  | codeCount (n : Nat)
  | commentCount (n : Nat)
  | blankCount (n : Nat)
  -- Faults of the checker.
  | faultTrace
  | faultInContainer (name : Text) (kind reason : String)
  | faultInScript (kind reason : String)

namespace Issue

/-- How severe an issue is. -/
def category : Issue → Category
  | unknownCommand _ | tooFewArguments .. | notContainer _ | missingType _ | unknownType _
  | invalidYaml _
  | oldBraces | ancientDefinition | indentedStart => .error
  | pointlessQuotes | queueClear | debugTrue | debugUnknown | unlikeUsage _ | strayBlank =>
    .minorWarning
  | headingCount _ | codeCount _ | commentCount _ | blankCount _ => .info
  | repeatedKey _ | faultTrace => .debug
  | _ => .warning

/-- The key that groups issues of one sort. -/
def key : Issue → String
  | repeatedKey _ => "duplicate_key"
  | shrunkSpacing .. => "shrunk_spacing"
  | grownSpacing => "growing_spaces_in_script"
  | orphanEntry => "orphan_list_entry"
  | orphanKey => "orphan_key"
  | pointlessQuotes => "bad_quotes"
  | openQuote => "missing_quotes"
  | unevenTag _ => "uneven_tags"
  | unknownTagBase _ => "bad_tag_base"
  | unknownTagPart _ => "bad_tag_part"
  | documentedTag _ => "xtag_notation"
  | keysInBlock _ => "bad_command_block"
  | emptyCommand => "empty_command"
  | unknownCommand _ => "unknown_command"
  | tooFewArguments .. => "too_few_args"
  | queueClear => "queue_clear"
  | rawObject _ => "raw_object_notation"
  | undefinedName _ => "def_of_nothing"
  | unsavedEntry _ => "entry_to_nowhere"
  | unknownMechanism _ => "bad_adjust_unknown_mech"
  | noMechanism => "bad_adjust_no_mech"
  | notContainer _ | missingType _ => "no_type_key"
  | unknownType _ => "wrong_type"
  | debugTrue => "debug_mode_true"
  | debugUnknown => "debug_mode_unknown"
  | missingKey type _ => "missing_key_" ++ type.string
  | forbiddenKey type _ | valueForCollection type _ | listForSection type _
  | sectionForValue type _
  | sectionForList type _ => "bad_key_" ++ type.string
  | unknownKey type _ => "unknown_key_" ++ type.string
  | listForValue _ => "list_should_be_value"
  | unlikeUsage _ => "command_script_usage"
  | objectInAction => "action_object_notation"
  | unknownAction _ => "action_missing"
  | objectInEvent => "event_object_notation"
  | unknownEvent _ => "event_missing"
  | invalidYaml _ => "invalid_yaml"
  | strayBlank => "stray_space_eol"
  | textAfterKey => "text_after_key"
  | uselessLine => "useless_line"
  | rawTab => "raw_tab_symbol"
  | oldBraces => "old_braces"
  | ancientDefinition => "ancient_defs"
  | oldDefinition => "old_defs"
  | indentedStart => "no_container_start"
  | headingCount _ => "stat_structure"
  | codeCount _ => "stat_code"
  | commentCount _ => "stat_comment"
  | blankCount _ => "stat_blank"
  | faultTrace => "exception_trace"
  | faultInContainer .. | faultInScript .. => "exception_internal"

/-- What users are told. The state of the checker at a fault is not part of the report, so the
trace of a fault only says that there was one. -/
def message : Issue → String
  | repeatedKey key => "Key '" ++ key.string ++ "' repeated, later value wins."
  | shrunkSpacing previous width expected =>
    "Simple spacing error - shrunk unexpectedly to new space count, from " ++ toString previous ++
      " down to " ++ toString width ++ ", while expecting any of: " ++
      ", ".intercalate (expected.map toString) ++ "."
  | grownSpacing =>
    "Spacing grew for no reason (missing a ':' on a command, or accidental over-spacing?)."
  | orphanEntry =>
    "List entry is not under any key (missing a 'key:' line above it, or bad spacing?)."
  | orphanKey => "Key line sits inside a list (missing a '-', or bad spacing?)."
  | pointlessQuotes => "Pointless quotes (arguments quoted but do not contain a space)."
  | openQuote => "Uneven quotes (forgot to close a quote?)."
  | unevenTag argument =>
    "Uneven number of tag marks (forgot to close a tag?) in '" ++ argument.string ++ "'."
  | unknownTagBase name =>
    "Invalid tag base '" ++ name.string ++ "' (check `!tag ...` to find valid tags)."
  | unknownTagPart name =>
    "Invalid tag part '" ++ name.string ++ "' (check `!tag ...` to find valid tags)."
  | documentedTag name =>
    "'" ++ name.string ++ "' is documentation notation (like 'PlayerTag'); " ++
      "replace it with an actual tag or value."
  | keysInBlock command =>
    "Command block '" ++ command.string ++ "' holds keys instead of a list of commands."
  | emptyCommand => "Empty command line."
  | unknownCommand name => "Unknown command `" ++ name.string ++ "` (typo?)."
  | tooFewArguments name least given =>
    "Insufficient arguments... the `" ++ name.string ++ "` command requires at least " ++
      toString least ++ " arguments, but you only have " ++ toString given ++ "."
  | queueClear => "Old style 'queue clear'. Use the modern 'stop' command instead."
  | rawObject argument =>
    "Raw object notation in '" ++ argument.string ++
      "' is outdated (use a tag like '<player[name]>' instead)."
  | undefinedName name =>
    "Definition '" ++ name.string ++
      "' is referenced but never defined (typo, or missing a 'define' line?)."
  | unsavedEntry name =>
    "Save entry '" ++ name.string ++
      "' is referenced but never saved (typo, or missing a 'save:' argument?)."
  | unknownMechanism name =>
    "Unknown mechanism `" ++ name.string ++ "` (typo, or wrong object type?)."
  | noMechanism => "Malformed adjust command. No mechanism input given."
  | notContainer name =>
    "Container '" ++ name.string ++ "' is not a script container (missing 'type' key)."
  | missingType name => "Missing 'type' key in container '" ++ name.string ++ "'."
  | unknownType type => "Unknown script type '" ++ type.string ++ "' (possible typo?)."
  | debugTrue => "Debug mode 'true' is default, and thus the line should simply be removed."
  | debugUnknown =>
    "Debug mode specified is unrecognized. The only valid debug mode setting is 'false' " ++
      "(or leave the line entirely off)."
  | missingKey type pattern =>
    "Missing required key `" ++ pattern.string ++ "` for `" ++ type.string ++ "` scripts."
  | forbiddenKey type key =>
    "Key `" ++ key.string ++ "` is not valid in `" ++ type.string ++
      "` scripts (possibly a wrong script type?)."
  | unknownKey type key =>
    "Unexpected key `" ++ key.string ++ "` (typo, or misplaced key?) in `" ++
      type.string ++ "` script."
  | valueForCollection _ key =>
    "Key `" ++ key.string ++ "` should hold a list or a section of keys, but holds a single value."
  | listForValue key => "Key `" ++ key.string ++ "` should hold a single value, but holds a list."
  | listForSection _ key =>
    "Key `" ++ key.string ++ "` should be a section of keys, but holds a list."
  | sectionForValue _ key =>
    "Key `" ++ key.string ++ "` should hold a single value, but holds a section of keys."
  | sectionForList _ key =>
    "Key `" ++ key.string ++ "` should hold a list, but holds a section of keys."
  | unlikeUsage expected =>
    "Command script usage should be exactly like `" ++ expected.string ++
      " ...` (starting with a slash and the command name)."
  | objectInAction => "Action line contains raw object notation ('@'), which is not allowed here."
  | unknownAction name =>
    "Action `" ++ name.string ++ "` does not exist (typo, or outdated action?)."
  | objectInEvent => "Event line contains raw object notation ('@'), which is not allowed here."
  | unknownEvent name => "Event `" ++ name.string ++ "` does not exist (typo, or outdated event?)."
  | invalidYaml problem => "Invalid YAML! Error message: " ++ problem
  | strayBlank =>
    "Stray space after end of line (possible copy/paste mixup. " ++
      "Enable View->Render Whitespace in VS Code)."
  | textAfterKey =>
    "Text after end of script key (possible malformed line, missing a space after ':'?)."
  | uselessLine =>
    "Useless/invalid line " ++
      "(possibly missing a `-` or a `:`, or just accidentally hit enter or paste)."
  | rawTab => "This script uses the raw tab symbol. Please switch these out for 2 or 4 spaces."
  | oldBraces =>
    "This script uses outdated \x7b braced \x7d syntax. Please update to modern 'colon:' syntax."
  | ancientDefinition =>
    "This script uses ancient %defs%. Please update to modern '<[defname]>' syntax."
  | oldDefinition =>
    "This script uses <def[old-defs]>. Please update to modern '<[defname]>' syntax."
  | indentedStart => "Script didn't start with a container name (possible spacing mishap?)."
  | headingCount n => "(Statistics) Total structural lines: " ++ toString n
  | codeCount n => "(Statistics) Total live code lines: " ++ toString n
  | commentCount n => "(Statistics) Total comment lines: " ++ toString n
  | blankCount n => "(Statistics) Total blank lines: " ++ toString n
  | faultTrace => "<traceback>"
  | faultInContainer name kind reason =>
    "Internal exception while checking container '" ++ name.string ++ "' (" ++ kind ++
      ": " ++ reason ++
      "), please report this."
  | faultInScript kind reason =>
    "Internal exception while checking the script (" ++ kind ++ ": " ++ reason ++
      "), please report this."

/-- The diagnostic of an issue on a line. -/
def onLine (issue : Issue) (line : Int) : Diagnostic :=
  ⟨issue.category, issue.key, line, issue.message⟩

end Issue

end ScriptLint
