import ScriptLint.Command
import ScriptLint.Fault

/-!
# Blocks of commands

A script is a list of command lines. A line may open a block, which is a list of commands again; it
is the key of a map then, and the block is its node. The commands are checked in the order they are
written, and each sees the names that the ones before it introduced, however deep they stand.
-/

namespace ScriptLint

/-- Checks a command line; the result is what is known after it. -/
def checkCommand (v : Vocabulary) (t : Tracked) (k : Known) : Check Known :=
  ⟨Command.lineLog v k t, .ok (Command.extendByLine k t.text)⟩

mutual

/-- Checks the commands of a list in order. -/
def checkCommands (v : Vocabulary) : List Node → Known → Check Known
  | [], k => pure k
  | node :: rest, k => do
    let k ← checkEntry v node k
    checkCommands v rest k

/-- Checks an entry of a list of commands. -/
def checkEntry (v : Vocabulary) : Node → Known → Check Known
  | .scalar t, k => checkCommand v t k
  | .map entries _, k => checkBlocks v entries k
  | node, _ => Check.refuse node .commandList

/-- Checks commands with their blocks. -/
def checkBlocks (v : Vocabulary) : List (Tracked × Node) → Known → Check Known
  | [], k => pure k
  | (key, block) :: rest, k => do
    let k ← checkCommand v key k
    let k ← checkBlock v key block k
    checkBlocks v rest k

/-- Checks the block of a command. -/
def checkBlock (v : Vocabulary) (key : Tracked) : Node → Known → Check Known
  | .list items _, k => checkCommands v items k
  | .map entries _, k => do
    Check.report (if entries.isEmpty then [] else [(Issue.keysInBlock key.text).onLine key.line])
    pure k
  | .scalar _, k => pure k
  | node, _ => Check.refuse node .commandBlock

end

end ScriptLint
