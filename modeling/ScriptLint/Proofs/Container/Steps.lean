import ScriptLint.Container.Key
import ScriptLint.Proofs.Log

/-!
# The steps of a check of a list

The entries of a list are commands, or they are data that is searched for tags (`Walk`). Either way
the list is walked through in the same order, and what happens on the walk can be read off the list
before anything is checked: it is a list of steps (`itemSteps`). A step checks or searches a text,
reports a block that has keys, or refuses a node that has no place where it stands.

The checks of lists take their steps one after the other (`checkCommands_eq_steps`,
`checkData_eq_steps`). So what relates two runs of a check, or holds of all that it writes, is
shown of one step and follows for all steps by induction on their list; and what a change of the
tree does to a check is shown on the steps alone, for both walks at once.
-/

namespace ScriptLint

/-- How the entries of a list are walked through. -/
inductive Walk where
  /-- The entries are checked as commands. -/
  | commands
  /-- The entries are searched for tags. -/
  | data
deriving DecidableEq, Repr

/-- What happens at one point of a walk. -/
inductive Step where
  /-- A text is checked as a command. -/
  | command (t : Tracked)
  /-- A block that has keys is reported at the key that it belongs to. -/
  | keys (key : Tracked)
  /-- A text is searched for tags. -/
  | search (t : Tracked)
  /-- A node is refused. -/
  | refused (kind : String) (place : Fault.Place)
deriving DecidableEq, Repr

/-- What a walk does at a text. -/
def Walk.step : Walk → Tracked → Step
  | commands, t => .command t
  | data, t => .search t

/-- Where a node is refused that is no entry. -/
def Walk.place : Walk → Fault.Place
  | commands => .commandList
  | data => .dataList

mutual

/-- The steps of a walk over the entries of a list. -/
def itemSteps (w : Walk) : List Node → List Step
  | [] => []
  | node :: rest => node.entrySteps w ++ itemSteps w rest

/-- The steps at an entry of a list. -/
def Node.entrySteps (w : Walk) : Node → List Step
  | .scalar t => [w.step t]
  | .map entries _ => keySteps w entries
  | node => [.refused node.kindName w.place]

/-- The steps at the keys of an entry and below them. -/
def keySteps (w : Walk) : List (Tracked × Node) → List Step
  | [] => []
  | (key, node) :: rest => w.step key :: (node.stepsBelow w key ++ keySteps w rest)

/-- The steps below a key. Only a list is walked through; commands have nothing else in their
blocks. -/
def Node.stepsBelow (w : Walk) (key : Tracked) : Node → List Step
  | .list items _ => itemSteps w items
  | .map entries _ => if w = .commands ∧ ¬ entries.isEmpty then [.keys key] else []
  | .scalar _ => []
  | .foreign kind => if w = .commands then [.refused kind .commandBlock] else []

end

namespace Step

/-- The step refuses a node. -/
def isRefused : Step → Bool
  | refused .. => true
  | _ => false

/-- Takes a step; the result is what is known after it. -/
def check (v : Vocabulary) : Step → Known → Check Known
  | command t, k => checkCommand v t k
  | keys key, k => ⟨[(Issue.keysInBlock key.text).onLine key.line], .ok k⟩
  | search t, k => ⟨tagLog v t, .ok k⟩
  | refused kind place, _ => Check.stop (.node kind place)

end Step

/-- Takes steps one after the other. -/
def checkSteps (v : Vocabulary) : List Step → Known → Check Known
  | [], k => pure k
  | step :: rest, k => do
    let k ← step.check v k
    checkSteps v rest k

section

variable (v : Vocabulary)

/-- Steps can be taken in two parts. -/
theorem checkSteps_append (first rest : List Step) (k : Known) :
    checkSteps v (first ++ rest) k = checkSteps v first k >>= checkSteps v rest := by
  induction first generalizing k with
  | nil => exact (pure_bind k _).symm
  | cons step first ih =>
    rw [List.cons_append, checkSteps, checkSteps, bind_assoc]
    exact congrArg _ (funext ih)

/-- A single step is taken as it is. -/
theorem checkSteps_singleton (step : Step) (k : Known) :
    checkSteps v [step] k = step.check v k := by
  rw [checkSteps]
  exact bind_pure _

/-! ## Commands -/

mutual

/-- Checking commands takes the steps of their list. -/
theorem checkCommands_eq_steps : ∀ (items : List Node) (k : Known),
    checkCommands v items k = checkSteps v (itemSteps .commands items) k
  | [], k => by rw [checkCommands, itemSteps, checkSteps]
  | node :: rest, k => by
    rw [checkCommands, itemSteps, checkSteps_append, checkEntry_eq_steps]
    exact congrArg _ (funext (checkCommands_eq_steps rest))

/-- Checking an entry takes the steps at it. -/
theorem checkEntry_eq_steps : ∀ (node : Node) (k : Known),
    checkEntry v node k = checkSteps v (node.entrySteps .commands) k
  | .scalar t, k => by
    rw [checkEntry, Node.entrySteps, checkSteps_singleton]
    rfl
  | .map entries _, k => by
    rw [checkEntry, Node.entrySteps]
    exact checkBlocks_eq_steps entries k
  | .list _ _, _ | .foreign _, _ => rfl

/-- Checking commands with blocks takes the steps at their keys and below. -/
theorem checkBlocks_eq_steps : ∀ (entries : Entries) (k : Known),
    checkBlocks v entries k = checkSteps v (keySteps .commands entries) k
  | [], k => by rw [checkBlocks, keySteps, checkSteps]
  | (key, block) :: rest, k => by
    rw [checkBlocks, keySteps, checkSteps]
    refine congrArg _ (funext fun k => ?_)
    rw [checkSteps_append, checkBlock_eq_steps key block]
    exact congrArg _ (funext (checkBlocks_eq_steps rest))

/-- Checking a block takes the steps below its key. -/
theorem checkBlock_eq_steps (key : Tracked) : ∀ (block : Node) (k : Known),
    checkBlock v key block k = checkSteps v (block.stepsBelow .commands key) k
  | .list items _, k => by
    rw [checkBlock, Node.stepsBelow]
    exact checkCommands_eq_steps items k
  | .map entries _, k => by
    rw [checkBlock, Node.stepsBelow]
    cases entries <;> rfl
  | .scalar _, _ | .foreign _, _ => rfl

end

/-! ## Data -/

/-- Steps whose result does not matter, and a check after them. -/
theorem checkSteps_then (first rest : List Step) {last : Check Unit}
    (h : ∀ k, last = checkSteps v rest k >>= fun _ => pure ()) (k : Known) :
    (checkSteps v first k >>= fun _ => pure ()) >>= (fun _ => last) =
      checkSteps v (first ++ rest) k >>= fun _ => pure () := by
  rw [checkSteps_append, bind_assoc, bind_assoc]
  exact congrArg _ (funext fun k => (pure_bind () _).trans (h k))

mutual

/-- Searching a data list takes its steps, whatever is known. -/
theorem checkData_eq_steps : ∀ (items : List Node) (k : Known),
    checkData v items = checkSteps v (itemSteps .data items) k >>= fun _ => pure ()
  | [], k => by
    rw [checkData, itemSteps, checkSteps]
    rfl
  | node :: rest, k => by
    rw [checkData, itemSteps, checkDatum_eq_steps node k]
    exact checkSteps_then v _ _ (checkData_eq_steps rest) k

/-- Searching an entry takes the steps at it. -/
theorem checkDatum_eq_steps : ∀ (node : Node) (k : Known),
    checkDatum v node = checkSteps v (node.entrySteps .data) k >>= fun _ => pure ()
  | .scalar t, k => by
    rw [checkDatum, Node.entrySteps, checkSteps_singleton, Check.bind_of_ok rfl]
    exact congrArg (Check.mk · (.ok ())) (List.append_nil _).symm
  | .map entries _, k => by
    rw [checkDatum, Node.entrySteps]
    exact checkDataKeys_eq_steps entries k
  | .list _ _, _ | .foreign _, _ => rfl

/-- Searching the keys of an entry takes the steps at them and below. -/
theorem checkDataKeys_eq_steps : ∀ (entries : Entries) (k : Known),
    checkDataKeys v entries = checkSteps v (keySteps .data entries) k >>= fun _ => pure ()
  | [], k => by
    rw [checkDataKeys, keySteps, checkSteps]
    rfl
  | (key, node) :: rest, k => by
    have hbelow := checkSteps_then v (node.stepsBelow .data key) (keySteps .data rest)
      (checkDataKeys_eq_steps rest) k
    rw [← checkDataBelow_eq_steps key node k] at hbelow
    rw [checkDataKeys, hbelow, keySteps, checkSteps, bind_assoc]
    rfl

/-- Searching what stands below a key takes the steps there. -/
theorem checkDataBelow_eq_steps (key : Tracked) : ∀ (node : Node) (k : Known),
    checkDataBelow v node = checkSteps v (node.stepsBelow .data key) k >>= fun _ => pure ()
  | .list items _, k => by
    rw [checkDataBelow, Node.stepsBelow]
    exact checkData_eq_steps items k
  | .map _ _, _ => by
    rw [Node.stepsBelow, if_neg (by simp)]
    rfl
  | .scalar _, _ | .foreign _, _ => rfl

end

end

/-! ## Nodes that have a place -/

/-- The node is a list. -/
def Node.isSequence : Node → Bool
  | .list _ _ => true
  | _ => false

mutual

/-- Every node is of a kind that has a place where it stands: none is foreign, and no entry of a
list is a list. -/
def Node.isPlaced : Node → Bool
  | .scalar _ => true
  | .list items _ => areEntries items
  | .map entries _ => arePlaced entries
  | .foreign _ => false

/-- `Node.isPlaced` over the entries of a list. -/
def areEntries : List Node → Bool
  | [] => true
  | node :: rest => (!node.isSequence && node.isPlaced) && areEntries rest

/-- `Node.isPlaced` over the entries of a map. -/
def arePlaced : List (Tracked × Node) → Bool
  | [] => true
  | (_, node) :: rest => node.isPlaced && arePlaced rest

end

/-- No step refuses a node. -/
def Unrefused (steps : List Step) : Prop := Every (·.isRefused = false) steps

/-- The step of a text refuses nothing. -/
theorem Walk.isRefused_step (w : Walk) (t : Tracked) : (w.step t).isRefused = false := by
  cases w <;> rfl

mutual

/-- On the walk over a list whose nodes all have a place, no node is refused. -/
theorem itemSteps_unrefused (w : Walk) : ∀ {items : List Node}, areEntries items = true →
    Unrefused (itemSteps w items)
  | [], _ => .nil
  | node :: rest, h => by
    rw [areEntries, Bool.and_eq_true, Bool.and_eq_true, Bool.not_eq_true'] at h
    rw [itemSteps]
    exact .append (entrySteps_unrefused w h.1.1 h.1.2) (itemSteps_unrefused w h.2)

/-- No node is refused at an entry whose nodes all have a place. -/
theorem entrySteps_unrefused (w : Walk) : ∀ {node : Node}, node.isSequence = false →
    node.isPlaced = true → Unrefused (node.entrySteps w)
  | .scalar t, _, _ => .single (w.isRefused_step t)
  | .map entries _, _, h => by
    rw [Node.isPlaced] at h
    rw [Node.entrySteps]
    exact keySteps_unrefused w h
  | .list _ _, h, _ => nomatch h
  | .foreign _, _, h => nomatch h

/-- No node is refused at keys whose nodes all have a place. -/
theorem keySteps_unrefused (w : Walk) : ∀ {entries : Entries}, arePlaced entries = true →
    Unrefused (keySteps w entries)
  | [], _ => .nil
  | (key, node) :: rest, h => by
    rw [arePlaced, Bool.and_eq_true] at h
    rw [keySteps]
    exact .cons (w.isRefused_step key)
      (.append (stepsBelow_unrefused w key h.1) (keySteps_unrefused w h.2))

/-- No node is refused below a key if all nodes have a place. -/
theorem stepsBelow_unrefused (w : Walk) (key : Tracked) : ∀ {node : Node}, node.isPlaced = true →
    Unrefused (node.stepsBelow w key)
  | .list items _, h => by
    rw [Node.isPlaced] at h
    rw [Node.stepsBelow]
    exact itemSteps_unrefused w h
  | .map entries _, _ => by
    rw [Node.stepsBelow]
    exact .ite (.single rfl) .nil
  | .scalar _, _ => .nil
  | .foreign _, h => nomatch h

end

end ScriptLint
