import ScriptLint.Diagnostic
import ScriptLint.Document.Node
import ScriptLint.Yaml.Problem

/-!
# Checks that may stop

A check writes diagnostics and gives a result. It may also stop at a fault: a node that has no
place where it stands, a value that does not exist, or a width that is too large. What was written
before the fault is kept (`Check`), so that whoever runs the check can go on after it.
-/

namespace ScriptLint

/-- Where a node has no place. -/
inductive Fault.Place where
  | commandList
  | commandBlock
  | container
  | dataList
  | key (text : Text)
deriving DecidableEq, Repr

/-- Why a check stopped. -/
inductive Fault where
  /-- A node of a kind that has no place there. -/
  | node (kind : String) (place : Fault.Place)
  /-- A value that does not exist. -/
  | value (fault : Yaml.ValueFault)
  /-- A width of tabs that does not fit the index of a text. -/
  | width
deriving DecidableEq, Repr

namespace Fault

/-- A place in words. -/
def Place.text : Place → String
  | commandList => "command list"
  | commandBlock => "command block"
  | container => "container"
  | dataList => "data list"
  | key text => "key '" ++ text.string ++ "'"

/-- The message for a node of a given kind in a place. -/
def wording (kind place : String) : String :=
  "Unexpected document node " ++ kind ++ " in " ++ place

/-- The name of the kind of a fault. -/
def label : Fault → String
  | node .. => "StructureError"
  | value fault => fault.kind
  | width => "OverflowError"

/-- The reason of a fault in words. -/
def reason : Fault → String
  | node kind place => wording kind place.text
  | value fault => fault.reason
  | width => "cannot fit 'int' into an index-sized integer"

end Fault

/-- What a check wrote, and its result unless it stopped. -/
structure Check (α : Type) where
  log : Log
  result : Except Fault α

namespace Check

variable {α β : Type}

/-- A check that goes on after another one, if that did not stop. -/
def andThen (x : Check α) (next : α → Check β) : Check β :=
  match x.result with
  | .ok a =>
    let y := next a
    ⟨x.log ++ y.log, y.result⟩
  | .error fault => ⟨x.log, .error fault⟩

instance : Monad Check where
  pure a := ⟨[], .ok a⟩
  bind := andThen

/-- A check that writes a log. -/
def report (log : Log) : Check Unit := ⟨log, .ok ()⟩

/-- A check that stops at once. -/
def stop (fault : Fault) : Check α := ⟨[], .error fault⟩

/-- A check that has the result of a computation, or stops where it failed. -/
def ofExcept : Except Fault α → Check α
  | .ok a => pure a
  | .error fault => stop fault

/-- A check that stops at a node. -/
def refuse (node : Node) (place : Fault.Place) : Check α := stop (.node node.kindName place)

/-! ## What is written and what comes out -/

@[simp] theorem log_pure (a : α) : (pure a : Check α).log = [] := rfl

@[simp] theorem result_pure (a : α) : (pure a : Check α).result = .ok a := rfl

@[simp] theorem log_report (log : Log) : (report log).log = log := rfl

@[simp] theorem result_report (log : Log) : (report log).result = .ok () := rfl

@[simp] theorem log_stop (fault : Fault) : (stop fault : Check α).log = [] := rfl

@[simp] theorem result_stop (fault : Fault) : (stop fault : Check α).result = .error fault := rfl

/-- After a check with a result, the next one adds to its log. -/
theorem bind_of_ok {x : Check α} {a : α} (h : x.result = .ok a) (next : α → Check β) :
    x >>= next = ⟨x.log ++ (next a).log, (next a).result⟩ := by
  show andThen x next = _
  rw [andThen, h]

/-- A check that stopped is all there is. -/
theorem bind_of_error {x : Check α} {fault : Fault} (h : x.result = .error fault)
    (next : α → Check β) :
    x >>= next = ⟨x.log, .error fault⟩ := by
  show andThen x next = _
  rw [andThen, h]

/-- A check whose result is handed on as it is. -/
protected theorem bind_pure (x : Check α) : x >>= pure = x := by
  obtain ⟨log, result⟩ := x
  cases result with
  | ok a => exact congrArg (mk · (.ok a)) (List.append_nil log)
  | error fault => rfl

/-- It does not matter how checks that come one after the other are grouped. -/
protected theorem bind_assoc {γ : Type} (x : Check α) (next : α → Check β) (last : β → Check γ) :
    x >>= next >>= last = x >>= fun a => next a >>= last := by
  obtain ⟨log, result⟩ := x
  cases result with
  | error fault => rfl
  | ok a =>
    have hx : (⟨log, .ok a⟩ : Check α).result = .ok a := rfl
    let y : Check β := ⟨log ++ (next a).log, (next a).result⟩
    rw [bind_of_ok hx, bind_of_ok hx]
    cases ha : (next a).result with
    | ok b =>
      have hy : y.result = .ok b := ha
      rw [← ha, bind_of_ok hy, bind_of_ok ha, List.append_assoc]
    | error fault =>
      have hy : y.result = .error fault := ha
      rw [← ha, bind_of_error hy, bind_of_error ha]

instance : LawfulMonad Check :=
  LawfulMonad.mk' Check Check.bind_pure (fun a next => bind_of_ok rfl next) Check.bind_assoc

end Check

end ScriptLint
