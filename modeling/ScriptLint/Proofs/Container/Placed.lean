import ScriptLint.Proofs.Container.Course

/-!
# Nodes that have a place

A list is checked as a script or searched as data. On the way, a check finds issues of command
lines, of their blocks and of tags, and it refuses nodes of a kind that has no place where they
stand: foreign ones, and lists that are entries of a list. If there are none of these
(`Node.isPlaced`), there is no fault. What holds of all findings, and of all faults unless there
are none, holds of every step (`Step.course_every`), and so of the whole course
(`commandsCourse_every`, `dataCourse_every`).
-/

namespace ScriptLint

open Course

/-- The property holds of all that can be found in a list: issues of command lines, of their blocks
and of tags. -/
structure OfFindings (v : Vocabulary) (P : Except Fault Diagnostic → Prop) : Prop where
  command : ∀ (k : Known) (t : Tracked), ∀ d ∈ Command.lineLog v k t, P (.ok d)
  block : ∀ key : Tracked, P (.ok ((Issue.keysInBlock key.text).onLine key.line))
  tag : ∀ t : Tracked, ∀ d ∈ tagLog v t, P (.ok d)

section

variable {v : Vocabulary} {P : Except Fault Diagnostic → Prop}

/-- If all findings of a log have a property, so has all that is said. -/
theorem every_said {log : Log} (h : ∀ d ∈ log, P (.ok d)) : Every P (said log) := .map h

/-- If all faults have a property, so has the refusal of a node. -/
theorem every_refused (h : ∀ fault, P (.error fault)) (node : Node) (place : Fault.Place) :
    Every P (refused node place) :=
  .single (h _)

/-- All that happens at a step is a finding on a line, on a block or on a tag, or a fault, of which
there is none if the step refuses no node. -/
theorem Step.course_every (hP : OfFindings v P) {step : Step}
    (h : step.isRefused = false ∨ ∀ fault, P (.error fault)) (k : Known) :
    Every P (step.course v k) := by
  cases step with
  | command t => exact every_said (hP.command k t)
  | keys key => exact every_said (List.forall_mem_singleton.2 (hP.block key))
  | search t => exact every_said (hP.tag t)
  | refused kind place =>
    rcases h with h | h
    · cases h
    · exact .single (h _)

/-- All that happens on the course of steps is a finding, or a fault, of which there are none if no
step refuses a node. -/
theorem stepsCourse_every (hP : OfFindings v P) {steps : List Step}
    (h : Unrefused steps ∨ ∀ fault, P (.error fault)) (k : Known) :
    Every P (stepsCourse v steps k) := by
  induction steps generalizing k with
  | nil => exact .nil
  | cons step rest ih =>
    have hstep := h.imp_left fun hs => hs step List.mem_cons_self
    have hrest := h.imp_left fun hs => fun s hm => hs s (List.mem_cons_of_mem step hm)
    exact .append (step.course_every hP hstep k) (ih hrest _)

/-- All that happens on the course over a script is a finding, or a fault, of which there are none
if all nodes have a place. -/
theorem commandsCourse_every (hP : OfFindings v P) {items : List Node}
    (h : areEntries items = true ∨ ∀ fault, P (.error fault)) (k : Known) :
    Every P (commandsCourse v items k) :=
  stepsCourse_every hP (h.imp_left (itemSteps_unrefused .commands)) k

/-- All that happens on the course over a data list is a finding, or a fault, of which there are
none if all nodes have a place. -/
theorem dataCourse_every (hP : OfFindings v P) {items : List Node}
    (h : areEntries items = true ∨ ∀ fault, P (.error fault)) : Every P (dataCourse v items) :=
  stepsCourse_every hP (h.imp_left (itemSteps_unrefused .data)) {}

end

end ScriptLint
