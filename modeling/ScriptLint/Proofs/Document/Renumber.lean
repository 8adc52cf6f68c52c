import ScriptLint.Proofs.Document.Order

/-!
# Renumbering lines

The numbers of lines are carried along by the builder and by the checks, and no decision depends on
them. Trees and logs are renumbered by any function on line numbers (`Node.renumber`,
`Log.renumber`); a negative line stands for the whole script and stays. Building the document of
renumbered lines gives the renumbered document and the renumbered log (`Builder.step_renumber`,
`Builder.run_renumber`, `ofLines_renumber`).
-/

namespace ScriptLint

variable (g : Nat → Nat)

/-- The new number of a line. A negative line stands for the whole script and stays. -/
def renumberLine (line : Int) : Int := if line < 0 then line else g line.toNat

@[simp] theorem renumberLine_natCast (n : Nat) : renumberLine g n = g n := by
  rw [renumberLine, if_neg (Int.not_lt.2 (Int.natCast_nonneg n)), Int.toNat_natCast]

/-- The text on its renumbered line. -/
def Tracked.renumber (t : Tracked) : Tracked := ⟨t.text, renumberLine g t.line⟩

@[simp] theorem Tracked.renumber_text (t : Tracked) : (t.renumber g).text = t.text := rfl

@[simp] theorem Tracked.renumber_line (t : Tracked) :
    (t.renumber g).line = renumberLine g t.line := rfl

mutual

/-- The node with all its lines renumbered. -/
def Node.renumber : Node → Node
  | .scalar value => .scalar (value.renumber g)
  | .list items line => .list (renumberItems items) (renumberLine g line)
  | .map entries line => .map (Entries.renumber entries) (renumberLine g line)
  | .foreign kind => .foreign kind

/-- `Node.renumber` over the entries of a list. -/
def renumberItems : List Node → List Node
  | [] => []
  | item :: rest => item.renumber :: renumberItems rest

/-- `Node.renumber` over the entries of a map, with their keys. -/
def Entries.renumber : Entries → Entries
  | [] => []
  | (key, node) :: rest => (key.renumber g, node.renumber) :: Entries.renumber rest

end

/-- `renumberItems` in the natural per-element form. -/
theorem renumberItems_eq_map (items : List Node) :
    renumberItems g items = items.map (Node.renumber g) := by
  induction items with
  | nil => rfl
  | cons item rest ih => rw [renumberItems, ih]; rfl

/-- `Entries.renumber` in the natural per-element form. -/
theorem Entries.renumber_eq_map (entries : Entries) :
    entries.renumber g = entries.map fun e => (e.1.renumber g, e.2.renumber g) := by
  induction entries with
  | nil => rfl
  | cons e rest ih => rw [Entries.renumber, ih]; rfl

namespace Entries

/-- A node is put under a key alike on other lines. -/
theorem renumber_insert (key : Tracked) (node : Node) (entries : Entries) :
    (entries.insert key node).renumber g =
      (entries.renumber g).insert (key.renumber g) (node.renumber g) := by
  induction entries with
  | nil => rfl
  | cons e rest ih =>
    obtain ⟨k, n⟩ := e
    rw [insert, Entries.renumber, insert, Tracked.renumber_text, Tracked.renumber_text]
    split
    · rfl
    · rw [Entries.renumber, ih]

@[simp] theorem hasKey_renumber (key : Text) (entries : Entries) :
    hasKey key (entries.renumber g) = hasKey key entries := by
  rw [renumber_eq_map, hasKey, hasKey, List.any_map]
  rfl

end Entries

/-- The diagnostic on its renumbered line. -/
def Diagnostic.renumber (d : Diagnostic) : Diagnostic := { d with line := renumberLine g d.line }

@[simp] theorem Issue.onLine_renumber (issue : Issue) (line : Int) :
    (issue.onLine line).renumber g = issue.onLine (renumberLine g line) := rfl

namespace Log

/-- The log with all its lines renumbered. -/
def renumber (log : Log) : Log := log.map (Diagnostic.renumber g)

@[simp] theorem renumber_nil : renumber g [] = [] := rfl

@[simp] theorem renumber_cons (d : Diagnostic) (log : Log) :
    renumber g (d :: log) = d.renumber g :: log.renumber g := rfl

@[simp] theorem renumber_append (first rest : Log) :
    renumber g (first ++ rest) = first.renumber g ++ rest.renumber g :=
  List.map_append

@[simp] theorem renumber_ite {c : Prop} [Decidable c] (first rest : Log) :
    renumber g (if c then first else rest) = if c then first.renumber g else rest.renumber g := by
  split <;> rfl

/-- The findings of a category are renumbered by themselves. -/
theorem renumber_ofCategory (log : Log) (category : Category) :
    (log.renumber g).ofCategory category = (log.ofCategory category).renumber g :=
  List.filter_map

end Log

namespace Document

/-! ## Open collections -/

/-- The content of an open collection with all its lines renumbered. -/
def Block.renumber : Block → Block
  | .list items => .list (renumberItems g items)
  | .map entries => .map (entries.renumber g)

namespace Block

@[simp] theorem isList_renumber (block : Block) : (block.renumber g).isList = block.isList := by
  cases block <;> rfl

/-- A block becomes the renumbered node. -/
theorem toNode_renumber (line : Int) (block : Block) :
    (block.renumber g).toNode (renumberLine g line) = (block.toNode line).renumber g := by
  cases block <;> rfl

/-- A node is attached to a block alike on other lines. -/
theorem attach_renumber (key : Tracked) (node : Node) (block : Block) :
    (block.renumber g).attach (key.renumber g) (node.renumber g) =
      (block.attach key node).renumber g := by
  cases block with
  | list items =>
    simp only [renumber, attach, renumberItems_eq_map, List.map_append]
    rfl
  | map entries => simp only [renumber, attach, Entries.renumber_insert]

/-- A key repeats another one whatever its line is. -/
theorem repeats_renumber (key : Tracked) (block : Block) :
    (block.renumber g).repeats (key.renumber g) = block.repeats key := by
  cases block with
  | list items => rfl
  | map entries => exact Entries.hasKey_renumber g key.text entries

/-- Whether the last entry of a list is a map on its own line does not depend on lines. -/
theorem continuesInline_renumber (block : Block) :
    (block.renumber g).continuesInline = block.continuesInline := by
  cases block with
  | map entries => rfl
  | list items =>
    simp only [renumber, continuesInline, renumberItems_eq_map, List.getLast?_map]
    cases items.getLast? with
    | none => rfl
    | some node => cases node <;> rfl

end Block

/-- The frame with all its lines renumbered. -/
def Frame.renumber (f : Frame) : Frame :=
  ⟨f.width, renumberLine g f.line, f.key.renumber g, f.block.renumber g⟩

/-- A collection is closed alike on other lines. -/
theorem Frame.adopt_renumber (owner closed : Frame) :
    (owner.renumber g).adopt (closed.renumber g) = (owner.adopt closed).renumber g := by
  simp only [adopt, renumber, Block.toNode_renumber, Block.attach_renumber]

/-- The stack with all its lines renumbered. -/
def Stack.renumber (s : Stack) : Stack := ⟨s.top.renumber g, s.below.map (Frame.renumber g)⟩

namespace Stack

@[simp] theorem renumber_top (s : Stack) : (s.renumber g).top = s.top.renumber g := rfl

/-- A change to the innermost collection is made alike on other lines. -/
theorem withBlock_renumber (block : Block) (s : Stack) :
    (s.renumber g).withBlock (block.renumber g) = (s.withBlock block).renumber g := rfl

/-- A collection is opened alike on other lines. -/
theorem push_renumber (f : Frame) (s : Stack) :
    (s.renumber g).push (f.renumber g) = (s.push f).renumber g := rfl

/-- A condition that does not look at lines closes the same collections. -/
theorem closeFrom_renumber {p : Frame → Bool} (hp : ∀ f : Frame, p (f.renumber g) = p f)
    (top : Frame) (below : List Frame) :
    closeFrom p (top.renumber g) (below.map (Frame.renumber g)) =
      (closeFrom p top below).renumber g := by
  induction below generalizing top with
  | nil => rfl
  | cons owner rest ih =>
    rw [List.map_cons, closeFrom, closeFrom, hp, Frame.adopt_renumber, ih]
    split <;> rfl

/-- The collections wider than a line are the same on other lines. -/
theorem unwind_renumber (width : Int) (s : Stack) :
    (s.renumber g).unwind width = (s.unwind width).renumber g :=
  closeFrom_renumber g (fun _ => rfl) _ _

/-- The lists that a key is outside of are the same on other lines. -/
theorem closeLists_renumber (width : Int) (s : Stack) :
    (s.renumber g).closeLists width = (s.closeLists width).renumber g :=
  closeFrom_renumber g (fun f => by rw [Frame.renumber, Block.isList_renumber]) _ _

/-- A stack becomes the renumbered document. -/
theorem finish_renumber (s : Stack) : (s.renumber g).finish = s.finish.renumber g :=
  congrArg (·.top.block) (closeFrom_renumber g (fun _ => rfl) s.top s.below)

/-- The open widths do not depend on the lines. -/
theorem widths_renumber (s : Stack) : (s.renumber g).widths = s.widths := by
  simp only [widths, frames, renumber, List.map_cons, List.map_map]
  rfl

end Stack

/-! ## The builder -/

/-- The line under its new number. -/
def Line.renumber (line : Line) : Line := { line with number := g line.number }

namespace Line

@[simp] theorem renumber_number (line : Line) : (line.renumber g).number = g line.number := rfl

@[simp] theorem renumber_width (line : Line) : (line.renumber g).width = line.width := rfl

@[simp] theorem renumber_text (line : Line) : (line.renumber g).text = line.text := rfl

@[simp] theorem isItem_renumber (line : Line) : (line.renumber g).isItem = line.isItem := rfl

@[simp] theorem itemText_renumber (line : Line) : (line.renumber g).itemText = line.itemText := rfl

end Line

/-- The waiting key on its renumbered line. -/
def Waiting.renumber (w : Waiting) : Waiting := ⟨w.key.renumber g, w.width⟩

/-- A repeated key is reported on its new line. -/
theorem repeatLog_renumber (block : Block) (key : Tracked) :
    repeatLog (block.renumber g) (key.renumber g) = (repeatLog block key).renumber g := by
  simp only [repeatLog, Block.repeats_renumber, Log.renumber_ite]
  rfl

namespace Builder

variable (b : Builder) (line : Line)

/-- The builder with all its lines renumbered. -/
def renumber : Builder :=
  ⟨b.stack.renumber g, b.waiting.map (Waiting.renumber g), b.previous, b.skipped⟩

/-- A waiting key that is repeated is reported on its new line. -/
theorem waitingLog_renumber : (b.renumber g).waitingLog = b.waitingLog.renumber g := by
  unfold waitingLog renumber
  cases b.waiting with
  | none => rfl
  | some w => exact repeatLog_renumber g _ _

/-- A waiting key gets an empty map on its new line. -/
theorem sealed_renumber : (b.renumber g).sealed = b.sealed.renumber g := by
  unfold sealed renumber
  cases b.waiting with
  | none => rfl
  | some w =>
    exact congrArg (b.stack.renumber g).withBlock
      (Block.attach_renumber g _ (.map [] w.key.line) _)

/-- A line begins the collection of the waiting key whatever its number is. -/
theorem opens_renumber : (b.renumber g).opens (line.renumber g) = b.opens line := by
  unfold opens renumber
  cases b.waiting with
  | none => rfl
  | some w =>
    show (w.renumber g).opens (b.stack.top.block.renumber g) (line.renumber g) = _
    rw [Waiting.opens, Block.isList_renumber]
    rfl

/-- A collection is opened on the new line. -/
theorem opening_renumber (key : Tracked) :
    opening (line.renumber g) (key.renumber g) = (opening line key).renumber g := by
  unfold opening
  rw [Line.isItem_renumber, Frame.renumber, renumberLine_natCast]
  cases line.isItem <;> rfl

/-- A waiting key is settled alike on other lines. -/
theorem settled_renumber :
    (b.renumber g).settled (line.renumber g) = (b.settled line).renumber g := by
  have ho := b.opens_renumber g line
  cases hb : b.opens line with
  | false => rw [settled_of_not_opens hb, settled_of_not_opens (ho.trans hb), sealed_renumber]
  | true =>
    obtain ⟨w, hw⟩ := waiting_of_opens hb
    have hw' : (b.renumber g).waiting = some (w.renumber g) := by rw [renumber, hw]; rfl
    rw [settled_of_opens hb hw, settled_of_opens (ho.trans hb) hw', ← Stack.push_renumber,
      ← opening_renumber]
    rfl

/-- A line is inside of the renumbered collections. -/
theorem reached_renumber :
    (b.renumber g).reached (line.renumber g) = (b.reached line).renumber g := by
  have hp : (b.renumber g).previous = b.previous := rfl
  rw [reached, reached, settled_renumber, Line.renumber_width, hp, Stack.unwind_renumber]
  split <;> rfl

/-- An entry is placed alike on other lines. -/
theorem placeItem_renumber (s : Stack) (grown : Bool) :
    placeItem (s.renumber g) grown (line.renumber g) =
      ((placeItem s grown line).1.renumber g, (placeItem s grown line).2.renumber g) := by
  have hb : (s.renumber g).top.block = s.top.block.renumber g := rfl
  unfold placeItem
  rw [hb]
  cases s.top.block with
  | map entries => simp [Block.renumber, renumber]
  | list items =>
    simp only [Block.renumber]
    by_cases he : Text.endsWith [':'] line.itemText = true
    · rw [if_pos he, if_pos (line.itemText_renumber g ▸ he)]
      simp [renumber, Waiting.renumber, Tracked.renumber]
    · rw [if_neg he, if_neg (line.itemText_renumber g ▸ he)]
      simp [renumber, ← Stack.withBlock_renumber, Block.renumber, renumberItems_eq_map,
        Node.renumber, Tracked.renumber]

/-- A key is placed alike on other lines. -/
theorem placeKey_renumber (s : Stack) :
    placeKey (s.renumber g) (line.renumber g) =
      ((placeKey s line).1.renumber g, (placeKey s line).2.renumber g) := by
  unfold placeKey
  rw [Line.renumber_width, Line.renumber_text, Stack.closeLists_renumber]
  generalize s.closeLists line.width = s
  have hb : (s.renumber g).top.block = s.top.block.renumber g := rfl
  have hc := Block.continuesInline_renumber g s.top.block
  simp only [hb]
  cases hs : s.top.block with
  | list items =>
    rw [hs] at hc
    simp only [Block.renumber] at hc ⊢
    simp [renumber, hc]
  | map entries =>
    simp only [Block.renumber]
    cases Text.endsWith [':'] line.text with
    | true => simp [renumber, Waiting.renumber, Tracked.renumber]
    | false =>
      cases splitInline line.text with
      | none => rfl
      | some p =>
        simp [renumber, ← Stack.withBlock_renumber, Block.renumber, Entries.renumber_insert,
          ← repeatLog_renumber, Node.renumber, Tracked.renumber]

/-- A line is placed alike whatever its number is. -/
theorem place_renumber (s : Stack) (grown : Bool) :
    place (s.renumber g) grown (line.renumber g) =
      ((place s grown line).1.renumber g, (place s grown line).2.renumber g) := by
  rw [place, place, Line.isItem_renumber]
  split
  · exact placeItem_renumber g line s grown
  · exact placeKey_renumber g line s

/-- A step on renumbered lines is the renumbered step. -/
theorem step_renumber : (b.renumber g).step (line.renumber g) =
    ((b.step line).1.renumber g, (b.step line).2.renumber g) := by
  have hk : (b.renumber g).skips (line.renumber g) = b.skips line := rfl
  have hr := b.reached_renumber g line
  have hs : (b.renumber g).shrinks (line.renumber g) = b.shrinks line := by
    rw [shrinks, hr]
    rfl
  have hg : (b.renumber g).grows (line.renumber g) = b.grows line := by
    rw [grows, opens_renumber]
    rfl
  cases h : b.skips line with
  | true => rw [step_of_skips h, step_of_skips (hk.trans h)]; rfl
  | false =>
  cases h' : b.shrinks line with
  | true =>
    rw [step_of_shrinks h h', step_of_shrinks (hk.trans h) (hs.trans h'), hr, waitingLog_renumber,
      Stack.widths_renumber]
    simp [renumber]
  | false =>
    rw [step_of_places h h', step_of_places (hk.trans h) (hs.trans h'), hr, hg, place_renumber,
      waitingLog_renumber, Log.renumber_append]

/-- A run on renumbered lines is the renumbered run. -/
theorem run_renumber (lines : List Line) : (b.renumber g).run (lines.map (Line.renumber g)) =
    ((b.run lines).1.renumber g, (b.run lines).2.renumber g) := by
  induction lines generalizing b with
  | nil => rfl
  | cons line rest ih =>
    rw [List.map_cons, run_cons, run_cons, step_renumber, ih, Log.renumber_append]

/-- The builder finishes with the renumbered document. -/
theorem finish_renumber : (b.renumber g).finish = b.finish.renumber g := by
  rw [finish_eq_sealed, finish_eq_sealed, sealed_renumber, Stack.finish_renumber]
  cases b.sealed.finish <;> rfl

end Builder

/-! ## Content lines -/

/-- The lines of two scripts are those of the first, and those of the second numbered after
them. -/
theorem linesFrom_append (tab : Int) (number : Nat) (first rest : List SourceLine) :
    linesFrom tab number (first ++ rest) =
      linesFrom tab number first ++ linesFrom tab (number + first.length) rest := by
  induction first generalizing number with
  | nil => rfl
  | cons l first ih =>
    rw [List.cons_append, linesFrom, linesFrom, ih, List.length_cons, Nat.add_assoc,
      Nat.add_comm 1]
    split <;> rfl

/-- Counting from a later line on gives the renumbered lines. -/
theorem linesFrom_add (tab : Int) (number n : Nat) (lines : List SourceLine) :
    linesFrom tab (number + n) lines =
      (linesFrom tab number lines).map (Line.renumber (· + n)) := by
  induction lines generalizing number with
  | nil => rfl
  | cons l rest ih =>
    rw [linesFrom, linesFrom, Nat.add_right_comm, ih]
    split <;> rfl

/-- The document of renumbered lines is the renumbered document. -/
theorem ofLines_renumber (lines : List Line) : ofLines (lines.map (Line.renumber g)) =
    ((ofLines lines).1.renumber g, (ofLines lines).2.renumber g) := by
  have hrun := Builder.run_renumber g {} lines
  rw [show Builder.renumber g {} = {} from rfl] at hrun
  simp only [ofLines, hrun, Builder.finish_renumber, Builder.waitingLog_renumber,
    Log.renumber_append]

end Document

end ScriptLint
