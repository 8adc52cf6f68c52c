import ScriptLint.Issue

/-!
# Facts on logs

What holds of every finding of a log follows the way the log is put together (`Every`). Two logs
agree if they have the same findings but for those for debugging (`Log.Agree`).
-/

namespace ScriptLint

/-- All elements of the list have the property. -/
def Every {α : Type} (P : α → Prop) (l : List α) : Prop := ∀ a ∈ l, P a

namespace Every

variable {α β : Type} {P : α → Prop}

/-- All elements of an empty list have any property. -/
theorem nil : Every P [] := nofun

/-- A list of one element has what the element has. -/
theorem single {a : α} (h : P a) : Every P [a] := List.forall_mem_singleton.2 h

/-- An element with the property joins a list of such. -/
theorem cons {a : α} {rest : List α} (h : P a) (hr : Every P rest) : Every P (a :: rest) :=
  List.forall_mem_cons.2 ⟨h, hr⟩

/-- Two lists of elements with the property are one such list. -/
theorem append {first rest : List α} (hf : Every P first) (hr : Every P rest) :
    Every P (first ++ rest) :=
  List.forall_mem_append.2 ⟨hf, hr⟩

/-- A list that is one of two such lists is such a list. -/
theorem ite {c : Prop} [Decidable c] {first rest : List α} (hf : Every P first)
    (hr : Every P rest) :
    Every P (if c then first else rest) := by
  split
  · exact hf
  · exact hr

/-- Lists of elements with the property, put together, are one such list. -/
theorem flatMap {f : β → List α} {l : List β} (h : ∀ b ∈ l, Every P (f b)) :
    Every P (l.flatMap f) := by
  intro a ha
  obtain ⟨b, hb, ha⟩ := List.mem_flatMap.1 ha
  exact h b hb a ha

/-- If all images have the property, the list of them does. -/
theorem map {f : β → α} {l : List β} (h : ∀ b ∈ l, P (f b)) : Every P (l.map f) :=
  List.forall_mem_map.2 h

end Every

namespace Log

/-- The findings of a category in two logs are those in the first and then those in the second. -/
theorem ofCategory_append (first rest : Log) (category : Category) :
    ofCategory (first ++ rest) category = first.ofCategory category ++ rest.ofCategory category :=
  List.filter_append ..

/-- The logs have the same findings but for those for debugging. -/
def Agree (log log' : Log) : Prop :=
  ∀ category : Category, category ≠ .debug → log'.ofCategory category = log.ofCategory category

namespace Agree

/-- A log agrees with itself. -/
theorem refl (log : Log) : log.Agree log := fun _ _ => rfl

/-- If a log agrees with another, that one agrees with it. -/
theorem symm {log log' : Log} (h : log.Agree log') : log'.Agree log := fun c hc => (h c hc).symm

/-- Logs that agree with the same log agree with each other. -/
theorem trans {log log' log'' : Log} (h : log.Agree log') (h' : log'.Agree log'') :
    log.Agree log'' :=
  fun c hc => (h' c hc).trans (h c hc)

/-- Logs that agree in two parts agree. -/
theorem append {first first' rest rest' : Log} (hf : first.Agree first') (hr : rest.Agree rest') :
    Agree (first ++ rest) (first' ++ rest') := by
  intro c hc
  rw [ofCategory_append, ofCategory_append, hf c hc, hr c hc]

end Agree

end Log

end ScriptLint
