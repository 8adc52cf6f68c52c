import Mathlib.Data.List.Forall2
import Mathlib.Data.List.Nodup
import ScriptLint.Diagnostic

/-!
# What folding keeps

Findings are folded one after the other (`Folded.insert`). At each moment, the entries are those of
the findings so far (`Folds`): one for each key, in the order of the first findings, and in each of
them the first finding and the other lines of its key, each once and in order (`Folded.Gathers`).
So no key and no line gets lost, and findings of other categories play no part
(`Log.folded_lossless`).

A rendered entry lists the other lines that are lines of the script, at most as many as allowed,
and tells if there are more of them (`Folded.Renders`).
-/

namespace ScriptLint

/-- A list to which an element is added has one more element once repetitions are left out, unless
it has the element already. -/
theorem eraseDups_concat {α : Type} [DecidableEq α] (l : List α) (a : α) :
    (l ++ [a]).eraseDups = if a ∈ l then l.eraseDups else l.eraseDups ++ [a] := by
  rw [List.eraseDups_append]
  by_cases h : a ∈ l
  · simp [List.removeAll, h]
  · simp [List.removeAll, h, List.eraseDups_cons]

namespace Folded

/-- The entry is that of its key among the findings: it has the first one with the key and, without
repetitions, the lines of the later ones, but for the line of the first. -/
def Gathers (found : Log) (f : Folded) : Prop :=
  ∃ later, found.filter (·.key = f.primary.key) = f.primary :: later ∧
    f.others = ((later.map (·.line)).filter (· ≠ f.primary.line)).eraseDups

/-- The other lines, without those that stand for the whole script. -/
def scriptLines (f : Folded) : List Int := f.others.filter (0 ≤ ·)

/-- The text shows the entry with at most `m` lines of the script, counted from one. -/
inductive Renders (m : Nat) (f : Folded) : String → Prop
  | alone : (∀ line ∈ f.others, line < 0) → Renders m f f.primary.render
  | complete : f.scriptLines ≠ [] → f.scriptLines.length ≤ m →
      Renders m f (f.primary.render ++ " (Also on lines " ++
        ", ".intercalate (f.scriptLines.map fun line => toString (line + 1)) ++ ")")
  | elided : f.scriptLines ≠ [] → m < f.scriptLines.length →
      Renders m f (f.primary.render ++ " (Also on lines " ++
        ", ".intercalate ((f.scriptLines.take m).map fun line => toString (line + 1)) ++
          ", ..." ++ ")")

@[simp] theorem primary_addLine (f : Folded) (line : Int) :
    (f.addLine line).primary = f.primary := by
  rw [addLine]
  split <;> rfl

/-- A line joins the other lines unless it is shown already. -/
theorem others_addLine (f : Folded) (line : Int) :
    (f.addLine line).others = if line = f.primary.line ∨ line ∈ f.others then f.others
    else f.others ++ [line] := by
  rw [addLine]
  split <;> rfl

/-! ## One more finding -/

/-- A finding with a new key starts an entry after all others. -/
theorem insert_of_not_mem {d : Diagnostic} {entries : List Folded}
    (h : d.key ∉ entries.map (·.primary.key)) :
    insert d entries = entries ++ [{ primary := d }] := by
  induction entries with
  | nil => rfl
  | cons f fs ih =>
    rw [List.map_cons, List.mem_cons, not_or] at h
    rw [insert, if_neg (Ne.symm h.1), ih h.2, List.cons_append]

/-- A finding with a known key joins the entry of its key, and all entries stay where they are. -/
theorem insert_of_mem {d : Diagnostic} {entries : List Folded}
    (hdistinct : (entries.map (·.primary.key)).Nodup) (h : d.key ∈ entries.map (·.primary.key)) :
    insert d entries = entries.map fun f => if f.primary.key = d.key then f.addLine d.line
    else f := by
  induction entries with
  | nil => cases h
  | cons f fs ih =>
    rw [List.map_cons, List.nodup_cons] at hdistinct
    rw [insert, List.map_cons]
    by_cases hkey : f.primary.key = d.key
    · have hrest : ∀ g ∈ fs, (if g.primary.key = d.key then g.addLine d.line else g) = g := by
        intro g hg
        refine if_neg fun hg' => hdistinct.1 ?_
        rw [hkey, ← hg']
        exact List.mem_map_of_mem hg
      rw [if_pos hkey, if_pos hkey, List.map_congr_left hrest, List.map_id']
    · have hmem : d.key ∈ fs.map (·.primary.key) :=
        (List.mem_cons.1 h).resolve_left (Ne.symm hkey)
      rw [if_neg hkey, if_neg hkey, ih hdistinct.2 hmem]

/-- A finding with another key is nothing to an entry. -/
theorem Gathers.concat_of_ne {found : Log} {f : Folded} (h : f.Gathers found) {d : Diagnostic}
    (hkey : f.primary.key ≠ d.key) : f.Gathers (found ++ [d]) := by
  obtain ⟨later, hfilter, hothers⟩ := h
  refine ⟨later, ?_, hothers⟩
  rw [List.filter_append, hfilter, List.filter_cons_of_neg (by simpa using Ne.symm hkey),
    List.filter_nil, List.append_nil]

/-- The line of a finding with the key of an entry joins the other lines unless it is shown
already. -/
theorem Gathers.addLine {found : Log} {f : Folded} (h : f.Gathers found) {d : Diagnostic}
    (hkey : f.primary.key = d.key) : (f.addLine d.line).Gathers (found ++ [d]) := by
  obtain ⟨later, hfilter, hothers⟩ := h
  refine ⟨later ++ [d], ?_, ?_⟩
  · rw [primary_addLine, List.filter_append, hfilter,
      List.filter_cons_of_pos (by simpa using hkey.symm), List.filter_nil, List.cons_append]
  · rw [primary_addLine, others_addLine, List.map_append, List.filter_append]
    by_cases hline : d.line = f.primary.line
    · rw [if_pos (.inl hline), hothers, List.map_singleton,
        List.filter_cons_of_neg (by simpa using hline), List.filter_nil, List.append_nil]
    · have hmem : d.line ∈ f.others ↔
          d.line ∈ (later.map (·.line)).filter (· ≠ f.primary.line) := by
        rw [hothers, List.mem_eraseDups]
      rw [List.map_singleton, List.filter_cons_of_pos (by simpa using hline), List.filter_nil,
        eraseDups_concat, ← hothers]
      simp only [hline, false_or, hmem]

end Folded

/-- The entries are those of the findings so far. -/
structure Folds (found : Log) (entries : List Folded) : Prop where
  distinct : (entries.map (·.primary.key)).Nodup
  keys : entries.map (·.primary.key) = (found.map (·.key)).eraseDups
  gathers : ∀ f ∈ entries, f.Gathers found

namespace Folds

variable {found : Log} {entries : List Folded}

/-- Nothing is folded into nothing. -/
theorem nil : Folds [] [] := ⟨List.nodup_nil, rfl, List.forall_mem_nil _⟩

/-- One more finding is folded. -/
theorem insert (h : Folds found entries) (d : Diagnostic) :
    Folds (found ++ [d]) (Folded.insert d entries) := by
  have hmem : d.key ∈ entries.map (·.primary.key) ↔
      d.key ∈ found.map (·.key) := by rw [h.keys, List.mem_eraseDups]
  have hkeys : ((found ++ [d]).map (·.key)).eraseDups =
      if d.key ∈ found.map (·.key) then entries.map (·.primary.key)
      else entries.map (·.primary.key) ++ [d.key] := by
    rw [List.map_append, List.map_singleton, eraseDups_concat, h.keys]
  by_cases hknown : d.key ∈ entries.map (·.primary.key)
  · have hsame : (entries.map fun f =>
        if f.primary.key = d.key then f.addLine d.line else f).map (·.primary.key) =
        entries.map (·.primary.key) := by
      rw [List.map_map]
      refine List.map_congr_left fun f _ => ?_
      rw [Function.comp_apply]
      split
      · rw [Folded.primary_addLine]
      · rfl
    rw [Folded.insert_of_mem h.distinct hknown]
    refine ⟨hsame ▸ h.distinct, ?_, List.forall_mem_map.2 fun f hf => ?_⟩
    · rw [hsame, hkeys, if_pos (hmem.1 hknown)]
    · split
      · next hkey => exact (h.gathers f hf).addLine hkey
      · next hkey => exact (h.gathers f hf).concat_of_ne hkey
  · rw [Folded.insert_of_not_mem hknown]
    refine ⟨?_, ?_, List.forall_mem_append.2 ⟨fun f hf => ?_, List.forall_mem_singleton.2 ?_⟩⟩
    · rw [List.map_append, List.map_singleton]
      exact List.nodup_append_comm.1 (List.nodup_cons.2 ⟨hknown, h.distinct⟩)
    · rw [List.map_append, List.map_singleton, hkeys, if_neg fun hfound => hknown (hmem.2 hfound)]
    · refine (h.gathers f hf).concat_of_ne fun hkey => hknown ?_
      exact hkey ▸ List.mem_map_of_mem hf
    · -- No earlier finding has the key, so the new one is the first.
      have hnone : found.filter (·.key = d.key) = [] := by
        refine List.filter_eq_nil_iff.2 fun e he hkey => hknown (hmem.2 ?_)
        rw [← of_decide_eq_true hkey]
        exact List.mem_map_of_mem he
      exact ⟨[], by rw [List.filter_append, hnone, List.filter_cons_of_pos (by simp)]; rfl, rfl⟩

/-- Findings are folded one after the other. -/
theorem foldl (h : Folds found entries) (rest : Log) :
    Folds (found ++ rest) (rest.foldl (fun fs d => Folded.insert d fs) entries) := by
  induction rest generalizing found entries with
  | nil => rwa [List.append_nil]
  | cons d rest ih =>
    have hrest := ih (h.insert d)
    rwa [List.append_assoc] at hrest

end Folds

/-! ## Rendering -/

/-- A limit that is not negative keeps the first items. -/
theorem Folded.shown_natCast {α : Type} (m : Nat) (items : List α) :
    shown (m : Int) items = items.take m := by
  rw [shown, if_pos (Int.natCast_nonneg m), Int.toNat_natCast]

/-- An entry is rendered as the specification has it. -/
theorem Folded.renders_render (m : Nat) (f : Folded) : f.Renders m (f.render m) := by
  rw [render, ← scriptLines, shown_natCast, ← List.map_take, List.map_map, List.length_map]
  by_cases hnone : f.scriptLines = []
  · have hbelow : ∀ line ∈ f.others, line < 0 := by
      simpa [scriptLines, List.filter_eq_nil_iff] using hnone
    rw [if_pos (by simp [hnone])]
    exact .alone hbelow
  · rw [if_neg (by simpa using hnone)]
    by_cases hmore : m < f.scriptLines.length
    · rw [if_pos (by exact_mod_cast hmore)]
      exact .elided hnone hmore
    · have hall : f.scriptLines.length ≤ m := Nat.le_of_not_lt hmore
      rw [if_neg (by exact_mod_cast hmore), List.take_of_length_le hall, String.append_empty]
      exact .complete hnone hall

namespace Log

/-- A category is folded into one entry for each key, in the order of the first findings. An entry
has the first finding of its key, and the other lines of the key, each once and in order. Leaving
out a finding of another category changes nothing. An entry is rendered with as many of its lines
as allowed. -/
theorem folded_lossless (log : Log) (category : Category) :
    ((log.folded category).map (·.primary.key)).Nodup ∧
    (log.folded category).map (·.primary.key) = ((log.ofCategory category).map (·.key)).eraseDups ∧
    (∀ f ∈ log.folded category, f.Gathers (log.ofCategory category)) ∧
    (∀ first d rest, log = first ++ d :: rest → d.category ≠ category →
      Log.folded (first ++ rest) category = log.folded category) ∧
    ∀ m : Nat, List.Forall₂ (Folded.Renders m) (log.folded category) (log.render category m) := by
  have hfolds : Folds (log.ofCategory category) (log.folded category) :=
    Folds.nil.foldl (log.ofCategory category)
  refine ⟨hfolds.distinct, hfolds.keys, hfolds.gathers, ?_, fun m => ?_⟩
  · rintro first d rest rfl hd
    rw [folded, folded, ofCategory, ofCategory, List.filter_append, List.filter_append,
      List.filter_cons_of_neg (by simpa using hd)]
  · exact List.forall₂_map_right_iff.2 (List.forall₂_same.2 fun f _ => f.renders_render m)

/-- Two lines of the script beside the first one, one for the whole script, and one that is there
twice. -/
example : folded [⟨.warning, "a", 3, "x"⟩, ⟨.warning, "b", -1, "y"⟩, ⟨.info, "a", 8, "z"⟩,
    ⟨.warning, "a", -1, "x"⟩, ⟨.warning, "a", 5, "w"⟩, ⟨.warning, "a", 3, "x"⟩,
    ⟨.warning, "a", 0, "x"⟩, ⟨.warning, "a", 5, "x"⟩] .warning =
    [⟨⟨.warning, "a", 3, "x"⟩, [-1, 5, 0]⟩, ⟨⟨.warning, "b", -1, "y"⟩, []⟩] := by
  decide

end Log

end ScriptLint
