import Mathlib.Data.List.Infix
import ScriptLint.Proofs.Text

/-!
# Replacing a part of a text everywhere

Every place of a text that holds `old` is written as `new` (`replaceAll`). A text is met from the
left: at `old`, or at a character where `old` does not begin (`replace_induction`).

What is written in begins with a character `m`. A part without `m` that begins somewhere in the new
text begins there in the old text (`prefix_of_prefix_replaceAll`), so nothing is found across the
border of what was written in. Hence the replacement leaves no `old` behind if `old` cannot begin
inside of `new` (`not_infix_replaceAll`), it brings in no other part of that kind
(`infix_of_infix_replaceAll`), and replacing back gives the text, if `new` was not in it before
(`replaceAll_replaceAll`).
-/

namespace ScriptLint.Text

/-- The text with every `old` in it, from the left on, written as `new`. An empty `old` is found
nowhere. -/
def replaceAll (old new : Text) : Text → Text
  | [] => []
  | c :: r =>
    if old ≠ [] ∧ old <+: c :: r then new ++ replaceAll old new (r.drop (old.length - 1))
    else c :: replaceAll old new r
termination_by t => t.length
decreasing_by all_goals simp only [List.length_drop, List.length_cons]; omega

section

variable {old new part tail : Text} {m : Char}

@[simp] theorem replaceAll_nil : replaceAll old new [] = [] := by rw [replaceAll]

/-- The old text at the start is replaced, and the search goes on after it. -/
theorem replaceAll_append (hold : old ≠ []) (r : Text) :
    replaceAll old new (old ++ r) = new ++ replaceAll old new r := by
  cases old with
  | nil => exact absurd rfl hold
  | cons c o =>
    rw [List.cons_append, replaceAll, if_pos ⟨hold, List.prefix_append (c :: o) r⟩,
      List.length_cons, Nat.add_sub_cancel, List.drop_left]

/-- Where the old text does not start, the character stays. -/
theorem replaceAll_cons {c : Char} {r : Text} (h : ¬ old <+: c :: r) :
    replaceAll old new (c :: r) = c :: replaceAll old new r := by
  rw [replaceAll, if_neg fun hp => h hp.2]

/-- A text is empty, or begins with `old`, or begins with a character where `old` does not
begin. -/
theorem replace_induction (hold : old ≠ []) {P : Text → Prop} (nil : P [])
    (found : ∀ r, P r → P (old ++ r)) (other : ∀ c r, ¬ old <+: c :: r → P r → P (c :: r))
    (t : Text) : P t := by
  generalize hn : t.length = n
  induction n using Nat.strongRecOn generalizing t with
  | ind n ih =>
    by_cases hp : old <+: t
    · obtain ⟨r, rfl⟩ := hp
      have hpos := List.length_pos_of_ne_nil hold
      rw [List.length_append] at hn
      exact found r (ih r.length (by omega) r rfl)
    · cases t with
      | nil => exact nil
      | cons c r =>
        rw [List.length_cons] at hn
        exact other c r hp (ih r.length (by omega) r rfl)

/-- The characters of the new text are those of the old one and of what is written in. -/
theorem mem_of_mem_replaceAll (hold : old ≠ []) {c : Char} {t : Text}
    (h : c ∈ replaceAll old new t) :
    c ∈ new ∨ c ∈ t := by
  induction t using replace_induction hold with
  | nil =>
    rw [replaceAll_nil] at h
    cases h
  | found r ih =>
    rw [replaceAll_append hold] at h
    rcases List.mem_append.1 h with h | h
    · exact .inl h
    · exact (ih h).imp_right (List.mem_append_right old)
  | other d r hd ih =>
    rw [replaceAll_cons hd] at h
    rcases List.mem_cons.1 h with rfl | h
    · exact .inr List.mem_cons_self
    · exact (ih h).imp_right (List.mem_cons_of_mem d)

/-! ## What begins in the new text -/

/-- What begins in the new text, but not with what was written in, begins in the old text. -/
theorem prefix_of_prefix_replaceAll (hold : old ≠ []) (hp : m ∉ part) {t : Text}
    (h : part <+: replaceAll old (m :: tail) t) : part <+: t := by
  induction t using replace_induction hold generalizing part with
  | nil => rwa [replaceAll_nil] at h
  | found r ih =>
    rw [replaceAll_append hold] at h
    cases part with
    | nil => exact List.nil_prefix
    | cons d p =>
      obtain ⟨rfl, -⟩ := List.cons_prefix_cons.1 h
      exact absurd List.mem_cons_self hp
  | other c r hc ih =>
    rw [replaceAll_cons hc] at h
    cases part with
    | nil => exact List.nil_prefix
    | cons d p =>
      obtain ⟨rfl, hrest⟩ := List.cons_prefix_cons.1 h
      exact List.cons_prefix_cons.2 ⟨rfl, ih (List.not_mem_of_not_mem_cons hp) hrest⟩

/-- The same after a character that is left as it is, with which the part may begin. -/
theorem prefix_cons_of_prefix_replaceAll (hold : old ≠ []) (hp : m ∉ part.tail)
    {c : Char} {r : Text} (h : part <+: c :: replaceAll old (m :: tail) r) : part <+: c :: r := by
  cases part with
  | nil => exact List.nil_prefix
  | cons d p =>
    obtain ⟨rfl, hrest⟩ := List.cons_prefix_cons.1 h
    exact List.cons_prefix_cons.2 ⟨rfl, prefix_of_prefix_replaceAll hold hp hrest⟩

/-! ## What is in the new text -/

/-- The part cannot begin inside of `new`, whatever comes after it. -/
def Apart (new part : Text) : Prop := ∀ s ∈ new.tails, s ≠ [] → ¬ s <+: part ∧ ¬ part <+: s

instance : Decidable (Apart new part) := inferInstanceAs (Decidable (∀ s ∈ _, _))

/-- A part that cannot begin inside of `new` is found after it. -/
theorem Apart.infix_of_append (h : Apart new part) {t : Text} (hi : part <:+: new ++ t) :
    part <:+: t := by
  induction new with
  | nil => exact hi
  | cons c r ih =>
    have hrest : Apart r part :=
      fun s hs => h s (by rw [List.tails]; exact List.mem_cons_of_mem _ hs)
    rw [List.cons_append] at hi
    rcases List.infix_cons_iff.1 hi with hp | hi
    · obtain ⟨hnew, hpart⟩ := h (c :: r) (by simp) (List.cons_ne_nil c r)
      rcases List.prefix_or_prefix_of_prefix hp (List.prefix_append (c :: r) t) with hp | hp
      · exact absurd hp hpart
      · exact absurd hp hnew
    · exact ih hrest hi

/-- A part that cannot begin inside of what is written in was there before. -/
theorem infix_of_infix_replaceAll (hold : old ≠ []) (hp : m ∉ part.tail)
    (ha : Apart (m :: tail) part) {t : Text} (h : part <:+: replaceAll old (m :: tail) t) :
    part <:+: t := by
  induction t using replace_induction hold with
  | nil => rwa [replaceAll_nil] at h
  | found r ih =>
    rw [replaceAll_append hold] at h
    exact List.infix_append_of_infix_right (ih (ha.infix_of_append h))
  | other c r hc ih =>
    rw [replaceAll_cons hc] at h
    rcases List.infix_cons_iff.1 h with h | h
    · exact (prefix_cons_of_prefix_replaceAll hold hp h).isInfix
    · exact List.infix_cons (ih h)

/-- Nothing is left of what is replaced. -/
theorem not_infix_replaceAll (hold : old ≠ []) (hp : m ∉ old.tail) (ha : Apart (m :: tail) old)
    (t : Text) :
    ¬ old <:+: replaceAll old (m :: tail) t := by
  induction t using replace_induction hold with
  | nil =>
    rw [replaceAll_nil, List.infix_nil]
    exact hold
  | found r ih =>
    rw [replaceAll_append hold]
    exact fun h => ih (ha.infix_of_append h)
  | other c r hc ih =>
    rw [replaceAll_cons hc, List.infix_cons_iff, not_or]
    exact ⟨fun h => hc (prefix_cons_of_prefix_replaceAll hold hp h), ih⟩

/-- Replacing back gives the text, if what is written in was not in it. -/
theorem replaceAll_replaceAll (hold : old ≠ []) (htail : m ∉ tail) {t : Text}
    (h : ¬ m :: tail <:+: t) :
    replaceAll (m :: tail) old (replaceAll old (m :: tail) t) = t := by
  induction t using replace_induction hold with
  | nil => rw [replaceAll_nil, replaceAll_nil]
  | found r ih =>
    rw [replaceAll_append hold, replaceAll_append (List.cons_ne_nil m tail),
      ih fun hr => h (List.infix_append_of_infix_right hr)]
  | other c r hc ih =>
    have hfront : ¬ m :: tail <+: c :: replaceAll old (m :: tail) r := fun hf =>
      h (prefix_cons_of_prefix_replaceAll hold htail hf).isInfix
    rw [replaceAll_cons hc, replaceAll_cons hfront, ih fun hr => h (List.infix_cons hr)]

end

end ScriptLint.Text
