import Mathlib.Data.List.Nodup
import ScriptLint.Proofs.Text

/-!
# Tables of names

Of several entries with one name the last one counts (`IsLast`); it is the one that a search from
the end finds (`find?_reverse_eq_some`). Listings have every element once and in order
(`SortedOnce`); sorting a list without its repetitions gives such a listing, for every order that
is total and transitive (`sortedOnce_mergeSort`), as the order of texts is (`Text.le_total`,
`Text.le_trans`).
-/

namespace ScriptLint

section

variable {α : Type}

/-! ## The last entry -/

/-- The element is the last one of the list with the property. -/
def IsLast (p : α → Prop) (l : List α) (a : α) : Prop :=
  ∃ before after, l = before ++ a :: after ∧ p a ∧ ∀ b ∈ after, ¬ p b

/-- The search from the end finds the last element with the property. -/
theorem find?_reverse_eq_some {p : α → Prop} [DecidablePred p] {l : List α} {a : α} :
    l.reverse.find? (fun b => decide (p b)) = some a ↔ IsLast p l a := by
  rw [List.find?_eq_some_iff_append]
  constructor
  · rintro ⟨ha, after, before, hl, hafter⟩
    refine ⟨before.reverse, after.reverse, ?_, of_decide_eq_true ha, fun b hb => ?_⟩
    · rw [← List.reverse_reverse l, hl]
      simp
    · simpa using hafter b (List.mem_reverse.1 hb)
  · rintro ⟨before, after, rfl, ha, hafter⟩
    refine ⟨decide_eq_true ha, after.reverse, before.reverse, by simp, fun b hb => ?_⟩
    simpa using hafter b (List.mem_reverse.1 hb)

/-! ## Listings -/

/-- The listing has the elements of the list in order, each once. -/
structure SortedOnce (le : α → α → Prop) (l listing : List α) : Prop where
  ordered : listing.Pairwise le
  nodup : listing.Nodup
  mem_iff : ∀ a, a ∈ listing ↔ a ∈ l

variable [BEq α] [LawfulBEq α]

/-- Once repetitions are left out, no element is there twice. -/
theorem nodup_eraseDups : (l : List α) → l.eraseDups.Nodup
  | [] => by simp
  | a :: rest => by
    rw [List.eraseDups_cons, List.nodup_cons, List.mem_eraseDups, List.mem_filter]
    exact ⟨fun ha => by simp at ha, nodup_eraseDups (rest.filter fun b => !b == a)⟩
termination_by l => l.length
decreasing_by exact Nat.lt_succ_of_le (List.length_filter_le _ _)

/-- Sorting what is left without repetitions lists each element once, in order. -/
theorem sortedOnce_mergeSort {le : α → α → Bool}
    (htrans : ∀ a b c, le a b = true → le b c = true → le a c = true)
    (htotal : ∀ a b, (le a b || le b a) = true) (l : List α) :
    SortedOnce (fun a b => le a b = true) l (l.eraseDups.mergeSort le) where
  ordered := List.pairwise_mergeSort htrans htotal _
  nodup := (List.mergeSort_perm _ le).nodup_iff.2 (nodup_eraseDups l)
  mem_iff a := by rw [List.mem_mergeSort, List.mem_eraseDups]

end

/-! ## The order of texts -/

namespace Text

/-- Of two texts, one is at most the other. -/
theorem le_total (a b : Text) : (le a b || le b a) = true := by
  induction a generalizing b with
  | nil => simp [le]
  | cons c r ih =>
    cases b with
    | nil => simp [le]
    | cons d s =>
      by_cases h : c = d
      · simpa [le, h] using ih s
      · have hval : c.val.toNat ≠ d.val.toNat := fun hv => h (Char.ext (UInt32.toNat.inj hv))
        simp only [le, if_neg h, if_neg (Ne.symm h), Bool.or_eq_true, decide_eq_true_eq,
          UInt32.lt_iff_toNat_lt]
        omega

/-- The order of texts is transitive. -/
theorem le_trans (a b c : Text) (hab : le a b = true) (hbc : le b c = true) : le a c = true := by
  induction a generalizing b c with
  | nil => simp [le]
  | cons x r ih =>
    cases b with
    | nil => simp [le] at hab
    | cons y s =>
      cases c with
      | nil => simp [le] at hbc
      | cons z u =>
        rw [le] at hab hbc ⊢
        split at hab
        · next hxy =>
          subst hxy
          split at hbc
          · next hxz => exact (if_pos hxz).trans (ih s u hab hbc)
          · next hxz => exact (if_neg hxz).trans hbc
        · next hxy =>
          have hlt := UInt32.lt_iff_toNat_lt.1 (of_decide_eq_true hab)
          split at hbc
          · next hyz =>
            subst hyz
            exact (if_neg hxy).trans hab
          · have hlt' := UInt32.lt_iff_toNat_lt.1 (of_decide_eq_true hbc)
            have hxz : x ≠ z := by
              rintro rfl
              omega
            rw [if_neg hxz, decide_eq_true_eq, UInt32.lt_iff_toNat_lt]
            omega

/-- The texts in order, each once, are what the specification asks for. -/
theorem sortedOnce_spec (ts : List Text) :
    SortedOnce (fun a b => le a b = true) ts (sortedOnce ts) :=
  sortedOnce_mergeSort le_trans le_total ts

end Text

end ScriptLint
