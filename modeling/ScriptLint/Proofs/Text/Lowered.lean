import ScriptLint.Proofs.Text.Case

/-!
# Lowercase forms of lowercase forms

A lowercase form is its own lowercase form (`lower_lower`), so names may be put in lower case more
than once. Every character of a lowercase form is its own small counterpart
(`small_of_mem_lowerFrom`), which says at once that the form holds neither capital sigma nor dotted
capital I, and a text of such characters is left alone, whatever stands around them
(`lowerFrom_of_small`).

That a small counterpart has no other one (`small_small`) is a property of the table: no small
letter of a run is a capital of the same or another run (`CaseRun.avoids`). The two capitals that
are no part of the table count as runs of one letter.
-/

namespace ScriptLint.Text

/-! ## The table -/

namespace CaseRun

/-- No small letter of the run is a capital of the other: they are apart, or they take turns. This
is evaluated for all pairs of runs, so it only has comparisons that are cheap to evaluate. -/
def avoids (run other : CaseRun) : Bool :=
  Nat.blt (run.small + (run.last - run.first)) other.first || Nat.blt other.last run.small ||
    (Nat.beq run.step 2 || Nat.beq run.first run.last) && Nat.beq other.step 2 &&
      Nat.beq ((run.small + other.first) % 2) 1

/-- The small counterpart of a letter is as far from the start of the small letters as the letter
is from that of the capitals. -/
theorem eq_of_small? {run : CaseRun} {n k : Nat} (h : run.small? n = some k) :
    run.first ≤ n ∧ n ≤ run.last ∧ (n - run.first) % run.step = 0 ∧
      k = run.small + (n - run.first) := by
  rw [small?] at h
  split at h
  · next hn =>
    cases h
    exact ⟨hn.1, hn.2.1, hn.2.2, rfl⟩
  · cases h

/-- A small letter of a run is no capital of a run that this one avoids. -/
theorem small?_eq_none_of_avoids {run other : CaseRun} (h : run.avoids other = true) {n k : Nat}
    (hk : run.small? n = some k) : other.small? k = none := by
  obtain ⟨hfirst, hlast, hstep, rfl⟩ := eq_of_small? hk
  simp only [avoids, Bool.or_eq_true, Bool.and_eq_true, Nat.blt_eq, Nat.beq_eq] at h
  refine if_neg fun hother => ?_
  rcases h with (h | h) | ⟨⟨hturn, htwo⟩, hodd⟩
  · omega
  · omega
  · rw [htwo] at hother
    rcases hturn with hturn | hturn
    · rw [hturn] at hstep
      omega
    · omega

end CaseRun

/-- The runs of capitals, with the two capitals that lowercasing treats apart. -/
def capitalRuns : List CaseRun := ⟨931, 931, 1, 963⟩ :: ⟨304, 304, 1, 105⟩ :: caseRuns

/-- The small letters of each run avoid the capitals of all runs. -/
theorem capitalRuns_avoid :
    (capitalRuns.all fun run => capitalRuns.all run.avoids) = true := by decide +kernel

/-- The ASCII capitals are one of the runs. -/
theorem ascii_mem_capitalRuns : ⟨65, 90, 1, 97⟩ ∈ capitalRuns :=
  List.mem_cons_of_mem _ (List.mem_cons_of_mem _ List.mem_cons_self)

/-! ## Small counterparts -/

/-- A character that no run has as a capital is its own small counterpart. -/
theorem small_eq_self {c : Char} (h : ∀ run ∈ capitalRuns, run.small? c.toNat = none) :
    small c = c := by
  unfold small
  split
  · refine toLower_of_not_mem fun hc => ?_
    have hletter := (toNat_of_mem hc).1
    have hnone := h _ ascii_mem_capitalRuns
    rw [CaseRun.small?, if_pos ⟨hletter.1, hletter.2, Nat.mod_one _⟩] at hnone
    cases hnone
  split
  · next hc =>
    subst hc
    exact absurd (h _ List.mem_cons_self) (by decide)
  split
  · next hc =>
    subst hc
    exact absurd (h _ (List.mem_cons_of_mem _ List.mem_cons_self)) (by decide)
  · have hnone : caseRuns.findSome? (·.small? c.toNat) = none :=
      List.findSome?_eq_none_iff.2 fun run hrun =>
        h run (List.mem_cons_of_mem _ (List.mem_cons_of_mem _ hrun))
    rw [hnone]

/-- Any other character is a capital of a run, and its small counterpart is the one of the run. -/
theorem exists_run_of_small_ne {c : Char} (h : small c ≠ c) :
    ∃ run ∈ capitalRuns, ∃ n, run.small? c.toNat = some n ∧ small c = Char.ofNat n := by
  unfold small at h ⊢
  split
  · next hascii =>
    rw [if_pos hascii] at h
    have hc : c ∈ asciiCapitals := Decidable.byContradiction fun hc => h (toLower_of_not_mem hc)
    have hletter := toNat_of_mem hc
    refine ⟨_, ascii_mem_capitalRuns, 97 + (c.toNat - 65),
      if_pos ⟨hletter.1.1, hletter.1.2, Nat.mod_one _⟩, ?_⟩
    have hall : asciiCapitals.all (fun c => c.toLower = Char.ofNat (97 + (c.toNat - 65))) =
        true := by decide
    exact of_decide_eq_true (List.all_eq_true.1 hall c hc)
  split
  · next hc =>
    subst hc
    exact ⟨_, List.mem_cons_self, 963, by decide, rfl⟩
  split
  · next hc =>
    subst hc
    exact ⟨_, List.mem_cons_of_mem _ List.mem_cons_self, 105, by decide, rfl⟩
  split
  · next n hn =>
    obtain ⟨run, hrun, hs⟩ := List.exists_of_findSome?_eq_some hn
    exact ⟨run, List.mem_cons_of_mem _ (List.mem_cons_of_mem _ hrun), n, hs, rfl⟩
  · next hascii hsigma hdotted _ hnone =>
    rw [if_neg hascii, if_neg hsigma, if_neg hdotted, hnone] at h
    exact absurd rfl h

/-- A small counterpart is its own one. -/
@[simp] theorem small_small (c : Char) : small (small c) = small c := by
  by_cases h : small c = c
  · rw [h, h]
  obtain ⟨run, hrun, n, hn, hsmall⟩ := exists_run_of_small_ne h
  rw [hsmall]
  by_cases hvalid : n.isValidChar
  · have hto : (Char.ofNat n).toNat = n := congrArg Char.toNat (dif_pos hvalid)
    refine small_eq_self fun other hother => ?_
    rw [hto]
    exact CaseRun.small?_eq_none_of_avoids
      (List.all_eq_true.1 (List.all_eq_true.1 capitalRuns_avoid run hrun) other hother) hn
  · have hnull : Char.ofNat n = Char.ofNat 0 := dif_neg hvalid
    rw [hnull]
    rfl

/-! ## Lowercase forms -/

/-- A lowercase form has small characters only. -/
theorem small_of_mem_lowerFrom {t : Text} {inWord : Bool} {c : Char} (h : c ∈ lowerFrom inWord t) :
    small c = c := by
  induction t generalizing inWord with
  | nil => cases h
  | cons d r ih =>
    rw [lowerFrom] at h
    split at h
    · rcases List.mem_cons.1 h with rfl | h
      · split <;> decide +kernel
      · exact ih h
    split at h
    · rcases List.mem_cons.1 h with rfl | h
      · decide
      rcases List.mem_cons.1 h with rfl | h
      · decide +kernel
      · exact ih h
    · rcases List.mem_cons.1 h with rfl | h
      · exact small_small d
      · exact ih h

/-- A text of small characters is left alone. -/
theorem lowerFrom_of_small {t : Text} (h : ∀ c ∈ t, small c = c) (inWord : Bool) :
    lowerFrom inWord t = t := by
  induction t generalizing inWord with
  | nil => rfl
  | cons c r ih =>
    obtain ⟨hc, hr⟩ := List.forall_mem_cons.1 h
    have hsigma : c ≠ 'Σ' := by
      rintro rfl
      exact absurd hc (by decide)
    have hdotted : c ≠ 'İ' := by
      rintro rfl
      exact absurd hc (by decide)
    rw [lowerFrom, if_neg hsigma, if_neg hdotted, hc, ih hr]

/-- A lowercase form is its own lowercase form. -/
@[simp] theorem lower_lower (t : Text) : lower (lower t) = lower t :=
  lowerFrom_of_small (fun _ => small_of_mem_lowerFrom) false

end ScriptLint.Text
