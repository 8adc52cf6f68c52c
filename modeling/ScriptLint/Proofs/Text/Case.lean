import ScriptLint.Text.Case

/-!
# Facts on lowercasing

Lowercasing touches letters only: a mark below the letters, such as a dot or a colon, is in the
lowercase form of a text exactly if it is in the text (`mem_lower`). And it forgets the case of
ASCII letters (`lower_uncased`), where the uncased form of a text has its ASCII capitals made small
(`uncased`).

Cutting and searching at a mark that is no ASCII letter does the same to a text and to its uncased
form. What is said of a character is the same for a capital and its small letter if it is so for
the 26 capitals of ASCII (`apply_toLower`).
-/

namespace ScriptLint.Text

/-! ## ASCII letters -/

/-- The capital letters of ASCII. -/
def asciiCapitals : Text := "ABCDEFGHIJKLMNOPQRSTUVWXYZ".toList

/-- The code points of the ASCII capitals are those from 65 to 90. -/
theorem ofNat_mem_asciiCapitals : ∀ n < 91, 65 ≤ n → Char.ofNat n ∈ asciiCapitals := by decide

/-- Only ASCII capitals have an ASCII small letter of their own. -/
theorem toLower_of_not_mem {c : Char} (h : c ∉ asciiCapitals) : c.toLower = c := by
  refine dif_neg fun hc => h ?_
  have hfirst : 65 ≤ c.toNat := UInt32.le_iff_toNat_le.1 hc.1
  have hlast : c.toNat ≤ 90 := UInt32.le_iff_toNat_le.1 hc.2
  have hmem := ofNat_mem_asciiCapitals c.toNat (by omega) hfirst
  rwa [Char.ofNat_toNat] at hmem

/-- What a capital has in common with its small letter, every character has. -/
theorem apply_toLower {α : Type} {f : Char → α}
    (h : asciiCapitals.map (fun c => f c.toLower) = asciiCapitals.map f) (c : Char) :
    f c.toLower = f c := by
  by_cases hc : c ∈ asciiCapitals
  · exact List.map_inj_left.1 h c hc
  · rw [toLower_of_not_mem hc]

/-- The code points of ASCII letters are in two runs. -/
theorem toNat_of_mem {c : Char} (h : c ∈ asciiCapitals) :
    (65 ≤ c.toNat ∧ c.toNat ≤ 90) ∧ 97 ≤ c.toLower.toNat ∧ c.toLower.toNat ≤ 122 := by
  have hall : asciiCapitals.all (fun c =>
      (65 ≤ c.toNat ∧ c.toNat ≤ 90) ∧ 97 ≤ c.toLower.toNat ∧ c.toLower.toNat ≤ 122) =
        true := by decide
  exact of_decide_eq_true (List.all_eq_true.1 hall c h)

/-- The character is no ASCII letter. -/
def IsMark (d : Char) : Prop := d.toNat < 65 ∨ 90 < d.toNat ∧ d.toNat < 97 ∨ 122 < d.toNat

instance (d : Char) : Decidable (IsMark d) := inferInstanceAs (Decidable (_ ∨ _ ∧ _ ∨ _))

/-- A mark is the small form of itself only. -/
theorem IsMark.toLower_eq_iff {d : Char} (h : IsMark d) (c : Char) : c.toLower = d ↔ c = d := by
  by_cases hc : c ∈ asciiCapitals
  · have hletter := toNat_of_mem hc
    constructor <;> rintro rfl <;> rw [IsMark] at h <;> omega
  · rw [toLower_of_not_mem hc]

/-! ## Marks in lowercase -/

/-- The small letters of all runs come after the marks. -/
theorem small_ge_of_mem_caseRuns : ∀ run ∈ caseRuns, 97 ≤ run.small := by decide +kernel

/-- What is at or after the small letters is no mark before the capitals. -/
theorem ofNat_ne {n : Nat} {d : Char} (h : 97 ≤ n) (h₀ : 0 < d.toNat) (hd : d.toNat < 65) :
    Char.ofNat n ≠ d := by
  rintro rfl
  have hn : (Char.ofNat n).toNat = n ∨ (Char.ofNat n).toNat = 0 := by
    by_cases hv : n.isValidChar
    · exact .inl (congrArg Char.toNat (dif_pos hv))
    · exact .inr (congrArg Char.toNat (dif_neg hv))
  omega

/-- A character below the letters is nothing else in lowercase. -/
theorem small_eq_iff {c d : Char} (h₀ : 0 < d.toNat) (hd : d.toNat < 65) :
    small c = d ↔ c = d := by
  unfold small
  split
  · by_cases hc : c ∈ asciiCapitals
    · have hletter := toNat_of_mem hc
      constructor <;> rintro rfl <;> omega
    · rw [toLower_of_not_mem hc]
  · next hc =>
    have hne : c ≠ d := by rintro rfl; omega
    have hsigma : 'σ' ≠ d := by rintro rfl; exact absurd hd (by decide)
    have hi : 'i' ≠ d := by rintro rfl; exact absurd hd (by decide)
    simp only [hne, iff_false]
    split
    · exact hsigma
    split
    · exact hi
    split
    · next n hn =>
      obtain ⟨run, hrun, hs⟩ := List.exists_of_findSome?_eq_some hn
      rw [CaseRun.small?] at hs
      split at hs
      · have hge := small_ge_of_mem_caseRuns run hrun
        cases hs
        exact ofNat_ne (Nat.le_add_right_of_le hge) h₀ hd
      · cases hs
    · exact hne

/-- A character below the letters is in the lowercase form of a text exactly if it is in the
text. -/
theorem mem_lowerFrom {d : Char} (h₀ : 0 < d.toNat) (hd : d.toNat < 65) (t : Text) :
    ∀ inWord, d ∈ lowerFrom inWord t ↔ d ∈ t := by
  have hne : ∀ c : Char, 65 ≤ c.toNat → d ≠ c := by rintro c hc rfl; omega
  induction t with
  | nil => simp [lowerFrom]
  | cons c r ih =>
    intro inWord
    rw [lowerFrom]
    split
    · next hc =>
      have hsigma : d ≠ (if inWord && !continuesCased r then 'ς' else 'σ') := by
        split <;> exact hne _ (by decide)
      subst hc
      simp only [List.mem_cons, ih, hsigma, hne 'Σ' (by decide), false_or]
    split
    · next hc =>
      subst hc
      simp [ih, hne 'i' (by decide), hne '\u0307' (by decide), hne 'İ' (by decide)]
    · simp only [List.mem_cons, ih, eq_comm (a := d), small_eq_iff h₀ hd]

/-- Putting a text in lower case keeps the characters before the letters. -/
theorem mem_lower {d : Char} (h₀ : 0 < d.toNat) (hd : d.toNat < 65) {t : Text} :
    d ∈ lower t ↔ d ∈ t :=
  mem_lowerFrom h₀ hd t false

/-! ## Texts one after the other -/

/-- What cannot go on with a letter does not matter to a letter before it. -/
theorem continuesCased_append {t : Text} (h : continuesCased t = false) (r : Text) :
    continuesCased (r ++ t) = continuesCased r := by
  induction r with
  | nil => exact h
  | cons c r ih => rw [List.cons_append, continuesCased, continuesCased, ih]

/-- Before a text that does not go on with a letter, a text is put in lower case by itself. -/
theorem lowerFrom_append {t : Text} (h : continuesCased t = false) (r : Text) :
    ∀ inWord, ∃ inWord', lowerFrom inWord (r ++ t) = lowerFrom inWord r ++
      lowerFrom inWord' t := by
  induction r with
  | nil => exact fun inWord => ⟨inWord, rfl⟩
  | cons c r ih =>
    intro inWord
    obtain ⟨inWord', hrest⟩ := ih (if isCaseIgnorable c then inWord else isCased c)
    refine ⟨inWord', ?_⟩
    rw [List.cons_append, lowerFrom, lowerFrom, continuesCased_append h, hrest]
    split
    · rfl
    · split <;> rfl

/-! ## Uncased forms -/

/-- The text with its ASCII capitals made small. -/
def uncased (t : Text) : Text := t.map Char.toLower

@[simp] theorem uncased_nil : uncased [] = [] := rfl

@[simp] theorem uncased_cons (c : Char) (r : Text) :
    uncased (c :: r) = c.toLower :: uncased r := rfl

@[simp] theorem uncased_reverse (t : Text) : uncased t.reverse = (uncased t).reverse :=
  List.map_reverse

@[simp] theorem length_uncased (t : Text) : (uncased t).length = t.length := List.length_map _

@[simp] theorem uncased_drop (n : Nat) (t : Text) : uncased (t.drop n) = (uncased t).drop n :=
  List.map_drop

@[simp] theorem isEmpty_uncased (t : Text) : (uncased t).isEmpty = t.isEmpty := List.isEmpty_map

/-- A text is empty in either case. -/
theorem nonempty?_uncased (t : Text) : nonempty? (uncased t) = (nonempty? t).map uncased := by
  cases t <;> rfl

/-- A character is a letter in either case. -/
theorem isCased_toLower (c : Char) : isCased c.toLower = isCased c := apply_toLower (by decide) c

/-- A character is passed over in either case. -/
theorem isCaseIgnorable_toLower (c : Char) : isCaseIgnorable c.toLower = isCaseIgnorable c :=
  apply_toLower (by decide) c

/-- A character has the same small counterpart in either case. -/
theorem small_toLower (c : Char) : small c.toLower = small c := apply_toLower (by decide) c

/-- A character is blank in either case. -/
theorem isBlank_toLower (c : Char) : isBlank c.toLower = isBlank c := apply_toLower (by decide) c

/-- A text goes on with a letter in either case. -/
theorem continuesCased_uncased (t : Text) : continuesCased (uncased t) = continuesCased t := by
  induction t with
  | nil => rfl
  | cons c r ih =>
    simp only [uncased_cons, continuesCased, isCaseIgnorable_toLower, isCased_toLower, ih]

/-- The uncased form of a text has the same lowercase form, sigmas included. -/
@[simp] theorem lower_uncased (t : Text) : lower (uncased t) = lower t := by
  have hsigma : IsMark 'Σ' := by decide
  have hdotted : IsMark 'İ' := by decide
  have hfrom : ∀ inWord, lowerFrom inWord (uncased t) = lowerFrom inWord t := by
    induction t with
    | nil => exact fun _ => rfl
    | cons c r ih =>
      intro inWord
      simp only [uncased_cons, lowerFrom, isCaseIgnorable_toLower, isCased_toLower, small_toLower,
        continuesCased_uncased, hsigma.toLower_eq_iff, hdotted.toLower_eq_iff, ih]
  exact hfrom false

/-! ## Cutting and searching -/

section

variable {mark : Char} (h : IsMark mark)
include h

/-- A mark is in a text in either case. -/
theorem contains_uncased (t : Text) : (uncased t).contains mark = t.contains mark := by
  induction t with
  | nil => rfl
  | cons c r ih =>
    simp only [uncased_cons, List.contains_cons, ih]
    congr 1
    rw [Bool.eq_iff_iff, beq_iff_eq, beq_iff_eq, eq_comm, h.toLower_eq_iff, eq_comm]

/-- A mark is in a text as often in either case. -/
theorem count_uncased (t : Text) : (uncased t).count mark = t.count mark := by
  induction t with
  | nil => rfl
  | cons c r ih => simp only [uncased_cons, List.count_cons, ih, beq_iff_eq, h.toLower_eq_iff]

/-- A mark is the first character in either case. -/
theorem head?_uncased_eq (t : Text) : (uncased t).head? = some mark ↔ t.head? = some mark := by
  cases t with
  | nil => simp
  | cons c r => simp [h.toLower_eq_iff]

/-- Before a mark there is the same text in its case. -/
theorem before_uncased (t : Text) : before mark (uncased t) = uncased (before mark t) := by
  have hsame : (fun c => c != mark) ∘ Char.toLower = fun c => c != mark := by
    funext c
    rw [Bool.eq_iff_iff]
    simp [h.toLower_eq_iff]
  rw [before, uncased, List.takeWhile_map, hsame]
  rfl

/-- After a mark there is the same text in its case. -/
theorem after?_uncased (t : Text) : after? mark (uncased t) = (after? mark t).map uncased := by
  induction t with
  | nil => rfl
  | cons c r ih =>
    simp only [uncased_cons, after?, h.toLower_eq_iff, ih]
    split <;> rfl

/-- Before the last mark there is the same text in its case. -/
theorem beforeLast?_uncased (t : Text) :
    beforeLast? mark (uncased t) = (beforeLast? mark t).map uncased := by
  induction t with
  | nil => rfl
  | cons c r ih =>
    simp only [uncased_cons, beforeLast?, h.toLower_eq_iff, ih]
    cases beforeLast? mark r with
    | some t => rfl
    | none => simp only [Option.map_none]; split <;> rfl

end

/-- A text is trimmed alike in either case. -/
theorem trim_uncased (t : Text) : trim (uncased t) = uncased (trim t) := by
  have hsame : isBlank ∘ Char.toLower = isBlank := funext isBlank_toLower
  simp only [trim, trimStart, trimEnd, uncased, ← List.map_reverse, List.dropWhile_map, hsame]

end ScriptLint.Text
