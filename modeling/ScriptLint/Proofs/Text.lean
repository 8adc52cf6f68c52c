import ScriptLint.Source

/-!
# Facts on texts

How texts are joined (`joined_append`), what is in the fields of a text (`mem_of_mem_fields`), what
trimming leaves alone (`trim_eq_self_iff`, `trim_append_of_blank`) and when it leaves nothing
(`trim_eq_nil_iff`), how a text begins and ends, and what is found of it around a mark
(`after?_append`, `before_append`). Texts without carriage returns have uniform line breaks already
(`normalizeBreaks_of_not_mem`).
-/

namespace ScriptLint

namespace Text

/-! ## Fields -/

@[simp] theorem joined_singleton (separator t : Text) : joined separator [t] = t :=
  List.intercalate_singleton

/-- The first of several texts is followed by the mark and the others. -/
theorem joined_cons {mark : Char} {t : Text} {ts : List Text} (h : ts ≠ []) :
    joined [mark] (t :: ts) = t ++ mark :: joined [mark] ts := by
  rw [joined, List.intercalate_cons_of_ne_nil h, List.append_assoc, List.singleton_append]
  rfl

/-- A character at the front of the first text is at the front of the joined texts. -/
theorem joined_cons_cons (separator : Text) (c : Char) (t : Text) (ts : List Text) :
    joined separator ((c :: t) :: ts) = c :: joined separator (t :: ts) := by
  cases ts with
  | nil => rw [joined_singleton, joined_singleton]
  | cons u us => simp [joined, List.intercalate_cons_cons]

/-- Between two groups of joined texts there is the mark. -/
theorem joined_append {mark : Char} {ts us : List Text} (ht : ts ≠ []) (hu : us ≠ []) :
    joined [mark] (ts ++ us) = joined [mark] ts ++ mark :: joined [mark] us := by
  induction ts with
  | nil => exact absurd rfl ht
  | cons t rest ih =>
    cases rest with
    | nil => rw [List.singleton_append, joined_cons hu, joined_singleton]
    | cons v vs =>
      have hrest : v :: vs ≠ [] := List.cons_ne_nil _ _
      rw [List.cons_append, joined_cons (List.append_ne_nil_of_left_ne_nil hrest us), ih hrest,
        joined_cons hrest, List.append_assoc, List.cons_append]

/-- The characters of a field are those of the text, but for the mark. -/
theorem mem_of_mem_fields {mark : Char} {t field : Text} (h : field ∈ fields mark t) {c : Char}
    (hc : c ∈ field) : c ∈ t ∧ c ≠ mark := by
  unfold fields at h
  induction t generalizing field with
  | nil =>
    rw [List.splitOn_nil, List.mem_singleton] at h
    subst h
    cases hc
  | cons d r ih =>
    rw [List.splitOn_cons_eq_if_modifyHead] at h
    split at h
    · rcases List.mem_cons.1 h with rfl | h
      · cases hc
      · exact (ih h hc).imp_left (List.mem_cons_of_mem d)
    · next hd =>
      obtain ⟨first, rest, hr⟩ := List.exists_cons_of_ne_nil (List.splitOn_ne_nil mark r)
      rw [hr, List.modifyHead_cons] at h
      rcases List.mem_cons.1 h with rfl | h
      · rcases List.mem_cons.1 hc with rfl | hc
        · exact ⟨List.mem_cons_self, fun he => hd (beq_iff_eq.2 he)⟩
        · exact (ih (hr ▸ List.mem_cons_self) hc).imp_left (List.mem_cons_of_mem d)
      · exact (ih (hr ▸ List.mem_cons_of_mem first h) hc).imp_left (List.mem_cons_of_mem d)

/-- The characters of joined texts are those of the texts and of the separator. -/
theorem mem_joined {separator : Text} {ts : List Text} {c : Char} (h : c ∈ joined separator ts) :
    c ∈ separator ∨ ∃ t ∈ ts, c ∈ t := by
  induction ts with
  | nil => simp [joined] at h
  | cons t rest ih =>
    cases rest with
    | nil => exact .inr ⟨t, by simp, by simpa [joined] using h⟩
    | cons u us =>
      rw [joined, List.intercalate_cons_cons, List.append_assoc, List.mem_append,
        List.mem_append] at h
      rcases h with h | h | h
      · exact .inr ⟨t, by simp, h⟩
      · exact .inl h
      · rcases ih h with h | ⟨v, hv, h⟩
        · exact .inl h
        · exact .inr ⟨v, List.mem_cons_of_mem _ hv, h⟩

/-! ## Trimming -/

/-- Nothing is dropped if the first character stays. -/
theorem dropWhile_eq_self_iff_head? {p : Char → Bool} {t : Text} :
    t.dropWhile p = t ↔ ∀ c, t.head? = some c → p c = false := by
  cases t with
  | nil => simp
  | cons c r =>
    cases hp : p c with
    | false => simp [hp]
    | true =>
      simp only [List.dropWhile_cons_of_pos hp, List.head?_cons, Option.some.injEq]
      refine ⟨fun h => ?_, fun h => absurd (h c rfl) (by simp [hp])⟩
      have := congrArg List.length h
      have := (List.dropWhile_suffix p (l := r)).length_le
      simp only [List.length_cons] at *
      omega

/-- A text is trimmed if no blank is at its ends. -/
theorem trim_eq_self_iff {t : Text} :
    trim t = t ↔ (∀ c, t.head? = some c → isBlank c = false) ∧
      ∀ c, t.getLast? = some c → isBlank c = false := by
  have hend : ∀ u : Text, trimEnd u = u ↔ ∀ c, u.getLast? = some c → isBlank c = false := by
    intro u
    rw [← List.head?_reverse, ← dropWhile_eq_self_iff_head?, trimEnd, List.reverse_eq_iff]
  refine ⟨fun h => ?_, fun ⟨hs, he⟩ => ?_⟩
  · -- Trimming either end never lengthens a text, so both ends were left alone.
    have hstart : trimStart t = t := by
      refine (List.dropWhile_suffix isBlank).eq_of_length_le ?_
      have hle : (trim t).length ≤ (trimStart t).length := by
        rw [trim, trimEnd, List.length_reverse]
        exact Nat.le_trans (List.dropWhile_suffix isBlank).length_le
          (Nat.le_of_eq List.length_reverse)
      rwa [h] at hle
    refine ⟨dropWhile_eq_self_iff_head?.1 hstart, (hend t).1 ?_⟩
    rwa [trim, hstart] at h
  · rw [trim, trimStart, dropWhile_eq_self_iff_head?.2 hs]
    exact (hend t).2 he

/-- Blanks in front do not matter to the trimmed text. -/
theorem trim_append_of_blank {m : Text} (h : ∀ c ∈ m, isBlank c = true) (t : Text) :
    trim (m ++ t) = trim t := by
  rw [trim, trimStart, List.dropWhile_append_of_pos h]
  rfl

/-- Nothing is left of a text once trimmed exactly if it has nothing but blanks. -/
theorem trim_eq_nil_iff {t : Text} : trim t = [] ↔ ∀ c ∈ t, isBlank c = true := by
  refine ⟨fun h c hc => ?_, fun h => ?_⟩
  · rw [trim, trimEnd, List.reverse_eq_nil_iff] at h
    have hend : (trimStart t).reverse = (trimStart t).reverse.takeWhile isBlank := by
      have := List.takeWhile_append_dropWhile (p := isBlank) (l := (trimStart t).reverse)
      rwa [h, List.append_nil, eq_comm] at this
    rw [← List.takeWhile_append_dropWhile (p := isBlank) (l := t)] at hc
    rcases List.mem_append.1 hc with hc | hc
    · exact List.all_eq_true.1 List.all_takeWhile c hc
    · have hlast : c ∈ (trimStart t).reverse.takeWhile isBlank := hend ▸ List.mem_reverse.2 hc
      exact List.all_eq_true.1 List.all_takeWhile c hlast
  · have htrim := trim_append_of_blank h []
    rwa [List.append_nil] at htrim

/-- Where a text starts is where it starts once trimmed. -/
theorem trim_cons_of_not_blank {c : Char} (h : isBlank c = false) (rest : Text) :
    ∃ r, trim (c :: rest) = c :: r := by
  have hs : trimStart (c :: rest) = c :: rest := by simp [trimStart, h]
  rw [trim, hs, trimEnd, List.reverse_cons, List.dropWhile_append]
  split
  · exact ⟨[], by simp [h]⟩
  · exact ⟨_, by rw [List.reverse_append]; rfl⟩

/-! ## Beginnings and endings -/

/-- To begin with a character is to have it as the first one. -/
theorem beginsWith_singleton {c : Char} {t : Text} :
    beginsWith [c] t = true ↔ t.head? = some c := by
  cases t with
  | nil => simp [beginsWith]
  | cons d r =>
    simp only [beginsWith, List.isPrefixOf, Bool.and_true, beq_iff_eq, List.head?_cons,
      Option.some.injEq]
    exact eq_comm

/-- To end with a character is to have it as the last one. -/
theorem endsWith_singleton {c : Char} {t : Text} :
    endsWith [c] t = true ↔ t.getLast? = some c := by
  rw [endsWith, List.isSuffixOf_iff_suffix, List.singleton_suffix_iff_getLast?_eq_some]

/-- A text that ends with a character is its other characters and that one. -/
theorem eq_dropLast_append {c : Char} {t : Text} (h : endsWith [c] t = true) :
    t = t.dropLast ++ [c] := by
  obtain ⟨s, rfl⟩ := List.isSuffixOf_iff_suffix.1 h
  rw [List.dropLast_concat]

@[simp] theorem endsWith_concat (c : Char) (t : Text) : endsWith [c] (t ++ [c]) = true := by
  simp [endsWith_singleton]

/-- How a text ends is how its last part ends. -/
theorem endsWith_append {c : Char} (a : Text) {b : Text} (hb : b ≠ []) :
    endsWith [c] (a ++ b) = endsWith [c] b := by
  rw [Bool.eq_iff_iff, endsWith_singleton, endsWith_singleton, List.getLast?_append]
  cases h : b.getLast? with
  | none => exact absurd (List.getLast?_eq_none_iff.1 h) hb
  | some d => simp

/-! ## Searches -/

/-- To hold a part is to have it as an infix. -/
theorem holds_iff_infix {part t : Text} : holds part t = true ↔ part <:+: t := by
  induction t with
  | nil => rw [holds, List.isEmpty_iff, List.infix_nil]
  | cons c r ih => rw [holds, Bool.or_eq_true, List.isPrefixOf_iff_prefix, ih, List.infix_cons_iff]

/-- Two characters do not follow each other in a text if the second one is only at its end, after
another one. -/
theorem holds_pair_append {a b c : Char} {t rest : Text} (ht : b ∉ t) (hc : b ≠ c)
    (hrest : holds [a, b] (c :: rest) = false) : holds [a, b] (t ++ c :: rest) = false := by
  induction t with
  | nil => exact hrest
  | cons x r ih =>
    rw [List.mem_cons, not_or] at ht
    rw [List.cons_append, holds, ih ht.2, Bool.or_false]
    cases r with
    | nil => simp [List.isPrefixOf, hc]
    | cons y r =>
      rw [List.mem_cons, not_or] at ht
      simp [List.isPrefixOf, ht.2.1]

/-- There is nothing after a mark that the text does not have. -/
theorem after?_of_not_mem {mark : Char} {t : Text} (h : mark ∉ t) : after? mark t = none := by
  induction t with
  | nil => rfl
  | cons c r ih =>
    rw [List.mem_cons, not_or] at h
    rw [after?, if_neg (Ne.symm h.1), ih h.2]

/-- After the first mark comes what follows it. -/
theorem after?_append {mark : Char} {t : Text} (h : mark ∉ t) (rest : Text) :
    after? mark (t ++ mark :: rest) = some rest := by
  induction t with
  | nil => rw [List.nil_append, after?, if_pos rfl]
  | cons c r ih =>
    rw [List.mem_cons, not_or] at h
    rw [List.cons_append, after?, if_neg (Ne.symm h.1), ih h.2]

/-- Before a mark that the text does not have, there is all of it. -/
theorem before_of_not_mem {mark : Char} {t : Text} (h : mark ∉ t) : before mark t = t := by
  induction t with
  | nil => rfl
  | cons c r ih =>
    rw [List.mem_cons, not_or] at h
    rw [before, List.takeWhile_cons_of_pos (by simpa using Ne.symm h.1), ← before, ih h.2]

/-- What is before the first mark does not have the mark. -/
theorem not_mem_before {mark : Char} {t : Text} : mark ∉ before mark t := by
  intro h
  simpa using List.all_eq_true.1 List.all_takeWhile mark h

/-- Before the first mark there is what precedes it. -/
theorem before_append {mark : Char} {t : Text} (h : mark ∉ t) (rest : Text) :
    before mark (t ++ mark :: rest) = t := by
  rw [before, List.takeWhile_append_of_pos]
  · simp
  · intro c hc
    rw [bne_iff_ne]
    rintro rfl
    exact h hc

/-- Two texts that are cut at their first marks are equal piece by piece. -/
theorem append_inj_of_not_mem {mark : Char} {a a' b b' : Text} (ha : mark ∉ a) (ha' : mark ∉ a')
    (h : a ++ mark :: b = a' ++ mark :: b') : a = a' ∧ b = b' := by
  have hbefore := congrArg (before mark) h
  have hafter := congrArg (after? mark) h
  rw [before_append ha, before_append ha'] at hbefore
  rw [after?_append ha, after?_append ha'] at hafter
  exact ⟨hbefore, Option.some.inj hafter⟩

/-- What comes before the first mark, the mark and what comes after it are the whole text. -/
theorem eq_of_after? {mark : Char} {t u : Text} (h : after? mark t = some u) :
    t = before mark t ++ mark :: u := by
  induction t with
  | nil => cases h
  | cons c r ih =>
    rw [after?] at h
    split at h
    · next hc =>
      cases h
      rw [before, List.takeWhile_cons_of_neg (by simp [hc]), hc]
      rfl
    · next hc =>
      rw [before, List.takeWhile_cons_of_pos (by simpa using hc), List.cons_append,
        ← before, ← ih h]

/-- What comes before the last mark, the mark and what comes after it are the whole text. -/
theorem eq_of_beforeLast? {mark : Char} {t : Text} : ∀ {u : Text}, beforeLast? mark t = some u →
    t = u ++ mark :: t.drop (u.length + 1) := by
  induction t with
  | nil => intro u h; cases h
  | cons c r ih =>
    intro u h
    rw [beforeLast?] at h
    split at h
    · next v hv =>
      cases h
      rw [List.length_cons, List.drop_succ_cons, List.cons_append, ← ih hv]
    · split at h
      · next hc =>
        cases h
        rw [hc]
        rfl
      · cases h

/-- If nothing is after the mark, the text does not have it. -/
theorem not_mem_of_after? {mark : Char} {t : Text} (h : after? mark t = none) : mark ∉ t := by
  induction t with
  | nil => exact List.not_mem_nil
  | cons c r ih =>
    rw [after?] at h
    split at h
    · cases h
    · next hc =>
      rw [List.mem_cons, not_or]
      exact ⟨Ne.symm hc, ih h⟩

/-- If nothing is before the last mark, the text does not have it. -/
theorem not_mem_of_beforeLast? {mark : Char} {t : Text} (h : beforeLast? mark t = none) :
    mark ∉ t := by
  induction t with
  | nil => exact List.not_mem_nil
  | cons c r ih =>
    rw [beforeLast?] at h
    split at h
    · cases h
    · next hr =>
      split at h
      · cases h
      · next hc =>
        rw [List.mem_cons, not_or]
        exact ⟨Ne.symm hc, ih hr⟩

/-- No mark comes after the last one. -/
theorem not_mem_drop_of_beforeLast? {mark : Char} {t : Text} :
    ∀ {u : Text}, beforeLast? mark t = some u →
    mark ∉ t.drop (u.length + 1) := by
  induction t with
  | nil => intro u h; cases h
  | cons c r ih =>
    intro u h
    rw [beforeLast?] at h
    split at h
    · next v hv =>
      cases h
      exact ih hv
    · next hr =>
      split at h
      · cases h
        exact not_mem_of_beforeLast? hr
      · cases h

/-- Before a mark at the end there is the rest of the text. -/
theorem beforeLast?_concat (mark : Char) (t : Text) : beforeLast? mark (t ++ [mark]) = some t := by
  induction t with
  | nil => simp [beforeLast?]
  | cons c r ih => rw [List.cons_append, beforeLast?, ih]

end Text

/-- A text without carriage returns is left as it is. -/
theorem normalizeBreaks_of_not_mem {t : Text} (h : '\r' ∉ t) : normalizeBreaks t = t := by
  fun_induction normalizeBreaks t with
  | case1 => rfl
  | case2 r ih => simp at h
  | case3 c r _ ih =>
    rw [List.mem_cons, not_or] at h
    rw [if_neg (Ne.symm h.1), ih h.2]

/-- A text with uniform line breaks has no carriage returns. -/
theorem not_mem_normalizeBreaks (t : Text) : '\r' ∉ normalizeBreaks t := by
  fun_induction normalizeBreaks t with
  | case1 => exact List.not_mem_nil
  | case2 r ih => simpa using ih
  | case3 c r _ ih =>
    rw [List.mem_cons, not_or]
    refine ⟨?_, ih⟩
    split
    · decide
    · next hc => exact Ne.symm hc

/-- Lines without breaks are the lines of the text that has a line feed between them. -/
theorem Source.rawLines_joined {raws : List Text} (hne : raws ≠ [])
    (h : ∀ raw ∈ raws, '\n' ∉ raw ∧ '\r' ∉ raw) :
    rawLines (normalizeBreaks (Text.joined ['\n'] raws)) = raws := by
  have hreturn : '\r' ∉ Text.joined ['\n'] raws := by
    intro hmem
    rcases Text.mem_joined hmem with hmem | ⟨raw, hraw, hmem⟩
    · simp at hmem
    · exact (h raw hraw).2 hmem
  rw [normalizeBreaks_of_not_mem hreturn]
  exact List.splitOn_intercalate _ (fun raw hraw => (h raw hraw).1) hne

namespace LineKind

/-- What makes a trimmed line one of its kind. -/
inductive Of (t : Text) : LineKind → Prop
  | comment : t.head? = some '#' → Of t .comment
  | blank : t = [] → Of t .blank
  | code : t.head? = some '-' → Of t .code
  | heading : t.head? ≠ some '#' → t.head? ≠ some '-' → t.getLast? = some ':' → Of t .heading
  | other : t ≠ [] → t.head? ≠ some '#' → t.head? ≠ some '-' → t.getLast? ≠ some ':' → Of t .other

/-- A line is of the kind that it is read as. -/
theorem of_ofTrimmed (t : Text) : Of t (ofTrimmed t) := by
  unfold ofTrimmed
  split
  · next hcomment => exact .comment (Text.beginsWith_singleton.1 hcomment)
  next hcomment =>
  split
  · next hblank => exact .blank (List.isEmpty_iff.1 hblank)
  next hblank =>
  split
  · next hcode => exact .code (Text.beginsWith_singleton.1 hcode)
  next hcode =>
  rw [Text.beginsWith_singleton] at hcomment hcode
  split
  · next hheading => exact .heading hcomment hcode (Text.endsWith_singleton.1 hheading)
  · next hheading =>
    rw [Text.endsWith_singleton] at hheading
    exact .other (fun he => hblank (List.isEmpty_iff.2 he)) hcomment hcode hheading

/-- A line is of one kind only. -/
theorem Of.unique {t : Text} {kind kind' : LineKind} (h : Of t kind) (h' : Of t kind') :
    kind = kind' := by
  cases h <;> cases h' <;> simp_all

/-- The kind of a line is the one whose condition the line meets. -/
theorem ofTrimmed_eq_iff {t : Text} {kind : LineKind} : ofTrimmed t = kind ↔ Of t kind :=
  ⟨fun h => h ▸ of_ofTrimmed t, fun h => (of_ofTrimmed t).unique h⟩

/-- Blank lines are those without a text. -/
theorem ofTrimmed_eq_blank {t : Text} : ofTrimmed t = .blank ↔ t = [] :=
  ofTrimmed_eq_iff.trans ⟨fun | .blank h => h, .blank⟩

/-- Comments are the lines that begin with a hash sign. -/
theorem ofTrimmed_eq_comment {t : Text} : ofTrimmed t = .comment ↔ t.head? = some '#' :=
  ofTrimmed_eq_iff.trans ⟨fun | .comment h => h, .comment⟩

/-- Lines of code are those that begin with a hyphen. -/
theorem ofTrimmed_eq_code {t : Text} : ofTrimmed t = .code ↔ t.head? = some '-' :=
  ofTrimmed_eq_iff.trans ⟨fun | .code h => h, .code⟩

/-- Headings end with a colon, and are neither comments nor code. -/
theorem ofTrimmed_eq_heading {t : Text} : ofTrimmed t = .heading ↔
    t.head? ≠ some '#' ∧ t.head? ≠ some '-' ∧ t.getLast? = some ':' :=
  ofTrimmed_eq_iff.trans ⟨fun | .heading h₁ h₂ h₃ => ⟨h₁, h₂, h₃⟩, fun ⟨h₁, h₂, h₃⟩ =>
    .heading h₁ h₂ h₃⟩

/-- The other lines have a text and are none of these. -/
theorem ofTrimmed_eq_other {t : Text} : ofTrimmed t = .other ↔
    t ≠ [] ∧ t.head? ≠ some '#' ∧ t.head? ≠ some '-' ∧ t.getLast? ≠ some ':' :=
  ofTrimmed_eq_iff.trans
    ⟨fun | .other h₁ h₂ h₃ h₄ => ⟨h₁, h₂, h₃, h₄⟩, fun ⟨h₁, h₂, h₃, h₄⟩ => .other h₁ h₂ h₃ h₄⟩

end LineKind

namespace SourceLine

variable {raw : Text}

/-- A comment is read as an empty line. -/
theorem ofRaw_of_comment (h : LineKind.ofTrimmed (Text.trim raw) = .comment) :
    ofRaw raw = ⟨[], []⟩ := if_pos h

/-- A line that is no comment is read as it is. -/
theorem ofRaw_of_not_comment (h : LineKind.ofTrimmed (Text.trim raw) ≠ .comment) :
    ofRaw raw = ⟨raw, Text.trim raw⟩ :=
  if_neg h

/-- The checks see no text on a line exactly if it is blank or a comment. -/
theorem trimmed_ofRaw_eq_nil : (ofRaw raw).trimmed = [] ↔
    LineKind.ofTrimmed (Text.trim raw) = .blank ∨
      LineKind.ofTrimmed (Text.trim raw) = .comment := by
  by_cases hc : LineKind.ofTrimmed (Text.trim raw) = .comment
  · simp [ofRaw_of_comment hc, hc]
  · simp [ofRaw_of_not_comment hc, hc, LineKind.ofTrimmed_eq_blank]

end SourceLine

end ScriptLint
