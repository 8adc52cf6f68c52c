import ScriptLint.Text.Case

/-!
# Tags

An argument may hold tags such as `<player.flag[count].add[1]||0>`. The body of a tag is a list of
parts with dots between them and, after two bars, a fallback. A part may have a parameter in
brackets. Parameters and fallbacks are arguments again.

Arrows are no tag marks, so they are replaced by two control characters before a text is searched
(`substituteArrows`). The bodies of the outermost tags come from counting marks (`tagBodies`); a
body is cut at the dots and bars outside of brackets and inner tags (`rawParts`). Each step gives
shorter texts than it takes, which the last section states.
-/

namespace ScriptLint

/-- A part of a tag with its parameter. -/
structure TagPart where
  name : Text
  parameter : Option Text := none
deriving DecidableEq, Repr

/-- A tag: its parts, the first of which is the base, and its fallback. -/
structure Tag where
  parts : List TagPart
  fallback : Option Text := none
deriving DecidableEq, Repr

/-! ## Finding tags -/

/-- Replaces arrows to the right. -/
def substituteRight : Text → Text
  | [] => []
  | '-' :: '>' :: r => '\x01' :: substituteRight r
  | c :: r => c :: substituteRight r

/-- Replaces arrows to the left. -/
def substituteLeft : Text → Text
  | [] => []
  | '<' :: '-' :: r => '\x02' :: substituteLeft r
  | c :: r => c :: substituteLeft r

/-- The text with a control character for each arrow; arrows to the right come first. -/
def substituteArrows (t : Text) : Text := substituteLeft (substituteRight t)

/-- The bodies of the closed tags of a text, outermost ones only. Inside a tag, the number of inner
tags that are open is known, and the body so far, last character first. -/
def tagBodiesFrom : Option (Nat × Text) → Text → List Text
  | _, [] => []
  | none, c :: r => if c = '<' then tagBodiesFrom (some (0, [])) r else tagBodiesFrom none r
  | some (inner, body), c :: r =>
    if c = '<' then tagBodiesFrom (some (inner + 1, c :: body)) r
    else if c = '>' then
      match inner with
      | 0 => body.reverse :: tagBodiesFrom none r
      | inner + 1 => tagBodiesFrom (some (inner, c :: body)) r
    else tagBodiesFrom (some (inner, c :: body)) r

/-- The bodies of the outermost closed tags of a text. -/
def tagBodies (t : Text) : List Text := tagBodiesFrom none t

/-! ## Cutting a body -/

/-- The character joins the first part. -/
def consToFirst (c : Char) : List Text × Option Text → List Text × Option Text
  | ([], fallback) => ([[c]], fallback)
  | (p :: ps, fallback) => ((c :: p) :: ps, fallback)

/-- The parts of a body as they are written, and the fallback; `brackets` and `angles` count what
is open at the start. A closing mark with nothing to close is a plain character. -/
def rawParts (brackets angles : Nat) : Text → List Text × Option Text
  | [] => ([[]], none)
  | c :: r =>
    if c = '[' then consToFirst c (rawParts (brackets + 1) angles r)
    else if c = ']' ∧ 0 < brackets then consToFirst c (rawParts (brackets - 1) angles r)
    else if c = '<' then consToFirst c (rawParts brackets (angles + 1) r)
    else if c = '>' ∧ 0 < angles then consToFirst c (rawParts brackets (angles - 1) r)
    else if brackets = 0 ∧ angles = 0 then
      if c = '.' then
        let (parts, fallback) := rawParts 0 0 r
        ([] :: parts, fallback)
      else if c = '|' ∧ r.head? = some '|' then ([[]], some r.tail)
      else consToFirst c (rawParts 0 0 r)
    else consToFirst c (rawParts brackets angles r)

/-- A part from how it is written: the name ends at the first opening bracket, the parameter at the
last closing bracket after it, or at the end. -/
def TagPart.ofRaw (raw : Text) : TagPart :=
  match Text.after? '[' raw with
  | none => ⟨raw, none⟩
  | some inner => ⟨Text.before '[' raw, some ((Text.beforeLast? ']' inner).getD inner)⟩

namespace Tag

/-- The tag with a given body. -/
def ofBody (body : Text) : Tag :=
  let (parts, fallback) := rawParts 0 0 body
  ⟨parts.map TagPart.ofRaw, fallback⟩

/-- The first part's name in lower case. -/
def base (tag : Tag) : Text :=
  match tag.parts with
  | [] => []
  | p :: _ => Text.lower p.name

/-- The definition that a tag like `<[name]>` refers to. -/
def definition? (tag : Tag) : Option Text :=
  match tag.parts with
  | [] => none
  | p :: _ => if p.name.isEmpty then p.parameter.bind Text.nonempty? else none

/-- The save entry that a tag like `<entry[name]>` refers to. -/
def entry? (tag : Tag) : Option Text :=
  match tag.parts with
  | [] => none
  | p :: _ => if tag.base = "entry".toList then p.parameter.bind Text.nonempty? else none

end Tag

/-! ## What is found is shorter -/

/-- Replacing arrows to the right makes no text longer. -/
theorem length_substituteRight_le (t : Text) : (substituteRight t).length ≤ t.length := by
  fun_induction substituteRight t with
  | case1 => exact Nat.le_refl 0
  | case2 r ih => exact Nat.succ_le_succ (Nat.le_succ_of_le ih)
  | case3 c r _ ih => exact Nat.succ_le_succ ih

/-- Replacing arrows to the left makes no text longer. -/
theorem length_substituteLeft_le (t : Text) : (substituteLeft t).length ≤ t.length := by
  fun_induction substituteLeft t with
  | case1 => exact Nat.le_refl 0
  | case2 r ih => exact Nat.succ_le_succ (Nat.le_succ_of_le ih)
  | case3 c r _ ih => exact Nat.succ_le_succ ih

theorem length_substituteArrows_le (t : Text) : (substituteArrows t).length ≤ t.length :=
  Nat.le_trans (length_substituteLeft_le _) (length_substituteRight_le t)

/-- How many characters of the tag that is open have been read: its mark and its body so far. -/
def openLength : Option (Nat × Text) → Nat
  | none => 0
  | some (_, body) => body.length + 1

/-- A body that is found, with the marks around it, fits into what was read and what is left. -/
theorem length_of_mem_tagBodiesFrom {body t : Text} {state : Option (Nat × Text)}
    (h : body ∈ tagBodiesFrom state t) : body.length + 2 ≤ t.length + openLength state := by
  induction t generalizing state with
  | nil => cases state <;> cases h
  | cons c r ih =>
    -- A character goes from the text to the tag that is open, or is left behind.
    have hread : ∀ {state' : Option (Nat × Text)}, body ∈ tagBodiesFrom state' r →
        openLength state' ≤ openLength state + 1 →
        body.length + 2 ≤ (c :: r).length + openLength state := by
      intro state' h hle
      have hrest := ih h
      rw [List.length_cons]
      omega
    match state with
    | none =>
      rw [tagBodiesFrom] at h
      split at h
      · exact hread h (Nat.le_refl 1)
      · exact hread h (Nat.zero_le 1)
    | some (0, acc) =>
      rw [tagBodiesFrom] at h
      split at h
      · exact hread h (Nat.le_refl _)
      split at h
      · rcases List.mem_cons.1 h with rfl | h
        · rw [List.length_reverse, List.length_cons, openLength]
          omega
        · exact hread h (Nat.zero_le _)
      · exact hread h (Nat.le_refl _)
    | some (inner + 1, acc) =>
      rw [tagBodiesFrom] at h
      split at h
      · exact hread h (Nat.le_refl _)
      split at h
      · exact hread h (Nat.le_refl _)
      · exact hread h (Nat.le_refl _)

/-- A body is at least two characters shorter than the text it stands in. -/
theorem length_of_mem_tagBodies {body t : Text} (h : body ∈ tagBodies t) :
    body.length + 2 ≤ t.length :=
  length_of_mem_tagBodiesFrom h

@[simp] theorem consToFirst_snd (c : Char) (ps : List Text × Option Text) :
    (consToFirst c ps).2 = ps.2 := by
  obtain ⟨ps, f⟩ := ps
  cases ps <;> rfl

/-- What the first character of a body does when the body is cut. -/
inductive CutStep (c : Char) (r : Text) (cut : List Text × Option Text) : Prop
  /-- It joins the first part. -/
  | joins {brackets angles : Nat} : cut = consToFirst c (rawParts brackets angles r) →
      CutStep c r cut
  /-- It ends a part. -/
  | parts : cut = ([] :: (rawParts 0 0 r).1, (rawParts 0 0 r).2) → CutStep c r cut
  /-- It is the first of two bars, and the fallback comes after them. -/
  | bars {fallback : Text} : r = '|' :: fallback → cut = ([[]], some fallback) → CutStep c r cut

/-- All that the first character of a body can do. -/
theorem cutStep_rawParts (brackets angles : Nat) (c : Char) (r : Text) :
    CutStep c r (rawParts brackets angles (c :: r)) := by
  rw [rawParts]
  split
  · exact .joins rfl
  split
  · exact .joins rfl
  split
  · exact .joins rfl
  split
  · exact .joins rfl
  split
  · split
    · exact .parts rfl
    split
    · next hbars =>
      obtain ⟨-, hhead⟩ := hbars
      cases r with
      | nil => cases hhead
      | cons d fallback => exact .bars (congrArg (· :: fallback) (Option.some.inj hhead)) rfl
    · exact .joins rfl
  · exact .joins rfl

/-- A part after a character has joined the first one is at most that character longer than a part
before. -/
theorem length_of_mem_consToFirst {c : Char} {cut : List Text × Option Text} {raw : Text} {n : Nat}
    (hn : ∀ p ∈ cut.1, p.length ≤ n) (h : raw ∈ (consToFirst c cut).1) : raw.length ≤ n + 1 := by
  obtain ⟨ps, fallback⟩ := cut
  cases ps with
  | nil =>
    rw [consToFirst, List.mem_singleton] at h
    rw [h]
    exact Nat.le_add_left 1 n
  | cons p ps =>
    rw [consToFirst] at h
    rcases List.mem_cons.1 h with rfl | h
    · exact Nat.succ_le_succ (hn p List.mem_cons_self)
    · exact Nat.le_succ_of_le (hn raw (List.mem_cons_of_mem p h))

/-- No part is longer than the body. -/
theorem length_of_mem_rawParts {brackets angles : Nat} {body raw : Text}
    (h : raw ∈ (rawParts brackets angles body).1) : raw.length ≤ body.length := by
  induction body generalizing brackets angles raw with
  | nil => exact Nat.le_of_eq (congrArg List.length (List.mem_singleton.1 h))
  | cons c r ih =>
    cases cutStep_rawParts brackets angles c r with
    | joins hcut =>
      rw [hcut] at h
      exact length_of_mem_consToFirst (fun _ hp => ih hp) h
    | parts hcut =>
      rw [hcut] at h
      rcases List.mem_cons.1 h with rfl | h
      · exact Nat.zero_le _
      · exact Nat.le_succ_of_le (ih h)
    | bars hr hcut =>
      rw [hcut] at h
      rw [List.mem_singleton.1 h]
      exact Nat.zero_le _

/-- The fallback is at least two characters shorter than the body. -/
theorem length_of_rawParts_fallback {brackets angles : Nat} {body t : Text}
    (h : (rawParts brackets angles body).2 = some t) : t.length + 2 ≤ body.length := by
  induction body generalizing brackets angles with
  | nil => cases h
  | cons c r ih =>
    cases cutStep_rawParts brackets angles c r with
    | joins hcut =>
      rw [hcut, consToFirst_snd] at h
      exact Nat.le_succ_of_le (ih h)
    | parts hcut =>
      rw [hcut] at h
      exact Nat.le_succ_of_le (ih h)
    | bars hr hcut =>
      rw [hcut] at h
      rw [hr, ← Option.some.inj h]
      exact Nat.le_refl _

theorem length_of_after? {mark : Char} {t u : Text} (h : Text.after? mark t = some u) :
    u.length + 1 ≤ t.length := by
  induction t with
  | nil => cases h
  | cons c r ih =>
    rw [Text.after?] at h
    split at h
    · exact Nat.le_of_eq (congrArg (·.length + 1) (Option.some.inj h).symm)
    · exact Nat.le_succ_of_le (ih h)

theorem length_of_beforeLast? {mark : Char} {t u : Text} (h : Text.beforeLast? mark t = some u) :
    u.length + 1 ≤ t.length := by
  induction t generalizing u with
  | nil => cases h
  | cons c r ih =>
    rw [Text.beforeLast?] at h
    split at h
    · next v hv =>
      rw [← Option.some.inj h]
      exact Nat.succ_le_succ (ih hv)
    · split at h
      · rw [← Option.some.inj h]
        exact Nat.succ_le_succ (Nat.zero_le _)
      · cases h

/-- A parameter is shorter than the part that holds it. -/
theorem length_of_ofRaw_parameter {raw q : Text} (h : (TagPart.ofRaw raw).parameter = some q) :
    q.length + 1 ≤ raw.length := by
  unfold TagPart.ofRaw at h
  split at h
  · cases h
  · next inner hinner =>
    have hle := length_of_after? hinner
    rw [← Option.some.inj h]
    cases hlast : Text.beforeLast? ']' inner with
    | none => exact hle
    | some v =>
      have hv := length_of_beforeLast? hlast
      rw [Option.getD_some]
      omega

namespace Tag

/-- A parameter is shorter than the body of its tag. -/
theorem length_of_parameter {body q : Text} {p : TagPart} (hp : p ∈ (ofBody body).parts)
    (hq : p.parameter = some q) : q.length + 1 ≤ body.length := by
  simp only [ofBody, List.mem_map] at hp
  obtain ⟨raw, hraw, rfl⟩ := hp
  exact Nat.le_trans (length_of_ofRaw_parameter hq) (length_of_mem_rawParts hraw)

/-- A fallback is at least two characters shorter than the body of its tag. -/
theorem length_of_fallback {body t : Text} (h : (ofBody body).fallback = some t) :
    t.length + 2 ≤ body.length :=
  length_of_rawParts_fallback h

end Tag

end ScriptLint
