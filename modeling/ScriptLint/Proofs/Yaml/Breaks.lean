import ScriptLint.Yaml.Load

/-!
# Texts of line breaks

A text that has nothing but line feeds loads as no value (`load_of_breaks`). The lexer passes over
all of them on its way to the first token (`skipBlanks_of_breaks`), which is then the end of the
stream (`fetch_of_breaks`), and a stream that ends at once holds no document.
-/

namespace ScriptLint.Yaml

/-- The text has nothing but line feeds. -/
def OnlyBreaks (t : Text) : Prop := ∀ c ∈ t, c = '\n'

/-- A text of line feeds begins with one, and the rest is of line feeds too. -/
theorem OnlyBreaks.eq_cons {c : Char} {r : Text} (h : OnlyBreaks (c :: r)) :
    c = '\n' ∧ OnlyBreaks r :=
  List.forall_mem_cons.1 h

namespace Cursor

variable {c : Cursor}

/-- At the end, the cursor sees the end mark. -/
theorem peek_of_nil (h : c.rest = []) : c.peek = endMark := by rw [peek, h]; rfl

/-- The cursor stays where the run to be passed over is empty. -/
theorem skipWhile_of_not {p : Char → Bool} {d : Char} {r : Text} (h : c.rest = d :: r)
    (hp : p d = false) :
    c.skipWhile p = c := by
  obtain ⟨place, rest, bound⟩ := c
  cases h
  rw [skipWhile, span, spanFrom, if_neg (by simp [hp])]

/-- At the end there is nothing to skip. -/
theorem skipWhile_of_nil {p : Char → Bool} (h : c.rest = []) : c.skipWhile p = c := by
  obtain ⟨place, rest, bound⟩ := c
  cases h
  rfl

/-- Without a hash sign no comment is skipped. -/
theorem skipComment_of_ne (h : c.peek ≠ '#') : c.skipComment = c := if_neg h

/-- Neither spaces nor a comment come first in a text of line feeds. -/
theorem skipped_of_breaks (h : OnlyBreaks c.rest) : c.skipSpaces.skipComment = c := by
  cases hr : c.rest with
  | nil =>
    rw [skipSpaces, skipWhile_of_nil hr, skipComment_of_ne (by rw [peek_of_nil hr]; decide)]
  | cons d r =>
    obtain rfl := (hr ▸ h).eq_cons.1
    rw [skipSpaces, skipWhile_of_not hr (by decide), skipComment_of_ne (by simp [peek, hr])]

/-- At the end there is no line break. -/
theorem lineBreak_of_nil (h : c.rest = []) : c.lineBreak = ([], c) := by rw [lineBreak, h]

/-- A line feed is a line break. -/
theorem lineBreak_of_cons {r : Text} (h : c.rest = '\n' :: r) :
    c.lineBreak = (['\n'], c.next) := by
  rw [lineBreak, h]
  rfl

/-- One step takes one character. -/
theorem next_rest {d : Char} {r : Text} (h : c.rest = d :: r) : c.next.rest = r := by rw [next, h]

end Cursor

namespace Lexer

/-- Line feeds are passed over to the end of the text. -/
theorem skipBlanks_of_breaks {fuel : Nat} (ended : Bool) {c : Cursor} (h : OnlyBreaks c.rest)
    (hf : c.rest.length < fuel) : (skipBlanks fuel ended c).2.rest = [] := by
  induction fuel generalizing ended c with
  | zero => exact absurd hf (Nat.not_lt_zero _)
  | succ fuel ih =>
    rw [skipBlanks, Cursor.skipped_of_breaks h]
    cases hr : c.rest with
    | nil => rw [Cursor.lineBreak_of_nil hr]; exact hr
    | cons d r =>
      rw [hr] at h hf
      obtain ⟨rfl, hbreaks⟩ := h.eq_cons
      rw [Cursor.lineBreak_of_cons hr]
      refine ih true ?_ ?_
      · rwa [Cursor.next_rest hr]
      · rw [Cursor.next_rest hr]
        exact Nat.lt_of_succ_lt_succ hf

/-- The lexer at the start of a text. -/
def start (t : Text) : Lexer := { cursor := .ofText t }

/-- In a text of line feeds the scanner finds no token before the end. -/
theorem toNextToken_of_breaks {t : Text} (h : OnlyBreaks t) :
    ∃ c keyAllowed, (start t).toNextToken = { cursor := c, keyAllowed } ∧ c.peek = endMark := by
  have hmark : ¬ ((start t).cursor.place.index = 0 ∧ (start t).cursor.peek = '\ufeff') := by
    rintro ⟨-, hp⟩
    cases t with
    | nil => exact absurd hp (by decide)
    | cons c r =>
      obtain rfl := h.eq_cons.1
      simp [start, Cursor.ofText, Cursor.peek] at hp
  have hend : (skipBlanks (t.length + 1) false (.ofText t)).2.rest = [] :=
    skipBlanks_of_breaks false h (Nat.lt_succ_self _)
  rw [toNextToken, if_neg hmark]
  exact ⟨_, _, rfl, Cursor.peek_of_nil hend⟩

/-- The first token of a text of line feeds is the end of the stream, and it is the last one. -/
theorem fetch_of_breaks {t : Text} (h : OnlyBreaks t) :
    ∃ l token, (start t).fetch = .ok l ∧ l.finished = true ∧ l.queue = [token] ∧
      token.kind = .streamEnd := by
  obtain ⟨c, keyAllowed, hl, hp⟩ := toNextToken_of_breaks h
  have hstale : (start t).toNextToken.dropStale = .ok { cursor := c, keyAllowed } := by
    rw [hl]; rfl
  refine ⟨{ cursor := c, keyAllowed := false, queue := [⟨.streamEnd, c.place, c.place⟩]
            finished := true }, _, ?_, rfl, rfl, rfl⟩
  have hunwind : ({ cursor := c, keyAllowed } : Lexer).unwind c.column =
      { cursor := c, keyAllowed } := rfl
  rw [fetch, hstale]
  simp only [bind, Except.bind, hunwind, hp]
  rfl

/-- With nothing to hand out, the lexer reads on. -/
theorem tokensFrom_of_fetch {fuel : Nat} {l l' : Lexer} (hf : l.finished = false)
    (hq : l.queue = []) (h : l.fetch = .ok l') : tokensFrom (fuel + 1) l = tokensFrom fuel l' := by
  rw [tokensFrom]
  simp [hf, hq, isUndecided, h]

/-- The end of the stream is handed out last. -/
theorem tokensFrom_of_end {fuel : Nat} {l : Lexer} {token : Token} (hf : l.finished = true)
    (hq : l.queue = [token]) (hk : token.kind = .streamEnd) :
    tokensFrom (fuel + 1) l = ([token], none) := by
  rw [tokensFrom]
  simp [hf, hq, hk]

end Lexer

/-- The only token of a text of line feeds is the end of the stream. -/
theorem tokens_of_breaks {t : Text} (h : OnlyBreaks t) :
    ∃ token, tokens t = ([token], none) ∧ token.kind = .streamEnd := by
  obtain ⟨l, token, hfetch, hfinished, hqueue, hkind⟩ := Lexer.fetch_of_breaks h
  refine ⟨token, ?_, hkind⟩
  calc tokens t
    _ = Lexer.tokensFrom (8 * t.length + 15 + 1) (Lexer.start t) := rfl
    _ = Lexer.tokensFrom (8 * t.length + 14 + 1) l := Lexer.tokensFrom_of_fetch rfl rfl hfetch
    _ = ([token], none) := Lexer.tokensFrom_of_end hfinished hqueue hkind

/-- YAML admits line feeds. -/
theorem foreignCharacter?_of_breaks {t : Text} (h : OnlyBreaks t) (index : Nat) :
    foreignCharacter? index t = none := by
  induction t generalizing index with
  | nil => rfl
  | cons c r ih =>
    obtain ⟨rfl, hr⟩ := h.eq_cons
    rw [foreignCharacter?, if_pos (by decide), ih hr]

/-- A text of line feeds holds no value. -/
theorem load_of_breaks {t : Text} (h : OnlyBreaks t) : load t = .ok .null := by
  obtain ⟨token, htokens, hkind⟩ := tokens_of_breaks h
  have hnode : Node.ofText? t = .ok none := by
    simp [Node.ofText?, htokens, document, Read.sees, Read.peek, hkind]
    rfl
  rw [load, foreignCharacter?_of_breaks h, hnode]
  rfl

end ScriptLint.Yaml
