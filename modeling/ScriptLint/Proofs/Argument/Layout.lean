import ScriptLint.Argument
import ScriptLint.Proofs.Text

/-!
# How a line of arguments is written

A line is written as pieces with spaces around them (`Layout`). A piece is a word, a text between
two quotes, or, at the end of the line, a text after a quote that is not closed (`Piece`). Every
line is written in exactly one way, and its arguments are those of the pieces (`split_layout`). So
a line with one space between the same pieces has the same arguments.

All is said of one piece first. The splitter reads a piece off the front of a line whatever
follows, as long as an argument may end there (`Piece.Valid.split_append`). Some piece is at the
front of every line that does not begin with a space (`exists_piece`), and no other one is
(`Piece.Valid.append_inj`). Where a quoted piece ends is decided by the first quote that an
argument may end after (`exists_close`), so the text in it has no such quote.
-/

namespace ScriptLint.Argument

/-- An argument may end here: nothing follows, or a space. -/
def endsAt (rest : Text) : Bool := rest.isEmpty || rest.head? = some ' '

@[simp] theorem endsAt_nil : endsAt [] = true := rfl

@[simp] theorem endsAt_cons (c : Char) (r : Text) : endsAt (c :: r) = decide (c = ' ') := by
  simp [endsAt]

/-- A quote is no space. -/
theorem ne_space_of_isQuote {q : Char} (h : isQuote q = true) : q ≠ ' ' := by
  rintro rfl
  cases h

/-! ## Words of a line -/

/-- The text is a word of a line: it is not empty, has no space and does not begin with a quote. -/
structure IsWord (w : Text) : Prop where
  ne_nil : w ≠ []
  noSpace : ' ' ∉ w
  noQuote : w.head?.any isQuote = false

instance (w : Text) : Decidable (IsWord w) :=
  decidable_of_iff (w ≠ [] ∧ ' ' ∉ w ∧ w.head?.any isQuote = false)
    ⟨fun h => ⟨h.1, h.2.1, h.2.2⟩, fun h => ⟨h.ne_nil, h.noSpace, h.noQuote⟩⟩

/-- Inside of a word, the characters up to the next space are gathered. -/
theorem splitFrom_append {w : Text} (h : ' ' ∉ w) (current rest : Text) :
    splitFrom none false current (w ++ rest) =
      splitFrom none false (w.reverse ++ current) rest := by
  induction w generalizing current with
  | nil => rfl
  | cons c r ih =>
    rw [List.mem_cons, not_or] at h
    rw [List.cons_append, splitFrom]
    simp only [if_neg (Ne.symm h.1), Bool.and_false, Bool.false_eq_true, if_false]
    rw [ih h.2, List.reverse_cons, List.append_assoc]
    rfl

/-- A word is read into the argument as a whole. -/
theorem IsWord.splitFrom_append {w : Text} (h : IsWord w) (rest : Text) :
    splitFrom none true [] (w ++ rest) = splitFrom none false w.reverse rest := by
  obtain ⟨hne, hspace, hquote⟩ := h
  cases w with
  | nil => exact absurd rfl hne
  | cons c r =>
    rw [List.mem_cons, not_or] at hspace
    rw [List.cons_append, splitFrom]
    have hc : isQuote c = false := hquote
    simp only [if_neg (Ne.symm hspace.1), hc, Bool.false_and, Bool.false_eq_true, if_false]
    rw [Argument.splitFrom_append hspace.2, List.reverse_cons]

/-- A word goes up to the first space. -/
theorem append_inj_of_noSpace {w w' rest rest' : Text} (hw : ' ' ∉ w) (hw' : ' ' ∉ w')
    (hr : endsAt rest = true) (hr' : endsAt rest' = true) (h : w ++ rest = w' ++ rest') :
    w = w' ∧ rest = rest' := by
  induction w generalizing w' with
  | nil =>
    cases w' with
    | nil => exact ⟨rfl, h⟩
    | cons c r =>
      rw [List.nil_append] at h
      rw [h, List.cons_append, endsAt_cons, decide_eq_true_eq] at hr
      simp [hr] at hw'
  | cons c r ih =>
    cases w' with
    | nil =>
      rw [List.nil_append] at h
      rw [← h, List.cons_append, endsAt_cons, decide_eq_true_eq] at hr'
      simp [hr'] at hw
    | cons d s =>
      rw [List.mem_cons, not_or] at hw hw'
      obtain ⟨hhead, htail⟩ := List.cons.inj h
      obtain ⟨rfl, rfl⟩ := ih hw.2 hw'.2 htail
      exact ⟨by rw [hhead], rfl⟩

/-! ## Texts in quotes -/

/-- No quote in the text closes it if `rest` follows. -/
def NoClose (q : Char) (t rest : Text) : Prop :=
  ∀ before after, t = before ++ q :: after → endsAt (after ++ rest) = false

/-- If nothing closes a text, nothing closes the rest of it. -/
theorem NoClose.tail {q c : Char} {t rest : Text} (h : NoClose q (c :: t) rest) :
    NoClose q t rest :=
  fun before after ht => h (c :: before) after (by rw [ht]; rfl)

/-- In a text where no space is after a quote, the character after one is no space. -/
theorem ne_space_of_not_holds {q d : Char} {before r : Text}
    (h : Text.holds [q, ' '] (before ++ q :: d :: r) = false) : d ≠ ' ' := by
  rintro rfl
  have hin : [q, ' '] <:+: before ++ q :: ' ' :: r := ⟨before, r, by simp⟩
  rw [Text.holds_iff_infix.2 hin] at h
  cases h

/-- Before another quote, a quote closes the text only if a space follows. -/
theorem noClose_quote {q : Char} (hq : isQuote q = true) {t : Text}
    (h : Text.holds [q, ' '] t = false) (rest : Text) : NoClose q t (q :: rest) := by
  rintro before after rfl
  cases after with
  | nil => simpa using ne_space_of_isQuote hq
  | cons d r =>
    rw [List.cons_append, endsAt_cons, decide_eq_false_iff_not]
    exact ne_space_of_not_holds h

/-- At the end of the line, a quote closes the text if it is the last character or a space
follows. -/
theorem noClose_nil {q : Char} {t : Text} (h : Text.holds [q, ' '] t = false)
    (he : Text.endsWith [q] t = false) : NoClose q t [] := by
  rintro before after rfl
  cases after with
  | nil => rw [Text.endsWith_concat] at he; cases he
  | cons d r =>
    rw [List.cons_append, endsAt_cons, decide_eq_false_iff_not]
    exact ne_space_of_not_holds h

/-- Inside of quotes, the characters up to the quote that closes them are gathered. -/
theorem NoClose.splitFrom_append {q : Char} {t rest : Text} (h : NoClose q t rest)
    (current : Text) :
    splitFrom (some q) false current (t ++ rest) =
      splitFrom (some q) false (t.reverse ++ current) rest := by
  induction t generalizing current with
  | nil => rfl
  | cons c r ih =>
    have hc : ¬ (c = q ∧ endsAt (r ++ rest) = true) := by
      rintro ⟨rfl, he⟩
      rw [h [] r rfl] at he
      cases he
    rw [List.cons_append, splitFrom, if_neg (by simpa [endsAt] using hc), ih h.tail,
      List.reverse_cons, List.append_assoc]
    rfl

/-- A text in quotes is closed by the first quote that an argument may end after, or it is not
closed. -/
theorem exists_close (q : Char) (t : Text) :
    (∃ inner rest, t = inner ++ q :: rest ∧ endsAt rest = true ∧
      Text.holds [q, ' '] inner = false) ∨
      Text.holds [q, ' '] t = false ∧ Text.endsWith [q] t = false := by
  -- A character that closes nothing may stand in front of a text without a quote before a space.
  have hcons : ∀ {c : Char} {inner : Text} (rest : Text),
      ¬ (c = q ∧ endsAt (inner ++ rest) = true) →
      Text.holds [q, ' '] inner = false → Text.holds [q, ' '] (c :: inner) = false := by
    intro c inner rest hc hinner
    rw [Text.holds, hinner, Bool.or_false]
    cases inner with
    | nil => simp [List.isPrefixOf]
    | cons d r =>
      by_cases hcq : c = q
      · have hd : d ≠ ' ' := by simpa [hcq] using hc
        simp [List.isPrefixOf, Ne.symm hd]
      · simp [List.isPrefixOf, Ne.symm hcq]
  induction t with
  | nil => exact .inr ⟨rfl, rfl⟩
  | cons c r ih =>
    by_cases hc : c = q ∧ endsAt r = true
    · exact .inl ⟨[], r, by rw [hc.1]; rfl, hc.2, rfl⟩
    rcases ih with ⟨inner, rest, rfl, hrest, hinner⟩ | ⟨hholds, hends⟩
    · exact .inl ⟨c :: inner, rest, rfl, hrest, hcons _ hc hinner⟩
    · refine .inr ⟨hcons [] (by rwa [List.append_nil]) hholds, ?_⟩
      cases r with
      | nil =>
        have hne : c ≠ q := by simpa using hc
        rw [Bool.eq_false_iff, ne_eq, Text.endsWith_singleton]
        simpa using hne
      | cons d r =>
        have happend := Text.endsWith_append (c := q) [c] (List.cons_ne_nil d r)
        rwa [← happend] at hends

/-- Two texts in the same quotes that are followed by the same line are the same. -/
theorem append_inj_of_noClose {q : Char} {t t' rest rest' : Text} (h : NoClose q t (q :: rest))
    (h' : NoClose q t' (q :: rest')) (hr : endsAt rest = true) (hr' : endsAt rest' = true)
    (heq : t ++ q :: rest = t' ++ q :: rest') : t = t' ∧ rest = rest' := by
  -- If one text is longer, the quote after the other one is inside of it and would close it.
  have hinside : ∀ {t t' rest rest' : Text}, NoClose q t' (q :: rest') → endsAt rest = true →
      ∀ a, t' = t ++ a → q :: rest = a ++ q :: rest' → a = [] := by
    intro t t' rest rest' h' hr a ht ha
    cases a with
    | nil => rfl
    | cons c r =>
      obtain ⟨rfl, hrest⟩ : q = c ∧ rest = r ++ q :: rest' := List.cons.inj ha
      rw [hrest, h' t r ht] at hr
      cases hr
  rcases List.append_eq_append_iff.1 heq with ⟨a, ht, ha⟩ | ⟨a, ht, ha⟩
  · obtain rfl := hinside h' hr a ht ha
    rw [List.append_nil] at ht
    exact ⟨ht.symm, (List.cons.inj ha).2⟩
  · obtain rfl := hinside h hr' a ht ha
    rw [List.append_nil] at ht
    exact ⟨ht, (List.cons.inj ha).2.symm⟩

/-! ## Pieces -/

/-- How an argument is written. -/
inductive Piece where
  /-- A word. -/
  | bare (text : Text)
  /-- A text between two quotes. -/
  | quoted (quote : Char) (text : Text)
  /-- A text after a quote that is not closed. -/
  | unclosed (quote : Char) (text : Text)
deriving DecidableEq, Repr

namespace Piece

/-- The piece as it stands in the line. -/
def text : Piece → Text
  | bare t => t
  | quoted q t => q :: (t ++ [q])
  | unclosed q t => q :: t

/-- The argument that is written. -/
def argument : Piece → Argument
  | bare t => ⟨t, false⟩
  | quoted _ t | unclosed _ t => ⟨t, true⟩

/-- What is said of the piece: its quotes are of no use, or one is missing. -/
def issues : Piece → List Issue
  | bare _ => []
  | quoted _ t => if ' ' ∈ t then [] else [.pointlessQuotes]
  | unclosed _ _ => [.openQuote]

/-- The quote of the piece is not closed. -/
def isOpen : Piece → Bool
  | unclosed _ _ => true
  | _ => false

/-- No quote in a quoted text closes it: none has a space after it, nor, if the text is not closed,
is at its end. -/
def Valid : Piece → Prop
  | bare t => IsWord t
  | quoted q t => isQuote q = true ∧ Text.holds [q, ' '] t = false
  | unclosed q t => isQuote q = true ∧ Text.holds [q, ' '] t = false ∧ Text.endsWith [q] t = false

/-- The piece may stand before the rest of a line: an argument may end there, and nothing follows a
quote that is not closed. -/
def Before (p : Piece) (rest : Text) : Prop := endsAt rest = true ∧ (p.isOpen = true → rest = [])

/-- A piece begins with a character that is no space. -/
theorem Valid.starts {p : Piece} (h : p.Valid) : ∃ c r, p.text = c :: r ∧ c ≠ ' ' := by
  cases p with
  | bare t =>
    obtain ⟨hne, hspace, -⟩ := h
    cases t with
    | nil => exact absurd rfl hne
    | cons c r =>
      rw [List.mem_cons, not_or] at hspace
      exact ⟨c, r, rfl, Ne.symm hspace.1⟩
  | quoted q t => exact ⟨q, _, rfl, ne_space_of_isQuote h.1⟩
  | unclosed q t => exact ⟨q, _, rfl, ne_space_of_isQuote h.1⟩

end Piece

/-- A quote at the front of a line opens a text. -/
theorem split_quote {q : Char} (h : isQuote q = true) (rest : Text) :
    split (q :: rest) = splitFrom (some q) false [] rest := by
  rw [split, splitFrom]
  simp only [if_neg (ne_space_of_isQuote h), h, List.isEmpty_nil, Bool.and_self, if_true]

/-- After a quote has closed, the rest is read as a line of its own. -/
theorem splitFrom_of_endsAt {rest : Text} (h : endsAt rest = true) :
    splitFrom none false [] rest = split rest := by
  cases rest with
  | nil => rfl
  | cons c r =>
    rw [endsAt_cons, decide_eq_true_eq] at h
    rw [split, splitFrom, splitFrom, h]
    rfl

namespace Piece

/-- The splitter reads a piece off the front of a line. -/
theorem Valid.split_append {p : Piece} (h : p.Valid) {rest : Text} (hr : p.Before rest) :
    split (p.text ++ rest) = (p.argument :: (split rest).1, p.issues ++ (split rest).2) := by
  obtain ⟨hends, hopen⟩ := hr
  cases p with
  | bare t =>
    rw [text, split, h.splitFrom_append]
    cases rest with
    | nil => simp [splitFrom, h.ne_nil, argument, issues, split]
    | cons c r =>
      rw [endsAt_cons, decide_eq_true_eq] at hends
      simp [hends, splitFrom, h.ne_nil, argument, issues, split]
  | quoted q t =>
    have hclose := noClose_quote h.1 h.2 rest
    have hline : (quoted q t).text ++ rest = q :: (t ++ q :: rest) := by simp [text]
    rw [hline, split_quote h.1, hclose.splitFrom_append, List.append_nil, splitFrom,
      if_pos (by simpa [endsAt] using hends), List.reverse_reverse, splitFrom_of_endsAt hends]
    simp [argument, issues, quoteIssues]
  | unclosed q t =>
    obtain rfl := hopen rfl
    have hclose := noClose_nil h.2.1 h.2.2
    have hline : (unclosed q t).text ++ [] = q :: (t ++ []) := by simp [text]
    rw [hline, split_quote h.1, hclose.splitFrom_append, List.append_nil, splitFrom,
      List.reverse_reverse]
    rfl

/-- A line begins with one piece only. -/
theorem Valid.append_inj {p p' : Piece} (h : p.Valid) (h' : p'.Valid) {rest rest' : Text}
    (hr : p.Before rest) (hr' : p'.Before rest') (heq : p.text ++ rest = p'.text ++ rest') :
    p = p' ∧ rest = rest' := by
  -- A word begins with no quote, so it is no quoted text.
  have hword : ∀ {t r r' : Text} {q : Char}, IsWord t → isQuote q = true → t ++ r ≠ q :: r' := by
    intro t r r' q ht hq heq
    obtain ⟨hne, -, hquote⟩ := ht
    cases t with
    | nil => exact hne rfl
    | cons c s =>
      have hc : isQuote c = false := hquote
      rw [(List.cons.inj heq).1, hq] at hc
      cases hc
  -- A text that is not closed is no text between quotes.
  have hclosed : ∀ {t t' rest : Text} {q : Char}, (unclosed q t').Valid → endsAt rest = true →
      t ++ q :: rest ≠ t' := by
    intro t t' rest q ht' hrest heq
    have hno := noClose_nil ht'.2.1 ht'.2.2 t rest heq.symm
    rw [List.append_nil, hrest] at hno
    cases hno
  cases p with
  | bare t =>
    cases p' with
    | bare t' =>
      obtain ⟨rfl, rfl⟩ := append_inj_of_noSpace h.noSpace h'.noSpace hr.1 hr'.1 heq
      exact ⟨rfl, rfl⟩
    | quoted q' t' => exact absurd heq (hword h h'.1)
    | unclosed q' t' => exact absurd heq (hword h h'.1)
  | quoted q t =>
    cases p' with
    | bare t' => exact absurd heq.symm (hword h' h.1)
    | quoted q' t' =>
      simp only [text, List.cons_append, List.append_assoc, List.nil_append,
        List.cons.injEq] at heq
      obtain ⟨rfl, heq⟩ := heq
      have hclose := noClose_quote h.1 h.2 rest
      have hclose' := noClose_quote h'.1 h'.2 rest'
      obtain ⟨rfl, rfl⟩ := append_inj_of_noClose hclose hclose' hr.1 hr'.1 heq
      exact ⟨rfl, rfl⟩
    | unclosed q' t' =>
      obtain rfl := hr'.2 rfl
      simp only [text, List.cons_append, List.append_assoc, List.nil_append, List.append_nil,
        List.cons.injEq] at heq
      obtain ⟨rfl, heq⟩ := heq
      exact absurd heq (hclosed h' hr.1)
  | unclosed q t =>
    obtain rfl := hr.2 rfl
    cases p' with
    | bare t' => exact absurd heq.symm (hword h' h.1)
    | quoted q' t' =>
      simp only [text, List.cons_append, List.append_assoc, List.nil_append, List.append_nil,
        List.cons.injEq] at heq
      obtain ⟨rfl, heq⟩ := heq
      exact absurd heq.symm (hclosed h hr'.1)
    | unclosed q' t' =>
      obtain rfl := hr'.2 rfl
      simp only [text, List.append_nil, List.cons.injEq] at heq
      obtain ⟨rfl, rfl⟩ := heq
      exact ⟨rfl, rfl⟩

end Piece

/-- A line that does not begin with a space begins with a piece. -/
theorem exists_piece {c : Char} (hc : c ≠ ' ') (r : Text) :
    ∃ (p : Piece) (rest : Text), p.Valid ∧ p.Before rest ∧ p.text ++ rest = c :: r := by
  cases hq : isQuote c with
  | true =>
    rcases exists_close c r with ⟨inner, rest, rfl, hrest, hinner⟩ | hopen
    · exact ⟨.quoted c inner, rest, ⟨hq, hinner⟩, ⟨hrest, nofun⟩, by simp [Piece.text]⟩
    · exact ⟨.unclosed c r, [], ⟨hq, hopen⟩, ⟨rfl, fun _ => rfl⟩, List.append_nil _⟩
  | false =>
    have hword : (c :: r).takeWhile (· != ' ') = c :: r.takeWhile (· != ' ') :=
      List.takeWhile_cons_of_pos (by simpa using hc)
    refine ⟨.bare ((c :: r).takeWhile (· != ' ')), (c :: r).dropWhile (· != ' '), ⟨?_, ?_, ?_⟩,
      ⟨?_, nofun⟩, ?_⟩
    · rw [hword]
      exact List.cons_ne_nil _ _
    · exact Text.not_mem_before
    · rw [hword]
      exact hq
    · have hhead := List.head?_dropWhile_not (· != ' ') (c :: r)
      cases hd : (c :: r).dropWhile (· != ' ') with
      | nil => rfl
      | cons d s =>
        rw [hd] at hhead
        simpa using hhead
    · exact List.takeWhile_append_dropWhile

/-! ## Lines -/

/-- A line as it is written: spaces, and then pieces, each with the spaces after it. -/
structure Layout where
  margin : Nat
  pieces : List (Piece × Nat)
deriving DecidableEq, Repr

/-- The pieces of a line with the spaces after them. -/
def textFrom : List (Piece × Nat) → Text
  | [] => []
  | (p, n) :: rest => p.text ++ (List.replicate n ' ' ++ textFrom rest)

/-- There are spaces between any two pieces, and a quote that is not closed is the end of the
line. -/
def PiecesValid : List (Piece × Nat) → Prop
  | [] => True
  | (p, n) :: rest =>
    p.Valid ∧ (rest ≠ [] → 0 < n) ∧ (p.isOpen = true → n = 0 ∧ rest = []) ∧ PiecesValid rest

namespace Layout

/-- The line. -/
def text (l : Layout) : Text := List.replicate l.margin ' ' ++ textFrom l.pieces

/-- The line is written by the rules. -/
def Valid (l : Layout) : Prop := PiecesValid l.pieces

/-- The arguments of the line. -/
def arguments (l : Layout) : List Argument := l.pieces.map (·.1.argument)

/-- What is said of the line. -/
def issues (l : Layout) : List Issue := l.pieces.flatMap (·.1.issues)

/-- The line with one space between neighbours. -/
def joined (l : Layout) : Text := Text.joined [' '] (l.pieces.map (·.1.text))

end Layout

/-- Spaces at the front of a line are skipped. -/
theorem split_spaces (n : Nat) (t : Text) : split (List.replicate n ' ' ++ t) = split t := by
  induction n with
  | zero => rfl
  | succ n ih =>
    rw [List.replicate_succ, List.cons_append, split, splitFrom]
    exact ih

/-- What follows a piece is where an argument may end. -/
theorem PiecesValid.before {p : Piece} {n : Nat} {rest : List (Piece × Nat)}
    (h : PiecesValid ((p, n) :: rest)) : p.Before (List.replicate n ' ' ++ textFrom rest) := by
  obtain ⟨-, hspace, hopen, -⟩ := h
  refine ⟨?_, fun ho => ?_⟩
  · cases n with
    | succ n => rfl
    | zero =>
      cases rest with
      | nil => rfl
      | cons q rest => exact absurd (hspace (List.cons_ne_nil _ _)) (Nat.lt_irrefl 0)
  · obtain ⟨rfl, rfl⟩ := hopen ho
    rfl

/-- The splitter reads the pieces one after the other. -/
theorem split_textFrom {pieces : List (Piece × Nat)} (h : PiecesValid pieces) :
    split (textFrom pieces) = (pieces.map (·.1.argument), pieces.flatMap (·.1.issues)) := by
  induction pieces with
  | nil => rfl
  | cons e rest ih =>
    obtain ⟨p, n⟩ := e
    have hread := h.1.split_append h.before
    rw [textFrom, hread, split_spaces, ih h.2.2.2]
    rfl

/-- A line that is printed from pieces has their arguments and issues. -/
theorem Layout.Valid.split_text {l : Layout} (h : l.Valid) :
    split l.text = (l.arguments, l.issues) := by
  rw [text, split_spaces]
  exact split_textFrom h

/-- Every line is written by the rules. -/
theorem exists_layout (t : Text) : ∃ l : Layout, l.Valid ∧ l.text = t := by
  induction hn : t.length using Nat.strongRecOn generalizing t with
  | ind n ih =>
  subst hn
  cases t with
  | nil => exact ⟨⟨0, []⟩, trivial, rfl⟩
  | cons c r =>
  by_cases hc : c = ' '
  · obtain ⟨⟨margin, pieces⟩, hl, rfl⟩ := ih r.length (Nat.lt_succ_self _) r rfl
    exact ⟨⟨margin + 1, pieces⟩, hl, by rw [hc]; rfl⟩
  · obtain ⟨p, rest, hp, hbefore, hline⟩ := exists_piece hc r
    have hlt : rest.length < (c :: r).length := by
      obtain ⟨d, s, hd, -⟩ := hp.starts
      rw [← hline, hd, List.cons_append, List.length_cons, List.length_append]
      omega
    obtain ⟨⟨margin, pieces⟩, hl, rfl⟩ := ih rest.length hlt rest rfl
    refine ⟨⟨0, (p, margin) :: pieces⟩, ⟨hp, fun hne => ?_, fun ho => ?_, hl⟩, hline⟩
    · -- The next piece begins with no space, so some space is in front of it.
      cases pieces with
      | nil => exact absurd rfl hne
      | cons e pieces =>
        obtain ⟨d, s, hd, hspace⟩ := hl.1.starts
        refine Nat.pos_of_ne_zero fun hzero => hspace ?_
        have hends := hbefore.1
        simpa [Layout.text, hzero, textFrom, hd] using hends
    · have hnil := hbefore.2 ho
      cases margin with
      | succ margin => cases hnil
      | zero =>
        cases pieces with
        | nil => exact ⟨rfl, rfl⟩
        | cons e pieces =>
          obtain ⟨d, s, hd, -⟩ := hl.1.starts
          simp [Layout.text, textFrom, hd] at hnil

/-- Spaces in front of pieces are as many as there are at the front of the line. -/
theorem spaces_inj {n n' : Nat} {pieces pieces' : List (Piece × Nat)} (h : PiecesValid pieces)
    (h' : PiecesValid pieces')
    (heq : List.replicate n ' ' ++ textFrom pieces = List.replicate n' ' ' ++ textFrom pieces') :
    n = n' ∧ textFrom pieces = textFrom pieces' := by
  have hstart : ∀ {pieces : List (Piece × Nat)} {t : Text}, PiecesValid pieces →
      textFrom pieces ≠ ' ' :: t := by
    intro pieces t h heq
    cases pieces with
    | nil => cases heq
    | cons e rest =>
      obtain ⟨d, s, hd, hspace⟩ := h.1.starts
      rw [textFrom, hd] at heq
      exact hspace (List.cons.inj heq).1
  induction n generalizing n' with
  | zero =>
    cases n' with
    | zero => exact ⟨rfl, heq⟩
    | succ n' => exact absurd heq (hstart h)
  | succ n ih =>
    cases n' with
    | zero => exact absurd heq.symm (hstart h')
    | succ n' =>
      obtain ⟨rfl, htext⟩ := ih (List.cons.inj heq).2
      exact ⟨rfl, htext⟩

/-- Pieces that print alike are the same. -/
theorem textFrom_inj {pieces pieces' : List (Piece × Nat)} (h : PiecesValid pieces)
    (h' : PiecesValid pieces') (heq : textFrom pieces = textFrom pieces') : pieces = pieces' := by
  induction pieces generalizing pieces' with
  | nil =>
    cases pieces' with
    | nil => rfl
    | cons e' rest' =>
      obtain ⟨d, s, hd, -⟩ := h'.1.starts
      rw [textFrom, textFrom, hd] at heq
      cases heq
  | cons e rest ih =>
    obtain ⟨p, n⟩ := e
    cases pieces' with
    | nil =>
      obtain ⟨d, s, hd, -⟩ := h.1.starts
      rw [textFrom, textFrom, hd] at heq
      cases heq
    | cons e' rest' =>
      obtain ⟨p', n'⟩ := e'
      obtain ⟨rfl, hrest⟩ := h.1.append_inj h'.1 h.before h'.before heq
      obtain ⟨rfl, htext⟩ := spaces_inj h.2.2.2 h'.2.2.2 hrest
      rw [ih h.2.2.2 h'.2.2.2 htext]

/-- A line is written in one way only. -/
theorem Layout.Valid.text_inj {l l' : Layout} (h : l.Valid) (h' : l'.Valid)
    (heq : l.text = l'.text) : l = l' := by
  obtain ⟨hmargin, htext⟩ := spaces_inj h h' heq
  obtain ⟨margin, pieces⟩ := l
  obtain ⟨margin', pieces'⟩ := l'
  obtain rfl : margin = margin' := hmargin
  obtain rfl := textFrom_inj h h' htext
  rfl

/-- The same pieces with one space between neighbours. -/
def spaced : List Piece → List (Piece × Nat)
  | [] => []
  | [p] => [(p, 0)]
  | p :: q :: rest => (p, 1) :: spaced (q :: rest)

/-- With one space after each, the pieces are the same. -/
theorem map_spaced {α : Type} (f : Piece → α) (pieces : List Piece) :
    (spaced pieces).map (fun e => f e.1) = pieces.map f := by
  fun_induction spaced pieces with
  | case1 => rfl
  | case2 p => rfl
  | case3 p q rest ih => rw [List.map_cons, ih]; rfl

/-- The pieces with one space between them print as their joined texts. -/
theorem textFrom_spaced (pieces : List Piece) :
    textFrom (spaced pieces) = Text.joined [' '] (pieces.map Piece.text) := by
  fun_induction spaced pieces with
  | case1 => rfl
  | case2 p => simp [textFrom]
  | case3 p q rest ih =>
    rw [textFrom, ih, List.map_cons (l := q :: rest), Text.joined_cons (by simp)]
    rfl

/-- Pieces stay valid with one space between them. -/
theorem PiecesValid.spaced {pieces : List (Piece × Nat)} (h : PiecesValid pieces) :
    PiecesValid (Argument.spaced (pieces.map (·.1))) := by
  induction pieces with
  | nil => trivial
  | cons e rest ih =>
    obtain ⟨p, n⟩ := e
    obtain ⟨hp, -, hopen, hrest⟩ := h
    cases rest with
    | nil => exact ⟨hp, fun hne => absurd rfl hne, fun _ => ⟨rfl, rfl⟩, trivial⟩
    | cons e' rest =>
      refine ⟨hp, fun _ => Nat.one_pos, fun ho => ?_, ih hrest⟩
      cases (hopen ho).2

/-- Pieces with one space between neighbours have the arguments of the line. -/
theorem Layout.Valid.split_joined {l : Layout} (h : l.Valid) :
    split l.joined = (l.arguments, l.issues) := by
  have hread := split_textFrom (PiecesValid.spaced h)
  rw [textFrom_spaced, List.flatMap_def, map_spaced, map_spaced, ← List.flatMap_def, List.map_map,
    List.map_map, List.flatMap_map] at hread
  exact hread

/-- Every line is written in exactly one way by the rules. Its arguments are those of its pieces,
in order, and so is what is said of it. The line with one space between the same pieces is read in
the same way. -/
theorem split_layout (t : Text) : ∃ l : Layout, l.Valid ∧ l.text = t ∧
    (∀ l' : Layout, l'.Valid → l'.text = t → l' = l) ∧
    split t = (l.arguments, l.issues) ∧ split l.joined = (l.arguments, l.issues) := by
  obtain ⟨l, hl, rfl⟩ := exists_layout t
  exact ⟨l, hl, rfl, fun l' hl' heq => hl'.text_inj hl heq, hl.split_text, hl.split_joined⟩

/-- A quote between two others, one inside of a quoted text, one inside of a word, and one that is
not closed. -/
example : split "\x22\x22\x22 'a'b' x'y  \x22c ".toList =
    ([⟨"\x22".toList, true⟩, ⟨"a'b".toList, true⟩, ⟨"x'y".toList, false⟩, ⟨"c ".toList, true⟩],
      [.pointlessQuotes, .pointlessQuotes, .openQuote]) := by
  rfl

end ScriptLint.Argument
