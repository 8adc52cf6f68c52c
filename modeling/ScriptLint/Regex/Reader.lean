import ScriptLint.Regex

/-!
# Reading regular expressions

An expression is written as alternatives with bars between them, each a sequence of characters,
classes in square brackets, groups in parentheses and anchors, where a repetition may follow an
item. A text that is no expression is refused with a cause (`RegexError`).
-/

namespace ScriptLint

/-- Why a text is no regular expression. -/
inductive RegexError where
  | nothingToRepeat
  | repeatedRepeat
  | repeatBounds
  | badEscape
  | badRange
  | openClass
  | openGroup
  | strayParenthesis
  | unknownGroup
deriving DecidableEq, Repr

namespace Regex

/-- The last item of a sequence: what it is decides whether it may be repeated. -/
inductive Item where
  | plain (r : Regex)
  | anchor (r : Regex)
  | repeated (r : Regex)

/-- The expression of an item. -/
def Item.regex : Item → Regex
  | plain r | anchor r | repeated r => r

/-- A sequence with its last item. -/
def close (sequence : Regex) (last : Option Item) : Regex :=
  match last with
  | none => sequence
  | some item => if sequence = .empty then item.regex else .andThen sequence item.regex

/-- The character with a hexadecimal code of `n` digits. -/
def hexChar? (n : Nat) (t : Text) : Option (Char × Text) :=
  let digits := t.take n
  if digits.length = n ∧ digits.all Char.isAlphanum then
    (digits.foldl (fun acc c =>
      acc.bind fun v =>
        if c.isDigit then some (16 * v + (c.toNat - '0'.toNat))
        else if 'a' ≤ c.toLower ∧ c.toLower ≤ 'f' then
          some (16 * v + 10 + (c.toLower.toNat - 'a'.toNat))
        else none) (some 0)).map fun v => (Char.ofNat v, t.drop n)
  else none

/-- The character that an escape stands for, after the backslash. Letters that stand for nothing
are refused. -/
def escapedChar (c : Char) (rest : Text) : Except RegexError (Char × Text) :=
  match c with
  | 'a' => .ok ('\x07', rest)
  | 'f' => .ok ('\x0c', rest)
  | 'n' => .ok ('\n', rest)
  | 'r' => .ok ('\r', rest)
  | 't' => .ok ('\t', rest)
  | 'v' => .ok ('\x0b', rest)
  | 'x' => (hexChar? 2 rest).elim (.error .badEscape) .ok
  | 'u' => (hexChar? 4 rest).elim (.error .badEscape) .ok
  | 'U' => (hexChar? 8 rest).elim (.error .badEscape) .ok
  | '0' => .ok ('\x00', rest)
  | _ => if c.isAlphanum then .error .badEscape else .ok (c, rest)

/-- The group of characters that an escaped letter stands for. -/
def escapedItem? : Char → Option CharItem
  | 'd' => some .digit
  | 'D' => some .nonDigit
  | 's' => some .blank
  | 'S' => some .nonBlank
  | 'w' => some .word
  | 'W' => some .nonWord
  | _ => none

/-- An item of a sequence from what stands after a backslash. -/
def escaped : Text → Except RegexError (Item × Text)
  | [] => .error .badEscape
  | c :: rest =>
    match c with
    | 'A' => .ok (.anchor .start, rest)
    | 'Z' => .ok (.anchor .finish, rest)
    | 'b' => .ok (.anchor (.boundary true), rest)
    | 'B' => .ok (.anchor (.boundary false), rest)
    | _ =>
      match escapedItem? c with
      | some item => .ok (.plain (.oneOf false [item]), rest)
      | none => do
        let (d, rest) ← escapedChar c rest
        return (.plain (.oneOf false [.char d]), rest)

/-- A member of a class from what stands after a backslash. -/
def escapedMember : Text → Except RegexError (CharItem × Text)
  | [] => .error .badEscape
  | c :: rest =>
    match escapedItem? c with
    | some item => .ok (item, rest)
    | none =>
      if c = 'b' then .ok (.char '\x08', rest)
      else do
        let (d, rest) ← escapedChar c rest
        return (.char d, rest)

/-- A member of a class that begins with `c`. -/
def member (c : Char) (rest : Text) : Except RegexError (CharItem × Text) :=
  if c = '\\' then
    if rest.isEmpty then .error .openClass else escapedMember rest
  else .ok (.char c, rest)

/-- The members of a class up to its closing bracket, which is a plain character at the start. The
fuel is as long as the text. -/
def members : Nat → List CharItem → Text → Except RegexError (List CharItem × Text)
  | 0, _, _ | _, _, [] => .error .openClass
  | fuel + 1, found, c :: rest =>
    if c = ']' ∧ ¬ found.isEmpty then .ok (found, rest)
    else do
      let (first, rest) ← member c rest
      match rest with
      | '-' :: [] => .error .openClass
      | '-' :: ']' :: rest => return (found ++ [first, .char '-'], rest)
      | '-' :: d :: rest =>
        let (last, rest) ← member d rest
        match first, last with
        | .char lo, .char hi =>
          if hi.val < lo.val then .error .badRange else members fuel (found ++ [.range lo hi]) rest
        | _, _ => .error .badRange
      | rest => members fuel (found ++ [first]) rest

/-- A class from what stands after its opening bracket. -/
def charClass (t : Text) : Except RegexError (Regex × Text) := do
  let (negated, t) := match t with
    | '^' :: r => (true, r)
    | r => (false, r)
  let (items, rest) ← members (t.length + 1) [] t
  return (.oneOf negated items, rest)

/-- The number that a text begins with, if it begins with a digit. -/
def number? (t : Text) : Option Nat × Text :=
  let digits := t.takeWhile Char.isDigit
  (if digits.isEmpty then none
    else some (digits.foldl (fun n c => 10 * n + (c.toNat - '0'.toNat)) 0),
   t.dropWhile Char.isDigit)

/-- The bounds of a repetition from what stands after an opening brace; without a closing brace in
the right place the brace is a plain character. -/
def bounds? (t : Text) : Option (Nat × Option Nat × Text) :=
  match t with
  | '\x7d' :: _ => none
  | _ =>
    let (least, t) := number? t
    let (most, t) := match t with
      | ',' :: r => number? r
      | r => (least, r)
    match t with
    | '\x7d' :: r => some (least.getD 0, most, r)
    | _ => none

/-- A repetition that stands at the start of a text: its bounds and the rest. -/
def repetition? : Text → Option (Nat × Option Nat × Text)
  | '?' :: r => some (0, some 1, r)
  | '*' :: r => some (0, none, r)
  | '+' :: r => some (1, none, r)
  | '\x7b' :: r => bounds? r
  | _ => none

/-- The last item repeated. -/
def repeatItem (least : Nat) (most : Option Nat) : Option Item → Except RegexError Item
  | none | some (.anchor _) => .error .nothingToRepeat
  | some (.repeated _) => .error .repeatedRepeat
  | some (.plain r) =>
    if most.any (· < least) then .error .repeatBounds else .ok (.repeated (.times r least most))

mutual

/-- The alternatives up to the end of the text or of the group. -/
def alternatives : Nat → Text → Except RegexError (Regex × Text)
  | 0, _ => .error .openGroup
  | fuel + 1, t => do
    let (first, rest) ← sequence fuel .empty none t
    match rest with
    | '|' :: rest =>
      let (second, rest) ← alternatives fuel rest
      return (.orElse first second, rest)
    | rest => return (first, rest)

/-- A sequence up to a bar, the end of the text or of the group. -/
def sequence : Nat → Regex → Option Item → Text → Except RegexError (Regex × Text)
  | 0, _, _, _ => .error .openGroup
  | fuel + 1, done, last, t =>
    match repetition? t with
    | some (least, most, rest) => do
      let item ← repeatItem least most last
      let rest := match rest with
        | '?' :: r => r
        | r => r
      sequence fuel done (some item) rest
    | none =>
      match t with
      | [] => .ok (close done last, [])
      | c :: rest =>
        if c = '|' ∨ c = ')' then .ok (close done last, c :: rest)
        else do
          let (item, rest) ← atom fuel c rest
          sequence fuel (close done last) (some item) rest

/-- The item that begins with `c`. -/
def atom : Nat → Char → Text → Except RegexError (Item × Text)
  | 0, _, _ => .error .openGroup
  | fuel + 1, c, rest =>
    match c with
    | '.' => .ok (.plain .anyChar, rest)
    | '^' => .ok (.anchor .start, rest)
    | '$' => .ok (.anchor .lineEnd, rest)
    | '\\' => escaped rest
    | '[' => do
      let (r, rest) ← charClass rest
      return (.plain r, rest)
    | '(' => do
      let rest ← match rest with
        | '?' :: ':' :: r => pure r
        | '?' :: _ => .error .unknownGroup
        | r => pure r
      let (r, rest) ← alternatives fuel rest
      match rest with
      | ')' :: rest => return (.plain r, rest)
      | _ => .error .openGroup
    | _ => .ok (.plain (.oneOf false [.char c]), rest)

end

/-- The expression that a text stands for. -/
def parse (t : Text) : Except RegexError Regex := do
  let (r, rest) ← alternatives (3 * t.length + 3) t
  match rest with
  | [] => return r
  | _ => .error .strayParenthesis

end Regex

end ScriptLint
