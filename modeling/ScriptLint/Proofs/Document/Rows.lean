import ScriptLint.Proofs.Document.Outline

/-!
# The rows of an outline as content lines

The rows that an outline is written on are read as content lines again, each with its number, its
width and its trimmed text (`lines_joined_written`). For this a row has to be one line of a script
that is neither blank nor a comment (`Row.Valid`), and all rows of an outline that can be written
are such (`entryRows_valid`). What the builder sees of each of the four sorts of rows comes last.
-/

namespace ScriptLint.Document.Outline

/-! ## Rows are content lines -/

/-- The content line of a row. -/
def Row.line (number : Nat) (row : Row) : Line := ⟨number, row.width, Text.trim row.text⟩

/-- The content lines of rows, from row `number` on. -/
def numbered (number : Nat) : List Row → List Line
  | [] => []
  | row :: rest => row.line number :: numbered (number + 1) rest

/-- Two groups of rows are numbered in turn. -/
theorem numbered_append (number : Nat) (first rest : List Row) :
    numbered number (first ++ rest) =
      numbered number first ++ numbered (number + first.length) rest := by
  induction first generalizing number with
  | nil => rfl
  | cons row first ih =>
    have : number + 1 + first.length = number + (first.length + 1) := by omega
    simp [numbered, ih, this]

/-- The row is one line of a script, and it is neither blank nor a comment. -/
structure Row.Valid (row : Row) : Prop where
  noFeed : '\n' ∉ row.text
  noReturn : '\r' ∉ row.text
  starts : ∃ c rest, row.text = c :: rest ∧ Text.isBlank c = false ∧ c ≠ '#'

/-- Margins are blank. -/
theorem isBlank_of_isMargin {tab : Int} {width : Nat} {t : Text} (h : IsMargin tab width t) :
    ∀ c ∈ t, Text.isBlank c = true := by
  intro c hc
  rcases h.1 c hc with rfl | rfl <;> decide

/-- What follows a margin does not count for its width. -/
theorem indentWidth_append {tab : Int} {m : Text} (hm : ∀ c ∈ m, c = ' ' ∨ c = '\t') {c : Char}
    (hc : Text.isBlank c = false) (rest : Text) :
    indentWidth tab (m ++ c :: rest) = indentWidth tab m := by
  induction m with
  | nil =>
    have h1 : c ≠ ' ' := by rintro rfl; simp [Text.isBlank] at hc
    have h2 : c ≠ '\t' := by rintro rfl; simp [Text.isBlank] at hc
    simp [indentWidth, h1, h2]
  | cons d m ih =>
    have := ih fun e he => hm e (List.mem_cons_of_mem _ he)
    rcases hm d (by simp) with rfl | rfl <;> simp [indentWidth, this]

/-- A row as it is written is a line that is seen as it is. -/
theorem ofRaw_row {tab : Int} {row : Row} (h : row.Valid) {m : Text}
    (hm : IsMargin tab row.width m) :
    SourceLine.ofRaw (m ++ row.text) = ⟨m ++ row.text, Text.trim row.text⟩ ∧
      (Text.trim row.text).isEmpty = false ∧ indentWidth tab (m ++ row.text) = row.width := by
  obtain ⟨c, rest, ht, hb, hc⟩ := h.starts
  obtain ⟨r, hr⟩ := Text.trim_cons_of_not_blank hb rest
  have htrim : Text.trim (m ++ row.text) = Text.trim row.text :=
    Text.trim_append_of_blank (isBlank_of_isMargin hm) _
  have hkind : LineKind.ofTrimmed (Text.trim row.text) ≠ .comment := by
    rw [ht, hr, LineKind.ofTrimmed, if_neg (by simpa [Text.beginsWith_singleton] using hc)]
    split
    · simp
    · split
      · simp
      · split <;> simp
  refine ⟨by rw [SourceLine.ofRaw, htrim, if_neg hkind], by rw [ht, hr]; rfl, ?_⟩
  rw [ht, indentWidth_append hm.1 hb, hm.2]

/-- The content lines of written rows are the lines of the rows. -/
theorem linesFrom_written {tab : Int} {margin : Nat → Nat → Text}
    (hm : ∀ number width, IsMargin tab width (margin number width)) {rows : List Row}
    (h : ∀ row ∈ rows, row.Valid) (number : Nat) :
    linesFrom tab number ((written margin number rows).map SourceLine.ofRaw) =
      numbered number rows := by
  induction rows generalizing number with
  | nil => rfl
  | cons row rest ih =>
    obtain ⟨hraw, hne, hw⟩ := ofRaw_row (h row (by simp)) (hm number row.width)
    rw [written, List.map_cons, linesFrom, hraw, if_neg (by simp [hne]), hw,
      ih fun r hr => h r (List.mem_cons_of_mem _ hr)]
    rfl

/-- The content lines of the script that rows are written as. -/
theorem lines_joined_written {tab : Int} {margin : Nat → Nat → Text}
    (hm : ∀ number width, IsMargin tab width (margin number width)) {rows : List Row}
    (h : ∀ row ∈ rows, row.Valid) :
    lines tab (Source.ofText (Text.joined ['\n'] (written margin 0 rows))) = numbered 0 rows := by
  have hchar : ∀ {d : Char}, d ≠ ' ' → d ≠ '\t' → (∀ row ∈ rows, d ∉ row.text) → ∀ number,
      ∀ t ∈ written margin number rows, d ∉ t := by
    intro d h1 h2
    clear h
    induction rows with
    | nil => intro _ _ t ht; simp [written] at ht
    | cons row rest ih =>
      intro h number t ht
      rcases List.mem_cons.1 ht with rfl | ht
      · intro hd
        rcases List.mem_append.1 hd with hd | hd
        · rcases (hm number row.width).1 d hd with rfl | rfl <;> contradiction
        · exact h row (by simp) hd
      · exact ih (fun r hr => h r (List.mem_cons_of_mem _ hr)) _ t ht
  have hfeed := hchar (d := '\n') (by decide) (by decide) (fun r hr => (h r hr).noFeed) 0
  have hreturn := hchar (d := '\r') (by decide) (by decide) (fun r hr => (h r hr).noReturn) 0
  cases rows with
  | nil => rfl
  | cons row rest =>
    show linesFrom tab 0 ((Source.rawLines (normalizeBreaks _)).map SourceLine.ofRaw) = _
    rw [Source.rawLines_joined (by simp [written]) fun t ht => ⟨hfeed t ht, hreturn t ht⟩,
      linesFrom_written hm h]

/-! ## The rows of an outline -/

/-- A key and what follows it on its row starts like the key, if it is not empty. -/
theorem IsKey.starts {key : Text} (h : IsKey key) (after : Text) :
    ∃ c rest, key ++ ':' :: after = c :: rest ∧ Text.isBlank c = false ∧ c ≠ '#' := by
  cases key with
  | nil => exact ⟨':', after, rfl, by decide, by decide⟩
  | cons c rest =>
    refine ⟨c, _, rfl, (Text.trim_eq_self_iff.1 h.trimmed).1 c rfl, fun hc => ?_⟩
    have := h.noComment
    rw [hc, Text.beginsWith_singleton.2 rfl] at this
    cases this

/-- A row with a key and a colon is one line with content. -/
theorem valid_heading {key : Text} (h : IsKey key) (width : Nat) :
    Row.Valid ⟨width, key ++ [':']⟩ :=
  ⟨by simp [h.noFeed], by simp [h.noReturn], h.starts []⟩

/-- A row with a key and a value is one line with content. -/
theorem valid_inline {key value : Text} (hk : IsKey key) (hv : OnRow value) (width : Nat) :
    Row.Valid ⟨width, key ++ ':' :: ' ' :: value⟩ :=
  ⟨by simp [hk.noFeed, hv.noFeed], by simp [hk.noReturn, hv.noReturn], hk.starts _⟩

/-- A row with an entry of a list is one line with content. -/
theorem valid_item {text : Text} (hf : '\n' ∉ text) (hr : '\r' ∉ text) (width : Nat) :
    Row.Valid ⟨width, '-' :: ' ' :: text⟩ :=
  ⟨by simp [hf], by simp [hr], '-', _, rfl, by decide, by decide⟩

mutual

/-- The rows below a key are each one line with content. -/
theorem Body.rows_valid : ∀ {body : Body} {owner : Nat} {plain : Bool}, body.Fits owner plain →
    ∀ row ∈ body.rows, row.Valid
  | .map _ _, _, _, h => by rw [Body.rows]; exact entryRows_valid h.2.2
  | .list _ _, _, _, h => by rw [Body.rows]; exact itemRows_valid h.2.2

/-- The rows of an entry are each one line with content. -/
theorem Entry.rows_valid : ∀ {entry : Entry} {width : Nat}, entry.Fits width →
    ∀ row ∈ entry.rows width, row.Valid
  | .inline _ _, width, ⟨hk, _, hv, _, _⟩ => by
    rw [Entry.rows]
    exact List.forall_mem_singleton.2 (valid_inline hk hv width)
  | .heading _ _, width, ⟨hk, hb⟩ => by
    rw [Entry.rows]
    exact List.forall_mem_cons.2 ⟨valid_heading hk width, Body.rows_valid hb⟩

/-- The rows of an item are each one line with content. -/
theorem Item.rows_valid : ∀ {item : Item} {width : Nat}, item.Fits width →
    ∀ row ∈ item.rows width, row.Valid
  | .scalar _, width, ⟨ht, _⟩ => by
    rw [Item.rows]
    exact List.forall_mem_singleton.2 (valid_item ht.noFeed ht.noReturn width)
  | .block _ _, width, ⟨hk, hb⟩ => by
    rw [Item.rows]
    exact List.forall_mem_cons.2
      ⟨valid_item (by simp [hk.noFeed]) (by simp [hk.noReturn]) width, Body.rows_valid hb⟩

/-- The rows of a map are each one line with content. -/
theorem entryRows_valid : ∀ {entries : List Entry} {width : Nat}, EntriesFit width entries →
    ∀ row ∈ entryRows width entries, row.Valid
  | [], _, _ => nofun
  | _ :: _, _, ⟨he, hr⟩ => by
    rw [entryRows]
    exact List.forall_mem_append.2 ⟨Entry.rows_valid he, entryRows_valid hr⟩

/-- The rows of a list are each one line with content. -/
theorem itemRows_valid : ∀ {items : List Item} {width : Nat}, ItemsFit width items →
    ∀ row ∈ itemRows width items, row.Valid
  | [], _, _ => nofun
  | _ :: _, _, ⟨hi, hr⟩ => by
    rw [itemRows]
    exact List.forall_mem_append.2 ⟨Item.rows_valid hi, itemRows_valid hr⟩

end

/-! ## What a row says -/

/-- A row with a key and a colon has no blanks at its ends. -/
theorem trim_heading {key : Text} (h : OnRow key) : Text.trim (key ++ [':']) = key ++ [':'] := by
  refine Text.trim_eq_self_iff.2 ⟨fun c hc => ?_, fun c hc => ?_⟩
  · cases key with
    | nil => cases hc; decide
    | cons d r => exact (Text.trim_eq_self_iff.1 h.trimmed).1 c hc
  · rw [List.getLast?_concat] at hc
    cases hc
    decide

/-- A row with a key and a value has no blanks at its ends. -/
theorem trim_inline {key value : Text} (hk : OnRow key) (hv : OnRow value) (hne : value ≠ []) :
    Text.trim (key ++ ':' :: ' ' :: value) = key ++ ':' :: ' ' :: value := by
  refine Text.trim_eq_self_iff.2 ⟨fun c hc => ?_, fun c hc => ?_⟩
  · cases key with
    | nil => cases hc; decide
    | cons d r => exact (Text.trim_eq_self_iff.1 hk.trimmed).1 c hc
  · refine (Text.trim_eq_self_iff.1 hv.trimmed).2 c ?_
    cases value with
    | nil => exact absurd rfl hne
    | cons d r => simpa [List.getLast?_append, List.getLast?_cons_cons] using hc

/-- Trimming an entry of a list only takes the space after a hyphen that stands alone. -/
theorem trim_item {text : Text} (h : Text.trim text = text) :
    Text.trim ('-' :: ' ' :: text) = if text = [] then ['-'] else '-' :: ' ' :: text := by
  cases text with
  | nil => rfl
  | cons c r =>
    refine Text.trim_eq_self_iff.2 ⟨fun d hd => by cases hd; decide, fun d hd => ?_⟩
    refine (Text.trim_eq_self_iff.1 h).2 d ?_
    simpa [List.getLast?_cons_cons] using hd

/-- A row that begins with a hyphen and a space is an entry. -/
theorem isItem_row {text : Text} (h : Text.trim text = text) (number width : Nat) :
    (Row.line number ⟨width, '-' :: ' ' :: text⟩).isItem = true := by
  rw [Line.isItem, Row.line, trim_item h]
  split
  · rfl
  · simp [Text.beginsWith, List.isPrefixOf]

/-- What follows the hyphen is the text of the entry. -/
theorem itemText_row {text : Text} (h : Text.trim text = text) (number width : Nat) :
    (Row.line number ⟨width, '-' :: ' ' :: text⟩).itemText = text := by
  rw [Line.itemText, Row.line, trim_item h]
  split
  · next hnil => rw [hnil]; rfl
  · show Text.trim ([' '] ++ text) = text
    rw [Text.trim_append_of_blank (List.forall_mem_singleton.2 rfl), h]

/-- A row that begins with a key is no entry of a list. -/
theorem isItem_key {key : Text} (h : IsKey key) (number width : Nat) (after : Text) :
    (Line.mk number width (key ++ ':' :: after)).isItem = false := by
  have hitem := h.noItem
  match key with
  | [] => simp [Line.isItem, Text.beginsWith, List.isPrefixOf]
  | [c] => simp [Line.isItem, Text.beginsWith, List.isPrefixOf]
  | c :: d :: r => simpa [Line.isItem, Text.beginsWith, List.isPrefixOf] using hitem

/-- The first colon before a space ends the key. -/
theorem splitInline_append {key : Text} (h : Text.holds [':', ' '] key = false) (value : Text) :
    splitInline (key ++ ':' :: ' ' :: value) = some (key, value) := by
  induction key with
  | nil => rfl
  | cons c r ih =>
    rw [Text.holds, Bool.or_eq_false_iff] at h
    have hstart : ∀ rest, c = ':' → r ++ ':' :: ' ' :: value = ' ' :: rest → False := by
      rintro rest rfl hr
      cases r with
      | nil => cases hr
      | cons d r =>
        cases hr
        simp [List.isPrefixOf] at h
    rw [List.cons_append, splitInline, ih h.2]
    · rfl
    · exact hstart

end ScriptLint.Document.Outline
