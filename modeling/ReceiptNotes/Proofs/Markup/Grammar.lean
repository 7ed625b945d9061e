import Mathlib.Data.Prod.Lex
import ReceiptNotes.Markup.Rule

/-! # The markup grammar

What the markup rules are meant to recognise, said without any search. A `Form` is a
way to write a token of some kind, and a `Reading` is a form at the front of a text.
One text can have many readings of one kind; their ranks say which is preferred. The
kinds are declared in an order, and the first that can be read at all is taken.
-/

namespace ReceiptNotes.Markup

open Text (trim isBlank)

/-- A text with at least one character that does not leave its line. -/
structure OnLine (text : Text) : Prop where
  ne_nil : text ≠ []
  no_feed : '\n' ∉ text

/-- How much a reading is preferred: by the first number and, among equals there, by
the second. -/
abbrev Rank := ℕ ×ₗ ℕ

/-- `Form kind payload lexeme rank`: a token of that kind with that payload can be
written as `lexeme`. The ranks of links prefer a long text and then a long address,
those of titles many number signs, those of centred texts many dashes and then a long
text, and all others a long payload. -/
inductive Form : Kind → Payload → Text → Rank → Prop where
  | link {label url : Text} (hlabel : OnLine label) (hurl : OnLine url) :
      Form .link (.link label url) ("[".toList ++ label ++ "](".toList ++ url ++ ")".toList)
        (toLex (label.length, url.length))
  | qr {data : Text} (hne : data ≠ []) (hbars : '|' ∉ data) :
      Form .qr (.plain data) ("||qr:".toList ++ data ++ "||".toList) (toLex (data.length, 0))
  | bold {data : Text} (hdata : OnLine data) :
      Form .bold (.plain data) ("**".toList ++ data ++ "**".toList) (toLex (data.length, 0))
  | underline {data : Text} (hne : data ≠ []) (hmarks : '_' ∉ data) :
      Form .underline (.plain data) ("__".toList ++ data ++ "__".toList)
        (toLex (data.length, 0))
  | lineFeed : Form .newline .nothing "\n".toList (toLex (0, 0))
  | carriageReturn : Form .newline .nothing "\r\n".toList (toLex (0, 0))
  | title {signs : ℕ} {text : Text} (hsigns : 1 ≤ signs) (htext : OnLine text) :
      Form .title (.plain (trim text)) (List.replicate signs '#' ++ text) (toLex (signs, 0))
  | horizontalRule {width : ℕ} (hwidth : 1 ≤ width) :
      Form .horizontalRule .nothing (List.replicate width '-') (toLex (0, 0))
  | centered {dashes : ℕ} {text : Text} (hdashes : 1 ≤ dashes) (htext : OnLine text) :
      Form .centered (.plain (trim text))
        (":".toList ++ List.replicate dashes '-' ++ text ++ List.replicate dashes '-' ++
          ":".toList)
        (toLex (dashes, text.length))
  | whitespace {blanks : Text} (hne : blanks ≠ []) (hblanks : ∀ c ∈ blanks, isBlank c) :
      Form .whitespace (.plain blanks) blanks (toLex (blanks.length, 0))
  | word {word : Text} (hne : word ≠ []) (hword : ∀ c ∈ word, isWordChar c) :
      Form .word (.plain word) word (toLex (word.length, 0))

/-- Where a kind of token can stand. A title opens the line and goes on to its first
line break; a horizontal rule is all of the line. -/
def Kind.Placed (atStart : Bool) (rest : Text) : Kind → Prop
  | .title => atStart ∧ ∀ c ∈ rest.head?, c = '\n'
  | .horizontalRule => atStart ∧ rest = []
  | _ => True

/-- The kinds in the order in which they are tried. -/
def Kind.declared : List Kind :=
  [.link, .qr, .bold, .underline, .newline, .title, .horizontalRule, .centered,
    .whitespace, .word]

/-- The front of `text` can be read as a token of a kind. -/
structure Reading (atStart : Bool) (text : Text) (kind : Kind) (found : Match)
    (rank : Rank) : Prop where
  form : Form kind found.payload found.lexeme rank
  splits : text = found.lexeme ++ found.rest
  placed : kind.Placed atStart found.rest

variable {atStart : Bool} {text : Text} {kind : Kind} {found : Match} {rank : Rank}

/-- Some reading of the kind exists. -/
def Occurs (atStart : Bool) (text : Text) (kind : Kind) : Prop :=
  ∃ found rank, Reading atStart text kind found rank

/-- The reading that its rank prefers to all readings of the kind. -/
def Preferred (atStart : Bool) (text : Text) (kind : Kind) (found : Match) : Prop :=
  ∃ rank, Reading atStart text kind found rank ∧
    ∀ other rank', Reading atStart text kind other rank' → rank' ≤ rank

/-- The preferred reading of the first declared kind that has any reading. -/
def FirstDeclared (atStart : Bool) (text : Text) (kind : Kind) (found : Match) : Prop :=
  ∃ earlier later, Kind.declared = earlier ++ kind :: later ∧
    (∀ other ∈ earlier, ¬ Occurs atStart text other) ∧ Preferred atStart text kind found

theorem Form.lexeme_ne_nil {payload : Payload} {lexeme : Text}
    (h : Form kind payload lexeme rank) : lexeme ≠ [] := by
  cases h with
  | title hsigns htext => simp [htext.ne_nil]
  | horizontalRule hwidth => simp only [ne_eq, List.replicate_eq_nil_iff]; omega
  | whitespace hne => exact hne
  | word hne => exact hne
  | _ => simp

theorem Form.qr_iff {payload : Payload} {lexeme : Text} :
    Form .qr payload lexeme rank ↔ ∃ data, data ≠ [] ∧ '|' ∉ data ∧
      lexeme = "||qr:".toList ++ data ++ "||".toList ∧ payload = .plain data ∧
        rank = toLex (data.length, 0) := by
  constructor
  · intro h
    cases h with
    | qr hne hbars => exact ⟨_, hne, hbars, rfl, rfl, rfl⟩
  · intro h
    obtain ⟨data, hne, hbars, rfl, rfl, rfl⟩ := h
    exact .qr hne hbars

theorem Form.underline_iff {payload : Payload} {lexeme : Text} :
    Form .underline payload lexeme rank ↔ ∃ data, data ≠ [] ∧ '_' ∉ data ∧
      lexeme = "__".toList ++ data ++ "__".toList ∧ payload = .plain data ∧
        rank = toLex (data.length, 0) := by
  constructor
  · intro h
    cases h with
    | underline hne hmarks => exact ⟨_, hne, hmarks, rfl, rfl, rfl⟩
  · intro h
    obtain ⟨data, hne, hmarks, rfl, rfl, rfl⟩ := h
    exact .underline hne hmarks

theorem Form.whitespace_iff {payload : Payload} {lexeme : Text} :
    Form .whitespace payload lexeme rank ↔ lexeme ≠ [] ∧ (∀ c ∈ lexeme, isBlank c) ∧
      payload = .plain lexeme ∧ rank = toLex (lexeme.length, 0) := by
  constructor
  · intro h
    cases h with
    | whitespace hne hblanks => exact ⟨hne, hblanks, rfl, rfl⟩
  · intro h
    obtain ⟨hne, hblanks, rfl, rfl⟩ := h
    exact .whitespace hne hblanks

theorem Form.word_iff {payload : Payload} {lexeme : Text} :
    Form .word payload lexeme rank ↔ lexeme ≠ [] ∧ (∀ c ∈ lexeme, isWordChar c) ∧
      payload = .plain lexeme ∧ rank = toLex (lexeme.length, 0) := by
  constructor
  · intro h
    cases h with
    | word hne hword => exact ⟨hne, hword, rfl, rfl⟩
  · intro h
    obtain ⟨hne, hword, rfl, rfl⟩ := h
    exact .word hne hword

theorem span_line {line rest : Text} (hline : '\n' ∉ line) (hrest : ∀ c ∈ rest.head?, c = '\n') :
    (line ++ rest).takeWhile (· ≠ '\n') = line ∧ (line ++ rest).dropWhile (· ≠ '\n') = rest := by
  apply Text.span_append
  · intro c hc
    simpa using fun heq : c = '\n' => hline (heq ▸ hc)
  · intro c hc
    simp [hrest c hc]

/-- What is left behind a stretch of a class does not go on with that class. -/
theorem head_dropWhile {p : Char → Bool} {text : Text} :
    ∀ c ∈ (text.dropWhile p).head?, ¬ p c := by
  intro c hc
  have hhead := List.head?_dropWhile_not p text
  rw [hc] at hhead
  simpa using hhead

/-- A form and its rank determine what the token holds. -/
theorem Form.payload_eq {payload payload' : Payload} {lexeme lexeme' : Text} {rank' : Rank}
    (h : Form kind payload lexeme rank) (h' : Form kind payload' lexeme' rank')
    (hlexeme : lexeme = lexeme') (hrank : rank = rank') : payload = payload' := by
  cases h with
  | link =>
      cases h' with
      | link =>
          simp only [toLex_inj, Prod.mk.injEq] at hrank
          simp only [List.append_assoc, List.append_cancel_left_eq] at hlexeme
          obtain ⟨rfl, hbehind⟩ := List.append_inj hlexeme hrank.1
          rw [List.append_cancel_left_eq, List.append_cancel_right_eq] at hbehind
          rw [hbehind]
  | title =>
      cases h' with
      | title =>
          simp only [toLex_inj, Prod.mk.injEq, and_true] at hrank
          rw [hrank, List.append_cancel_left_eq] at hlexeme
          rw [hlexeme]
  | centered =>
      cases h' with
      | centered =>
          simp only [toLex_inj, Prod.mk.injEq] at hrank
          rw [hrank.1] at hlexeme
          simp only [List.append_assoc, List.append_cancel_left_eq,
            List.append_cancel_right_eq] at hlexeme
          rw [hlexeme]
  | qr => cases h' with | qr => simpa using hlexeme
  | bold => cases h' with | bold => simpa using hlexeme
  | underline => cases h' with | underline => simpa using hlexeme
  | whitespace => cases h' with | whitespace => rw [hlexeme]
  | word => cases h' with | word => rw [hlexeme]
  | lineFeed => cases h' <;> rfl
  | carriageReturn => cases h' <;> rfl
  | horizontalRule => cases h' with | horizontalRule => rfl

/-- The rank of a form determines the length of its lexeme, but for the kinds that end
where their line or a line break ends. -/
theorem Form.length_eq {payload payload' : Payload} {lexeme lexeme' : Text} {rank' : Rank}
    (h : Form kind payload lexeme rank) (h' : Form kind payload' lexeme' rank')
    (hrank : rank = rank') :
    lexeme.length = lexeme'.length ∨ kind = .newline ∨ kind = .title ∨
      kind = .horizontalRule := by
  cases h <;> cases h' <;> simp_all

theorem Form.newline_lexeme {payload : Payload} {lexeme : Text}
    (h : Form .newline payload lexeme rank) :
    lexeme = "\n".toList ∨ lexeme = "\r\n".toList := by
  cases h with
  | lineFeed => exact .inl rfl
  | carriageReturn => exact .inr rfl

theorem Form.title_lexeme {payload : Payload} {lexeme : Text}
    (h : Form .title payload lexeme rank) : '\n' ∉ lexeme := by
  cases h with
  | title _ htext => simp [List.mem_replicate, htext.no_feed]

theorem Reading.lexeme_eq {other : Match} (h : Reading atStart text kind found rank)
    (h' : Reading atStart text kind other rank) : found.lexeme = other.lexeme := by
  have hsplits := h.splits.symm.trans h'.splits
  -- Where the rank does not count the characters, what follows them does.
  obtain hlength | rfl | rfl | rfl := h.form.length_eq h'.form rfl
  · exact (List.append_inj hsplits hlength).1
  · obtain hfeed | hfeed := h.form.newline_lexeme <;>
      obtain hfeed' | hfeed' := h'.form.newline_lexeme <;>
      simp_all
  · have hline := (span_line h.form.title_lexeme h.placed.2).1
    have hline' := (span_line h'.form.title_lexeme h'.placed.2).1
    rw [← hline, hsplits, hline']
  · rw [h.placed.2, h'.placed.2] at hsplits
    simpa using hsplits

theorem Reading.unique {other : Match} (h : Reading atStart text kind found rank)
    (h' : Reading atStart text kind other rank) : found = other := by
  have hlexeme := h.lexeme_eq h'
  have hrest := h.splits.symm.trans h'.splits
  rw [hlexeme, List.append_cancel_left_eq] at hrest
  have hpayload := h.form.payload_eq h'.form hlexeme rfl
  cases found
  cases other
  simp_all

theorem Preferred.unique {other : Match} (h : Preferred atStart text kind found)
    (h' : Preferred atStart text kind other) : found = other := by
  obtain ⟨rank, hread, hmost⟩ := h
  obtain ⟨rank', hread', hmost'⟩ := h'
  obtain rfl : rank = rank' := le_antisymm (hmost' _ _ hread) (hmost _ _ hread')
  exact hread.unique hread'

theorem Preferred.occurs (h : Preferred atStart text kind found) :
    Occurs atStart text kind := by
  obtain ⟨rank, hread, -⟩ := h
  exact ⟨found, rank, hread⟩

end ReceiptNotes.Markup
