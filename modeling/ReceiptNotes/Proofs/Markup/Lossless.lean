import ReceiptNotes.Proofs.Markup.Recognition

/-! # Scanning loses nothing

The tokens of a line lie end to end, without gap or overlap, from its first byte on.
Each is written as its kind and its payload say, so the line up to the end or up to the
rejected character can be put together again from its tokens. Then one last item comes,
the end of the line or a rejection, and nothing after it (`Scanner.items_lossless`).
-/

namespace ReceiptNotes

namespace Text

/-- `slice` is what `text` has from byte number `start` up to byte number `stop`. Both
are between two characters of the text, or at one of its ends. -/
def StandsAt (text slice : Text) (start stop : ℕ) : Prop :=
  ∃ before behind, text = before ++ slice ++ behind ∧ byteLength before = start ∧
    byteLength (before ++ slice) = stop

theorem byteLength_pos {text : Text} (h : text ≠ []) : 0 < byteLength text := by
  cases text with
  | nil => exact absurd rfl h
  | cons c text =>
      rw [byteLength_cons]
      exact Nat.add_pos_left c.utf8Size_pos _

/-- A byte number is between the same two characters in whatever way it is reached. -/
theorem eq_of_byteLength_eq {first second rest rest' : Text}
    (h : first ++ rest = second ++ rest') (hlength : byteLength first = byteLength second) :
    first = second ∧ rest = rest' := by
  induction first generalizing second with
  | nil =>
      cases second with
      | nil => exact ⟨rfl, h⟩
      | cons d second =>
          have hpos := byteLength_pos (List.cons_ne_nil d second)
          rw [← hlength] at hpos
          simp at hpos
  | cons c first ih =>
      cases second with
      | nil =>
          have hpos := byteLength_pos (List.cons_ne_nil c first)
          rw [hlength] at hpos
          simp at hpos
      | cons d second =>
          obtain ⟨rfl, htail⟩ := List.cons.inj h
          simp only [byteLength_cons, Nat.add_left_cancel_iff] at hlength
          obtain ⟨rfl, hrest⟩ := ih htail hlength
          exact ⟨rfl, hrest⟩

/-- Only one text stands between two byte numbers. -/
theorem StandsAt.iff_eq {text slice other : Text} {start stop : ℕ}
    (h : StandsAt text slice start stop) : StandsAt text other start stop ↔ other = slice := by
  constructor
  · intro hother
    obtain ⟨before', behind', htext, hstart', hstop'⟩ := hother
    obtain ⟨before, behind, rfl, hstart, hstop⟩ := h
    simp only [List.append_assoc] at htext
    obtain ⟨rfl, htail⟩ := eq_of_byteLength_eq htext (hstart.trans hstart'.symm)
    rw [← hstop', byteLength_append, byteLength_append, Nat.add_left_cancel_iff] at hstop
    exact (eq_of_byteLength_eq htail hstop).1.symm
  · rintro rfl
    exact h

/-- Of two front parts of a text, the one with fewer bytes is a front part of the other. -/
theorem prefix_of_byteLength_le {text first second : Text} (h : first <+: text)
    (h' : second <+: text) (hle : byteLength first ≤ byteLength second) : first <+: second := by
  rcases List.prefix_or_prefix_of_prefix h h' with hprefix | ⟨more, rfl⟩
  · exact hprefix
  · -- The other way round there can be nothing more.
    have hmore : more = [] := by
      by_contra hne
      have hpos := byteLength_pos hne
      rw [byteLength_append] at hle
      omega
    simp [hmore]

/-- What stands between two byte numbers is part of what stands between two others around
them. -/
theorem StandsAt.subset {text slice inner : Text} {start stop start' stop' : ℕ}
    (h : StandsAt text slice start stop) (h' : StandsAt text inner start' stop')
    (hstart : start ≤ start') (hstop : stop' ≤ stop) : inner ⊆ slice := by
  obtain ⟨before, behind, rfl, rfl, rfl⟩ := h
  obtain ⟨before', behind', htext, rfl, rfl⟩ := h'
  have hfront : before ++ slice <+: before ++ slice ++ behind := List.prefix_append _ _
  have hfront' : before' ++ inner <+: before ++ slice ++ behind := ⟨behind', htext.symm⟩
  obtain ⟨more, rfl⟩ := prefix_of_byteLength_le ((List.prefix_append before slice).trans hfront)
    ((List.prefix_append before' inner).trans hfront') hstart
  have hinner := prefix_of_byteLength_le hfront' hfront hstop
  rw [List.append_assoc, List.prefix_append_right_inj] at hinner
  exact fun c hc => hinner.subset (List.mem_append_right more hc)

end Text

namespace Markup

open Text (byteLength StandsAt)

/-- A token stands for the stretch `lexeme` of its line. -/
structure Token.Stands (line : Text) (token : Token) (lexeme : Text) : Prop where
  slice : ∀ slice, StandsAt line slice token.start token.stop ↔ slice = lexeme
  nonempty : token.start < token.stop
  /-- The stretch can be put together again from the kind and the payload. -/
  form : ∃ rank, Form token.kind token.payload lexeme rank
  opens : token.kind = .title → token.start = 0
  whole : token.kind = .horizontalRule → lexeme = line

/-- Tokens of a line that follow each other without gap or overlap from one byte number
to another, and the text of their stretches together. -/
inductive EndToEnd (line : Text) : ℕ → List Token → Text → ℕ → Prop where
  | nil {position : ℕ} : EndToEnd line position [] [] position
  | cons {token : Token} {lexeme text : Text} {tokens : List Token} {stop : ℕ}
      (hstands : token.Stands line lexeme) (hlater : EndToEnd line token.stop tokens text stop) :
      EndToEnd line token.start (token :: tokens) (lexeme ++ text) stop

/-- The last item of a line, behind the byte number `position`. -/
inductive Ends (line : Text) (position : ℕ) : Item → Prop where
  | whole (hposition : position = byteLength line) :
      Ends line position (.ok ⟨.endOfInput, .nothing, position, position⟩)
  | rejected {c : Char} (hfound : StandsAt line [c] position (position + c.utf8Size)) :
      Ends line position (.error ⟨position, c⟩)

/-- What scanning a line comes to: `tokens` for the text up to the byte number `stop`,
and the item `last`. -/
structure Lossless (line : Text) (tokens : List Token) (text : Text) (stop : ℕ)
    (last : Item) : Prop where
  items_eq : (Scanner.ofLine line).items = tokens.map .ok ++ [last]
  /-- All tokens with the end of the line, or the rejection alone. -/
  lex_eq : lex line = last.map fun token => tokens ++ [token]
  endToEnd : EndToEnd line 0 tokens text stop
  slice : StandsAt line text 0 stop
  kind_ne : ∀ token ∈ tokens, token.kind ≠ .endOfInput
  ends : Ends line stop last
  /-- Asked for items one by one, a scanner yields these and then no more. -/
  next?_eq : ∀ steps, (Scanner.advance^[steps] (Scanner.ofLine line)).next?.map Prod.fst =
    (Scanner.ofLine line).items[steps]?

theorem Form.kind_ne {kind : Kind} {payload : Payload} {lexeme : Text} {rank : Rank}
    (h : Form kind payload lexeme rank) : kind ≠ .endOfInput := by
  rintro rfl
  cases h

theorem EndToEnd.kind_ne {line text : Text} {tokens : List Token} {start stop : ℕ}
    (h : EndToEnd line start tokens text stop) :
    ∀ token ∈ tokens, token.kind ≠ .endOfInput := by
  induction h with
  | nil => simp
  | cons hstands _ ih =>
      obtain ⟨_, hform⟩ := hstands.form
      exact List.forall_mem_cons.mpr ⟨hform.kind_ne, ih⟩

/-- The token of a reading stands for the characters read. -/
theorem Reading.stands {line before : Text} {position : ℕ} {text : Text} {kind : Kind}
    {found : Match} {rank : Rank} (h : Reading (position == 0) text kind found rank)
    (hline : line = before ++ text) (hposition : position = byteLength before) :
    Token.Stands line ⟨kind, found.payload, position, position + byteLength found.lexeme⟩
      found.lexeme where
  slice _ := by
    refine StandsAt.iff_eq ⟨before, found.rest, ?_, hposition.symm, ?_⟩
    · rw [hline, h.splits, List.append_assoc]
    · rw [Text.byteLength_append, hposition]
  nonempty := Nat.lt_add_of_pos_right (Text.byteLength_pos h.form.lexeme_ne_nil)
  form := ⟨rank, h.form⟩
  opens := by
    rintro rfl
    simpa using h.placed.1
  whole := by
    rintro rfl
    obtain ⟨hstart, hrest⟩ := h.placed
    -- Any character before the place would be counted by the position.
    have hnil : before = [] := by
      by_contra hne
      have hpos := Text.byteLength_pos hne
      simp only [beq_iff_eq] at hstart
      omega
    rw [hline, h.splits, hnil, hrest, List.append_nil, List.nil_append]

namespace Scanner

theorem items_of_next?_none {scanner : Scanner} (h : scanner.next? = none) :
    scanner.items = [] := by
  rw [items]
  split
  next => rfl
  next hnext => simp [h] at hnext

theorem items_of_next? {scanner after : Scanner} {item : Item}
    (h : scanner.next? = some (item, after)) : scanner.items = item :: after.items := by
  rw [items]
  split
  next hnext => simp [h] at hnext
  next hnext =>
      obtain ⟨rfl, rfl⟩ := Prod.mk.inj (Option.some.inj (h.symm.trans hnext))
      rfl

theorem items_of_finished {scanner : Scanner} (h : scanner.finished = true) :
    scanner.items = [] :=
  items_of_next?_none (next?_eq_none_iff.mpr h)

/-- From its place on, with `before` in front of it, a scanner yields tokens that lie end
to end and one last item. -/
def Covers (line before : Text) (scanner : Scanner) : Prop :=
  ∃ tokens text behind last, scanner.items = tokens.map .ok ++ [last] ∧
    EndToEnd line scanner.position tokens text (byteLength (before ++ text)) ∧
    scanner.rest = text ++ behind ∧ Ends line (byteLength (before ++ text)) last

theorem Covers.of_last {line before : Text} {scanner after : Scanner} {last : Item}
    (hposition : scanner.position = byteLength before)
    (hnext : scanner.next? = some (last, after)) (hafter : after.finished = true)
    (hends : Ends line scanner.position last) : scanner.Covers line before := by
  refine ⟨[], [], scanner.rest, last, ?_, ?_, rfl, ?_⟩
  · rw [items_of_next? hnext, items_of_finished hafter]
    rfl
  · rw [List.append_nil, ← hposition]
    exact .nil
  · rw [List.append_nil, ← hposition]
    exact hends

theorem Covers.of_token {line before : Text} {scanner after : Scanner} {token : Token}
    {lexeme : Text} (hnext : scanner.next? = some (.ok token, after))
    (hstart : scanner.position = token.start) (hstop : after.position = token.stop)
    (hrest : scanner.rest = lexeme ++ after.rest) (hstands : token.Stands line lexeme)
    (hlater : after.Covers line (before ++ lexeme)) : scanner.Covers line before := by
  obtain ⟨tokens, text, behind, last, hitems, htokens, htext, hends⟩ := hlater
  rw [List.append_assoc] at htokens hends
  refine ⟨token :: tokens, lexeme ++ text, behind, last, ?_, ?_, ?_, hends⟩
  · rw [items_of_next? hnext, hitems, List.map_cons, List.cons_append]
  · rw [hstart]
    rw [hstop] at htokens
    exact .cons hstands htokens
  · rw [hrest, htext, List.append_assoc]

/-- An open scanner that has `before` in front of its place goes on to the last item. -/
theorem covers {line before : Text} (scanner : Scanner) (hopen : scanner.finished = false)
    (hline : line = before ++ scanner.rest) (hposition : scanner.position = byteLength before) :
    scanner.Covers line before := by
  -- The text before the place grows by each lexeme, so it is generalized.
  induction scanner using items.induct generalizing before with
  | case1 scanner hnext =>
      rw [next?_eq_none_iff, hopen] at hnext
      simp at hnext
  | case2 scanner item after hnext ih =>
      have hyields := yields_of_next? hnext
      cases hyields with
      | endOfLine hrest =>
          refine .of_last hposition hnext rfl (.whole ?_)
          rw [hline, hrest, List.append_nil, hposition]
      | @token kind found hfound =>
          obtain ⟨rank, hread⟩ := hfound.reading
          have hstands := hread.stands hline hposition
          refine .of_token hnext rfl rfl hread.splits hstands (ih hopen ?_ ?_)
          · rw [hline, hread.splits, List.append_assoc]
          · rw [Text.byteLength_append, hposition]
      | @rejection c text hrest =>
          refine .of_last hposition hnext rfl (.rejected ⟨before, text, ?_, hposition.symm, ?_⟩)
          · rw [hline, hrest, List.append_assoc, List.singleton_append]
          · rw [Text.byteLength_append, hposition]
            rfl

/-- Items are numbered as they are yielded. -/
theorem next?_iterate (scanner : Scanner) (steps : ℕ) :
    (Scanner.advance^[steps] scanner).next?.map Prod.fst = scanner.items[steps]? := by
  induction steps generalizing scanner with
  | zero =>
      cases hnext : scanner.next? with
      | none => simp [items_of_next?_none hnext, hnext]
      | some pair => simp [items_of_next? hnext, hnext]
  | succ steps ih =>
      rw [Function.iterate_succ_apply, ih, Scanner.advance]
      cases hnext : scanner.next? with
      | none => simp [items_of_next?_none hnext]
      | some pair => simp [items_of_next? hnext]

end Scanner

theorem mapM_ok_append (tokens : List Token) (last : Item) :
    (tokens.map Except.ok ++ [last]).mapM id = last.map fun token => tokens ++ [token] := by
  induction tokens with
  | nil => cases last <;> rfl
  | cons token tokens ih =>
      rw [List.map_cons, List.cons_append, List.mapM_cons, ih]
      cases last <;> rfl

/-- Every line is cut into tokens that lie end to end up to its end or up to the first
character that starts no markup. -/
theorem Scanner.items_lossless (line : Text) :
    ∃ tokens text stop last, Lossless line tokens text stop last := by
  obtain ⟨tokens, text, behind, last, hitems, htokens, hrest, hends⟩ :=
    Scanner.covers (Scanner.ofLine line) rfl (List.nil_append line).symm rfl
  refine ⟨tokens, text, _, last, hitems, ?_, htokens, ?_, htokens.kind_ne, hends,
    Scanner.next?_iterate _⟩
  · rw [lex, hitems, mapM_ok_append]
  · exact ⟨[], behind, hrest, rfl, rfl⟩

end Markup

end ReceiptNotes
