import Mathlib.Data.List.Chain
import ReceiptNotes.Proofs.Markup.Preview

/-! # Which tokens stand next to each other

A token ends where its rule could not go on, so some kinds never follow each other: there
are no blanks behind blanks and no word behind a word. Links and bold text go on even over
other markup, up to the last place on the line where they can end. So only one of either
starts between two line feeds, however many other tokens stand there and even if some of
those go over a line feed (`lex_orderly`).
-/

namespace ReceiptNotes.Markup

open Text (byteLength StandsAt)

/-- The kinds that can stand right behind a kind. -/
def Kind.CanPrecede : (kind next : Kind) → Prop
  | .horizontalRule, next => next = .endOfInput
  | .title, next => next = .newline ∨ next = .endOfInput
  | .whitespace, next => next ≠ .whitespace ∧ next ≠ .newline
  | .word, next => next ≠ .word ∧ next ≠ .underline
  | _, _ => True

/-- The tokens of a line as they can stand next to each other. -/
structure Orderly (line : Text) (tokens : List Token) : Prop where
  /-- Titles and horizontal rules are first. -/
  opening : ∀ kind ∈ (tokens.map Token.kind).tail, kind ≠ .title ∧ kind ≠ .horizontalRule
  neighbours : (tokens.map Token.kind).IsChain Kind.CanPrecede
  last : (tokens.map Token.kind).getLast? = some .endOfInput
  /-- On a stretch without line feeds at most one bold text starts, and at most one link. -/
  once : ∀ kind, kind = .link ∨ kind = .bold → ∀ stretch start stop,
    StandsAt line stretch start stop → '\n' ∉ stretch →
      tokens.countP (fun token => token.kind = kind ∧ start ≤ token.start ∧ token.start < stop) ≤ 1

variable {atStart : Bool} {text between : Text} {kind kind' : Kind} {found found' : Match}
  {pieces : List (Kind × Match)} {rank : Rank}

theorem Kind.canPrecede_endOfInput (kind : Kind) : kind.CanPrecede .endOfInput := by
  cases kind <;> simp [CanPrecede]

/-- What is behind a piece starts with nothing that the piece could have taken. -/
theorem FirstDeclared.canPrecede (h : FirstDeclared atStart text kind found)
    (hnext : FirstDeclared false found.rest kind' found') : kind.CanPrecede kind' := by
  obtain ⟨rank, hread⟩ := h.reading
  obtain ⟨c, hc, hopens⟩ := hnext.preferred.occurs.opens
  cases kind with
  | horizontalRule => exact absurd hread.placed.2 hnext.text_ne_nil
  | title =>
      obtain rfl := hread.placed.2 c hc
      have hkind : kind' = .newline ∨ kind' = .whitespace := by
        revert hopens
        cases kind' <;> decide
      refine .inl (hkind.resolve_right ?_)
      rintro rfl
      -- The line feed is a line break, which is tried before blanks.
      obtain ⟨behind, hbehind⟩ := List.head?_eq_some_iff.mp hc
      exact hnext.not_occurs (by decide) (occurs_newline_iff.mpr (.inl ⟨behind, hbehind.symm⟩))
  | whitespace =>
      have hblank := run?_stops (preferred_whitespace_iff.mp h.preferred).1 c hc
      constructor
      · rintro rfl
        exact hblank hopens
      · rintro rfl
        rcases hopens with rfl | rfl
        · exact hblank (by decide)
        · exact hblank (by decide)
  | word =>
      have hword := run?_stops (preferred_word_iff.mp h.preferred).1 c hc
      constructor
      · rintro rfl
        exact hword hopens
      · rintro rfl
        obtain rfl := hopens
        exact hword (by decide)
  | _ => trivial

/-- The kinds of the tokens of some pieces. -/
def kinds (pieces : List (Kind × Match)) : List Kind :=
  pieces.map Prod.fst ++ [.endOfInput]

theorem map_kind_tokensFrom (position : ℕ) (pieces : List (Kind × Match)) :
    (tokensFrom position pieces).map Token.kind = kinds pieces := by
  induction pieces generalizing position with
  | nil => rfl
  | cons piece later ih =>
      rw [tokensFrom, List.map_cons, ih]
      rfl

theorem Pieces.head_kinds (h : Pieces atStart text pieces) :
    ∀ kind ∈ (kinds pieces).head?,
      kind = .endOfInput ∨ ∃ found, FirstDeclared atStart text kind found := by
  cases h with
  | nil =>
      intro kind hkind
      exact .inl (Option.some.inj hkind).symm
  | @cons _ _ _ found _ hfirst =>
      intro kind hkind
      obtain rfl := Option.some.inj hkind
      exact .inr ⟨found, hfirst⟩

theorem Pieces.isChain_kinds (h : Pieces atStart text pieces) :
    (kinds pieces).IsChain Kind.CanPrecede := by
  induction h with
  | nil => exact List.isChain_singleton _
  | cons hfirst hlater ih =>
      refine List.isChain_cons.mpr ⟨fun next hnext => ?_, ih⟩
      rcases hlater.head_kinds next hnext with rfl | ⟨found', hsecond⟩
      · exact Kind.canPrecede_endOfInput _
      · exact hfirst.canPrecede hsecond

/-- Behind the start of a line there are no titles and no horizontal rules. -/
theorem Pieces.not_opening (h : Pieces false text pieces) :
    ∀ kind ∈ kinds pieces, kind ≠ .title ∧ kind ≠ .horizontalRule := by
  generalize hstart : false = atStart at h
  induction h with
  | nil => simp [kinds]
  | cons hfirst _ ih =>
      subst hstart
      have hoccurs := hfirst.preferred.occurs
      refine List.forall_mem_cons.mpr ⟨⟨?_, ?_⟩, ih rfl⟩
      · rintro rfl
        exact not_occurs_title hoccurs
      · rintro rfl
        exact not_occurs_horizontalRule hoccurs

theorem Pieces.opening (h : Pieces atStart text pieces) :
    ∀ kind ∈ (kinds pieces).tail, kind ≠ .title ∧ kind ≠ .horizontalRule := by
  cases h with
  | nil => simp [kinds]
  | cons _ hlater => exact hlater.not_opening

/-- Two links or two bold texts, with what is between them on the line, are one that is
preferred to the first. -/
theorem Form.join {payload payload' : Payload} {lexeme lexeme' : Text} {rank' : Rank}
    (h : Form kind payload lexeme rank) (h' : Form kind payload' lexeme' rank')
    (hkind : kind = .link ∨ kind = .bold) (hbetween : '\n' ∉ between) :
    ∃ joined more, Form kind joined (lexeme ++ between ++ lexeme') more ∧ rank < more := by
  cases h with
  | @link label url hlabel hurl =>
      cases h' with
      | @link label' url' hlabel' hurl' =>
          have hlong : OnLine (label ++ "](".toList ++ url ++ ")".toList ++ between ++
              "[".toList ++ label') := by
            refine ⟨by simp, ?_⟩
            simp [hlabel.no_feed, hurl.no_feed, hlabel'.no_feed, hbetween]
          have hform := Form.link hlong hurl'
          have hpos := List.length_pos_iff.mpr hlabel'.ne_nil
          simp only [List.append_assoc] at hform ⊢
          refine ⟨_, _, hform, Prod.Lex.toLex_lt_toLex.mpr (.inl ?_)⟩
          simp only [List.length_append]
          omega
  | @bold data hdata =>
      cases h' with
      | @bold data' hdata' =>
          have hlong : OnLine (data ++ "**".toList ++ between ++ "**".toList ++ data') := by
            refine ⟨by simp, ?_⟩
            simp [hdata.no_feed, hdata'.no_feed, hbetween]
          have hform := Form.bold hlong
          have hpos := List.length_pos_iff.mpr hdata'.ne_nil
          simp only [List.append_assoc] at hform ⊢
          refine ⟨_, _, hform, Prod.Lex.toLex_lt_toLex.mpr (.inl ?_)⟩
          simp only [List.length_append]
          omega
  | _ => simp at hkind

/-- Between a preferred link or bold text and anything like it further on, the line ends. -/
theorem Preferred.feed_between {payload : Payload} {lexeme behind : Text} {rank : Rank}
    (h : Preferred atStart text kind found) (hkind : kind = .link ∨ kind = .bold)
    (hagain : Form kind payload lexeme rank) (hrest : found.rest = between ++ lexeme ++ behind) :
    '\n' ∈ between := by
  by_contra hbetween
  obtain ⟨rank', hread, hmost⟩ := h
  obtain ⟨joined, more, hform, hlt⟩ := hread.form.join hagain hkind hbetween
  have hsplits : text = found.lexeme ++ between ++ lexeme ++ behind := by
    rw [hread.splits, hrest]
    simp only [List.append_assoc]
  have hplaced : kind.Placed atStart behind := by
    rcases hkind with rfl | rfl
    · trivial
    · trivial
  exact absurd hlt (not_lt_of_ge (hmost ⟨_, joined, behind⟩ more ⟨hform, hsplits, hplaced⟩))

/-- A token of pieces, and where its lexeme stands in their text. -/
theorem Pieces.exists_form {position : ℕ} {token : Token} (h : Pieces atStart text pieces)
    (hmem : token ∈ tokensFrom position pieces) (hkind : token.kind ≠ .endOfInput) :
    ∃ before lexeme behind rank, text = before ++ lexeme ++ behind ∧
      token.start = position + byteLength before ∧
      Form token.kind token.payload lexeme rank := by
  induction h generalizing position with
  | nil =>
      obtain rfl := List.mem_singleton.mp hmem
      exact absurd rfl hkind
  | @cons atStart text kind found later hfirst _ ih =>
      obtain ⟨rank, hread⟩ := hfirst.reading
      rcases List.mem_cons.mp hmem with rfl | hlater
      · exact ⟨[], found.lexeme, found.rest, rank, hread.splits, rfl, hread.form⟩
      · obtain ⟨before, lexeme, behind, rank', hrest, hstart, hform⟩ := ih hlater
        refine ⟨found.lexeme ++ before, lexeme, behind, rank', ?_, ?_, hform⟩
        · rw [hread.splits, hrest]
          simp only [List.append_assoc]
        · rw [hstart, Text.byteLength_append, Nat.add_assoc]

/-- Somewhere from the start of one token to the start of the other the line ends. -/
def Token.Parted (line : Text) (first second : Token) : Prop :=
  ∃ between, StandsAt line between first.start second.start ∧ '\n' ∈ between

/-- Any two links of a line are parted, and any two bold texts. -/
theorem Pieces.pairwise_parted (h : Pieces atStart text pieces)
    (hkind : kind = .link ∨ kind = .bold) (before : Text) :
    (tokensFrom (byteLength before) pieces).Pairwise fun first second =>
      first.kind = kind → second.kind = kind → Token.Parted (before ++ text) first second := by
  -- The text before the first piece grows by each lexeme, so it is generalized.
  induction h generalizing before with
  | nil => exact List.pairwise_singleton _ _
  | @cons atStart text kind' found later hfirst hlater ih =>
      obtain ⟨rank, hread⟩ := hfirst.reading
      have htext : before ++ text = (before ++ found.lexeme) ++ found.rest := by
        rw [hread.splits, List.append_assoc]
      rw [tokensFrom, List.pairwise_cons, ← Text.byteLength_append]
      refine ⟨?_, htext ▸ ih (before ++ found.lexeme)⟩
      rintro token hmem rfl rfl
      have hne : token.kind ≠ .endOfInput := by
        rintro hend
        simp [hend] at hkind
      obtain ⟨between, lexeme, behind, rank', hrest, hstart, hform⟩ :=
        hlater.exists_form hmem hne
      refine ⟨found.lexeme ++ between, ⟨before, lexeme ++ behind, ?_, rfl, ?_⟩, ?_⟩
      · rw [htext, hrest]
        simp only [List.append_assoc]
      · rw [hstart]
        simp only [Text.byteLength_append, Nat.add_assoc]
      · exact List.mem_append_right _ (hfirst.preferred.feed_between hkind hform hrest)

/-- Of elements no two of which satisfy something, at most one does. -/
theorem countP_le_one {α : Type} {p : α → Bool} {items : List α}
    (h : items.Pairwise fun first second => ¬ (p first ∧ p second)) : items.countP p ≤ 1 := by
  induction items with
  | nil => simp
  | cons first later ih =>
      obtain ⟨hfirst, hlater⟩ := List.pairwise_cons.mp h
      rw [List.countP_cons]
      split
      next hp =>
          have hnone : later.countP p = 0 :=
            List.countP_eq_zero.mpr fun second hmem hp' => hfirst second hmem ⟨hp, hp'⟩
          rw [hnone]
      next => exact ih hlater

/-- The tokens of a line stand next to each other as the greedy rules leave them: a title or
a horizontal rule is first, a title goes on to a line break or to the end, as a horizontal rule
always does, blanks are followed by no blanks and no line break, and a word by no word and no
underlined text. Of bold texts, and of links, at most one starts on a stretch without line
feeds. -/
theorem lex_orderly {line : Text} {tokens : List Token} (h : lex line = .ok tokens) :
    Orderly line tokens := by
  obtain ⟨pieces, hpieces, rfl⟩ := lex_eq_ok_iff.mp h
  have hkinds := map_kind_tokensFrom 0 pieces
  refine ⟨hkinds ▸ hpieces.opening, hkinds ▸ hpieces.isChain_kinds, ?_, ?_⟩
  · rw [hkinds, kinds, List.getLast?_concat]
  · intro kind hkind stretch start stop hstretch hline
    refine countP_le_one ((hpieces.pairwise_parted hkind []).imp ?_)
    intro first second hparted hboth
    simp only [decide_eq_true_eq] at hboth
    obtain ⟨⟨hfirst, hstart, -⟩, ⟨hsecond, -, hstop⟩⟩ := hboth
    obtain ⟨between, hbetween, hfeed⟩ := hparted hfirst hsecond
    exact hline (hstretch.subset hbetween hstart hstop.le hfeed)

/-- Two bold texts, parted by underlined text in which the line ends. -/
theorem lex_orderly_parted :
    let line := "# a\n**b** __c\nd__**e**".toList
    ∃ tokens, lex line = .ok tokens ∧ tokens.countP (·.kind = .bold) = 2 ∧
      Orderly line tokens := by
  intro line
  let tokens : List Token := [⟨.title, .plain "a".toList, 0, 3⟩, ⟨.newline, .nothing, 3, 4⟩,
    ⟨.bold, .plain "b".toList, 4, 9⟩, ⟨.whitespace, .plain " ".toList, 9, 10⟩,
    ⟨.underline, .plain "c\nd".toList, 10, 17⟩, ⟨.bold, .plain "e".toList, 17, 22⟩,
    ⟨.endOfInput, .nothing, 22, 22⟩]
  have hlex : lex line = .ok tokens := by decide +kernel
  exact ⟨tokens, hlex, by decide, lex_orderly hlex⟩

end ReceiptNotes.Markup
