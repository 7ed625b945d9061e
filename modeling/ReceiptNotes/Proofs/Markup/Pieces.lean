import ReceiptNotes.Command.OfMarkup
import ReceiptNotes.Proofs.Markup.Lossless

/-! # The pieces of a line

A line that is markup throughout falls into pieces: at each place the preferred reading
of the first declared kind, up to the end of the line. Its tokens are its pieces, with
their places counted in bytes (`lex_eq_ok_iff`), and each piece becomes a command
(`Command.ofLine_of_pieces`). A line that does not fall into pieces is printed as it
stands.
-/

namespace ReceiptNotes

namespace Markup

open Text (byteLength)

variable {atStart : Bool} {text : Text} {kind kind' : Kind} {found found' : Match}

/-- The kinds that are tried before a kind. -/
def Kind.earlier (kind : Kind) : List Kind :=
  Kind.declared.takeWhile (· ≠ kind)

theorem Kind.earlier_eq {earlier later : List Kind}
    (h : Kind.declared = earlier ++ kind :: later) (hnot : kind ∉ earlier) :
    kind.earlier = earlier := by
  rw [Kind.earlier, h, List.takeWhile_append_of_pos]
  · simp
  · intro other hother
    simpa using fun heq : other = kind => hnot (heq ▸ hother)

theorem firstDeclared_iff :
    FirstDeclared atStart text kind found ↔ kind ∈ Kind.declared ∧
      (∀ other ∈ kind.earlier, ¬ Occurs atStart text other) ∧
        Preferred atStart text kind found := by
  constructor
  · rintro ⟨earlier, later, hdeclared, hnone, hbest⟩
    have hnodup : Kind.declared.Nodup := by decide
    rw [hdeclared, List.nodup_append] at hnodup
    have hnot : kind ∉ earlier := fun hmem => hnodup.2.2 kind hmem kind List.mem_cons_self rfl
    exact ⟨by simp [hdeclared], Kind.earlier_eq hdeclared hnot ▸ hnone, hbest⟩
  · rintro ⟨hmem, hnone, hbest⟩
    obtain ⟨earlier, later, hdeclared, hnot⟩ := List.eq_append_cons_of_mem hmem
    exact ⟨earlier, later, hdeclared, Kind.earlier_eq hdeclared hnot ▸ hnone, hbest⟩

/-- The characters with which a token of a kind can start. -/
def Kind.opensWith (c : Char) : Kind → Prop
  | .link => c = '['
  | .qr => c = '|'
  | .bold => c = '*'
  | .underline => c = '_'
  | .newline => c = '\n' ∨ c = '\r'
  | .title => c = '#'
  | .horizontalRule => c = '-'
  | .centered => c = ':'
  | .whitespace => Text.isBlank c
  | .word => isWordChar c
  | .endOfInput => False

instance (c : Char) (kind : Kind) : Decidable (kind.opensWith c) :=
  match kind with
  | .link => inferInstanceAs (Decidable (c = '['))
  | .qr => inferInstanceAs (Decidable (c = '|'))
  | .bold => inferInstanceAs (Decidable (c = '*'))
  | .underline => inferInstanceAs (Decidable (c = '_'))
  | .newline => inferInstanceAs (Decidable (c = '\n' ∨ c = '\r'))
  | .title => inferInstanceAs (Decidable (c = '#'))
  | .horizontalRule => inferInstanceAs (Decidable (c = '-'))
  | .centered => inferInstanceAs (Decidable (c = ':'))
  | .whitespace => inferInstanceAs (Decidable (Text.isBlank c = true))
  | .word => inferInstanceAs (Decidable (isWordChar c = true))
  | .endOfInput => inferInstanceAs (Decidable False)

theorem Form.opens {payload : Payload} {lexeme : Text} {rank : Rank}
    (h : Form kind payload lexeme rank) : ∃ c ∈ lexeme.head?, kind.opensWith c := by
  cases h with
  | @title signs text hsigns =>
      obtain ⟨signs, rfl⟩ := Nat.exists_eq_succ_of_ne_zero (Nat.one_le_iff_ne_zero.mp hsigns)
      exact ⟨'#', rfl, rfl⟩
  | @horizontalRule width hwidth =>
      obtain ⟨width, rfl⟩ := Nat.exists_eq_succ_of_ne_zero (Nat.one_le_iff_ne_zero.mp hwidth)
      exact ⟨'-', rfl, rfl⟩
  | @whitespace blanks hne hblanks =>
      obtain ⟨c, later, rfl⟩ := List.exists_cons_of_ne_nil hne
      exact ⟨c, rfl, hblanks c List.mem_cons_self⟩
  | @word word hne hword =>
      obtain ⟨c, later, rfl⟩ := List.exists_cons_of_ne_nil hne
      exact ⟨c, rfl, hword c List.mem_cons_self⟩
  | lineFeed => exact ⟨'\n', rfl, .inl rfl⟩
  | carriageReturn => exact ⟨'\r', rfl, .inr rfl⟩
  | _ => exact ⟨_, rfl, rfl⟩

/-- A kind occurs only where one of its first characters stands. -/
theorem Occurs.opens (h : Occurs atStart text kind) : ∃ c ∈ text.head?, kind.opensWith c := by
  obtain ⟨found, rank, hread⟩ := h
  obtain ⟨c, hc, hopens⟩ := hread.form.opens
  refine ⟨c, ?_, hopens⟩
  rw [hread.splits, List.head?_append, hc]
  rfl

/-- A text falls into pieces, each of its kind. Only the first one stands at the start of
the line, if it does. -/
inductive Pieces : Bool → Text → List (Kind × Match) → Prop where
  | nil {atStart : Bool} : Pieces atStart [] []
  | cons {atStart : Bool} {text : Text} {kind : Kind} {found : Match}
      {later : List (Kind × Match)} (hfirst : FirstDeclared atStart text kind found)
      (hlater : Pieces false found.rest later) : Pieces atStart text ((kind, found) :: later)

/-- The tokens of pieces that follow each other from a byte number on, and the token for
the end of the line. -/
def tokensFrom (position : ℕ) : List (Kind × Match) → List Token
  | [] => [⟨.endOfInput, .nothing, position, position⟩]
  | (kind, found) :: later =>
      ⟨kind, found.payload, position, position + byteLength found.lexeme⟩ ::
        tokensFrom (position + byteLength found.lexeme) later

theorem FirstDeclared.unique (h : FirstDeclared atStart text kind found)
    (h' : FirstDeclared atStart text kind' found') : kind = kind' ∧ found = found' := by
  rw [← firstMatch?_eq_some_iff] at h h'
  exact Prod.mk.inj (Option.some.inj (h.symm.trans h'))

/-- Something has been read when a piece has been passed, so what follows it does not
stand at the start. -/
theorem FirstDeclared.position_ne (h : FirstDeclared atStart text kind found) (position : ℕ) :
    (position + byteLength found.lexeme == 0) = false := by
  obtain ⟨_, hread⟩ := h.reading
  have hpos := Text.byteLength_pos hread.form.lexeme_ne_nil
  simp only [beq_eq_false_iff_ne]
  omega

theorem pieces_nil_iff {pieces : List (Kind × Match)} : Pieces atStart [] pieces ↔ pieces = [] := by
  constructor
  · intro h
    cases h with
    | nil => rfl
    | cons hfirst => exact absurd rfl hfirst.text_ne_nil
  · rintro rfl
    exact .nil

theorem FirstDeclared.pieces_iff {pieces : List (Kind × Match)}
    (h : FirstDeclared atStart text kind found) :
    Pieces atStart text pieces ↔
      ∃ later, Pieces false found.rest later ∧ pieces = (kind, found) :: later := by
  constructor
  · intro hpieces
    cases hpieces with
    | nil => exact absurd rfl h.text_ne_nil
    | @cons _ _ _ _ later hfirst hlater =>
        obtain ⟨rfl, rfl⟩ := h.unique hfirst
        exact ⟨later, hlater, rfl⟩
  · rintro ⟨later, hlater, rfl⟩
    exact .cons h hlater

theorem Pieces.form {pieces : List (Kind × Match)} (h : Pieces atStart text pieces) :
    ∀ piece ∈ pieces, ∃ rank, Form piece.1 piece.2.payload piece.2.lexeme rank := by
  induction h with
  | nil => simp
  | cons hfirst _ ih =>
      obtain ⟨rank, hread⟩ := hfirst.reading
      exact List.forall_mem_cons.mpr ⟨⟨rank, hread.form⟩, ih⟩

theorem not_pieces {pieces : List (Kind × Match)} (hne : text ≠ [])
    (hnone : ∀ kind ∈ Kind.declared, ¬ Occurs atStart text kind) :
    ¬ Pieces atStart text pieces := by
  intro hpieces
  cases hpieces with
  | nil => exact hne rfl
  | cons hfirst =>
      have hmatch := firstMatch?_eq_some_iff.mpr hfirst
      rw [firstMatch?_eq_none_iff.mpr hnone] at hmatch
      contradiction

theorem ok_cons_eq_ok_iff {token : Token} {later : Except Rejection (List Token)}
    {tokens : List Token} :
    (do let first ← id (Except.ok token); let rest ← later; pure (first :: rest)) = .ok tokens ↔
      ∃ rest, later = .ok rest ∧ tokens = token :: rest := by
  cases later with
  | error rejection => simp [bind, Except.bind]
  | ok rest => simp [bind, Except.bind, pure, Except.pure, eq_comm]

/-- From its place on, an open scanner yields no rejection if and only if its rest falls
into pieces. -/
theorem Scanner.mapM_items_eq_ok_iff (scanner : Scanner) (hopen : scanner.finished = false)
    {tokens : List Token} :
    scanner.items.mapM id = .ok tokens ↔
      ∃ pieces, Pieces (scanner.position == 0) scanner.rest pieces ∧
        tokens = tokensFrom scanner.position pieces := by
  induction scanner using items.induct generalizing tokens with
  | case1 scanner hnext =>
      rw [next?_eq_none_iff, hopen] at hnext
      contradiction
  | case2 scanner item after hnext ih =>
      have hyields := yields_of_next? hnext
      rw [items_of_next? hnext, List.mapM_cons]
      cases hyields with
      | endOfLine hrest =>
          rw [items_of_finished rfl, hrest]
          simp only [pieces_nil_iff, exists_eq_left, tokensFrom]
          constructor
          · intro h
            exact (Except.ok.inj h).symm
          · rintro rfl
            rfl
      | @token kind found hfound =>
          have hlater := fun tokens => @ih hopen tokens
          simp only [hfound.position_ne] at hlater
          rw [ok_cons_eq_ok_iff]
          constructor
          · rintro ⟨rest, hrest, rfl⟩
            obtain ⟨later, hpieces, rfl⟩ := (hlater rest).mp hrest
            exact ⟨_, .cons hfound hpieces, rfl⟩
          · rintro ⟨pieces, hpieces, rfl⟩
            obtain ⟨later, hbehind, rfl⟩ := hfound.pieces_iff.mp hpieces
            exact ⟨_, (hlater _).mpr ⟨later, hbehind, rfl⟩, rfl⟩
      | @rejection c text hrest hnone =>
          have hne : scanner.rest ≠ [] := by simp [hrest]
          simp only [not_pieces hne hnone, false_and, exists_const, iff_false]
          intro h
          contradiction

/-- A line has tokens if and only if it falls into pieces. -/
theorem lex_eq_ok_iff {line : Text} {tokens : List Token} :
    lex line = .ok tokens ↔ ∃ pieces, Pieces true line pieces ∧ tokens = tokensFrom 0 pieces :=
  Scanner.mapM_items_eq_ok_iff (Scanner.ofLine line) rfl

/-- The command of a piece does not depend on its place. -/
def Match.command (found : Match) (kind : Kind) : Command :=
  Token.command ⟨kind, found.payload, 0, 0⟩

def commands (pieces : List (Kind × Match)) : List Command :=
  pieces.map fun (kind, found) => found.command kind

theorem commands_cons (kind : Kind) (found : Match) (later : List (Kind × Match)) :
    commands ((kind, found) :: later) = found.command kind :: commands later := rfl

theorem map_command_tokensFrom (position : ℕ) (pieces : List (Kind × Match)) :
    (tokensFrom position pieces).map Token.command = commands pieces ++ [.newLine] := by
  induction pieces generalizing position with
  | nil => rfl
  | cons piece later ih =>
      rw [tokensFrom, List.map_cons, ih]
      rfl

end Markup

namespace Command

open Markup (Pieces lex_eq_ok_iff map_command_tokensFrom)

variable {line : Text} {pieces : List (Markup.Kind × Markup.Match)}

/-- Every piece of a line becomes one command, and the end of the line a line break. -/
theorem ofLine_of_pieces (h : Pieces true line pieces) :
    ofLine line = Markup.commands pieces ++ [.newLine] := by
  rw [ofLine, lex_eq_ok_iff.mpr ⟨pieces, h, rfl⟩]
  exact map_command_tokensFrom 0 pieces

theorem ofLine_of_not_pieces (h : ∀ pieces, ¬ Pieces true line pieces) :
    ofLine line = [.printLine line] := by
  rw [ofLine]
  split
  next tokens hlex =>
      obtain ⟨pieces, hpieces, -⟩ := lex_eq_ok_iff.mp hlex
      exact absurd hpieces (h pieces)
  next => rfl

end Command

end ReceiptNotes
