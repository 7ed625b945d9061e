import ReceiptNotes.Proofs.Markup.Preview

/-! # What a preview rewrites

The preview of a line is the line itself and a line break, but for some tokens whose
stretches are written anew: titles, horizontal rules, line breaks, centred texts and QR
codes (`Payload.rewritten?`). Nothing outside of these stretches is looked at: their bytes
are patched, and all others are kept (`Command.preview_rewrites_line`).
-/

namespace ReceiptNotes

/-- New bytes in place of those from number `start` up to number `stop`. -/
structure Patch where
  start : Nat
  stop : Nat
  bytes : Bytes
  deriving DecidableEq, Repr

/-- The bytes from number `position` on with patches applied, which follow each other. Bytes
that no patch replaces are kept. -/
def Bytes.patched (bytes : Bytes) (position : Nat) : List Patch → Bytes
  | [] => bytes.drop position
  | patch :: later =>
      bytes.extract position patch.start ++ patch.bytes ++ patched bytes patch.stop later

namespace Bytes

open Text (byteLength)

/-- A patch at the place is applied. -/
theorem patched_cons_at (bytes : Bytes) (start stop : Nat) (shown : Bytes) (later : List Patch) :
    patched bytes start (⟨start, stop, shown⟩ :: later) = shown ++ patched bytes stop later := by
  rw [patched, List.extract_eq_take_drop, Nat.sub_self, List.take_zero, List.nil_append]

/-- Text in front of all patches is kept. -/
theorem patched_keep {before kept behind : Text} {patches : List Patch}
    (h : ∀ patch ∈ patches, byteLength (before ++ kept) ≤ patch.start) :
    patched (Text.utf8 (before ++ kept ++ behind)) (byteLength before) patches =
      Text.utf8 kept ++
        patched (Text.utf8 (before ++ kept ++ behind)) (byteLength (before ++ kept)) patches := by
  simp only [← Text.length_utf8, Text.utf8_append] at h ⊢
  generalize Text.utf8 before = front at h ⊢
  generalize Text.utf8 kept = middle at h ⊢
  generalize Text.utf8 behind = back at h ⊢
  cases patches with
  | nil =>
      rw [patched, patched, List.append_assoc, List.drop_left, ← List.append_assoc,
        List.drop_left]
  | cons patch later =>
      obtain ⟨room, hroom⟩ := Nat.exists_eq_add_of_le (h patch List.mem_cons_self)
      have hkept : (front ++ middle ++ back).extract front.length patch.start =
          middle ++ (front ++ middle ++ back).extract (front ++ middle).length patch.start := by
        rw [List.extract_eq_take_drop, List.extract_eq_take_drop, List.drop_left,
          List.append_assoc, List.drop_left, hroom, List.length_append, Nat.add_assoc,
          Nat.add_sub_cancel_left, ← Nat.add_assoc, Nat.add_sub_cancel_left,
          List.take_length_add_append]
      rw [patched, patched, hkept]
      simp only [List.append_assoc]

end Bytes

namespace Markup

open Text (byteLength StandsAt)

/-- What is shown of a token of some kind that is not shown as it is written. -/
def Payload.rewritten? (columns : Nat) (kind : Kind) (payload : Payload) : Option Text :=
  match kind, payload with
  | .title, .plain value => some ("# ".toList ++ value)
  | .horizontalRule, _ => some (Text.dashes columns)
  | .newline, _ => some ['\n']
  | .centered, .plain value => some (":-- ".toList ++ value ++ " --:\n".toList)
  | .qr, .plain data =>
      some (Text.dashes columns ++ "\n||qr:".toList ++ data ++ "||\n".toList ++ data ++
        ['\n'] ++ Text.dashes columns ++ "\n\n".toList)
  | _, _ => none

/-- The patch of a token's stretch. -/
def Token.patch? (columns : Nat) (token : Token) : Option Patch :=
  (token.payload.rewritten? columns token.kind).map fun shown =>
    ⟨token.start, token.stop, Text.utf8 shown⟩

/-- A token of a line is written as a preview of `columns` characters shows it: one of the kinds
that are never rewritten, a line feed, a title behind one number sign and one blank, or a rule
of the very width. -/
def Token.WrittenAsShown (columns : Nat) (line : Text) (token : Token) : Prop :=
  match token.kind with
  | .word | .whitespace | .bold | .underline | .link | .endOfInput => True
  | .newline => StandsAt line ['\n'] token.start token.stop
  | .title => ∃ value, Text.trim value = value ∧
      StandsAt line ("# ".toList ++ value) token.start token.stop
  | .horizontalRule => StandsAt line (Text.dashes columns) token.start token.stop
  | .qr | .centered => False

variable {atStart : Bool} {text line before : Text} {kind : Kind} {found : Match}
  {payload : Payload} {lexeme : Text} {rank : Rank} {columns : ℕ}

/-- The preview of a piece is what it is rewritten to, or else the piece itself. -/
theorem Form.preview_command (h : Form kind found.payload found.lexeme rank) (columns : ℕ) :
    (found.command kind).preview columns =
      (found.payload.rewritten? columns kind).getD found.lexeme := by
  obtain ⟨lexeme, payload, rest⟩ := found
  dsimp only at h ⊢
  cases h with
  | horizontalRule => exact List.append_nil _
  | _ => rfl

theorem le_start_of_mem_tokensFrom {pieces : List (Kind × Match)} {position : ℕ} {token : Token}
    (h : token ∈ tokensFrom position pieces) : position ≤ token.start := by
  induction pieces generalizing position with
  | nil =>
      obtain rfl := List.mem_singleton.mp h
      exact le_rfl
  | cons piece later ih =>
      rcases List.mem_cons.mp h with rfl | hlater
      · exact le_rfl
      · exact (Nat.le_add_right _ _).trans (ih hlater)

theorem le_start_of_mem_patches {pieces : List (Kind × Match)} {position : ℕ} {patch : Patch}
    (h : patch ∈ (tokensFrom position pieces).filterMap (Token.patch? columns)) :
    position ≤ patch.start := by
  obtain ⟨token, htoken, hpatch⟩ := List.mem_filterMap.mp h
  obtain ⟨shown, -, rfl⟩ := Option.map_eq_some_iff.mp hpatch
  exact le_start_of_mem_tokensFrom htoken

theorem pairwise_tokensFrom (position : ℕ) (pieces : List (Kind × Match)) :
    (tokensFrom position pieces).Pairwise fun first second => first.stop ≤ second.start := by
  induction pieces generalizing position with
  | nil => exact List.pairwise_singleton _ _
  | cons piece later ih =>
      exact List.pairwise_cons.mpr ⟨fun token htoken => le_start_of_mem_tokensFrom htoken, ih _⟩

/-- No patch reaches into the next one. -/
theorem pairwise_patches (columns position : ℕ) (pieces : List (Kind × Match)) :
    ((tokensFrom position pieces).filterMap (Token.patch? columns)).Pairwise
      fun first second => first.stop ≤ second.start := by
  apply (pairwise_tokensFrom position pieces).filterMap
  intro first second hfollows patch hpatch patch' hpatch'
  obtain ⟨_, -, rfl⟩ := Option.map_eq_some_iff.mp hpatch
  obtain ⟨_, -, rfl⟩ := Option.map_eq_some_iff.mp hpatch'
  exact hfollows

/-- To patch a line from a piece on is to show the piece, and to go on behind it. -/
theorem Form.patched_eq (h : Form kind found.payload found.lexeme rank) (before behind : Text)
    (later : List (Kind × Match)) :
    let line := before ++ found.lexeme ++ behind
    let patches := fun position pieces =>
      (tokensFrom position pieces).filterMap (Token.patch? columns)
    (Text.utf8 line).patched (byteLength before)
        (patches (byteLength before) ((kind, found) :: later)) =
      Text.utf8 ((found.command kind).preview columns) ++
        (Text.utf8 line).patched (byteLength (before ++ found.lexeme))
          (patches (byteLength (before ++ found.lexeme)) later) := by
  intro line patches
  simp only [patches]
  rw [h.preview_command, tokensFrom, List.filterMap_cons, ← Text.byteLength_append, Token.patch?]
  cases found.payload.rewritten? columns kind with
  | none => exact Bytes.patched_keep fun patch hpatch => le_start_of_mem_patches hpatch
  | some shown => exact Bytes.patched_cons_at _ _ _ _ _

/-- To patch the rest of a line from its place on is to show its pieces. -/
theorem Pieces.patched_eq {pieces : List (Kind × Match)} (h : Pieces atStart text pieces)
    (before : Text) :
    (Text.utf8 (before ++ (text ++ ['\n']))).patched (byteLength before)
        ((tokensFrom (byteLength before) pieces).filterMap (Token.patch? columns)) =
      Text.utf8 (Command.previewAll columns (commands pieces) ++ ['\n']) := by
  -- The text before the place grows by each piece, so it is generalized.
  induction h generalizing before with
  | nil =>
      have hpatches : (tokensFrom (byteLength before) []).filterMap (Token.patch? columns) = [] :=
        rfl
      rw [hpatches, Bytes.patched, List.nil_append, Text.utf8_append, ← Text.length_utf8,
        List.drop_left]
      rfl
  | @cons atStart text kind found later hfirst hlater ih =>
      obtain ⟨rank, hread⟩ := hfirst.reading
      have hline : before ++ (text ++ ['\n']) =
          before ++ found.lexeme ++ (found.rest ++ ['\n']) := by
        rw [hread.splits]
        simp only [List.append_assoc]
      rw [hline, hread.form.patched_eq, ih, ← Text.utf8_append, commands_cons,
        Command.previewAll_cons, List.append_assoc]

/-- Behind one number sign and one blank, a title is written as it is shown but for blanks. -/
theorem Form.title_payload {value : Text} (h : Form .title payload ("# ".toList ++ value) rank) :
    payload = .plain (Text.trim value) := by
  generalize hlexeme : "# ".toList ++ value = lexeme at h
  cases h with
  | @title signs text hsigns htext =>
      obtain ⟨more, rfl⟩ := Nat.exists_eq_add_of_le' hsigns
      cases more with
      | zero =>
          have htext : ' ' :: value = text := (List.cons.inj hlexeme).2
          rw [← htext, Text.trim_cons_of_blank (by decide)]
      | succ more =>
          -- A second number sign would stand where the blank does.
          have hblank := (List.cons.inj (List.cons.inj hlexeme).2).1
          contradiction

/-- A piece that is written as it is shown is its own preview. -/
theorem Form.preview_eq_lexeme (h : Form kind found.payload found.lexeme rank)
    {before behind : Text}
    (hwritten : Token.WrittenAsShown columns (before ++ found.lexeme ++ behind)
      ⟨kind, found.payload, byteLength before, byteLength (before ++ found.lexeme)⟩) :
    (found.command kind).preview columns = found.lexeme := by
  have hstands : ∀ {written}, StandsAt (before ++ found.lexeme ++ behind) written
      (byteLength before) (byteLength (before ++ found.lexeme)) → written = found.lexeme :=
    (StandsAt.iff_eq ⟨before, behind, rfl, rfl, rfl⟩).mp
  rw [h.preview_command]
  cases kind with
  | title =>
      obtain ⟨value, htrim, hvalue⟩ := hwritten
      have hlexeme := hstands hvalue
      rw [← hlexeme] at h ⊢
      rw [h.title_payload, htrim]
      rfl
  | newline | horizontalRule => exact hstands hwritten
  | qr | centered => contradiction
  | _ => rfl

theorem Pieces.preview_eq_text {pieces : List (Kind × Match)} (h : Pieces atStart text pieces)
    {before : Text}
    (hwritten : ∀ token ∈ tokensFrom (byteLength before) pieces,
      token.WrittenAsShown columns (before ++ text)) :
    Command.previewAll columns (commands pieces) = text := by
  induction h generalizing before with
  | nil => rfl
  | @cons atStart text kind found later hfirst hlater ih =>
      obtain ⟨rank, hread⟩ := hfirst.reading
      rw [hread.splits, ← List.append_assoc, tokensFrom, ← Text.byteLength_append,
        List.forall_mem_cons] at hwritten
      rw [commands_cons, Command.previewAll_cons, hread.form.preview_eq_lexeme hwritten.1,
        ih hwritten.2, ← hread.splits]

end Markup

namespace Command

open Markup (Pieces)

/-- The preview of a line that is markup is the line and a line break, in which the stretches of
titles, rules, line breaks, centred texts and QR codes are written anew and every other byte is
kept; so it is just the line and a line break if those are written as they are shown. This is
also the preview of a line that is no markup. -/
theorem preview_rewrites_line (line : Text) (columns : ℕ) :
    match Markup.lex line with
    | .error _ => previewAll columns (ofLine line) = line ++ ['\n']
    | .ok tokens =>
        let patches := tokens.filterMap (Markup.Token.patch? columns)
        patches.Pairwise (fun first second => first.stop ≤ second.start) ∧
          Text.utf8 (previewAll columns (ofLine line)) =
            (Text.utf8 (line ++ ['\n'])).patched 0 patches ∧
          ((∀ token ∈ tokens, token.WrittenAsShown columns line) →
            previewAll columns (ofLine line) = line ++ ['\n']) := by
  cases hlex : Markup.lex line with
  | error rejection =>
      have hline : ofLine line = [.printLine line] := by rw [ofLine, hlex]
      rw [hline]
      exact List.append_nil _
  | ok tokens =>
      obtain ⟨pieces, hpieces, rfl⟩ := Markup.lex_eq_ok_iff.mp hlex
      have hshown : previewAll columns (ofLine line) =
          previewAll columns (Markup.commands pieces) ++ ['\n'] := by
        rw [ofLine_of_pieces hpieces, previewAll_append]
        rfl
      simp only [hshown]
      refine ⟨Markup.pairwise_patches columns 0 pieces, (hpieces.patched_eq []).symm, ?_⟩
      intro hwritten
      rw [@Markup.Pieces.preview_eq_text true line columns pieces hpieces [] hwritten]

/-- A title, and a line break inside underlined text, which is no line break of the line. -/
theorem preview_rewrites_line_kept :
    let line := "# milk\n__a\r\nb__ **c**".toList
    ∃ tokens, Markup.lex line = .ok tokens ∧
      (∀ token ∈ tokens, token.WrittenAsShown 41 line) ∧
      previewAll 41 (ofLine line) = line ++ ['\n'] := by
  intro line
  let tokens : List Markup.Token := [⟨.title, .plain "milk".toList, 0, 6⟩,
    ⟨.newline, .nothing, 6, 7⟩, ⟨.underline, .plain "a\r\nb".toList, 7, 15⟩,
    ⟨.whitespace, .plain " ".toList, 15, 16⟩, ⟨.bold, .plain "c".toList, 16, 21⟩,
    ⟨.endOfInput, .nothing, 21, 21⟩]
  have hlex : Markup.lex line = .ok tokens := by decide +kernel
  have htitle : Text.StandsAt line "# milk".toList 0 6 :=
    ⟨[], "\n__a\r\nb__ **c**".toList, by decide, by decide, by decide⟩
  have hbreak : Text.StandsAt line ['\n'] 6 7 :=
    ⟨"# milk".toList, "__a\r\nb__ **c**".toList, by decide, by decide, by decide⟩
  have hwritten : ∀ token ∈ tokens, token.WrittenAsShown 41 line := by
    simp only [tokens, List.forall_mem_cons, List.not_mem_nil, false_implies, implies_true,
      and_true]
    exact ⟨⟨"milk".toList, by decide, htitle⟩, hbreak, trivial, trivial, trivial, trivial⟩
  have hrewrites := preview_rewrites_line line 41
  rw [hlex] at hrewrites
  exact ⟨tokens, hlex, hwritten, hrewrites.2.2 hwritten⟩

end Command

end ReceiptNotes
