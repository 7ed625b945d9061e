import Mathlib.Data.List.DropRight
import ReceiptNotes.Proofs.Command.Performing
import ReceiptNotes.Proofs.Markup.Respelling

/-! # A preview reads back

The preview of a line is markup that means the same. It is not the line itself: a title
is written with one number sign and without blanks around it, a horizontal rule is as
wide as the paper, and line breaks lose their carriage returns. Every piece of the line
is found again in the preview, since what stands behind it there is what stood behind it
before, respelled (`FirstDeclared.reads_back`).
-/

namespace ReceiptNotes

namespace Text

theorem trim_cons_of_blank {c : Char} (hc : isBlank c = true) (text : Text) :
    trim (c :: text) = trim text := by
  simp [trim, List.dropWhile_cons_of_pos hc]

theorem trim_eq (text : Text) : trim text = (text.dropWhile isBlank).rdropWhile isBlank := rfl

theorem mem_of_mem_trim {c : Char} {text : Text} (h : c ∈ trim text) : c ∈ text :=
  (List.dropWhile_sublist isBlank).subset
    ((List.rdropWhile_prefix isBlank _).subset h)

@[simp]
theorem trim_trim (text : Text) : trim (trim text) = trim text := by
  have hfront : (trim text).dropWhile isBlank = trim text := by
    cases htrim : trim text with
    | nil => rfl
    | cons c inner =>
        -- Trimming the end leaves the first character in its place.
        have hprefix : c :: inner <+: text.dropWhile isBlank := by
          rw [← htrim]
          exact List.rdropWhile_prefix isBlank _
        obtain ⟨behind, hbehind⟩ := hprefix
        have hhead : c ∈ (text.dropWhile isBlank).head? := by
          rw [← hbehind]
          rfl
        exact List.dropWhile_cons_of_neg (Markup.head_dropWhile c hhead)
  rw [trim_eq (trim text), hfront, trim_eq, List.rdropWhile_idempotent]

end Text

namespace Markup

open Text (Respelled run? run?_eq isBlank)

variable {atStart : Bool} {text shown rest : Text} {kind : Kind} {found : Match}
  {rank : Rank} {columns : ℕ}

theorem not_occurs_of_head {c : Char} (hc : c ∈ text.head?) (hopens : ¬ kind.opensWith c) :
    ¬ Occurs atStart text kind := by
  intro hoccurs
  obtain ⟨d, hd, hkind⟩ := hoccurs.opens
  exact hopens (Option.mem_unique hc hd ▸ hkind)

theorem occurs_newline_iff :
    Occurs atStart text .newline ↔
      "\n".toList <+: text ∨ "\r\n".toList <+: text := by
  constructor
  · rintro ⟨found, rank, hread⟩
    rw [hread.splits]
    rcases hread.form.newline_lexeme with hfeed | hbreak
    · exact .inl (hfeed ▸ List.prefix_append _ _)
    · exact .inr (hbreak ▸ List.prefix_append _ _)
  · rintro (⟨rest, rfl⟩ | ⟨rest, rfl⟩)
    · exact ⟨⟨_, .nothing, rest⟩, _, .lineFeed, rfl, trivial⟩
    · exact ⟨⟨_, .nothing, rest⟩, _, .carriageReturn, rfl, trivial⟩

theorem prefix_takeWhile {p : Char → Bool} {mark : Text} (h : mark <+: text)
    (hclass : ∀ c ∈ mark, p c) : mark <+: text.takeWhile p := by
  obtain ⟨later, rfl⟩ := h
  rw [List.takeWhile_append_of_pos hclass]
  exact List.prefix_append _ _

/-- Blanks that start no line break start none if what follows them is respelled: both
characters of a break would be among them. -/
theorem not_occurs_newline_of_run {blanks behind : Text}
    (hrun : run? isBlank text = some (blanks, behind))
    (hnone : ¬ Occurs atStart text .newline) (hrest : Respelled behind rest) :
    ¬ Occurs atStart (blanks ++ rest) .newline := by
  obtain ⟨-, -, htake, -⟩ := run?_eq (run?_respelled hrun (by decide) hrest)
  obtain ⟨-, rfl, -, -⟩ := run?_eq hrun
  rw [occurs_newline_iff] at hnone ⊢
  rintro (hfeed | hbreak)
  · have hfront := prefix_takeWhile (p := isBlank) hfeed (by simp [isBlank])
    rw [← htake] at hfront
    exact hnone (.inl (hfront.trans (List.prefix_append _ _)))
  · have hfront := prefix_takeWhile (p := isBlank) hbreak (by simp [isBlank])
    rw [← htake] at hfront
    exact hnone (.inr (hfront.trans (List.prefix_append _ _)))

/-- The kinds whose rules look far ahead of the place. -/
def Kind.farSighted : List Kind :=
  [.link, .qr, .bold, .underline]

/-- What is preferred in a respelled text is first there if no kind occurs that is tried
before it and looks only at what is near. -/
theorem FirstDeclared.of_respelled {again : Match} (h : FirstDeclared atStart text kind found)
    (hshown : Respelled text shown) (hbest : Preferred atStart shown kind again)
    (hnear : ∀ other ∈ kind.earlier, other ∉ Kind.farSighted → ¬ Occurs atStart shown other) :
    FirstDeclared atStart shown kind again := by
  rw [firstDeclared_iff] at h ⊢
  obtain ⟨hmem, hnone, -⟩ := h
  refine ⟨hmem, fun other hearlier => ?_, hbest⟩
  by_cases hother : other ∈ Kind.farSighted
  · exact fun hoccurs => hnone other hearlier (hoccurs.of_respelled hother hshown)
  · exact hnear other hearlier hother

theorem FirstDeclared.of_respelled_far {again : Match}
    (h : FirstDeclared atStart text kind found)
    (hearlier : ∀ other ∈ kind.earlier, other ∈ Kind.farSighted)
    (hshown : Respelled text shown) (hbest : Preferred atStart shown kind again) :
    FirstDeclared atStart shown kind again :=
  h.of_respelled hshown hbest fun other hother hnot => absurd (hearlier other hother) hnot

section Runs

variable {p : Char → Bool}

theorem map_run?_eq_some_iff :
    ((run? p text).map fun (run, rest) => (⟨run, .plain run, rest⟩ : Match)) = some found ↔
      run? p text = some (found.lexeme, found.rest) ∧ found.payload = .plain found.lexeme := by
  obtain ⟨lexeme, payload, rest⟩ := found
  simp only [Option.map_eq_some_iff, Prod.exists, Match.mk.injEq]
  constructor
  · rintro ⟨run, behind, hrun, rfl, rfl, rfl⟩
    exact ⟨hrun, rfl⟩
  · rintro ⟨hrun, rfl⟩
    exact ⟨_, _, hrun, rfl, rfl, rfl⟩

theorem preferred_whitespace_iff :
    Preferred atStart text .whitespace found ↔
      run? isBlank text = some (found.lexeme, found.rest) ∧
        found.payload = .plain found.lexeme := by
  rw [← whitespace?_decides.eq_some_iff]
  exact map_run?_eq_some_iff

theorem preferred_word_iff :
    Preferred atStart text .word found ↔
      run? isWordChar text = some (found.lexeme, found.rest) ∧
        found.payload = .plain found.lexeme := by
  rw [← word?_decides.eq_some_iff]
  exact map_run?_eq_some_iff

end Runs

section Kept

variable (h : FirstDeclared atStart text kind found) (hrest : Respelled found.rest rest)

include h

theorem FirstDeclared.preferred : Preferred atStart text kind found :=
  (firstDeclared_iff.mp h).2.2

theorem FirstDeclared.not_occurs {other : Kind} (hother : other ∈ kind.earlier) :
    ¬ Occurs atStart text other :=
  (firstDeclared_iff.mp h).2.1 other hother

/-- A piece keeps its first character. -/
theorem FirstDeclared.head (rest : Text) :
    ∃ c ∈ (found.lexeme ++ rest).head?, kind.opensWith c := by
  obtain ⟨rank, hread⟩ := h.reading
  obtain ⟨c, hc, hopens⟩ := hread.form.opens
  refine ⟨c, ?_, hopens⟩
  rw [List.head?_append, hc]
  rfl

include hrest

theorem FirstDeclared.respelled : Respelled text (found.lexeme ++ rest) := by
  obtain ⟨rank, hread⟩ := h.reading
  rw [hread.splits]
  exact (Respelled.refl _).append hrest

end Kept

theorem not_isBlank_of_isWordChar {c : Char} (h : isWordChar c = true) : ¬ isBlank c = true := by
  have hrange : 0x30 ≤ c.toNat ∧ c.toNat ≤ 0x7A := by
    have hnumber : c.toNat = c.val.toNat := rfl
    simp only [isWordChar, Char.isAlphanum] at h
    -- Opened without equation lemmas, of which a larger import has its own.
    delta Char.isAlpha Char.isUpper Char.isLower at h
    simp only [Char.isDigit, Bool.or_eq_true, Bool.and_eq_true, decide_eq_true_eq, ge_iff_le,
      UInt32.le_iff_toNat_le, Char.reduceVal, UInt32.reduceToNat] at h
    rcases h with ((hupper | hlower) | hdigit) | rfl
    · omega
    · omega
    · omega
    · decide
  simp [isBlank]
  omega

/-- No title, rule or centred text starts with a blank or with a character of a word. -/
theorem Kind.not_opensWith {c : Char} (hc : isBlank c = true ∨ isWordChar c = true)
    (hkind : kind ∈ [Kind.title, .horizontalRule, .centered]) : ¬ kind.opensWith c := by
  simp only [List.mem_cons, List.not_mem_nil, or_false] at hkind
  rcases hkind with rfl | rfl | rfl
  · rintro rfl
    simp [isBlank, isWordChar] at hc
  · rintro rfl
    simp [isBlank, isWordChar] at hc
  · rintro rfl
    simp [isBlank, isWordChar] at hc

theorem FirstDeclared.kept_whitespace (h : FirstDeclared atStart text .whitespace found)
    (hrest : Respelled found.rest rest) :
    FirstDeclared atStart (found.lexeme ++ rest) .whitespace { found with rest } := by
  obtain ⟨hrun, hpayload⟩ := preferred_whitespace_iff.mp h.preferred
  have hbest : Preferred atStart (found.lexeme ++ rest) .whitespace { found with rest } :=
    preferred_whitespace_iff.mpr ⟨run?_respelled hrun (by decide) hrest, hpayload⟩
  obtain ⟨c, hc, hblank⟩ := h.head rest
  apply h.of_respelled (h.respelled hrest) hbest
  intro other hearlier hnear
  have hother : other = .newline ∨ other ∈ [Kind.title, .horizontalRule, .centered] := by
    revert other
    decide
  rcases hother with rfl | hother
  · exact not_occurs_newline_of_run hrun (h.not_occurs (by decide)) hrest
  · exact not_occurs_of_head hc (Kind.not_opensWith (.inl hblank) hother)

theorem FirstDeclared.kept_word (h : FirstDeclared atStart text .word found)
    (hrest : Respelled found.rest rest) :
    FirstDeclared atStart (found.lexeme ++ rest) .word { found with rest } := by
  obtain ⟨hrun, hpayload⟩ := preferred_word_iff.mp h.preferred
  have hbest : Preferred atStart (found.lexeme ++ rest) .word { found with rest } :=
    preferred_word_iff.mpr ⟨run?_respelled hrun (by decide) hrest, hpayload⟩
  obtain ⟨c, hc, hword⟩ := h.head rest
  apply h.of_respelled (h.respelled hrest) hbest
  intro other hearlier hnear
  have hother : other = .newline ∨ other = .whitespace ∨
      other ∈ [Kind.title, .horizontalRule, .centered] := by
    revert other
    decide
  rcases hother with rfl | rfl | hother
  · refine not_occurs_of_head hc ?_
    rintro (rfl | rfl)
    · contradiction
    · contradiction
  · exact not_occurs_of_head hc (not_isBlank_of_isWordChar hword)
  · exact not_occurs_of_head hc (Kind.not_opensWith (.inr hword) hother)

/-- A piece whose preview is what is written is found again in front of what follows it,
respelled. -/
theorem FirstDeclared.kept (hkind : kind ∈ [Kind.link, .bold, .underline, .whitespace, .word])
    (h : FirstDeclared atStart text kind found) (hrest : Respelled found.rest rest) :
    FirstDeclared atStart (found.lexeme ++ rest) kind { found with rest } := by
  simp only [List.mem_cons, List.not_mem_nil, or_false] at hkind
  rcases hkind with rfl | rfl | rfl | rfl | rfl
  · exact h.of_respelled_far (by decide) (h.respelled hrest)
      (h.preferred.respelled_line (.inl rfl) hrest)
  · exact h.of_respelled_far (by decide) (h.respelled hrest)
      (h.preferred.respelled_line (.inr rfl) hrest)
  · exact h.of_respelled_far (by decide) (h.respelled hrest) (h.preferred.respelled_underline rest)
  · exact h.kept_whitespace hrest
  · exact h.kept_word hrest

theorem FirstDeclared.respelled_newline (h : FirstDeclared atStart text .newline found)
    (hrest : Respelled found.rest rest) : Respelled text ('\n' :: rest) := by
  obtain ⟨rank, hread⟩ := h.reading
  rw [hread.splits]
  rcases hread.form.newline_lexeme with hfeed | hbreak
  · rw [hfeed]
    exact .keep '\n' hrest
  · rw [hbreak]
    exact .feed hrest

/-- A line break is found again as a line feed. -/
theorem FirstDeclared.kept_newline (h : FirstDeclared atStart text .newline found)
    (hrest : Respelled found.rest rest) :
    FirstDeclared atStart ('\n' :: rest) .newline ⟨['\n'], .nothing, rest⟩ := by
  have hbest : Preferred atStart ('\n' :: rest) .newline ⟨['\n'], .nothing, rest⟩ := by
    rw [← newline?_decides.eq_some_iff, newline?]
    rfl
  exact h.of_respelled_far (by decide) (h.respelled_newline hrest) hbest

/-- A title is found again behind one number sign and a blank. -/
theorem firstDeclared_title {data : Text} (hline : '\n' ∉ data) (htrim : Text.trim data = data)
    (hrest : ∀ c ∈ rest.head?, c = '\n') :
    FirstDeclared true ("# ".toList ++ data ++ rest) .title
      ⟨"# ".toList ++ data, .plain data, rest⟩ := by
  have hhead : '#' ∈ ("# ".toList ++ data ++ rest).head? := rfl
  rw [firstDeclared_iff]
  refine ⟨by decide, ?_, ?_⟩
  · intro other hearlier
    apply not_occurs_of_head hhead
    revert other
    decide
  · have hplain : '\n' ∉ "# ".toList ++ data := by simp [hline]
    obtain ⟨htake, hdrop⟩ := span_line hplain hrest
    rw [← title?_decides.eq_some_iff, title?]
    simp only [htake, hdrop]
    simp [Text.trim_cons_of_blank (c := ' ') (by decide), htrim]

/-- A rule is found again at any width. -/
theorem firstDeclared_horizontalRule (hcolumns : 1 ≤ columns) :
    FirstDeclared true (Text.dashes columns) .horizontalRule
      ⟨Text.dashes columns, .nothing, []⟩ := by
  obtain ⟨columns, rfl⟩ := Nat.exists_eq_succ_of_ne_zero (Nat.one_le_iff_ne_zero.mp hcolumns)
  have hhead : '-' ∈ (Text.dashes (columns + 1)).head? := rfl
  rw [firstDeclared_iff]
  refine ⟨by decide, ?_, ?_⟩
  · intro other hearlier
    apply not_occurs_of_head hhead
    revert other
    decide
  · rw [← horizontalRule?_decides.eq_some_iff, horizontalRule?, if_pos]
    simp [Text.dashes]

/-- Every piece but a QR code and a centred text is found again in its preview. -/
theorem FirstDeclared.reads_back (h : FirstDeclared atStart text kind found)
    (hqr : kind ≠ .qr) (hcentered : kind ≠ .centered) (hcolumns : 1 ≤ columns)
    (hrest : Respelled found.rest rest) :
    FirstDeclared atStart ((found.command kind).preview columns ++ rest) kind
        ⟨(found.command kind).preview columns, found.payload, rest⟩ ∧
      (atStart = false → Respelled text ((found.command kind).preview columns ++ rest)) := by
  obtain ⟨rank, hread⟩ := h.reading
  have hplaced := hread.placed
  have hform := hread.form
  obtain ⟨lexeme, payload, behind⟩ := found
  dsimp only at hform hplaced hrest
  cases hform with
  | link => exact ⟨h.kept (by decide) hrest, fun _ => h.respelled hrest⟩
  | bold => exact ⟨h.kept (by decide) hrest, fun _ => h.respelled hrest⟩
  | underline => exact ⟨h.kept (by decide) hrest, fun _ => h.respelled hrest⟩
  | whitespace => exact ⟨h.kept (by decide) hrest, fun _ => h.respelled hrest⟩
  | word => exact ⟨h.kept (by decide) hrest, fun _ => h.respelled hrest⟩
  | lineFeed => exact ⟨h.kept_newline hrest, fun _ => h.respelled_newline hrest⟩
  | carriageReturn => exact ⟨h.kept_newline hrest, fun _ => h.respelled_newline hrest⟩
  | @title signs text hsigns htext =>
      obtain ⟨rfl, hend⟩ := hplaced
      refine ⟨firstDeclared_title ?_ (Text.trim_trim text) ?_, by simp⟩
      · exact fun hfeed => htext.no_feed (Text.mem_of_mem_trim hfeed)
      · intro c hc
        rcases hrest.head hc with hsame | ⟨hfeed, -⟩
        · exact hend c hsame
        · exact hfeed
  | horizontalRule =>
      obtain ⟨rfl, rfl⟩ := hplaced
      cases hrest
      refine ⟨?_, by simp⟩
      have hpreview : (Command.rule false).preview columns = Text.dashes columns :=
        List.append_nil _
      change FirstDeclared true ((Command.rule false).preview columns ++ []) .horizontalRule
        ⟨(Command.rule false).preview columns, .nothing, []⟩
      rw [hpreview, List.append_nil]
      exact firstDeclared_horizontalRule hcolumns
  | qr => contradiction
  | centered => contradiction

/-- So a text that falls into such pieces has a preview that falls into pieces with the
same commands. Behind the start, the preview is the text respelled. -/
theorem Pieces.reads_back {pieces : List (Kind × Match)} (h : Pieces atStart text pieces)
    (hkinds : ∀ piece ∈ pieces, piece.1 ≠ .qr ∧ piece.1 ≠ .centered) (hcolumns : 1 ≤ columns) :
    ∃ again, Pieces atStart (Command.previewAll columns (commands pieces)) again ∧
      commands again = commands pieces ∧
      (atStart = false → Respelled text (Command.previewAll columns (commands pieces))) := by
  induction h with
  | nil => exact ⟨[], .nil, rfl, fun _ => .nil⟩
  | @cons atStart text kind found later hfirst hlater ih =>
      rw [List.forall_mem_cons] at hkinds
      obtain ⟨again, hagain, hcommands, hrespelled⟩ := ih hkinds.2
      obtain ⟨hfound, hshown⟩ := hfirst.reads_back hkinds.1.1 hkinds.1.2 hcolumns
        (hrespelled rfl)
      refine ⟨_, .cons hfound hagain, ?_, hshown⟩
      rw [commands_cons, commands_cons, hcommands]
      rfl

/-- Only QR codes become commands for QR codes, and only centred text such for centred
text. -/
theorem Pieces.kind_ne {pieces : List (Kind × Match)} (h : Pieces atStart text pieces)
    (hqr : ∀ data, .qrCode data ∉ commands pieces)
    (hcentered : ∀ data, .centered data ∉ commands pieces) :
    ∀ piece ∈ pieces, piece.1 ≠ .qr ∧ piece.1 ≠ .centered := by
  rintro ⟨kind, lexeme, payload, rest⟩ hpiece
  have hmem : Match.command ⟨lexeme, payload, rest⟩ kind ∈ commands pieces :=
    List.mem_map_of_mem hpiece
  obtain ⟨rank, hform⟩ := h.form _ hpiece
  dsimp only at hform ⊢
  constructor
  · rintro rfl
    cases hform with
    | @qr data => exact hqr data hmem
  · rintro rfl
    cases hform with
    | @centered dashes text => exact hcentered (Text.trim text) hmem

end Markup

namespace Command

open Markup (Pieces)

variable {line : Text} {columns : ℕ}

/-- Without the line break at its end, the preview of a line with neither QR codes nor
centred text is a line with the same commands, and is its own preview. -/
theorem ofLine_preview (line : Text) (hcolumns : 1 ≤ columns)
    (hqr : ∀ data, .qrCode data ∉ ofLine line) (hcentered : ∀ data, .centered data ∉ ofLine line) :
    ∃ shown, previewAll columns (ofLine line) = shown ++ ['\n'] ∧ ofLine shown = ofLine line ∧
      previewAll columns (ofLine shown) = shown ++ ['\n'] := by
  suffices h : ∃ shown, previewAll columns (ofLine line) = shown ++ ['\n'] ∧
      ofLine shown = ofLine line by
    obtain ⟨shown, hshown, hsame⟩ := h
    exact ⟨shown, hshown, hsame, hsame ▸ hshown⟩
  by_cases hmarkup : ∃ pieces, Pieces true line pieces
  · obtain ⟨pieces, hpieces⟩ := hmarkup
    have hline := ofLine_of_pieces hpieces
    rw [hline] at hqr hcentered
    have hkinds := hpieces.kind_ne
      (fun data hmem => hqr data (List.mem_append_left _ hmem))
      (fun data hmem => hcentered data (List.mem_append_left _ hmem))
    obtain ⟨again, hagain, hcommands, -⟩ := hpieces.reads_back hkinds hcolumns
    refine ⟨previewAll columns (Markup.commands pieces), ?_, ?_⟩
    · rw [hline, previewAll_append]
      rfl
    · rw [ofLine_of_pieces hagain, hcommands, hline]
  · -- A line that is no markup is its own preview.
    have hline := ofLine_of_not_pieces (not_exists.mp hmarkup)
    refine ⟨line, ?_, rfl⟩
    rw [hline]
    exact List.append_nil _

/-- A title with two number signs and blanks, a break with a carriage return, and one
inside underlined text. -/
theorem ofLine_preview_title :
    let line := "## milk \r\n__a\r\nb__ **c**".toList
    1 ≤ 5 ∧ (∀ data, .qrCode data ∉ ofLine line) ∧ (∀ data, .centered data ∉ ofLine line) ∧
      ofLine "# milk\n__a\r\nb__ **c**".toList = ofLine line := by
  intro line
  have hline : ofLine line = [.title "milk".toList, .newLine, .underline "a\r\nb".toList,
      .append " ".toList, .bold "c".toList, .newLine] := by
    decide +kernel
  have hqr : ∀ data, .qrCode data ∉ ofLine line := by
    simp only [hline, List.mem_cons, reduceCtorEq, List.not_mem_nil, or_self, not_false_eq_true,
      implies_true]
  have hcentered : ∀ data, .centered data ∉ ofLine line := by
    simp only [hline, List.mem_cons, reduceCtorEq, List.not_mem_nil, or_self, not_false_eq_true,
      implies_true]
  have hcolumns : 1 ≤ 5 := by decide
  obtain ⟨shown, hshown, hsame, -⟩ := ofLine_preview line hcolumns hqr hcentered
  have hpreview : previewAll 5 (ofLine line) = "# milk\n__a\r\nb__ **c**".toList ++ ['\n'] := by
    rw [hline]
    decide
  rw [List.append_cancel_right (hshown.symm.trans hpreview)] at hsame
  exact ⟨hcolumns, hqr, hcentered, hsame⟩

end Command

end ReceiptNotes
