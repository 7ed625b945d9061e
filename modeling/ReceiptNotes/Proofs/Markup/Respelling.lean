import ReceiptNotes.Proofs.Markup.Pieces

/-! # Line breaks written shorter

A text can be respelled by leaving out the carriage return of some of its line breaks.
The rules that look far ahead, those of links, QR codes, bold and underlined text, find
nothing in a respelled text that they would not find in the text itself
(`Occurs.of_respelled`), and what they, words and blanks take off the front of a text
they also take if what follows is respelled.
-/

namespace ReceiptNotes

namespace Text

/-- Line breaks of the first text have lost their carriage returns in the second one. -/
inductive Respelled : Text → Text → Prop where
  | nil : Respelled [] []
  | keep {text shown : Text} (c : Char) (h : Respelled text shown) :
      Respelled (c :: text) (c :: shown)
  | feed {text shown : Text} (h : Respelled text shown) :
      Respelled ('\r' :: '\n' :: text) ('\n' :: shown)

namespace Respelled

variable {text shown front behind : Text} {c : Char}

theorem refl (text : Text) : Respelled text text := by
  induction text with
  | nil => exact .nil
  | cons c text ih => exact .keep c ih

theorem append (h : Respelled text shown) (h' : Respelled front behind) :
    Respelled (text ++ front) (shown ++ behind) := by
  induction h with
  | nil => exact h'
  | keep c _ ih => exact .keep c ih
  | feed _ ih => exact .feed ih

theorem split (h : Respelled text (front ++ behind)) :
    ∃ first second, text = first ++ second ∧ Respelled first front ∧
      Respelled second behind := by
  induction front generalizing text with
  | nil => exact ⟨[], text, rfl, .nil, h⟩
  | cons c front ih =>
      cases h with
      | keep _ h =>
          obtain ⟨first, second, rfl, hfirst, hsecond⟩ := ih h
          exact ⟨c :: first, second, rfl, .keep c hfirst, hsecond⟩
      | feed h =>
          obtain ⟨first, second, rfl, hfirst, hsecond⟩ := ih h
          exact ⟨'\r' :: '\n' :: first, second, rfl, .feed hfirst, hsecond⟩

/-- There is one way only to respell something as a text without line breaks. -/
theorem eq_of_line (h : Respelled text shown) (hline : '\n' ∉ shown) : text = shown := by
  induction h with
  | nil => rfl
  | keep c _ ih =>
      simp only [List.mem_cons, not_or] at hline
      rw [ih hline.2]
  | feed _ _ => simp at hline

theorem split_line (h : Respelled text (front ++ behind)) (hline : '\n' ∉ front) :
    ∃ rest, text = front ++ rest ∧ Respelled rest behind := by
  obtain ⟨first, second, rfl, hfirst, hsecond⟩ := h.split
  exact ⟨second, by rw [hfirst.eq_of_line hline], hsecond⟩

theorem ne_nil (h : Respelled text shown) (hne : shown ≠ []) : text ≠ [] := by
  cases h with
  | nil => exact hne
  | keep => simp
  | feed => simp

theorem mem (h : Respelled text shown) (hmem : c ∈ text) : c ∈ shown ∨ c = '\r' := by
  induction h with
  | nil => exact .inl hmem
  | keep d _ ih =>
      rcases List.mem_cons.mp hmem with rfl | hlater
      · exact .inl List.mem_cons_self
      · exact (ih hlater).imp_left (List.mem_cons_of_mem d)
  | feed _ ih =>
      simp only [List.mem_cons] at hmem
      rcases hmem with rfl | rfl | hlater
      · exact .inr rfl
      · exact .inl List.mem_cons_self
      · exact (ih hlater).imp_left (List.mem_cons_of_mem _)

/-- The first character stays the same, unless it is that of a line break. -/
theorem head (h : Respelled text shown) (hc : c ∈ shown.head?) :
    c ∈ text.head? ∨ c = '\n' ∧ '\r' ∈ text.head? := by
  cases h with
  | nil => simp at hc
  | keep d _ => exact .inl hc
  | feed _ =>
      obtain rfl := Option.some.inj hc
      exact .inr ⟨rfl, rfl⟩

end Respelled

end Text

namespace Markup

open Text (Respelled run? run?_append run?_eq)

variable {atStart : Bool} {text shown rest : Text} {kind : Kind} {found : Match}
  {rank : Rank}

theorem Form.no_feed {payload : Payload} {lexeme : Text} (h : Form kind payload lexeme rank)
    (hkind : kind = .link ∨ kind = .bold) : '\n' ∉ lexeme := by
  cases h with
  | link hlabel hurl => simp [hlabel.no_feed, hurl.no_feed]
  | bold hdata => simp [hdata.no_feed]
  | _ => simp at hkind

/-- A link or a bold text that is read in a respelled text is there before respelling. -/
theorem Reading.of_respelled (h : Reading atStart shown kind found rank)
    (hkind : kind = .link ∨ kind = .bold) (hshown : Respelled text shown) :
    ∃ rest, Reading atStart text kind { found with rest } rank := by
  rw [h.splits] at hshown
  obtain ⟨rest, hsplit, -⟩ := hshown.split_line (h.form.no_feed hkind)
  refine ⟨rest, h.form, hsplit, ?_⟩
  rcases hkind with rfl | rfl
  · trivial
  · trivial

/-- So is a QR code or an underlined text, though its payload may be respelled. -/
theorem Occurs.of_respelled_marked (opening closing : Text) {mark : Char}
    (hopening : '\n' ∉ opening) (hclosing : '\n' ∉ closing) (hmark : mark ≠ '\r')
    (hplaced : ∀ rest, kind.Placed atStart rest)
    (hform : ∀ {payload lexeme rank}, Form kind payload lexeme rank ↔ ∃ data, data ≠ [] ∧
      mark ∉ data ∧ lexeme = opening ++ data ++ closing ∧ payload = .plain data ∧
        rank = toLex (data.length, 0))
    (h : Occurs atStart shown kind) (hshown : Respelled text shown) :
    Occurs atStart text kind := by
  obtain ⟨found, rank, hread⟩ := h
  obtain ⟨data, hne, hclear, hlexeme, -, -⟩ := hform.mp hread.form
  rw [hread.splits, hlexeme, List.append_assoc, List.append_assoc] at hshown
  obtain ⟨inner, rfl, hinner⟩ := hshown.split_line hopening
  obtain ⟨spelled, behind, rfl, hdata, hbehind⟩ := hinner.split
  obtain ⟨rest, rfl, -⟩ := hbehind.split_line hclosing
  have hspelled : mark ∉ spelled := by
    intro hmem
    rcases hdata.mem hmem with hmem | hreturn
    · exact hclear hmem
    · exact hmark hreturn
  refine ⟨⟨opening ++ spelled ++ closing, .plain spelled, rest⟩, _,
    hform.mpr ⟨spelled, hdata.ne_nil hne, hspelled, rfl, rfl, rfl⟩, ?_, hplaced rest⟩
  simp only [List.append_assoc]

theorem Occurs.of_respelled (hkind : kind ∈ [Kind.link, .qr, .bold, .underline])
    (h : Occurs atStart shown kind) (hshown : Respelled text shown) :
    Occurs atStart text kind := by
  simp only [List.mem_cons, List.not_mem_nil, or_false] at hkind
  rcases hkind with rfl | rfl | rfl | rfl
  · obtain ⟨found, rank, hread⟩ := h
    obtain ⟨rest, hthere⟩ := hread.of_respelled (.inl rfl) hshown
    exact ⟨_, rank, hthere⟩
  · exact h.of_respelled_marked "||qr:".toList "||".toList (by decide) (by decide) (by decide)
      (fun _ => trivial) Form.qr_iff hshown
  · obtain ⟨found, rank, hread⟩ := h
    obtain ⟨rest, hthere⟩ := hread.of_respelled (.inr rfl) hshown
    exact ⟨_, rank, hthere⟩
  · exact h.of_respelled_marked "__".toList "__".toList (by decide) (by decide) (by decide)
      (fun _ => trivial) Form.underline_iff hshown

/-- The preferred link or bold text stays preferred if what follows it is respelled. -/
theorem Preferred.respelled_line (h : Preferred atStart text kind found)
    (hkind : kind = .link ∨ kind = .bold) (hrest : Respelled found.rest rest) :
    Preferred atStart (found.lexeme ++ rest) kind { found with rest } := by
  obtain ⟨rank, hread, hmost⟩ := h
  have hshown : Respelled text (found.lexeme ++ rest) := by
    rw [hread.splits]
    exact (Respelled.refl _).append hrest
  refine ⟨rank, ⟨hread.form, rfl, ?_⟩, ?_⟩
  · rcases hkind with rfl | rfl
    · trivial
    · trivial
  · intro other rank' hother
    obtain ⟨rest', hthere⟩ := hother.of_respelled hkind hshown
    exact hmost _ _ hthere

/-- Underlined text has one reading only: it ends at the next underscore. -/
theorem Reading.underline_rank {other : Match} {rank' : Rank}
    (h : Reading atStart text .underline found rank)
    (h' : Reading atStart text .underline other rank') : rank = rank' := by
  obtain ⟨data, -, hclear, hlexeme, -, rfl⟩ := Form.underline_iff.mp h.form
  obtain ⟨data', -, hclear', hlexeme', -, rfl⟩ := Form.underline_iff.mp h'.form
  have htake : ∀ (data rest : Text), '_' ∉ data →
      (data ++ ("__".toList ++ rest)).takeWhile (· ≠ '_') = data := by
    intro data rest hclear
    refine (Text.span_append ?_ ?_).1
    · intro c hc
      simpa using fun heq : c = '_' => hclear (heq ▸ hc)
    · intro c hc
      simp at hc
      simp [← hc]
  have hsplit := h.splits.symm.trans h'.splits
  rw [hlexeme, hlexeme'] at hsplit
  simp only [List.append_assoc, List.append_cancel_left_eq] at hsplit
  have hsame := congrArg (List.takeWhile (· ≠ '_')) hsplit
  rw [htake _ _ hclear, htake _ _ hclear'] at hsame
  rw [hsame]

theorem Preferred.respelled_underline (h : Preferred atStart text .underline found)
    (rest : Text) : Preferred atStart (found.lexeme ++ rest) .underline { found with rest } := by
  obtain ⟨rank, hread, -⟩ := h
  have hthere : Reading atStart (found.lexeme ++ rest) .underline { found with rest } rank :=
    ⟨hread.form, rfl, trivial⟩
  exact ⟨rank, hthere, fun other rank' hother => (hother.underline_rank hthere).le⟩

/-- A run ends where it did if what follows it is respelled, unless it could go on over a
line feed but not over a carriage return. -/
theorem run?_respelled {p : Char → Bool} {taken behind : Text}
    (h : run? p text = some (taken, behind)) (hbreak : p '\n' = true → p '\r' = true)
    (hrest : Respelled behind rest) : run? p (taken ++ rest) = some (taken, rest) := by
  obtain ⟨hne, hclass, -⟩ := run?_sound h
  have hend := run?_stops h
  refine run?_append hne hclass fun c hc => ?_
  rcases hrest.head hc with hsame | ⟨rfl, hreturn⟩
  · exact hend c hsame
  · exact fun hfeed => hend '\r' hreturn (hbreak hfeed)

end Markup

end ReceiptNotes
