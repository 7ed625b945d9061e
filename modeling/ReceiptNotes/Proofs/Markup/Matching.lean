import Mathlib.Data.List.TakeWhile
import ReceiptNotes.Proofs.Markup.Grammar

/-! # The rules find the preferred readings

Every markup rule searches in its own way. Here each is held against the grammar: it
finds something exactly where its kind can be read, and what it finds is the preferred
reading (`Rule.attempt?_decides`). So the rules in their order find the preferred
reading of the first declared kind (`firstMatch?_eq_some_iff`).
-/

namespace ReceiptNotes.Markup

open Text (after? after?_append run? run?_append run?_eq isBlank)

/-- What the search for a kind of token has to come to: its preferred reading, or
nothing where it has no reading. -/
inductive Decides (atStart : Bool) (text : Text) (kind : Kind) : Option Match → Prop where
  | found {found : Match} (h : Preferred atStart text kind found) :
      Decides atStart text kind (some found)
  | missing (h : ¬ Occurs atStart text kind) : Decides atStart text kind none

def Payload.lengths : Payload → Rank
  | .nothing => toLex (0, 0)
  | .plain data => toLex (data.length, 0)
  | .link label url => toLex (label.length, url.length)

theorem Payload.lengths_plain_le_iff {data longer : Text} :
    (Payload.plain data).lengths ≤ (Payload.plain longer).lengths ↔
      data.length ≤ longer.length := by
  simp [Payload.lengths, Prod.Lex.toLex_le_toLex, ← le_iff_lt_or_eq]

section Search

variable {α : Type} {accept : Text → Option α} {taken rest : Text} {a : α}

theorem exists_longestOrEmpty? (hline : '\n' ∉ taken) (haccept : accept rest = some a) :
    ∃ longer b, longestOrEmpty? accept (taken ++ rest) = some (longer, b) ∧
      taken <+: longer := by
  induction taken with
  | nil =>
      cases rest with
      | nil => exact ⟨[], a, by simp [longestOrEmpty?, haccept], List.nil_prefix⟩
      | cons c rest =>
          rw [List.nil_append, longestOrEmpty?]
          split
          next longer b _ => exact ⟨c :: longer, b, rfl, List.nil_prefix⟩
          next => exact ⟨[], a, by simp [haccept], List.nil_prefix⟩
  | cons c taken ih =>
      simp only [List.mem_cons, not_or] at hline
      obtain ⟨hc, hlater⟩ := hline
      obtain ⟨longer, b, hlonger, hfront⟩ := ih hlater
      refine ⟨c :: longer, b, ?_, (List.prefix_cons_inj c).mpr hfront⟩
      rw [List.cons_append, longestOrEmpty?, if_neg (Ne.symm hc), hlonger]

/-- Where a stretch of the line has an acceptable remainder, `longest?` takes that
stretch or a longer one. -/
theorem exists_longest? (accept : Text → Option α) (htaken : OnLine taken)
    (haccept : accept rest = some a) :
    ∃ longer b, longest? accept (taken ++ rest) = some (longer, b) ∧ taken <+: longer := by
  obtain ⟨hne, hline⟩ := htaken
  cases taken with
  | nil => exact absurd rfl hne
  | cons c taken =>
      simp only [List.mem_cons, not_or] at hline
      obtain ⟨hc, hlater⟩ := hline
      obtain ⟨longer, b, hlonger, hfront⟩ := exists_longestOrEmpty? hlater haccept
      refine ⟨c :: longer, b, ?_, (List.prefix_cons_inj c).mpr hfront⟩
      rw [List.cons_append, longest?, if_neg (Ne.symm hc), hlonger]
      rfl

theorem longest?_onLine {text : Text} (h : longest? accept text = some (taken, a)) :
    OnLine taken ∧ ∃ rest, text = taken ++ rest ∧ accept rest = some a := by
  obtain ⟨hne, hline, hrest⟩ := longest?_eq h
  exact ⟨⟨hne, hline⟩, hrest⟩

theorem run?_sound {p : Char → Bool} {text : Text} (h : run? p text = some (taken, rest)) :
    taken ≠ [] ∧ (∀ c ∈ taken, p c) ∧ text = taken ++ rest := by
  obtain ⟨hne, hsplit, htaken, -⟩ := run?_eq h
  refine ⟨hne, fun c hc => ?_, hsplit⟩
  rw [htaken] at hc
  exact List.mem_takeWhile_imp hc

theorem run?_stops {p : Char → Bool} {text : Text} (h : run? p text = some (taken, rest)) :
    ∀ c ∈ rest.head?, ¬ p c := by
  obtain ⟨-, -, -, rfl⟩ := run?_eq h
  exact head_dropWhile

/-- A run is at least as long as any stretch of its class. -/
theorem exists_run? {p : Char → Bool} (rest : Text) (hne : taken ≠ [])
    (htaken : ∀ c ∈ taken, p c) :
    ∃ longer behind, run? p (taken ++ rest) = some (longer, behind) ∧
      (Payload.plain taken).lengths ≤ (Payload.plain longer).lengths := by
  refine ⟨taken ++ rest.takeWhile p, (taken ++ rest).dropWhile p, ?_, ?_⟩
  · rw [run?, List.takeWhile_append_of_pos htaken]
    split
    next hnil => exact absurd (List.append_eq_nil_iff.mp hnil).1 hne
    next => rfl
  · simp [Payload.lengths_plain_le_iff]

end Search

variable {atStart : Bool} {text : Text} {kind : Kind} {found : Match} {rank : Rank}
  {result : Option Match}

theorem Form.rank_eq {payload : Payload} {lexeme : Text} (h : Form kind payload lexeme rank)
    (htitle : kind ≠ .title) (hcentered : kind ≠ .centered) : rank = payload.lengths := by
  cases h <;> first | rfl | contradiction

namespace Decides

/-- For the kinds whose payload is not trimmed, a search is right if what it finds is a
reading and no reading has a longer payload. -/
theorem of_lengths (htitle : kind ≠ .title) (hcentered : kind ≠ .centered)
    (hsound : ∀ found, result = some found → ∃ rank, Reading atStart text kind found rank)
    (hmost : ∀ payload lexeme rest rank, Form kind payload lexeme rank →
      text = lexeme ++ rest → kind.Placed atStart rest →
        ∃ found, result = some found ∧ payload.lengths ≤ found.payload.lengths) :
    Decides atStart text kind result := by
  cases result with
  | none =>
      apply Decides.missing
      intro hoccurs
      obtain ⟨other, rank, hread⟩ := hoccurs
      obtain ⟨_, hfound, -⟩ := hmost _ _ _ _ hread.form hread.splits hread.placed
      simp at hfound
  | some found =>
      obtain ⟨rank, hread⟩ := hsound found rfl
      refine .found ⟨rank, hread, fun other rank' hother => ?_⟩
      obtain ⟨_, hfound, hle⟩ := hmost _ _ _ _ hother.form hother.splits hother.placed
      obtain rfl := Option.some.inj hfound
      rw [hread.form.rank_eq htitle hcentered, hother.form.rank_eq htitle hcentered]
      exact hle

theorem eq_some_iff (h : Decides atStart text kind result) :
    result = some found ↔ Preferred atStart text kind found := by
  cases h with
  | found hbest =>
      constructor
      · intro heq
        exact Option.some.inj heq ▸ hbest
      · intro hfound
        rw [hbest.unique hfound]
  | missing hnone =>
      constructor
      · intro heq
        simp at heq
      · intro hfound
        exact absurd hfound.occurs hnone

theorem eq_none_iff (h : Decides atStart text kind result) :
    result = none ↔ ¬ Occurs atStart text kind := by
  cases h with
  | found hbest => simp [hbest.occurs]
  | missing hnone => simp [hnone]

theorem isSome_iff (h : Decides atStart text kind result) :
    result.isSome ↔ Occurs atStart text kind := by
  cases h with
  | found hbest => simp [hbest.occurs]
  | missing hnone => simp [hnone]

end Decides

/-- Where a link can be read, one whose text is at least as long is found and, if its
text is the same, one whose address is at least as long. -/
theorem exists_link? {label url : Text} (hlabel : OnLine label) (hurl : OnLine url)
    (rest : Text) :
    ∃ found, link? ("[".toList ++ label ++ "](".toList ++ url ++ ")".toList ++ rest) =
      some found ∧ (Payload.link label url).lengths ≤ found.payload.lengths := by
  -- Any link at all gives a stretch before a ")", so the longest such stretch starts with it.
  have hpair : OnLine (label ++ "](".toList ++ url) :=
    ⟨by simp, by simp [hlabel.no_feed, hurl.no_feed]⟩
  obtain ⟨inner, behind, hinner, later, hlater⟩ :=
    exists_longest? (after? ")".toList) hpair (after?_append ")".toList rest)
  have hmark : (after? "](".toList ("](".toList ++ (url ++ later))).filter (· ≠ []) =
      some (url ++ later) := by
    rw [after?_append, Option.filter_some, if_pos]
    simp [hurl.ne_nil]
  obtain ⟨longer, address, hlonger, hfront⟩ := exists_longest?
    (fun text => (after? "](".toList text).filter (· ≠ [])) hlabel hmark
  have hlink : link? ("[".toList ++ label ++ "](".toList ++ url ++ ")".toList ++ rest) =
      some ⟨"[".toList ++ longer ++ "](".toList ++ address ++ ")".toList,
        .link longer address, behind⟩ := by
    simp only [List.append_assoc] at hinner hlater hlonger ⊢
    rw [hlater] at hlonger
    simp only [link?, Option.bind_eq_bind, after?_append, Option.bind_some, hinner, hlonger]
    simp
  refine ⟨_, hlink, ?_⟩
  obtain ⟨-, middle, hsame, hmiddle⟩ := longest?_onLine hlonger
  obtain ⟨hmiddle, -⟩ := Option.filter_eq_some_iff.mp hmiddle
  rw [Text.after?_eq_some_iff] at hmiddle
  obtain ⟨extra, rfl⟩ := hfront
  simp only [Payload.lengths, Prod.Lex.toLex_le_toLex, List.length_append]
  cases extra with
  | nil =>
      -- With the text of the link, its address is the rest of the stretch before the last ")".
      right
      simp only [List.append_nil, hmiddle, List.append_cancel_left_eq] at hsame
      simp [← hsame]
  | cons c extra =>
      left
      simp

theorem link?_decides : Decides atStart text .link (link? text) := by
  apply Decides.of_lengths (by simp) (by simp)
  · intro found h
    simp only [link?, Option.bind_eq_bind, Option.bind_eq_some_iff, Option.pure_def,
      Option.some.injEq, Prod.exists] at h
    obtain ⟨behind, hopen, inner, rest, hlong, label, url, hshort, rfl⟩ := h
    obtain ⟨hinner, close, rfl, hclose⟩ := longest?_onLine hlong
    obtain ⟨hlabel, middle, rfl, hmiddle⟩ := longest?_onLine hshort
    obtain ⟨hmiddle, hne⟩ := Option.filter_eq_some_iff.mp hmiddle
    rw [Text.after?_eq_some_iff] at hopen hclose hmiddle
    have hurl : OnLine url := by
      refine ⟨by simpa using hne, fun hfeed => hinner.no_feed ?_⟩
      simp [hmiddle, hfeed]
    exact ⟨_, .link hlabel hurl, by simp [hopen, hclose, hmiddle], trivial⟩
  · intro payload lexeme rest rank hform htext _
    subst htext
    cases hform with
    | @link label url hlabel hurl =>
        obtain ⟨found, hfound, hle⟩ := exists_link? hlabel hurl rest
        exact ⟨found, hfound, hle⟩

theorem bold?_decides : Decides atStart text .bold (bold? text) := by
  apply Decides.of_lengths (by simp) (by simp)
  · intro found h
    simp only [bold?, Option.bind_eq_bind, Option.bind_eq_some_iff, Option.pure_def,
      Option.some.injEq, Prod.exists] at h
    obtain ⟨inner, hopen, data, rest, hlong, rfl⟩ := h
    obtain ⟨hdata, tail, rfl, hclose⟩ := longest?_onLine hlong
    rw [Text.after?_eq_some_iff] at hopen hclose
    exact ⟨_, .bold hdata, by simp [hopen, hclose], trivial⟩
  · intro payload lexeme rest rank hform htext _
    subst htext
    cases hform with
    | @bold data hdata =>
        obtain ⟨longer, behind, hlonger, hfront⟩ :=
          exists_longest? (after? "**".toList) hdata (after?_append "**".toList rest)
        refine ⟨⟨"**".toList ++ longer ++ "**".toList, .plain longer, behind⟩, ?_, ?_⟩
        · rw [List.append_assoc, List.append_assoc]
          simp only [bold?, Option.bind_eq_bind, after?_append, Option.bind_some, hlonger]
          simp
        · exact Payload.lengths_plain_le_iff.mpr hfront.length_le

/-- The search of the rules whose payload ends at the first character of the mark behind
it: at most one reading is there to be found. -/
theorem Decides.of_marked (opening closing : Text) {mark : Char}
    (hclosing : closing.head? = some mark) (htitle : kind ≠ .title)
    (hcentered : kind ≠ .centered) (hplaced : ∀ rest, kind.Placed atStart rest)
    (hform : ∀ {payload lexeme rank}, Form kind payload lexeme rank ↔ ∃ data, data ≠ [] ∧
      mark ∉ data ∧ lexeme = opening ++ data ++ closing ∧ payload = .plain data ∧
        rank = toLex (data.length, 0)) :
    Decides atStart text kind
      ((after? opening text).bind fun text =>
        (run? (· ≠ mark) text).bind fun (data, text) =>
          (after? closing text).bind fun rest =>
            some ⟨opening ++ data ++ closing, .plain data, rest⟩) := by
  apply Decides.of_lengths htitle hcentered
  · intro found h
    simp only [Option.bind_eq_some_iff, Prod.exists, Text.after?_eq_some_iff] at h
    obtain ⟨inner, rfl, data, tail, hrun, rest, rfl, hfound⟩ := h
    obtain rfl := Option.some.inj hfound
    obtain ⟨hne, hclass, rfl⟩ := run?_sound hrun
    have hmark : mark ∉ data := fun hmem => by simpa using hclass mark hmem
    exact ⟨_, hform.mpr ⟨data, hne, hmark, rfl, rfl, rfl⟩, by simp, hplaced _⟩
  · intro payload lexeme rest rank hread htext _
    subst htext
    obtain ⟨data, hne, hmark, rfl, rfl, -⟩ := hform.mp hread
    refine ⟨⟨opening ++ data ++ closing, .plain data, rest⟩, ?_, le_rfl⟩
    have hrun : run? (· ≠ mark) (data ++ (closing ++ rest)) = some (data, closing ++ rest) := by
      refine run?_append hne (fun c hc => ?_) (fun c hc => ?_)
      · simpa using fun heq : c = mark => hmark (heq ▸ hc)
      · rw [List.head?_append, hclosing] at hc
        simp [← Option.some.inj hc]
    rw [List.append_assoc, List.append_assoc, after?_append, Option.bind_some, hrun,
      Option.bind_some]
    dsimp only
    rw [after?_append, Option.bind_some]

theorem qr?_decides : Decides atStart text .qr (qr? text) :=
  .of_marked "||qr:".toList "||".toList (by simp) (by simp) (by simp) (fun _ => trivial)
    Form.qr_iff

theorem underline?_decides : Decides atStart text .underline (underline? text) :=
  .of_marked "__".toList "__".toList (by simp) (by simp) (by simp) (fun _ => trivial)
    Form.underline_iff

theorem newline?_decides : Decides atStart text .newline (newline? text) := by
  apply Decides.of_lengths (by simp) (by simp)
  · intro found h
    unfold newline? at h
    split at h
    next rest hfeed =>
        obtain rfl := Option.some.inj h
        exact ⟨_, .lineFeed, Text.after?_eq_some_iff.mp hfeed, trivial⟩
    next =>
        obtain ⟨rest, hbreak, rfl⟩ := Option.map_eq_some_iff.mp h
        exact ⟨_, .carriageReturn, Text.after?_eq_some_iff.mp hbreak, trivial⟩
  · intro payload lexeme rest rank hform htext _
    subst htext
    cases hform with
    | lineFeed =>
        refine ⟨⟨"\n".toList, .nothing, rest⟩, ?_, le_rfl⟩
        rw [newline?, after?_append]
    | carriageReturn =>
        refine ⟨⟨"\r\n".toList, .nothing, rest⟩, ?_, le_rfl⟩
        rw [newline?, after?_append]
        rfl

theorem horizontalRule?_decides :
    Decides true text .horizontalRule (horizontalRule? text) := by
  apply Decides.of_lengths (by simp) (by simp)
  · intro found h
    rw [horizontalRule?] at h
    split at h
    next hdashes =>
        obtain rfl := Option.some.inj h
        have hform := @Form.horizontalRule text.length (List.length_pos_iff.mpr hdashes.1)
        rw [← List.eq_replicate_of_mem (by simpa using hdashes.2)] at hform
        exact ⟨_, hform, by simp, rfl, rfl⟩
    · simp at h
  · rintro payload lexeme rest rank hform rfl ⟨-, rfl⟩
    cases hform with
    | @horizontalRule width hwidth =>
        refine ⟨⟨List.replicate width '-', .nothing, []⟩, ?_, le_rfl⟩
        rw [List.append_nil, horizontalRule?, if_pos]
        simp
        omega

/-- The search of the rules that take runs of a class of characters. -/
theorem Decides.of_run {p : Char → Bool} (htitle : kind ≠ .title) (hcentered : kind ≠ .centered)
    (hplaced : ∀ rest, kind.Placed atStart rest)
    (hform : ∀ {payload lexeme rank}, Form kind payload lexeme rank ↔ lexeme ≠ [] ∧
      (∀ c ∈ lexeme, p c) ∧ payload = .plain lexeme ∧ rank = toLex (lexeme.length, 0)) :
    Decides atStart text kind ((run? p text).map fun (run, rest) => ⟨run, .plain run, rest⟩) := by
  apply Decides.of_lengths htitle hcentered
  · intro found h
    simp only [Option.map_eq_some_iff, Prod.exists] at h
    obtain ⟨run, rest, hrun, rfl⟩ := h
    obtain ⟨hne, hclass, hsplit⟩ := run?_sound hrun
    exact ⟨_, hform.mpr ⟨hne, hclass, rfl, rfl⟩, hsplit, hplaced _⟩
  · intro payload lexeme rest rank hread htext _
    subst htext
    obtain ⟨hne, hclass, rfl, -⟩ := hform.mp hread
    obtain ⟨longer, behind, hrun, hle⟩ := exists_run? rest hne hclass
    exact ⟨⟨longer, .plain longer, behind⟩, by rw [hrun]; rfl, hle⟩

theorem whitespace?_decides : Decides atStart text .whitespace (whitespace? text) :=
  .of_run (by simp) (by simp) (fun _ => trivial) Form.whitespace_iff

theorem word?_decides : Decides atStart text .word (word? text) :=
  .of_run (by simp) (by simp) (fun _ => trivial) Form.word_iff

theorem Reading.title_signs (h : Reading atStart text .title found rank) :
    ∃ signs title, 1 ≤ signs ∧ OnLine title ∧
      text.takeWhile (· ≠ '\n') = List.replicate signs '#' ++ title ∧
        rank = toLex (signs, 0) := by
  obtain ⟨lexeme, payload, rest⟩ := found
  obtain ⟨hform, rfl, hplaced⟩ := h
  have hline := (span_line hform.title_lexeme hplaced.2).1
  dsimp only at hform hline ⊢
  cases hform with
  | @title signs title hsigns htitle => exact ⟨signs, title, hsigns, htitle, hline, rfl⟩

/-- A title takes as many number signs as open its line, less one if nothing would be
left. -/
theorem le_signs {signs : ℕ} {title : Text} (htitle : OnLine title) :
    signs ≤ min ((List.replicate signs '#' ++ title).takeWhile (· = '#')).length
      ((List.replicate signs '#' ++ title).length - 1) := by
  have hpos := List.length_pos_iff.mpr htitle.ne_nil
  rw [List.takeWhile_append_of_pos (by simp)]
  simp only [List.length_append, List.length_replicate]
  omega

theorem replicate_append_drop {c : Char} {count : ℕ} {line : Text}
    (hcount : count ≤ (line.takeWhile (· = c)).length) :
    List.replicate count c ++ line.drop count = line := by
  have hfront : line.take count <+: line.takeWhile (· = c) :=
    List.prefix_of_prefix_length_le (List.take_prefix _ _) (List.takeWhile_prefix _)
      (by simp only [List.length_take]; omega)
  have htake : line.take count = List.replicate count c := by
    refine List.eq_replicate_iff.mpr ⟨?_, fun d hd => ?_⟩
    · rw [List.length_take]
      have := (List.takeWhile_prefix (· = c) (l := line)).length_le
      omega
    · simpa using List.mem_takeWhile_imp (hfront.subset hd)
  rw [← htake, List.take_append_drop]

/-- The line and the signs that the search for titles starts from. -/
theorem title?_reading {signs : ℕ} (hpos : 1 ≤ signs)
    (hsigns : signs ≤ ((text.takeWhile (· ≠ '\n')).takeWhile (· = '#')).length)
    (hroom : signs < (text.takeWhile (· ≠ '\n')).length) :
    Reading true text .title
      ⟨text.takeWhile (· ≠ '\n'), .plain (Text.trim ((text.takeWhile (· ≠ '\n')).drop signs)),
        text.dropWhile (· ≠ '\n')⟩
      (toLex (signs, 0)) := by
  have htitle : OnLine ((text.takeWhile (· ≠ '\n')).drop signs) := by
    refine ⟨by simpa using hroom, fun hfeed => ?_⟩
    simpa using List.mem_takeWhile_imp (List.mem_of_mem_drop hfeed)
  have hform := Form.title hpos htitle
  rw [replicate_append_drop hsigns] at hform
  refine ⟨hform, List.takeWhile_append_dropWhile.symm, rfl, fun c hc => ?_⟩
  simpa using head_dropWhile c hc

theorem title?_decides : Decides true text .title (title? text) := by
  rw [title?]
  split
  next hsigns =>
      apply Decides.missing
      intro hoccurs
      obtain ⟨found, rank, hread⟩ := hoccurs
      obtain ⟨signs, title, hpos, htitle, hline, -⟩ := hread.title_signs
      have hle := @le_signs signs title htitle
      rw [← hline, hsigns] at hle
      omega
  next hsigns =>
      refine .found ⟨_, title?_reading (by omega) (Nat.min_le_left _ _) (by omega), ?_⟩
      intro other rank hread
      obtain ⟨signs, title, -, htitle, hline, rfl⟩ := hread.title_signs
      have hle := @le_signs signs title htitle
      rw [← hline] at hle
      exact Prod.Lex.toLex_mono ⟨hle, le_rfl⟩

/-- A centred text behind its first colon, and what follows it. -/
def fenced (dashes : ℕ) (data rest : Text) : Text :=
  List.replicate dashes '-' ++ (data ++ (List.replicate dashes '-' ++ ":".toList ++ rest))

theorem Reading.centered_dashes (h : Reading atStart text .centered found rank) :
    ∃ dashes data rest, 1 ≤ dashes ∧ OnLine data ∧
      text = ":".toList ++ fenced dashes data rest ∧ rank = toLex (dashes, data.length) := by
  obtain ⟨lexeme, payload, rest⟩ := found
  obtain ⟨hform, rfl, -⟩ := h
  dsimp only at hform ⊢
  cases hform with
  | @centered dashes data hdashes hdata =>
      exact ⟨dashes, data, rest, hdashes, hdata, by simp [fenced], rfl⟩

/-- With its number of dashes fixed, a centred text is found wherever there is one. -/
theorem centeredBy?_ne_none {dashes : ℕ} {inner data rest : Text} (hdata : OnLine data)
    (hinner : inner = fenced dashes data rest) : centeredBy? dashes inner ≠ none := by
  obtain ⟨longer, behind, hlonger, -⟩ := exists_longest?
    (after? (List.replicate dashes '-' ++ ":".toList)) hdata (after?_append _ rest)
  simp only [hinner, centeredBy?, fenced, Option.bind_eq_bind, after?_append, Option.bind_some,
    hlonger]
  simp

/-- With its number of dashes fixed, a centred text is as long as possible. -/
theorem centeredBy?_reading {dashes : ℕ} {inner : Text} (hdashes : 1 ≤ dashes)
    (h : centeredBy? dashes inner = some found) :
    ∃ length, Reading atStart (":".toList ++ inner) .centered found (toLex (dashes, length)) ∧
      ∀ data rest, OnLine data → inner = fenced dashes data rest → data.length ≤ length := by
  simp only [centeredBy?, Option.bind_eq_bind, Option.bind_eq_some_iff, Option.pure_def,
    Option.some.injEq, Prod.exists] at h
  obtain ⟨behind, hopen, data, rest, hlong, rfl⟩ := h
  obtain ⟨hdata, tail, hbehind, hclose⟩ := longest?_onLine hlong
  rw [Text.after?_eq_some_iff] at hopen hclose
  refine ⟨data.length,
    ⟨.centered hdashes hdata, by simp [hopen, hbehind, hclose], trivial⟩, ?_⟩
  intro data' rest' hdata' hinner
  obtain rfl := List.append_cancel_left (hopen.symm.trans hinner)
  obtain ⟨longer, b, hlonger, hfront⟩ := exists_longest?
    (after? (List.replicate dashes '-' ++ ":".toList)) hdata' (after?_append _ rest')
  obtain ⟨rfl, -⟩ := Prod.mk.inj (Option.some.inj (hlong.symm.trans hlonger))
  exact hfront.length_le

/-- The search from many dashes to few ends at the largest number that goes. -/
theorem centeredUpTo?_eq_some {inner : Text} {limit : ℕ}
    (h : centeredUpTo? inner limit = some found) :
    ∃ dashes, 1 ≤ dashes ∧ centeredBy? dashes inner = some found ∧
      ∀ more, dashes < more → more ≤ limit → centeredBy? more inner = none := by
  induction limit with
  | zero => simp [centeredUpTo?] at h
  | succ limit ih =>
      rw [centeredUpTo?] at h
      cases hmost : centeredBy? (limit + 1) inner with
      | some first =>
          rw [hmost] at h
          exact ⟨limit + 1, by omega, hmost.trans h, fun more hmore hle => by omega⟩
      | none =>
          rw [hmost] at h
          obtain ⟨dashes, hpos, hfound, hnone⟩ := ih (by simpa using h)
          refine ⟨dashes, hpos, hfound, fun more hmore hle => ?_⟩
          obtain rfl | hlt := Nat.eq_or_lt_of_le hle
          · exact hmost
          · exact hnone more hmore (Nat.lt_succ_iff.mp hlt)

theorem centeredUpTo?_eq_none {inner : Text} {limit dashes : ℕ}
    (h : centeredUpTo? inner limit = none) (hpos : 1 ≤ dashes) (hle : dashes ≤ limit) :
    centeredBy? dashes inner = none := by
  induction limit with
  | zero => omega
  | succ limit ih =>
      rw [centeredUpTo?] at h
      obtain ⟨hmost, hfewer⟩ := Option.or_eq_none_iff.mp (Option.orElse_eq_or.symm.trans h)
      obtain rfl | hlt := Nat.eq_or_lt_of_le hle
      · exact hmost
      · exact ih hfewer (Nat.lt_succ_iff.mp hlt)

/-- No number of dashes is left out by the bound from which the search starts. -/
theorem dashes_le_bound {dashes : ℕ} {inner data rest : Text} (hdata : OnLine data)
    (hinner : inner = fenced dashes data rest) :
    dashes ≤ min (inner.takeWhile (· = '-')).length (closingDashes 0 0 inner) := by
  refine Nat.le_min.mpr ⟨?_, ?_⟩
  · rw [hinner, fenced, List.takeWhile_append_of_pos (by simp)]
    simp
  · by_contra hlt
    exact centeredBy?_ne_none hdata hinner (centeredBy?_eq_none (Nat.lt_of_not_le hlt))

theorem centered?_decides : Decides atStart text .centered (centered? text) := by
  rw [centered?]
  cases hopen : after? ":".toList text with
  | none =>
      apply Decides.missing
      intro hoccurs
      obtain ⟨found, rank, hread⟩ := hoccurs
      obtain ⟨_, _, _, -, -, htext, -⟩ := hread.centered_dashes
      rw [htext, after?_append] at hopen
      simp at hopen
  | some inner =>
      obtain rfl := Text.after?_eq_some_iff.mp hopen
      dsimp only [Option.bind_eq_bind, Option.bind_some]
      cases hsearch : centeredUpTo? inner
          (min (inner.takeWhile (· = '-')).length (closingDashes 0 0 inner)) with
      | none =>
          apply Decides.missing
          intro hoccurs
          obtain ⟨found, rank, hread⟩ := hoccurs
          obtain ⟨dashes, data, rest, hpos, hdata, htext, -⟩ := hread.centered_dashes
          have hinner := List.append_cancel_left htext
          have hnone := centeredUpTo?_eq_none hsearch hpos (dashes_le_bound hdata hinner)
          exact centeredBy?_ne_none hdata hinner hnone
      | some found =>
          -- Fewer dashes rank lower; with as many, the length of the text decides.
          obtain ⟨dashes, hpos, hfound, hnone⟩ := centeredUpTo?_eq_some hsearch
          obtain ⟨length, hread, hlongest⟩ := centeredBy?_reading hpos hfound
          refine .found ⟨_, hread, ?_⟩
          intro other rank hother
          obtain ⟨dashes', data, rest, -, hdata, htext, rfl⟩ := hother.centered_dashes
          have hinner := List.append_cancel_left htext
          rw [Prod.Lex.toLex_le_toLex]
          rcases Nat.lt_trichotomy dashes' dashes with hlt | rfl | hgt
          · exact .inl hlt
          · exact .inr ⟨rfl, hlongest data rest hdata hinner⟩
          · -- More dashes were tried before and would have been found.
            have hmiss := hnone dashes' hgt (dashes_le_bound hdata hinner)
            exact absurd hmiss (centeredBy?_ne_none hdata hinner)

/-- What a rule finds at a place: nothing where it is not tried. -/
def Rule.attempt? (atStart : Bool) (text : Text) (rule : Rule) : Option Match :=
  if atStart || !rule.onlyAtStart then rule.match? text else none

theorem not_occurs_title : ¬ Occurs false text .title := by
  intro hoccurs
  obtain ⟨found, rank, hread⟩ := hoccurs
  exact absurd hread.placed.1 Bool.false_ne_true

theorem not_occurs_horizontalRule : ¬ Occurs false text .horizontalRule := by
  intro hoccurs
  obtain ⟨found, rank, hread⟩ := hoccurs
  exact absurd hread.placed.1 Bool.false_ne_true

/-- Every rule finds the preferred reading of its kind, or nothing where there is no
reading of its kind. -/
theorem Rule.attempt?_decides {rule : Rule} (hrule : rule ∈ rules) :
    Decides atStart text rule.kind (rule.attempt? atStart text) := by
  simp only [rules, List.mem_cons, List.not_mem_nil, or_false] at hrule
  rcases hrule with rfl | rfl | rfl | rfl | rfl | rfl | rfl | rfl | rfl | rfl
  · simpa [attempt?] using link?_decides
  · simpa [attempt?] using qr?_decides
  · simpa [attempt?] using bold?_decides
  · simpa [attempt?] using underline?_decides
  · simpa [attempt?] using newline?_decides
  · cases atStart with
    | true => exact title?_decides
    | false => exact .missing not_occurs_title
  · cases atStart with
    | true => exact horizontalRule?_decides
    | false => exact .missing not_occurs_horizontalRule
  · simpa [attempt?] using centered?_decides
  · simpa [attempt?] using whitespace?_decides
  · simpa [attempt?] using word?_decides

theorem map_kind_rules : rules.map Rule.kind = Kind.declared := rfl

theorem firstMatch?_eq_findSome? :
    firstMatch? atStart text = rules.findSome? fun rule =>
      (rule.attempt? atStart text).map fun found => (rule.kind, found) := by
  -- A rule that is left out before the search is one whose attempt fails.
  rw [firstMatch?]
  induction rules with
  | nil => rfl
  | cons rule later ih =>
      rw [List.filter_cons, List.findSome?_cons, Rule.attempt?]
      split
      next => rw [List.findSome?_cons, ih]
      next => rw [ih, Option.map_none]

theorem firstMatch?_eq_none_iff :
    firstMatch? atStart text = none ↔
      ∀ kind ∈ Kind.declared, ¬ Occurs atStart text kind := by
  rw [firstMatch?_eq_findSome?, List.findSome?_eq_none_iff, ← map_kind_rules,
    List.forall_mem_map]
  apply forall₂_congr
  intro rule hrule
  rw [Option.map_eq_none_iff]
  exact (Rule.attempt?_decides hrule).eq_none_iff

/-- The first rule that finds something finds the preferred reading of the first declared
kind that can be read. -/
theorem firstMatch?_eq_some_iff :
    firstMatch? atStart text = some (kind, found) ↔ FirstDeclared atStart text kind found := by
  rw [firstMatch?_eq_findSome?, List.findSome?_eq_some_iff]
  constructor
  · intro h
    obtain ⟨earlier, rule, later, hrules, hfound, hnone⟩ := h
    have hrule : rule ∈ rules := by simp [hrules]
    obtain ⟨_, hattempt, heq⟩ := Option.map_eq_some_iff.mp hfound
    obtain ⟨rfl, rfl⟩ := Prod.mk.inj heq
    refine ⟨earlier.map Rule.kind, later.map Rule.kind, ?_, ?_, ?_⟩
    · rw [← map_kind_rules, hrules, List.map_append, List.map_cons]
    · rw [List.forall_mem_map]
      intro other hother
      have hmem : other ∈ rules := by simp [hrules, hother]
      rw [← (Rule.attempt?_decides hmem).eq_none_iff]
      exact Option.map_eq_none_iff.mp (hnone other hother)
    · exact (Rule.attempt?_decides hrule).eq_some_iff.mp hattempt
  · intro h
    obtain ⟨earlier, later, hdeclared, hnone, hbest⟩ := h
    rw [← map_kind_rules, List.map_eq_append_iff] at hdeclared
    obtain ⟨first, behind, hrules, rfl, hbehind⟩ := hdeclared
    obtain ⟨rule, second, rfl, rfl, rfl⟩ := List.map_eq_cons_iff.mp hbehind
    have hrule : rule ∈ rules := by simp [hrules]
    refine ⟨first, rule, second, hrules, ?_, ?_⟩
    · rw [(Rule.attempt?_decides hrule).eq_some_iff.mpr hbest]
      rfl
    · intro other hother
      have hmem : other ∈ rules := by simp [hrules, hother]
      rw [Option.map_eq_none_iff, (Rule.attempt?_decides hmem).eq_none_iff]
      exact hnone _ (List.mem_map_of_mem hother)

/-- Underlining is declared before words, though a word would be longer here. -/
example : firstMatch? true "__a__b".toList =
    some (.underline, ⟨"__a__".toList, .plain "a".toList, "b".toList⟩) := by
  decide +kernel

end ReceiptNotes.Markup
