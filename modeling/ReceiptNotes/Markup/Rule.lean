import ReceiptNotes.Markup.Pattern
import ReceiptNotes.Markup.Token
import ReceiptNotes.Text.Blank

/-! # The markup rules

Ten rules say how a line is cut into tokens. A rule either takes a stretch off
the front of a text or does not match there; two rules match only at the start of
the line. The rules are ordered, and the first one that matches wins, even where
a later one would take more. Whatever a rule takes is not empty and, put back in
front of the remainder, gives the text again (`Rule.match?_splits`).
-/

namespace ReceiptNotes.Markup

open Text (after? run? run?_eq trim isBlank)

/-- What a rule takes off the front of a text. -/
structure Match where
  lexeme : Text
  payload : Payload
  rest : Text
  deriving DecidableEq, Repr

/-- A link `[text](url)`. Both parts stay on the line; the text is as long as
possible, and the address then too. So the link ends at the last parenthesis of the
line, and its parts are divided at the last mark that leaves an address. -/
def link? (text : Text) : Option Match := do
  let text ← after? "[".toList text
  let (inner, rest) ← longest? (after? ")".toList) text
  let (label, url) ← longest? (fun text => (after? "](".toList text).filter (· ≠ [])) inner
  return ⟨"[".toList ++ label ++ "](".toList ++ url ++ ")".toList, .link label url, rest⟩

/-- A QR code `||qr:payload||`. The payload runs to the next bar, over line breaks
too. -/
def qr? (text : Text) : Option Match := do
  let text ← after? "||qr:".toList text
  let (data, text) ← run? (· ≠ '|') text
  let rest ← after? "||".toList text
  return ⟨"||qr:".toList ++ data ++ "||".toList, .plain data, rest⟩

/-- Bold text `**text**`, as long as possible on the line. -/
def bold? (text : Text) : Option Match := do
  let text ← after? "**".toList text
  let (data, rest) ← longest? (after? "**".toList) text
  return ⟨"**".toList ++ data ++ "**".toList, .plain data, rest⟩

/-- Underlined text `__text__`. It runs to the next underscore, over line breaks
too. -/
def underline? (text : Text) : Option Match := do
  let text ← after? "__".toList text
  let (data, text) ← run? (· ≠ '_') text
  let rest ← after? "__".toList text
  return ⟨"__".toList ++ data ++ "__".toList, .plain data, rest⟩

/-- A line break: a line feed, or a carriage return and a line feed. -/
def newline? (text : Text) : Option Match :=
  match after? "\n".toList text with
  | some rest => some ⟨"\n".toList, .nothing, rest⟩
  | none => (after? "\r\n".toList text).map fun rest => ⟨"\r\n".toList, .nothing, rest⟩

/-- A title: number signs and then the rest of the line. All leading number signs
belong to the mark, but one is left for the title if there is nothing else. -/
def title? (text : Text) : Option Match :=
  let line := text.takeWhile (· ≠ '\n')
  let signs := min (line.takeWhile (· = '#')).length (line.length - 1)
  if signs = 0 then none
  else some ⟨line, .plain (trim (line.drop signs)), text.dropWhile (· ≠ '\n')⟩

/-- A horizontal rule: dashes and nothing else to the end of the input. -/
def horizontalRule? (text : Text) : Option Match :=
  if text ≠ [] ∧ text.all (· = '-') then some ⟨text, .nothing, []⟩ else none

/-- Centred text between `dashes` dashes and a colon on either side, the opening
colon taken off already. The text is as long as possible on the line. -/
def centeredBy? (dashes : Nat) (text : Text) : Option Match := do
  let fence := List.replicate dashes '-'
  let text ← after? fence text
  let (data, rest) ← longest? (after? (fence ++ ":".toList)) text
  return ⟨":".toList ++ fence ++ data ++ fence ++ ":".toList, .plain (trim data), rest⟩

/-- The match of `centeredBy?` with the largest number of dashes up to `dashes`. -/
def centeredUpTo? (text : Text) : (dashes : Nat) → Option Match
  | 0 => none
  | dashes + 1 => centeredBy? (dashes + 1) text <|> centeredUpTo? text dashes

/-- How many dashes before a colon of the line can have a partner at its start with
a character between them: the most that any colon has. Of the line, `length`
characters have been passed, the last `trail` of them dashes. -/
def closingDashes (length trail : Nat) : Text → Nat
  | [] => 0
  | c :: text =>
      if c = '\n' then 0
      else
        max (if c = ':' then min trail ((length - 1) / 2) else 0)
          (closingDashes (length + 1) (if c = '-' then trail + 1 else 0) text)

/-- Centred text `:-- text --:` with equally many dashes on both sides: as many as
possible, so dashes that have no partner belong to the text. The search starts at
the number of dashes that open the line or can close it, whichever is less; more are
never found (`centeredBy?_eq_none`). -/
def centered? (text : Text) : Option Match := do
  let text ← after? ":".toList text
  centeredUpTo? text (min (text.takeWhile (· = '-')).length (closingDashes 0 0 text))

/-- A run of blank characters, line breaks among them. -/
def whitespace? (text : Text) : Option Match :=
  (run? isBlank text).map fun (blanks, rest) => ⟨blanks, .plain blanks, rest⟩

/-- Words consist of the letters and digits of ASCII and the underscore. -/
def isWordChar (c : Char) : Bool :=
  c.isAlphanum || c = '_'

def word? (text : Text) : Option Match :=
  (run? isWordChar text).map fun (word, rest) => ⟨word, .plain word, rest⟩

structure Rule where
  kind : Kind
  /-- The rule is tried at the start of the line only. -/
  onlyAtStart : Bool
  match? : Text → Option Match

def rules : List Rule := [
  ⟨.link, false, link?⟩,
  ⟨.qr, false, qr?⟩,
  ⟨.bold, false, bold?⟩,
  ⟨.underline, false, underline?⟩,
  ⟨.newline, false, newline?⟩,
  ⟨.title, true, title?⟩,
  ⟨.horizontalRule, true, horizontalRule?⟩,
  ⟨.centered, false, centered?⟩,
  ⟨.whitespace, false, whitespace?⟩,
  ⟨.word, false, word?⟩]

/-- The kind and the match of the first rule that matches. -/
def firstMatch? (atStart : Bool) (text : Text) : Option (Kind × Match) :=
  (rules.filter fun rule => atStart || !rule.onlyAtStart).findSome? fun rule =>
    (rule.match? text).map fun found => (rule.kind, found)

/-- A match that splits `text` after a non-empty stretch. -/
def Match.Splits (found : Match) (text : Text) : Prop :=
  text = found.lexeme ++ found.rest ∧ found.lexeme ≠ []

section

variable {text : Text} {found : Match}

theorem link?_splits (h : link? text = some found) : found.Splits text := by
  simp only [link?, Option.bind_eq_bind, Option.bind_eq_some_iff, Option.pure_def,
    Option.some.injEq, Prod.exists] at h
  obtain ⟨behind, hopen, inner, rest, hlong, label, url, hlabel, rfl⟩ := h
  obtain ⟨-, -, close, rfl, hclose⟩ := longest?_eq hlong
  obtain ⟨-, -, middle, rfl, hmiddle⟩ := longest?_eq hlabel
  obtain ⟨hurl, -⟩ := Option.filter_eq_some_iff.mp hmiddle
  rw [Text.after?_eq_some_iff] at hopen hclose hurl
  simp [Match.Splits, hopen, hclose, hurl]

theorem qr?_splits (h : qr? text = some found) : found.Splits text := by
  simp only [qr?, Option.bind_eq_bind, Option.bind_eq_some_iff, Option.pure_def,
    Option.some.injEq, Prod.exists] at h
  obtain ⟨inner, hopen, data, tail, hrun, rest, hclose, rfl⟩ := h
  obtain ⟨-, hsplit, -, -⟩ := run?_eq hrun
  rw [Text.after?_eq_some_iff] at hopen hclose
  simp [Match.Splits, hopen, hsplit, hclose]

theorem bold?_splits (h : bold? text = some found) : found.Splits text := by
  simp only [bold?, Option.bind_eq_bind, Option.bind_eq_some_iff, Option.pure_def,
    Option.some.injEq, Prod.exists] at h
  obtain ⟨inner, hopen, data, rest, hlong, rfl⟩ := h
  obtain ⟨-, -, tail, rfl, hclose⟩ := longest?_eq hlong
  rw [Text.after?_eq_some_iff] at hopen hclose
  simp [Match.Splits, hopen, hclose]

theorem underline?_splits (h : underline? text = some found) : found.Splits text := by
  simp only [underline?, Option.bind_eq_bind, Option.bind_eq_some_iff, Option.pure_def,
    Option.some.injEq, Prod.exists] at h
  obtain ⟨inner, hopen, data, tail, hrun, rest, hclose, rfl⟩ := h
  obtain ⟨-, hsplit, -, -⟩ := run?_eq hrun
  rw [Text.after?_eq_some_iff] at hopen hclose
  simp [Match.Splits, hopen, hsplit, hclose]

theorem newline?_splits (h : newline? text = some found) : found.Splits text := by
  unfold newline? at h
  split at h
  next rest hfeed =>
      obtain rfl := Option.some.inj h
      exact ⟨Text.after?_eq_some_iff.mp hfeed, by simp⟩
  next =>
      obtain ⟨rest, hbreak, rfl⟩ := Option.map_eq_some_iff.mp h
      exact ⟨Text.after?_eq_some_iff.mp hbreak, by simp⟩

theorem title?_splits (h : title? text = some found) : found.Splits text := by
  simp only [title?] at h
  split at h
  · simp at h
  next hsigns =>
      obtain rfl := Option.some.inj h
      refine ⟨List.takeWhile_append_dropWhile.symm, fun hnil => hsigns ?_⟩
      dsimp only at hnil
      rw [hnil]
      rfl

theorem horizontalRule?_splits (h : horizontalRule? text = some found) :
    found.Splits text := by
  simp only [horizontalRule?] at h
  split at h
  next hdashes =>
      obtain rfl := Option.some.inj h
      exact ⟨by simp, hdashes.1⟩
  · simp at h

theorem centeredBy?_splits {dashes : Nat} (h : centeredBy? dashes text = some found) :
    found.Splits (':' :: text) := by
  simp only [centeredBy?, Option.bind_eq_bind, Option.bind_eq_some_iff, Option.pure_def,
    Option.some.injEq, Prod.exists] at h
  obtain ⟨inner, hopen, data, rest, hlong, rfl⟩ := h
  obtain ⟨-, -, tail, rfl, hclose⟩ := longest?_eq hlong
  rw [Text.after?_eq_some_iff] at hopen hclose
  simp [Match.Splits, hopen, hclose]

theorem le_closingDashes_replicate (length trail dashes : Nat) (rest : Text) :
    min (trail + dashes) ((length + dashes - 1) / 2) ≤
      closingDashes length trail (List.replicate dashes '-' ++ ':' :: rest) := by
  induction dashes generalizing length trail with
  | zero =>
      simp only [List.replicate_zero, List.nil_append, closingDashes]
      simp only [Char.reduceEq, if_false, if_true]
      omega
  | succ dashes ih =>
      have hlater := ih (length + 1) (trail + 1)
      simp only [List.replicate_succ, List.cons_append, closingDashes]
      simp only [Char.reduceEq, if_false, if_true, Nat.zero_max]
      omega

/-- Dashes before a colon are counted if as many and one more character have been
passed before them. -/
theorem le_closingDashes {length trail dashes : Nat} {before rest : Text}
    (hline : '\n' ∉ before) (hroom : dashes < length + before.length) :
    dashes ≤ closingDashes length trail
      (before ++ (List.replicate dashes '-' ++ ':' :: rest)) := by
  induction before generalizing length trail with
  | nil =>
      have hcounted := le_closingDashes_replicate length trail dashes rest
      simp only [List.length_nil] at hroom
      simp only [List.nil_append]
      omega
  | cons c before ih =>
      simp only [List.mem_cons, not_or] at hline
      simp only [List.length_cons] at hroom
      have hlater := @ih (length + 1) (if c = '-' then trail + 1 else 0) hline.2 (by omega)
      simp only [List.cons_append, closingDashes, if_neg (Ne.symm hline.1)]
      omega

theorem centeredBy?_eq_none {dashes : Nat} (h : closingDashes 0 0 text < dashes) :
    centeredBy? dashes text = none := by
  cases hfound : centeredBy? dashes text with
  | none => rfl
  | some found =>
      simp only [centeredBy?, Option.bind_eq_bind, Option.bind_eq_some_iff, Option.pure_def,
        Option.some.injEq, Prod.exists] at hfound
      obtain ⟨inner, hopen, data, rest, hlong, -⟩ := hfound
      obtain ⟨hne, hline, tail, rfl, hclose⟩ := longest?_eq hlong
      rw [Text.after?_eq_some_iff] at hopen hclose
      have hpos := List.length_pos_iff.mpr hne
      have hcounted := @le_closingDashes 0 0 dashes (List.replicate dashes '-' ++ data) rest
        (by simp [hline]) (by simp; omega)
      simp only [hopen, hclose] at h
      simp only [List.append_assoc] at h hcounted
      exact absurd h (Nat.not_lt.mpr hcounted)

theorem centeredUpTo?_splits {dashes : Nat} (h : centeredUpTo? text dashes = some found) :
    found.Splits (':' :: text) := by
  induction dashes with
  | zero => simp [centeredUpTo?] at h
  | succ dashes ih =>
      rw [centeredUpTo?] at h
      cases hmost : centeredBy? (dashes + 1) text with
      | some first =>
          rw [hmost] at h
          exact centeredBy?_splits (hmost.trans h)
      | none =>
          rw [hmost] at h
          exact ih (by simpa using h)

theorem centered?_splits (h : centered? text = some found) : found.Splits text := by
  simp only [centered?, Option.bind_eq_bind, Option.bind_eq_some_iff] at h
  obtain ⟨inner, hopen, hfound⟩ := h
  rw [Text.after?_eq_some_iff.mp hopen]
  exact centeredUpTo?_splits hfound

theorem whitespace?_splits (h : whitespace? text = some found) : found.Splits text := by
  simp only [whitespace?, Option.map_eq_some_iff, Prod.exists] at h
  obtain ⟨blanks, rest, hrun, rfl⟩ := h
  obtain ⟨hne, hsplit, -, -⟩ := run?_eq hrun
  exact ⟨hsplit, hne⟩

theorem word?_splits (h : word? text = some found) : found.Splits text := by
  simp only [word?, Option.map_eq_some_iff, Prod.exists] at h
  obtain ⟨word, rest, hrun, rfl⟩ := h
  obtain ⟨hne, hsplit, -, -⟩ := run?_eq hrun
  exact ⟨hsplit, hne⟩

/-- Every rule takes a non-empty stretch off the front of its text. -/
theorem Rule.match?_splits {rule : Rule} (hrule : rule ∈ rules)
    (h : rule.match? text = some found) : found.Splits text := by
  simp only [rules, List.mem_cons, List.not_mem_nil, or_false] at hrule
  rcases hrule with rfl | rfl | rfl | rfl | rfl | rfl | rfl | rfl | rfl | rfl
  · exact link?_splits h
  · exact qr?_splits h
  · exact bold?_splits h
  · exact underline?_splits h
  · exact newline?_splits h
  · exact title?_splits h
  · exact horizontalRule?_splits h
  · exact centered?_splits h
  · exact whitespace?_splits h
  · exact word?_splits h

theorem firstMatch?_splits {atStart : Bool} {kind : Kind}
    (h : firstMatch? atStart text = some (kind, found)) : found.Splits text := by
  obtain ⟨rule, hrule, hmatch⟩ := List.exists_of_findSome?_eq_some h
  simp only [Option.map_eq_some_iff, Prod.mk.injEq] at hmatch
  obtain ⟨other, hother, -, rfl⟩ := hmatch
  exact Rule.match?_splits (List.mem_filter.mp hrule).1 hother

end

end ReceiptNotes.Markup
