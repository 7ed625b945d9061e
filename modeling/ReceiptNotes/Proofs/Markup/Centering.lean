import ReceiptNotes.Proofs.Markup.Lossless

/-! # Centred text

A centred text stands between two colons, with equally many dashes on its side of either.
Dashes can belong to the fences or to the text, so one line can have many readings; the
search takes the longest fences, and between them the longest text. It can be done with
byte numbers alone (`centeredInBytes?`): every slice that it takes of the line is inside
the line and starts and ends between two characters (`centered?_longest_fences`).
-/

namespace ReceiptNotes

namespace Text

/-- A text up to a byte number and from there on. There is no cut inside a character or beyond
the end. -/
def cutAt? (position : ℕ) : Text → Option (Text × Text)
  | [] => if position = 0 then some ([], []) else none
  | c :: text =>
      if position = 0 then some ([], c :: text)
      else if c.utf8Size ≤ position then
        (cutAt? (position - c.utf8Size) text).map fun (front, rest) => (c :: front, rest)
      else none

/-- What a text has from one byte number up to another. There is no such slice if one of them is
inside a character or beyond the end, or if they are the wrong way round. -/
def slice? (text : Text) (start stop : ℕ) : Option Text :=
  (cutAt? stop text).bind fun (front, _) => (cutAt? start front).map Prod.snd

/-- The byte number at which the last occurrence of `mark` starts. -/
def lastAt? (mark : Text) : Text → Option ℕ
  | [] => if mark = [] then some 0 else none
  | c :: text =>
      match lastAt? mark text with
      | some position => some (c.utf8Size + position)
      | none => if mark <+: c :: text then some 0 else none

variable {text front rest slice mark before behind : Text} {position start stop : ℕ}

theorem cutAt?_append (front rest : Text) :
    cutAt? (byteLength front) (front ++ rest) = some (front, rest) := by
  induction front with
  | nil => cases rest <;> rfl
  | cons c front ih =>
      have hsize := c.utf8Size_pos
      rw [byteLength_cons, List.cons_append, cutAt?, if_neg (by omega), if_pos (by omega),
        Nat.add_sub_cancel_left, ih]
      rfl

theorem cutAt?_eq_some_iff :
    cutAt? position text = some (front, rest) ↔
      text = front ++ rest ∧ byteLength front = position := by
  constructor
  · intro h
    induction text generalizing position front with
    | nil =>
        rw [cutAt?] at h
        split at h
        next hposition =>
            obtain ⟨rfl, rfl⟩ := Prod.mk.inj (Option.some.inj h)
            exact ⟨rfl, hposition.symm⟩
        · contradiction
    | cons c text ih =>
        rw [cutAt?] at h
        split at h
        next hposition =>
            obtain ⟨rfl, rfl⟩ := Prod.mk.inj (Option.some.inj h)
            exact ⟨rfl, hposition.symm⟩
        split at h
        next hsize =>
            obtain ⟨⟨inner, behind⟩, hcut, hpair⟩ := Option.map_eq_some_iff.mp h
            obtain ⟨rfl, rfl⟩ := Prod.mk.inj hpair
            obtain ⟨rfl, hinner⟩ := ih hcut
            exact ⟨rfl, by rw [byteLength_cons, hinner, Nat.add_sub_cancel' hsize]⟩
        · contradiction
  · rintro ⟨rfl, rfl⟩
    exact cutAt?_append front rest

/-- The slices of a text are what stands in it between two of its characters. -/
theorem slice?_eq_some_iff :
    slice? text start stop = some slice ↔ StandsAt text slice start stop := by
  simp only [slice?, Option.bind_eq_some_iff, Option.map_eq_some_iff, Prod.exists,
    cutAt?_eq_some_iff]
  constructor
  · rintro ⟨front, behind, ⟨rfl, hstop⟩, before, _, ⟨rfl, hstart⟩, rfl⟩
    exact ⟨before, behind, rfl, hstart, hstop⟩
  · rintro ⟨before, behind, rfl, hstart, hstop⟩
    exact ⟨before ++ slice, behind, ⟨rfl, hstop⟩, before, slice, ⟨rfl, hstart⟩, rfl⟩

theorem exists_of_lastAt? (h : lastAt? mark text = some position) :
    ∃ before behind, text = before ++ (mark ++ behind) ∧ byteLength before = position := by
  induction text generalizing position with
  | nil =>
      rw [lastAt?] at h
      split at h
      next hmark =>
          obtain rfl := Option.some.inj h
          exact ⟨[], [], by rw [hmark]; rfl, rfl⟩
      · contradiction
  | cons c text ih =>
      rw [lastAt?] at h
      split at h
      next later hlater =>
          obtain rfl := Option.some.inj h
          obtain ⟨before, behind, rfl, rfl⟩ := ih hlater
          exact ⟨c :: before, behind, rfl, rfl⟩
      split at h
      next hmark =>
          obtain rfl := Option.some.inj h
          obtain ⟨behind, hbehind⟩ := hmark
          exact ⟨[], behind, hbehind.symm, rfl⟩
      · contradiction

/-- No occurrence starts behind the last one. -/
theorem exists_lastAt? (before behind : Text) :
    ∃ position, lastAt? mark (before ++ (mark ++ behind)) = some position ∧
      byteLength before ≤ position := by
  induction before with
  | nil =>
      rw [List.nil_append]
      cases htext : mark ++ behind with
      | nil => exact ⟨0, by rw [lastAt?, if_pos (List.append_eq_nil_iff.mp htext).1], le_rfl⟩
      | cons c text =>
          rw [lastAt?]
          split
          next later _ => exact ⟨_, rfl, Nat.zero_le _⟩
          next => exact ⟨0, if_pos ⟨behind, htext⟩, le_rfl⟩
  | cons c before ih =>
      obtain ⟨position, hlast, hle⟩ := ih
      exact ⟨c.utf8Size + position, by rw [List.cons_append, lastAt?, hlast],
        Nat.add_le_add_left hle _⟩

end Text

namespace Markup

open Text (after? after?_append byteLength lastAt? slice? trim)

/-- The dashes and the colon behind a centred text. -/
def closing (dashes : ℕ) : Text :=
  List.replicate dashes '-' ++ ":".toList

/-- A way to read the front of a text as centred text, and what is left behind it. -/
structure Centering (text : Text) (dashes : ℕ) (data rest : Text) : Prop where
  dashes_pos : 1 ≤ dashes
  onLine : OnLine data
  splits : text = ":".toList ++ List.replicate dashes '-' ++ data ++ closing dashes ++ rest

/-- What a search by byte numbers comes to: how many bytes are taken, and what they hold. -/
structure Measured where
  length : ℕ
  payload : Payload
  deriving DecidableEq, Repr

def Match.measured (found : Match) : Measured :=
  ⟨byteLength found.lexeme, found.payload⟩

/-- Centred text with a number of dashes on either side, behind its first colon and on a line
of `lineEnd` bytes. The search comes to nothing at all if it takes a slice that is none. -/
def centeredByInBytes? (inner : Text) (lineEnd dashes : ℕ) : Option (Option Measured) :=
  (slice? inner dashes lineEnd).bind fun body =>
    match lastAt? (closing dashes) body with
    | none => some none
    | some position =>
        if position = 0 then some none
        else (slice? body 0 position).map fun data =>
          some ⟨1 + dashes + position + byteLength (closing dashes), .plain (trim data)⟩

/-- The same with as many dashes as possible up to some number. -/
def centeredUpToInBytes? (inner : Text) (lineEnd : ℕ) : (dashes : ℕ) → Option (Option Measured)
  | 0 => some none
  | dashes + 1 =>
      (centeredByInBytes? inner lineEnd (dashes + 1)).bind fun
        | some found => some (some found)
        | none => centeredUpToInBytes? inner lineEnd dashes

/-- Centred text, searched for by byte numbers: from all dashes that follow the first colon down
to one, the text reaches up to the last closing on the line, unless that is at its start. -/
def centeredInBytes? (text : Text) : Option (Option Measured) :=
  match after? ":".toList text with
  | none => some none
  | some inner =>
      centeredUpToInBytes? inner (byteLength (inner.takeWhile (· ≠ '\n')))
        (inner.takeWhile (· = '-')).length

variable {atStart : Bool} {text inner body : Text} {found : Match} {rank : Rank}
  {dashes lineEnd : ℕ}

theorem reading_centered_iff :
    Reading atStart text .centered found rank ↔ ∃ dashes data,
      Centering text dashes data found.rest ∧
      found.lexeme = ":".toList ++ List.replicate dashes '-' ++ data ++ closing dashes ∧
      found.payload = .plain (trim data) ∧ rank = toLex (dashes, data.length) := by
  obtain ⟨lexeme, payload, rest⟩ := found
  constructor
  · rintro ⟨hform, rfl, -⟩
    dsimp only at hform ⊢
    cases hform with
    | @centered dashes data hdashes hdata =>
        have hlexeme : ":".toList ++ List.replicate dashes '-' ++ data ++
            List.replicate dashes '-' ++ ":".toList =
              ":".toList ++ List.replicate dashes '-' ++ data ++ closing dashes :=
          List.append_assoc _ _ _
        rw [hlexeme]
        exact ⟨dashes, data, ⟨hdashes, hdata, rfl⟩, rfl, rfl, rfl⟩
  · rintro ⟨dashes, data, ⟨hdashes, hdata, rfl⟩, hlexeme, hpayload, rfl⟩
    dsimp only at hlexeme hpayload
    have hform := Form.centered hdashes hdata
    rw [List.append_assoc _ (List.replicate dashes '-') ":".toList] at hform
    rw [hlexeme, hpayload]
    exact ⟨hform, rfl, trivial⟩

theorem centered?_isSome_iff :
    (centered? text).isSome ↔ ∃ dashes data rest, Centering text dashes data rest := by
  rw [(@centered?_decides true text).isSome_iff]
  constructor
  · rintro ⟨found, rank, hread⟩
    obtain ⟨dashes, data, hcentering, -⟩ := reading_centered_iff.mp hread
    exact ⟨dashes, data, found.rest, hcentering⟩
  · rintro ⟨dashes, data, rest, hcentering⟩
    exact ⟨⟨_, _, rest⟩, _, reading_centered_iff.mpr ⟨dashes, data, hcentering, rfl, rfl, rfl⟩⟩

/-- A reading with the longest fences and, among those with as many dashes, the longest text. -/
structure LongestCentering (text : Text) (dashes : ℕ) (data rest : Text) : Prop
    extends Centering text dashes data rest where
  most : ∀ more other rest', Centering text more other rest' → more ≤ dashes
  longest : ∀ other rest', Centering text dashes other rest' → other.length ≤ data.length

theorem centered?_eq_some_iff :
    centered? text = some found ↔ ∃ dashes data,
      LongestCentering text dashes data found.rest ∧
      found.lexeme = ":".toList ++ List.replicate dashes '-' ++ data ++ closing dashes ∧
      found.payload = .plain (trim data) := by
  rw [(@centered?_decides true text).eq_some_iff]
  constructor
  · rintro ⟨rank, hread, hmost⟩
    obtain ⟨dashes, data, hcentering, hlexeme, hpayload, rfl⟩ := reading_centered_iff.mp hread
    have hrank : ∀ {more other rest'}, Centering text more other rest' →
        more < dashes ∨ more = dashes ∧ other.length ≤ data.length := by
      intro more other rest' hother
      have hle := hmost ⟨_, _, rest'⟩ _
        (reading_centered_iff.mpr ⟨more, other, hother, rfl, rfl, rfl⟩)
      simpa [Prod.Lex.toLex_le_toLex] using hle
    refine ⟨dashes, data, ⟨hcentering, ?_, ?_⟩, hlexeme, hpayload⟩
    · intro more other rest' hother
      rcases hrank hother with hless | ⟨rfl, -⟩
      · exact hless.le
      · exact le_rfl
    · intro other rest' hother
      rcases hrank hother with hless | ⟨-, hle⟩
      · exact absurd hless (lt_irrefl _)
      · exact hle
  · rintro ⟨dashes, data, hlongest, hlexeme, hpayload⟩
    refine ⟨_, reading_centered_iff.mpr
      ⟨dashes, data, hlongest.toCentering, hlexeme, hpayload, rfl⟩, ?_⟩
    intro other rank hother
    obtain ⟨more, longer, hcentering, -, -, rfl⟩ := reading_centered_iff.mp hother
    rw [Prod.Lex.toLex_le_toLex]
    rcases (hlongest.most _ _ _ hcentering).lt_or_eq with hless | rfl
    · exact .inl hless
    · exact .inr ⟨rfl, hlongest.longest _ _ hcentering⟩

section LastOnLine

variable {mark later data rest : Text} {position : ℕ}

/-- What stands on a line and is followed by a mark without line feeds is followed by it on that
line. -/
theorem exists_mark_on_line (hmark : '\n' ∉ mark) (hbody : '\n' ∉ body)
    (hlater : ∀ c ∈ later.head?, c = '\n') (hdata : '\n' ∉ data)
    (h : body ++ later = data ++ (mark ++ rest)) : ∃ behind, body = data ++ (mark ++ behind) := by
  have hfront : ∀ c ∈ data ++ mark, c ≠ '\n' := by
    rintro c hc rfl
    simp [hmark, hdata] at hc
  refine ⟨rest.takeWhile (· ≠ '\n'), ?_⟩
  rw [← (span_line hbody hlater).1, h, ← List.append_assoc,
    List.takeWhile_append_of_pos (by simpa using hfront), List.append_assoc]

/-- The longest stretch of a line that is followed by a mark is followed by the last one. -/
theorem lastAt?_of_longest? (hmark : '\n' ∉ mark) (hbody : '\n' ∉ body)
    (hlater : ∀ c ∈ later.head?, c = '\n')
    (h : longest? (after? mark) (body ++ later) = some (data, rest)) :
    lastAt? mark body = some (byteLength data) ∧ slice? body 0 (byteLength data) = some data := by
  obtain ⟨hdata, tail, hsplit, hclose⟩ := longest?_onLine h
  rw [Text.after?_eq_some_iff] at hclose
  rw [hclose] at hsplit
  obtain ⟨behind, rfl⟩ := exists_mark_on_line hmark hbody hlater hdata.no_feed hsplit
  obtain ⟨position, hlast, hle⟩ := @Text.exists_lastAt? mark data behind
  obtain ⟨before, behind', hsplit', rfl⟩ := Text.exists_of_lastAt? hlast
  have hbefore : OnLine before := by
    refine ⟨?_, fun hfeed => hbody (by simp [hsplit', hfeed])⟩
    rintro rfl
    have hpos := Text.byteLength_pos hdata.ne_nil
    exact absurd hle (Nat.not_le.mpr hpos)
  -- The last occurrence bounds a stretch that the search would not pass over.
  obtain ⟨longer, _, hlonger, more, hmore⟩ :=
    exists_longest? (after? mark) hbefore (after?_append mark (behind' ++ later))
  rw [hsplit', List.append_assoc, List.append_assoc, hlonger] at h
  obtain ⟨rfl, -⟩ := Prod.mk.inj (Option.some.inj h)
  have hlength := congrArg byteLength hmore
  rw [Text.byteLength_append] at hlength
  refine ⟨?_, Text.slice?_eq_some_iff.mpr ⟨[], mark ++ behind, rfl, rfl, rfl⟩⟩
  rw [hlast]
  exact congrArg some (by omega)

/-- Where no stretch of a line is followed by a mark, one can only be at the very start. -/
theorem eq_zero_of_longest?_eq_none (hbody : '\n' ∉ body)
    (h : longest? (after? mark) (body ++ later) = none)
    (hlast : lastAt? mark body = some position) : position = 0 := by
  obtain ⟨before, behind, rfl, rfl⟩ := Text.exists_of_lastAt? hlast
  by_contra hpos
  have hbefore : OnLine before := by
    refine ⟨?_, fun hfeed => hbody (by simp [hfeed])⟩
    rintro rfl
    exact hpos rfl
  obtain ⟨_, _, hlonger, -⟩ :=
    exists_longest? (after? mark) hbefore (after?_append mark (behind ++ later))
  rw [List.append_assoc, List.append_assoc, hlonger] at h
  contradiction

end LastOnLine

@[simp]
theorem byteLength_replicate_dash (dashes : ℕ) :
    byteLength (List.replicate dashes '-') = dashes := by
  induction dashes with
  | zero => rfl
  | succ dashes ih =>
      rw [List.replicate_succ, Text.byteLength_cons, ih]
      exact Nat.add_comm 1 dashes

theorem feed_not_mem_closing (dashes : ℕ) : '\n' ∉ closing dashes := by
  simp [closing]

theorem centeredBy?_replicate_append (dashes : ℕ) (text : Text) :
    centeredBy? dashes (List.replicate dashes '-' ++ text) =
      (longest? (after? (closing dashes)) text).map fun (data, rest) =>
        ⟨":".toList ++ List.replicate dashes '-' ++ data ++ List.replicate dashes '-' ++ ":".toList,
          .plain (trim data), rest⟩ := by
  rw [Option.map_eq_bind]
  simp only [centeredBy?, Option.bind_eq_bind, after?_append, Option.bind_some]
  rfl

/-- With its dashes fixed, centred text is found by byte numbers as it is found else. -/
theorem centeredByInBytes?_eq {later : Text} (hbody : '\n' ∉ body)
    (hlater : ∀ c ∈ later.head?, c = '\n')
    (hinner : inner = List.replicate dashes '-' ++ (body ++ later)) :
    centeredByInBytes? inner (dashes + byteLength body) dashes =
      some ((centeredBy? dashes inner).map Match.measured) := by
  have hslice : slice? inner dashes (dashes + byteLength body) = some body := by
    refine Text.slice?_eq_some_iff.mpr ⟨List.replicate dashes '-', later, ?_, ?_, ?_⟩
    · rw [hinner, List.append_assoc]
    · simp
    · simp
  rw [centeredByInBytes?, hslice, Option.bind_some, hinner, centeredBy?_replicate_append]
  cases hlong : longest? (after? (closing dashes)) (body ++ later) with
  | none =>
      cases hlast : lastAt? (closing dashes) body with
      | none => rfl
      | some position => exact if_pos (eq_zero_of_longest?_eq_none hbody hlong hlast)
  | some pair =>
      obtain ⟨data, rest⟩ := pair
      obtain ⟨hlast, hdata⟩ := lastAt?_of_longest? (feed_not_mem_closing dashes) hbody hlater hlong
      have hpos := Text.byteLength_pos (longest?_onLine hlong).1.ne_nil
      have hcolon : byteLength ":".toList = 1 := by decide
      have hlength : byteLength (":".toList ++ List.replicate dashes '-' ++ data ++
          List.replicate dashes '-' ++ ":".toList) =
            1 + dashes + byteLength data + byteLength (closing dashes) := by
        simp only [closing, Text.byteLength_append, byteLength_replicate_dash, hcolon]
        omega
      simp only [hlast, hdata, if_neg (Nat.ne_of_gt hpos), Option.map_some, Match.measured, hlength]

/-- Behind some of the dashes that open a text, its first line goes on. -/
theorem exists_line_behind_dashes (hdashes : dashes ≤ (inner.takeWhile (· = '-')).length) :
    ∃ body later, '\n' ∉ body ∧ (∀ c ∈ later.head?, c = '\n') ∧
      inner = List.replicate dashes '-' ++ (body ++ later) ∧
      byteLength (inner.takeWhile (· ≠ '\n')) = dashes + byteLength body := by
  have hinner := replicate_append_drop hdashes
  generalize inner.drop dashes = behind at hinner
  have hsplit : behind.takeWhile (· ≠ '\n') ++ behind.dropWhile (· ≠ '\n') = behind :=
    List.takeWhile_append_dropWhile
  refine ⟨behind.takeWhile (· ≠ '\n'), behind.dropWhile (· ≠ '\n'), ?_, ?_, ?_, ?_⟩
  · intro hfeed
    simpa using List.mem_takeWhile_imp hfeed
  · intro c hc
    simpa using head_dropWhile c hc
  · rw [hsplit, hinner]
  · rw [← hinner, List.takeWhile_append_of_pos (by simp), Text.byteLength_append,
      byteLength_replicate_dash]

/-- So is the one with as many as possible of the dashes that follow the colon. -/
theorem centeredUpToInBytes?_eq (hdashes : dashes ≤ (inner.takeWhile (· = '-')).length) :
    centeredUpToInBytes? inner (byteLength (inner.takeWhile (· ≠ '\n'))) dashes =
      some ((centeredUpTo? inner dashes).map Match.measured) := by
  induction dashes with
  | zero => rfl
  | succ dashes ih =>
      obtain ⟨body, later, hbody, hlater, hinner, hline⟩ := exists_line_behind_dashes hdashes
      have hmost := centeredByInBytes?_eq hbody hlater hinner
      rw [← hline] at hmost
      rw [centeredUpToInBytes?, hmost, centeredUpTo?, Option.bind_some, Option.orElse_eq_orElse]
      cases centeredBy? (dashes + 1) inner with
      | some found => rfl
      | none => exact ih (Nat.le_of_succ_le hdashes)

/-- More dashes than can close a text on the line change nothing. -/
theorem centeredUpTo?_min_closingDashes (inner : Text) (limit : ℕ) :
    centeredUpTo? inner (min limit (closingDashes 0 0 inner)) = centeredUpTo? inner limit := by
  induction limit with
  | zero => rw [Nat.zero_min]
  | succ limit ih =>
      rcases Nat.lt_or_ge (closingDashes 0 0 inner) (limit + 1) with hlt | hle
      · rw [Nat.min_eq_right (Nat.le_of_lt_succ hlt)] at ih
        rw [Nat.min_eq_right hlt.le, ih, centeredUpTo?, centeredBy?_eq_none hlt]
        rfl
      · rw [Nat.min_eq_left hle]

theorem centeredInBytes?_eq (text : Text) :
    centeredInBytes? text = some ((centered? text).map Match.measured) := by
  rw [centeredInBytes?, centered?]
  cases after? ":".toList text with
  | none => rfl
  | some inner =>
      rw [Option.bind_eq_bind, Option.bind_some, centeredUpTo?_min_closingDashes]
      exact centeredUpToInBytes?_eq le_rfl

/-- Centred text is recognised wherever there is a reading of it. What is taken is the reading
with the longest fences and then the longest text, of which the blanks at its ends are left out.
A search by byte numbers, none of whose slices is missing, takes as many bytes and finds the
same. -/
theorem centered?_longest_fences (text : Text) :
    ((centered? text).isSome ↔ ∃ dashes data rest, Centering text dashes data rest) ∧
    (∀ found, centered? text = some found ↔ ∃ dashes data,
      LongestCentering text dashes data found.rest ∧
      found.lexeme = ":".toList ++ List.replicate dashes '-' ++ data ++ closing dashes ∧
      found.payload = .plain (trim data)) ∧
    centeredInBytes? text = some ((centered? text).map Match.measured) :=
  ⟨centered?_isSome_iff, fun _ => centered?_eq_some_iff, centeredInBytes?_eq text⟩

/-- Of three dashes only two have a partner behind the text, which has two bytes itself. -/
example : centeredInBytes? ":---é--:-".toList = some (some ⟨9, .plain "-é".toList⟩) := by
  decide

end Markup

end ReceiptNotes
