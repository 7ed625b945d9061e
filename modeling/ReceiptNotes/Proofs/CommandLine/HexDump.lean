import Mathlib.Data.List.Forall2
import ReceiptNotes.CommandLine.Run
import ReceiptNotes.Proofs.Text.Lines
import ReceiptNotes.Proofs.Text.Numeral
import ReceiptNotes.Text.Split

/-! # Hex dumps are read back

A row of a dump has three columns: the offset, the bytes in pairs of digits, and the bytes
as characters. The columns are cut at fixed places, so neither a short last row nor what
stands in the column of characters can be taken for digits. Reading the pairs of all rows
gives the bytes again (`HexDump.rows_read_back`).
-/

namespace ReceiptNotes.HexDump

/-! ## What a row shows -/

def IsUpperDigit (c : Char) : Prop :=
  c.isDigit ∨ ('A' ≤ c ∧ c ≤ 'F')

instance : DecidablePred IsUpperDigit := fun _ => inferInstanceAs (Decidable (_ ∨ _))

/-- A number in upper-case digits, with zeros in front if there are fewer than `width`. -/
structure IsNumeral (width n : ℕ) (numeral : Text) : Prop where
  digits : ∀ c ∈ numeral, IsUpperDigit c
  value : Text.hexValue? numeral = some n
  length : numeral.length = max width (Text.hexadecimal n).length

def IsPair (byte : UInt8) (pair : Text) : Prop :=
  pair.length = 2 ∧ IsNumeral 2 byte.toNat pair

/-- A column of fixed width with a pair of digits for each byte, single spaces between the
pairs and spaces behind them. -/
structure IsField (bytes : Bytes) (field : Text) : Prop where
  length : field.length = 47
  pairs : ∃ pairs blanks, field = [' '].intercalate pairs ++ List.replicate blanks ' ' ∧
    List.Forall₂ IsPair bytes pairs

/-- A byte is shown as itself if it is a space or a visible character, else as a point. -/
def ShownAs (byte : UInt8) (c : Char) : Prop :=
  if byte = 0x20 ∨ (0x21 ≤ byte ∧ byte ≤ 0x7E) then c.toNat = byte.toNat else c = '.'

def IsRow (offset : ℕ) (bytes : Bytes) (row : Text) : Prop :=
  ∃ numeral field column, row = numeral ++ "  ".toList ++ field ++ "  ".toList ++ column ∧
    IsNumeral 8 offset numeral ∧ IsField bytes field ∧ List.Forall₂ ShownAs bytes column

/-! ## Reading -/

/-- The bytes that pairs of digits stand for, whatever spaces are between them. -/
def readField? : Text → Option Bytes
  | [] => some []
  | ' ' :: rest => readField? rest
  | high :: low :: rest => do
      return UInt8.ofNat (← Text.hexValue? [high, low]) :: (← readField? rest)
  | [_] => none

/-- The bytes of a row: behind its offset and two spaces, in a column of fixed width. -/
def readRow? (row : Text) : Option Bytes :=
  readField? (((row.dropWhile (· ≠ ' ')).drop 2).take 47)

/-- A dump is its rows, each with a line break. -/
def dump (bytes : Bytes) : Text :=
  (rows bytes).flatMap (· ++ ['\n'])

def read? (dump : Text) : Option Bytes :=
  ((Text.lines dump).mapM readRow?).map List.flatten

/-! ## Numerals -/

variable {width offset n : ℕ} {numeral pair field line rest : Text} {byte : UInt8} {bytes : Bytes}

theorem IsUpperDigit.ne_space {c : Char} (h : IsUpperDigit c) : c ≠ ' ' := by
  rintro rfl
  exact absurd h (by decide)

theorem isNumeral_zeroPadded (width n : ℕ) :
    IsNumeral width n (Text.zeroPadded width (Text.upperHexadecimal n)) := by
  refine ⟨?_, Text.hexValue?_zeroPadded_upper width n, ?_⟩
  · intro c hc
    rcases List.mem_append.mp hc with hzero | hdigit
    · rw [List.eq_of_mem_replicate hzero]
      decide
    · obtain ⟨digit, hmem, rfl⟩ := List.mem_map.mp hdigit
      exact Text.forall_mem_toDigits (p := fun c => IsUpperDigit c.toUpper) (by decide)
        (by decide) n digit hmem
  · rw [Text.zeroPadded, List.length_leftpad, Text.upperHexadecimal, List.length_map]

theorem isPair_byteText (byte : UInt8) : IsPair byte (byteText byte) := by
  have hnumeral := isNumeral_zeroPadded 2 byte.toNat
  have hsize : byte.toNat < 0x100 := byte.toNat_lt
  have hshort : (Text.hexadecimal byte.toNat).length ≤ 2 :=
    (Text.length_hexadecimal_le_iff (by decide)).mpr (by omega)
  refine ⟨?_, hnumeral⟩
  rw [byteText, hnumeral.length]
  omega

theorem IsPair.exists_digits (h : IsPair byte pair) :
    ∃ high low, pair = [high, low] ∧ high ≠ ' ' ∧ Text.hexValue? [high, low] = some byte.toNat := by
  obtain ⟨hlength, hnumeral⟩ := h
  obtain ⟨high, low, rfl⟩ := List.length_eq_two.mp hlength
  exact ⟨high, low, rfl, (hnumeral.digits high (by simp)).ne_space, hnumeral.value⟩

/-! ## The column of digits -/

theorem length_intercalate_byteText (bytes : Bytes) :
    ([' '].intercalate (bytes.map byteText)).length = 3 * bytes.length - 1 := by
  induction bytes with
  | nil => rfl
  | cons byte bytes ih =>
      have hpair : (byteText byte).length = 2 := (isPair_byteText byte).1
      cases bytes with
      | nil => simpa using hpair
      | cons next bytes =>
          rw [List.map_cons, List.map_cons, List.intercalate_cons_cons, ← List.map_cons,
            List.length_append, List.length_append, ih, hpair]
          simp only [List.length_cons, List.length_nil]
          omega

theorem isField_padEnd (hbytes : bytes.length ≤ rowSize) :
    IsField bytes (Text.padEnd 47 ' ' ([' '].intercalate (bytes.map byteText))) := by
  rw [rowSize] at hbytes
  refine ⟨?_, bytes.map byteText, _, rfl, ?_⟩
  · rw [Text.padEnd, List.length_rightpad, length_intercalate_byteText]
    omega
  · rw [List.forall₂_map_right_iff]
    exact List.forall₂_same.mpr fun byte _ => isPair_byteText byte

theorem readField?_blanks (count : ℕ) : readField? (List.replicate count ' ') = some [] := by
  induction count with
  | zero => rfl
  | succ count ih => rwa [List.replicate_succ, readField?]

theorem readField?_pair (h : IsPair byte pair) :
    readField? (pair ++ rest) = (readField? rest).map (byte :: ·) := by
  obtain ⟨high, low, rfl, hspace, hvalue⟩ := h.exists_digits
  rw [List.cons_append, List.singleton_append, readField?]
  · cases readField? rest <;> simp [hvalue]
  · simpa using hspace

theorem readField?_intercalate {pairs : List Text} (h : List.Forall₂ IsPair bytes pairs) :
    readField? ([' '].intercalate pairs ++ rest) = (readField? rest).map (bytes ++ ·) := by
  induction h with
  | nil => simp [List.intercalate_nil]
  | @cons byte pair bytes pairs hpair hpairs ih =>
      cases hpairs with
      | nil =>
          rw [List.intercalate_singleton, readField?_pair hpair]
          rfl
      | cons hnext hlater =>
          rw [List.intercalate_cons_cons, List.append_assoc, List.append_assoc,
            readField?_pair hpair, List.singleton_append, readField?, ih, Option.map_map]
          rfl

theorem IsField.read (h : IsField bytes field) : readField? field = some bytes := by
  obtain ⟨pairs, blanks, rfl, hpairs⟩ := h.pairs
  rw [readField?_intercalate hpairs, readField?_blanks]
  simp

/-! ## Rows -/

theorem shownAs_visible (byte : UInt8) : ShownAs byte (visible byte) := by
  have hrange : (byte = 0x20 ∨ (0x21 ≤ byte ∧ byte ≤ 0x7E)) ↔ 0x20 ≤ byte ∧ byte ≤ 0x7E := by
    simp only [UInt8.le_iff_toNat_le, ← UInt8.toNat_inj, UInt8.reduceToNat]
    omega
  simp only [ShownAs, visible, hrange]
  split
  next hvisible =>
      have hsmall : byte.toNat < 0x100 := byte.toNat_lt
      rw [Char.ofNat, dif_pos (Or.inl (by omega))]
      rfl
  · rfl

theorem isRow_row (offset : ℕ) (hbytes : bytes.length ≤ rowSize) :
    IsRow offset bytes (row offset bytes) := by
  refine ⟨_, _, _, rfl, isNumeral_zeroPadded 8 offset, isField_padEnd hbytes, ?_⟩
  rw [List.forall₂_map_right_iff]
  exact List.forall₂_same.mpr fun byte _ => shownAs_visible byte

theorem IsRow.read (h : IsRow offset bytes line) : readRow? line = some bytes := by
  obtain ⟨numeral, field, column, rfl, hnumeral, hfield, -⟩ := h
  have hbehind : (numeral ++ "  ".toList ++ field ++ "  ".toList ++ column).dropWhile (· ≠ ' ') =
      "  ".toList ++ (field ++ "  ".toList ++ column) := by
    rw [List.append_assoc, List.append_assoc, List.append_assoc, ← List.append_assoc field]
    refine (Text.span_append (fun c hc => ?_) ?_).2
    · simpa using (hnumeral.digits c hc).ne_space
    · simp
  have hcolumn : ((field ++ "  ".toList ++ column).take 47) = field := by
    rw [List.append_assoc, ← hfield.length, List.take_left]
  rw [readRow?, hbehind]
  exact (congrArg readField? hcolumn).trans hfield.read

/-! ## Lines -/

def IsVisible (c : Char) : Prop :=
  0x20 ≤ c.toNat ∧ c.toNat ≤ 0x7E

instance : DecidablePred IsVisible := fun _ => inferInstanceAs (Decidable (_ ∧ _))

theorem IsUpperDigit.isVisible {c : Char} (h : IsUpperDigit c) : IsVisible c := by
  rcases h with hdigit | ⟨hlow, hhigh⟩
  · have hrange := Char.isDigit_iff_toNat.mp hdigit
    exact ⟨Nat.le_trans (by decide) hrange.1, Nat.le_trans hrange.2 (by decide)⟩
  · exact ⟨Nat.le_trans (by decide : 0x20 ≤ 'A'.toNat) hlow,
      Nat.le_trans hhigh (by decide : 'F'.toNat ≤ 0x7E)⟩

theorem ShownAs.isVisible {c : Char} (h : ShownAs byte c) : IsVisible c := by
  unfold ShownAs at h
  split at h
  next hrange =>
      simp only [UInt8.le_iff_toNat_le, ← UInt8.toNat_inj, UInt8.reduceToNat] at hrange
      rw [IsVisible, h]
      omega
  · rw [h]
    decide

theorem IsPair.isVisible (h : IsPair byte pair) : ∀ c ∈ pair, IsVisible c :=
  fun c hc => (h.2.digits c hc).isVisible

theorem forall_mem_of_forall₂ {α : Type} {shows : UInt8 → α → Prop} {p : α → Prop} {list : List α}
    (hp : ∀ {byte a}, shows byte a → p a) (h : List.Forall₂ shows bytes list) :
    ∀ a ∈ list, p a := by
  induction h with
  | nil => simp
  | cons hfirst _ ih => exact List.forall_mem_cons.mpr ⟨hp hfirst, ih⟩

theorem IsRow.isVisible (h : IsRow offset bytes line) : ∀ c ∈ line, IsVisible c := by
  obtain ⟨numeral, field, column, rfl, hnumeral, hfield, hcolumn⟩ := h
  obtain ⟨pairs, blanks, rfl, hpairs⟩ := hfield.pairs
  have hspace : IsVisible ' ' := by decide
  have hspaces : ∀ c ∈ "  ".toList, IsVisible c := by simpa using hspace
  have hdigits : ∀ c ∈ [' '].intercalate pairs, IsVisible c :=
    Text.forall_mem_intercalate (by simpa using hspace)
      (forall_mem_of_forall₂ IsPair.isVisible hpairs)
  simp only [List.forall_mem_append]
  refine ⟨⟨⟨⟨?_, hspaces⟩, hdigits, ?_⟩, hspaces⟩,
    forall_mem_of_forall₂ ShownAs.isVisible hcolumn⟩
  · exact fun c hc => (hnumeral.digits c hc).isVisible
  · intro c hc
    rwa [List.eq_of_mem_replicate hc]

/-- No character of a row is part of a line break. -/
theorem IsRow.typable (h : IsRow offset bytes line) : line.Typable := by
  refine ⟨fun hfeed => ?_, fun hreturn => ?_⟩
  · exact absurd (h.isVisible _ hfeed) (by decide)
  · exact absurd (h.isVisible _ (List.mem_of_getLast? hreturn)) (by decide)

/-! ## The rows of some bytes -/

theorem rowsFrom_of_ne_nil (h : bytes ≠ []) (offset : ℕ) :
    rowsFrom offset bytes =
      row offset (bytes.take rowSize) :: rowsFrom (offset + rowSize) (bytes.drop rowSize) := by
  cases bytes with
  | nil => contradiction
  | cons byte more => rw [rowsFrom, rowSize, List.take_succ_cons, List.drop_succ_cons]

/-- Bytes are none at all, or a first row and the bytes behind it. -/
@[elab_as_elim]
theorem induction {motive : Bytes → Prop} (nil : motive [])
    (row : ∀ bytes, bytes ≠ [] → motive (bytes.drop rowSize) → motive bytes) (bytes : Bytes) :
    motive bytes := by
  induction hlength : bytes.length using Nat.strong_induction_on generalizing bytes with
  | _ length ih =>
      by_cases hempty : bytes = []
      · exact hempty ▸ nil
      · have hpos := List.length_pos_iff.mpr hempty
        refine row bytes hempty (ih _ ?_ _ rfl)
        rw [List.length_drop, rowSize]
        omega

theorem length_rowsFrom (offset : ℕ) (bytes : Bytes) :
    (rowsFrom offset bytes).length = (bytes.length + 15) / 16 := by
  induction bytes using HexDump.induction generalizing offset with
  | nil => simp [rowsFrom]
  | row bytes hne ih =>
      have hpos := List.length_pos_iff.mpr hne
      rw [rowsFrom_of_ne_nil hne, List.length_cons, ih, List.length_drop, rowSize]
      omega

theorem isRow_getElem (offset : ℕ) (bytes : Bytes) (i : ℕ)
    (hi : i < (rowsFrom offset bytes).length) :
    IsRow (offset + rowSize * i) ((bytes.drop (rowSize * i)).take rowSize)
      (rowsFrom offset bytes)[i] := by
  induction bytes using HexDump.induction generalizing offset i with
  | nil => simp [rowsFrom] at hi
  | row bytes hne ih =>
      simp only [rowsFrom_of_ne_nil hne] at hi ⊢
      cases i with
      | zero => exact isRow_row offset (List.length_take_le _ _)
      | succ i =>
          have hlater := ih (offset + rowSize) i (Nat.lt_of_succ_lt_succ hi)
          rw [List.drop_drop, Nat.add_assoc, Nat.add_comm rowSize, ← Nat.mul_succ] at hlater
          exact hlater

theorem read_rowsFrom (offset : ℕ) (bytes : Bytes) :
    ((rowsFrom offset bytes).mapM readRow?).map List.flatten = some bytes := by
  induction bytes using HexDump.induction generalizing offset with
  | nil => simp [rowsFrom]
  | row bytes hne ih =>
      obtain ⟨later, hlater, hflat⟩ := Option.map_eq_some_iff.mp (ih (offset + rowSize))
      have hfirst := (isRow_row offset (List.length_take_le rowSize bytes)).read
      rw [rowsFrom_of_ne_nil hne]
      simp [List.mapM_cons, hfirst, hlater, hflat]

theorem lines_dump (bytes : Bytes) : Text.lines (dump bytes) = rows bytes := by
  have hrows : ∀ line ∈ rows bytes, line.Typable := by
    intro line hline
    obtain ⟨i, hi, rfl⟩ := List.getElem_of_mem hline
    exact (isRow_getElem 0 bytes i hi).typable
  have htyped : dump bytes = Text.typed (fun _ => .feed) (rows bytes) := by
    rw [dump, Text.typed, List.flatMap_def]
    exact congrArg List.flatten (List.ext_getElem (by simp) (by simp [LineBreak.text]))
  rw [htyped, Text.lines_typed _ hrows]

theorem read?_dump (bytes : Bytes) : read? (dump bytes) = some bytes := by
  rw [read?, lines_dump]
  exact read_rowsFrom 0 bytes

/-- A dump, as it is written behind the size of a job, has a row for every sixteen bytes, with
their offset, their digits and their characters; reading it gives the bytes, so different bytes
have different dumps. -/
theorem rows_read_back (bytes : Bytes) :
    CommandLine.jobText true bytes = CommandLine.jobText false bytes ++ dump bytes ∧
      (rows bytes).length = (bytes.length + 15) / 16 ∧
      (∀ i : Fin (rows bytes).length,
        IsRow (16 * i) ((bytes.drop (16 * i)).take 16) (rows bytes)[i]) ∧
      read? (dump bytes) = some bytes ∧
      ∀ other, dump other = dump bytes ↔ other = bytes := by
  refine ⟨?_, length_rowsFrom 0 bytes, fun i => ?_, read?_dump bytes, fun other => ⟨?_, ?_⟩⟩
  · simp [CommandLine.jobText, dump]
  · have hrow := isRow_getElem 0 bytes i i.isLt
    rwa [Nat.zero_add] at hrow
  · intro hsame
    have hread := read?_dump other
    rw [hsame, read?_dump bytes] at hread
    exact (Option.some.inj hread).symm
  · exact congrArg dump

end ReceiptNotes.HexDump
