import ReceiptNotes.Text.Utf8

/-! # Reading back what UTF-8 writes

A character goes into one to four bytes: a first byte that tells how many follow,
and bytes of six bits each. Reading takes them in one by one and stands between
two characters again behind the last one, with the character that was written
(`foldl_utf8EncodeChar`). So a text is read back from its bytes (`decode_utf8`).

The bytes of longer forms are all `0x80` or above. An ASCII byte in the stream is
therefore an ASCII character of the text (`exists_of_mem_utf8`), and a search for
one in the bytes finds what a search in the text does.
-/

namespace ReceiptNotes.Text

namespace Utf8

theorem opened?_two {bits : Nat} (least : 2 ≤ bits) (most : bits < 32) :
    opened? (UInt8.ofNat (bits + 192)) = some ⟨1, 1, 0x80, 0xBF, bits⟩ := by
  simp only [opened?, UInt8.toNat_ofNat_of_lt' (show bits + 192 < 256 by omega)]
  rw [if_neg (by omega), if_pos (by omega), show (bits + 192) % 32 = bits by omega]

/-- The second byte is bounded from below where a shorter form would do, and from
above where a surrogate would come out. -/
theorem opened?_three {bits : Nat} (most : bits < 16) :
    opened? (UInt8.ofNat (bits + 224)) =
      some ⟨1, 2, if bits = 0 then 0xA0 else 0x80, if bits = 13 then 0x9F else 0xBF, bits⟩ := by
  simp only [opened?, UInt8.toNat_ofNat_of_lt' (show bits + 224 < 256 by omega), beq_iff_eq]
  grind

/-- The second byte is bounded from below where a shorter form would do, and from
above where the last code point would be passed. -/
theorem opened?_four {bits : Nat} (most : bits ≤ 4) :
    opened? (UInt8.ofNat (bits + 240)) =
      some ⟨1, 3, if bits = 0 then 0x90 else 0x80, if bits = 4 then 0x8F else 0xBF, bits⟩ := by
  simp only [opened?, UInt8.toNat_ofNat_of_lt' (show bits + 240 < 256 by omega), beq_iff_eq]
  grind

/-- A byte inside the bounds adds its six bits. -/
theorem Reading.step_inside {index low high digit : Nat} {read : Text} (seen owed bits : Nat)
    (least : low ≤ digit + 128) (most : digit + 128 ≤ high) (small : digit < 64) :
    Reading.step (.inside index read ⟨seen, owed, low, high, bits⟩) (UInt8.ofNat (digit + 128)) =
      if owed ≤ 1 then .between (index + seen + 1) (Char.ofNat (bits * 64 + digit) :: read)
      else .inside index read ⟨seen + 1, owed - 1, 0x80, 0xBF, bits * 64 + digit⟩ := by
  simp only [Reading.step, UInt8.toNat_ofNat_of_lt' (show digit + 128 < 256 by omega)]
  rw [if_pos ⟨least, most⟩, show (digit + 128) % 64 = digit by omega]

theorem Reading.step_between {index : Nat} {read : Text} {byte : UInt8} {part : Opened}
    (opened : opened? byte = some part) :
    Reading.step (.between index read) byte = .inside index read part := by
  have notAscii : ¬ byte.toNat < 0x80 := by
    intro ascii
    simp [opened?, show byte.toNat < 0xC2 by omega] at opened
  simp [Reading.step, notAscii, opened]

/-- From between two characters, the bytes of a character lead behind it. -/
theorem foldl_utf8EncodeChar (c : Char) (index : Nat) (read : Text) :
    (String.utf8EncodeChar c).foldl Reading.step (.between index read) =
      .between (index + (String.utf8EncodeChar c).length) (c :: read) := by
  have valid : c.val.toNat < 0xD800 ∨ 0xDFFF < c.val.toNat ∧ c.val.toNat < 0x110000 := c.valid
  have back : Char.ofNat c.val.toNat = c := Char.ofNat_toNat c
  simp only [String.utf8EncodeChar]
  generalize c.val.toNat = v at valid back ⊢
  subst back
  by_cases one : v ≤ 0x7F
  · simp [one, Reading.step, UInt8.toNat_ofNat_of_lt' (show v < 256 by omega),
      show v < 0x80 by omega]
  by_cases two : v ≤ 0x7FF
  · rw [if_neg one, if_pos two]
    simp only [List.foldl_cons, List.foldl_nil]
    rw [Reading.step_between (opened?_two (by omega) (by omega)),
      Reading.step_inside _ _ _ (by omega) (by omega) (by omega),
      if_pos (by omega), show v / 64 % 32 * 64 + v % 64 = v by omega]
    rfl
  by_cases three : v ≤ 0xFFFF
  · rw [if_neg one, if_neg two, if_pos three]
    simp only [List.foldl_cons, List.foldl_nil]
    rw [Reading.step_between (opened?_three (by omega)),
      Reading.step_inside _ _ _ (by split <;> omega) (by split <;> omega) (by omega),
      if_neg (by omega),
      Reading.step_inside _ _ _ (by omega) (by omega) (by omega),
      if_pos (by omega), show (v / 4096 % 16 * 64 + v / 64 % 64) * 64 + v % 64 = v by omega]
    rfl
  · rw [if_neg one, if_neg two, if_neg three]
    simp only [List.foldl_cons, List.foldl_nil]
    rw [Reading.step_between (opened?_four (by omega)),
      Reading.step_inside _ _ _ (by split <;> omega) (by split <;> omega) (by omega),
      if_neg (by omega),
      Reading.step_inside _ _ _ (by omega) (by omega) (by omega),
      if_neg (by omega),
      Reading.step_inside _ _ _ (by omega) (by omega) (by omega),
      if_pos (by omega),
      show ((v / 262144 % 8 * 64 + v / 4096 % 64) * 64 + v / 64 % 64) * 64 + v % 64 = v by omega]
    rfl

theorem foldl_utf8 (text : Text) (index : Nat) (read : Text) :
    (utf8 text).foldl Reading.step (.between index read) =
      .between (index + (utf8 text).length) (text.reverse ++ read) := by
  induction text generalizing index read with
  | nil => rfl
  | cons c text ih => simp [foldl_utf8EncodeChar, ih, Nat.add_assoc]

/-- What has been written as UTF-8 is read back. -/
theorem decode_utf8 (text : Text) : decode (utf8 text) = .ok text := by
  simp [decode, foldl_utf8, Reading.finish]

end Utf8

@[simp]
theorem ofUtf8?_utf8 (text : Text) : ofUtf8? (utf8 text) = some text := by
  simp [ofUtf8?, Utf8.decode_utf8, Except.toOption]

theorem utf8_injective : Function.Injective utf8 := by
  intro first second same
  have read := ofUtf8?_utf8 first
  rw [same, ofUtf8?_utf8] at read
  exact (Option.some.inj read).symm

/-- Every byte of a longer form has its highest bit set. -/
theorem le_of_mem_utf8EncodeChar {c : Char} {byte : UInt8} (long : 0x80 ≤ c.val.toNat)
    (mem : byte ∈ String.utf8EncodeChar c) : 0x80 ≤ byte.toNat := by
  simp only [String.utf8EncodeChar] at mem
  generalize c.val.toNat = v at long mem
  rw [if_neg (by omega)] at mem
  by_cases two : v ≤ 0x7FF
  · rw [if_pos two] at mem
    simp only [List.mem_cons, List.not_mem_nil, or_false] at mem
    rcases mem with rfl | rfl <;> simp only [UInt8.toNat_ofNat'] <;> omega
  by_cases three : v ≤ 0xFFFF
  · rw [if_neg two, if_pos three] at mem
    simp only [List.mem_cons, List.not_mem_nil, or_false] at mem
    rcases mem with rfl | rfl | rfl <;> simp only [UInt8.toNat_ofNat'] <;> omega
  · rw [if_neg two, if_neg three] at mem
    simp only [List.mem_cons, List.not_mem_nil, or_false] at mem
    rcases mem with rfl | rfl | rfl | rfl <;> simp only [UInt8.toNat_ofNat'] <;> omega

/-- An ASCII byte comes from the character it stands for. -/
theorem eq_of_mem_utf8EncodeChar {c : Char} {byte : UInt8} (ascii : byte.toNat < 0x80)
    (mem : byte ∈ String.utf8EncodeChar c) : c = Char.ofNat byte.toNat := by
  have short : c.val.toNat ≤ 0x7F := by
    rcases Nat.lt_or_ge c.val.toNat 0x80 with short | long
    · omega
    · exact absurd (le_of_mem_utf8EncodeChar long mem) (by omega)
  simp only [String.utf8EncodeChar, if_pos short, List.mem_singleton] at mem
  rw [mem, UInt8.toNat_ofNat_of_lt' (Nat.lt_of_le_of_lt short (by decide))]
  exact (Char.ofNat_toNat c).symm

/-- An ASCII byte of a text in UTF-8 is one of its characters. -/
theorem exists_of_mem_utf8 {text : Text} {byte : UInt8} (ascii : byte.toNat < 0x80)
    (mem : byte ∈ utf8 text) : Char.ofNat byte.toNat ∈ text := by
  obtain ⟨c, inText, inForm⟩ := List.mem_flatMap.1 mem
  exact eq_of_mem_utf8EncodeChar ascii inForm ▸ inText

end ReceiptNotes.Text
