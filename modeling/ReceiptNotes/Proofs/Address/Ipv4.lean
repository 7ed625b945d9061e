import ReceiptNotes.Address.Ipv4
import ReceiptNotes.Proofs.Text.Numeral

/-! # IPv4 addresses are read back

The text of an address is four numbers with points between them. Both the strict reader
and the one for numeric hosts give the address again (`Ipv4.ofText?_toText`,
`Ipv4.ofHost?_toText`).
-/

namespace ReceiptNotes.Ipv4

variable (address : Ipv4)

/-- The numbers of an address, each as it is written. -/
def numerals : List Text :=
  [address.first, address.second, address.third, address.fourth].map fun byte =>
    Text.decimal byte.toNat

theorem toText_eq_intercalate : address.toText = ['.'].intercalate address.numerals := by
  simp [toText, numerals, List.intercalate_cons_cons]

/-- An address is written in digits and points. -/
theorem isDigit_or_eq_of_mem_toText {address : Ipv4} {c : Char} (h : c ∈ address.toText) :
    c.isDigit ∨ c = '.' := by
  simp only [toText, List.mem_append, List.mem_singleton] at h
  obtain (((((hbyte | hpoint) | hbyte) | hpoint) | hbyte) | hpoint) | hbyte := h
  · exact Or.inl (Text.isDigit_of_mem_decimal hbyte)
  · exact Or.inr hpoint
  · exact Or.inl (Text.isDigit_of_mem_decimal hbyte)
  · exact Or.inr hpoint
  · exact Or.inl (Text.isDigit_of_mem_decimal hbyte)
  · exact Or.inr hpoint
  · exact Or.inl (Text.isDigit_of_mem_decimal hbyte)

theorem not_mem_toText {c : Char} (hdigit : c.isDigit = false) (hpoint : c ≠ '.') :
    c ∉ address.toText := by
  intro hc
  rcases isDigit_or_eq_of_mem_toText hc with h | h
  · simp [hdigit] at h
  · exact hpoint h

theorem splitOn_toText : address.toText.splitOn '.' = address.numerals := by
  rw [toText_eq_intercalate]
  refine List.splitOn_intercalate '.' ?_ (by simp [numerals])
  intro numeral hnumeral
  obtain ⟨byte, -, rfl⟩ := List.mem_map.mp hnumeral
  exact Text.not_mem_decimal rfl _

theorem byte?_decimal (byte : UInt8) : byte? (Text.decimal byte.toNat) = some byte := by
  have hsize : byte.toNat < 0x100 := byte.toNat_lt
  have hlength : (Text.decimal byte.toNat).length ≤ 3 :=
    (Text.length_decimal_le_iff (by decide)).mpr (by omega)
  -- A zero in front stands for zero, which is written in one digit.
  have hfront : (Text.decimal byte.toNat).length = 1 ∨
      (Text.decimal byte.toNat).head? ≠ some '0' := by
    by_cases hzero : byte.toNat = 0
    · exact Or.inl (by rw [hzero]; rfl)
    · exact Or.inr (mt Text.head?_decimal_eq_zero_iff.mp hzero)
  rw [byte?, if_pos ⟨hlength, hfront⟩, Text.decimalValue?_decimal]
  simp [Option.filter, hsize]

/-- The strict reader gives the address that was written. -/
theorem ofText?_toText : ofText? address.toText = some address := by
  rw [ofText?, splitOn_toText]
  simp only [numerals, List.map_cons, List.map_nil, byte?_decimal]

theorem looseNumber?_decimal (n : ℕ) : looseNumber? (Text.decimal n) = some n := by
  by_cases hzero : n = 0
  · rw [hzero]
    rfl
  · -- Without a zero in front, the number is read in base ten.
    have hfront := mt Text.head?_decimal_eq_zero_iff.mp hzero
    have hvalue := Text.decimalValue?_decimal n
    generalize Text.decimal n = numeral at hfront hvalue
    unfold looseNumber?
    split
    · simp at hfront
    · simp at hfront
    · simp at hfront
    · exact hvalue

theorem ofNat_assembled :
    ofNat (address.first.toNat * 0x1000000 + (address.second.toNat * 0x10000 +
      (address.third.toNat * 0x100 + address.fourth.toNat))) = address := by
  obtain ⟨first, second, third, fourth⟩ := address
  have := first.toNat_lt
  have := second.toNat_lt
  have := third.toNat_lt
  have := fourth.toNat_lt
  simp only [ofNat, mk.injEq, ← UInt8.toNat_inj, UInt8.toNat_ofNat']
  omega

/-- So does the reader for numeric hosts. -/
theorem ofHost?_toText : ofHost? address.toText = some address := by
  have hassembled : assemble? 4 [address.first.toNat, address.second.toNat,
      address.third.toNat, address.fourth.toNat] =
      some (address.first.toNat * 0x1000000 + (address.second.toNat * 0x10000 +
        (address.third.toNat * 0x100 + address.fourth.toNat))) := by
    have := address.first.toNat_lt
    have := address.second.toNat_lt
    have := address.third.toNat_lt
    have := address.fourth.toNat_lt
    simp [assemble?, *]
  rw [ofHost?, splitOn_toText]
  simp [numerals, looseNumber?_decimal, hassembled, ofNat_assembled]

end ReceiptNotes.Ipv4
