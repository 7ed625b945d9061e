import Mathlib.Algebra.Group.Nat.Defs
import Mathlib.Data.Nat.Basic
import ReceiptNotes.Text.Numeral

/-! # Reading numerals back

A number that has been written in base ten or sixteen is read back from its digits, also
with zeros in front (`decimalValue?_decimal`, `hexValue?_zeroPadded`). Whatever can be read
as a number consists of digits only.
-/

namespace ReceiptNotes.Text

section Reading

variable {base n : ℕ} {digit? : Char → Option ℕ} {digits : Text}

/-- One more digit read behind the digits of a value. -/
def readOn (base : ℕ) (digit? : Char → Option ℕ) (value : Option ℕ) (c : Char) : Option ℕ := do
  return (← value) * base + (← digit? c)

theorem digitsValue?_eq_foldl (h : digits ≠ []) :
    digitsValue? base digit? digits = digits.foldl (readOn base digit?) (some 0) := by
  cases digits with
  | nil => exact absurd rfl h
  | cons c digits => rfl

theorem foldl_readOn_none : digits.foldl (readOn base digit?) none = none := by
  induction digits with
  | nil => rfl
  | cons c digits ih => exact ih

theorem foldl_readOn_concat {c : Char} (h : (digits ++ [c]).foldl (readOn base digit?) (some 0) =
    some n) :
    ∃ front d, digits.foldl (readOn base digit?) (some 0) = some front ∧ digit? c = some d ∧
      n = front * base + d := by
  rw [List.foldl_append, List.foldl_cons, List.foldl_nil, readOn] at h
  obtain ⟨front, hfront, h⟩ := Option.bind_eq_some_iff.mp h
  obtain ⟨d, hd, h⟩ := Option.bind_eq_some_iff.mp h
  exact ⟨front, d, hfront, hd, (Option.some.inj h).symm⟩

theorem foldl_readOn_toDigits (hbase : 1 < base)
    (hdigit : ∀ d < base, digit? d.digitChar = some d) (n : ℕ) :
    (Nat.toDigits base n).foldl (readOn base digit?) (some 0) = some n := by
  induction n using Nat.strong_induction_on with
  | _ n ih =>
      by_cases hlt : n < base
      · rw [Nat.toDigits_of_lt_base hlt]
        simp [readOn, hdigit n hlt]
      · rw [Nat.toDigits_of_base_le hbase (Nat.le_of_not_lt hlt), List.foldl_append,
          ih (n / base) (Nat.div_lt_self (by omega) hbase)]
        simp [readOn, hdigit _ (Nat.mod_lt n (by omega)), Nat.div_add_mod']

theorem foldl_readOn_zeros (hzero : digit? '0' = some 0) (count : ℕ) :
    (List.replicate count '0').foldl (readOn base digit?) (some 0) = some 0 := by
  induction count with
  | zero => rfl
  | succ count ih =>
      rw [List.replicate_succ, List.foldl_cons]
      simpa [readOn, hzero] using ih

/-- Zeros in front of the digits of a number make no difference. -/
theorem digitsValue?_zeros_append (hbase : 1 < base)
    (hdigit : ∀ d < base, digit? d.digitChar = some d) (count n : ℕ) :
    digitsValue? base digit? (List.replicate count '0' ++ Nat.toDigits base n) = some n := by
  rw [digitsValue?_eq_foldl (by simp), List.foldl_append,
    foldl_readOn_zeros (hdigit 0 (by omega)), foldl_readOn_toDigits hbase hdigit]

theorem digitsValue?_toDigits (hbase : 1 < base)
    (hdigit : ∀ d < base, digit? d.digitChar = some d) (n : ℕ) :
    digitsValue? base digit? (Nat.toDigits base n) = some n :=
  digitsValue?_zeros_append hbase hdigit 0 n

/-- Digits that are read in another writing. -/
theorem digitsValue?_map (f : Char → Char) (digits : Text) :
    digitsValue? base digit? (digits.map f) = digitsValue? base (digit? ∘ f) digits := by
  cases digits with
  | nil => rfl
  | cons c digits =>
      rw [digitsValue?_eq_foldl (by simp), digitsValue?_eq_foldl (by simp), List.foldl_map]
      rfl

/-- A number in some base consists of digits of that base. -/
theorem forall_mem_toDigits {p : Char → Prop} (hbase : 1 < base) (hp : ∀ d < base, p d.digitChar)
    (n : ℕ) : ∀ c ∈ Nat.toDigits base n, p c := by
  induction n using Nat.strong_induction_on with
  | _ n ih =>
      by_cases hlt : n < base
      · simpa [Nat.toDigits_of_lt_base hlt] using hp n hlt
      · rw [Nat.toDigits_of_base_le hbase (Nat.le_of_not_lt hlt), List.forall_mem_append]
        exact ⟨ih (n / base) (Nat.div_lt_self (by omega) hbase),
          by simpa using hp _ (Nat.mod_lt n (by omega))⟩

/-- What can be read as a number consists of digits. -/
theorem isSome_of_mem_digits (h : digitsValue? base digit? digits = some n) :
    ∀ c ∈ digits, (digit? c).isSome := by
  intro c hc
  by_contra hnone
  obtain ⟨before, behind, rfl⟩ := List.append_of_mem hc
  have hfold := (digitsValue?_eq_foldl (List.ne_nil_of_mem hc)).symm.trans h
  rw [Option.not_isSome_iff_eq_none] at hnone
  have hstep : readOn base digit? (before.foldl (readOn base digit?) (some 0)) c = none := by
    cases before.foldl (readOn base digit?) (some 0) <;> simp [readOn, hnone]
  rw [List.foldl_append, List.foldl_cons, hstep, foldl_readOn_none] at hfold
  simp at hfold

theorem foldl_readOn_lt (hdigit : ∀ c d, digit? c = some d → d < base) {value count : ℕ}
    (hvalue : value < base ^ count) (h : digits.foldl (readOn base digit?) (some value) = some n) :
    n < base ^ (count + digits.length) := by
  induction digits generalizing value count with
  | nil =>
      obtain rfl := Option.some.inj h
      exact hvalue
  | cons c digits ih =>
      rw [List.foldl_cons] at h
      cases hc : digit? c with
      | none =>
          have hstep : readOn base digit? (some value) c = none := by simp [readOn, hc]
          rw [hstep, foldl_readOn_none] at h
          simp at h
      | some d =>
          have hstep : readOn base digit? (some value) c = some (value * base + d) := by
            simp [readOn, hc]
          have hlarger : value * base + d < base ^ (count + 1) := by
            have hd := hdigit c d hc
            calc value * base + d < value * base + base := Nat.add_lt_add_left hd _
              _ = (value + 1) * base := (Nat.succ_mul value base).symm
              _ ≤ base ^ count * base := Nat.mul_le_mul_right base hvalue
              _ = base ^ (count + 1) := (Nat.pow_succ ..).symm
          rw [hstep] at h
          have hlt := ih hlarger h
          rwa [Nat.add_assoc, Nat.add_comm 1] at hlt

/-- As many digits bound the number that they stand for. -/
theorem digitsValue?_lt (hdigit : ∀ c d, digit? c = some d → d < base)
    (h : digitsValue? base digit? digits = some n) : n < base ^ digits.length := by
  have hne : digits ≠ [] := by
    rintro rfl
    simp [digitsValue?] at h
  have hzero : 0 < base ^ 0 := by simp
  rw [digitsValue?_eq_foldl hne] at h
  simpa using foldl_readOn_lt hdigit hzero h

end Reading

variable {n : ℕ} {c : Char} {numeral : Text}

theorem decimalDigit?_digitChar {d : ℕ} (h : d < 10) : decimalDigit? d.digitChar = some d := by
  rw [decimalDigit?, if_pos (by simpa using h)]
  exact congrArg some (Nat.toNat_digitChar_sub_48_of_lt_ten h)

theorem hexDigit?_digitChar {d : ℕ} (h : d < 16) : hexDigit? d.digitChar = some d := by
  have hall : ∀ d < 16, hexDigit? d.digitChar = some d := by decide
  exact hall d h

theorem lt_of_hexDigit? {d : ℕ} (h : hexDigit? c = some d) : d < 16 := by
  unfold hexDigit? at h
  split at h
  next hdigit =>
      obtain rfl := Option.some.inj h
      have hrange := Char.isDigit_iff_toNat.mp hdigit
      have hnine : '9'.toNat = 57 := rfl
      have hzero : '0'.toNat = 48 := rfl
      omega
  split at h
  next hsmall =>
      obtain rfl := Option.some.inj h
      have hle : c.toNat ≤ 'f'.toNat := hsmall.2
      have hf : 'f'.toNat = 102 := rfl
      have ha : 'a'.toNat = 97 := rfl
      omega
  split at h
  next hcapital =>
      obtain rfl := Option.some.inj h
      have hle : c.toNat ≤ 'F'.toNat := hcapital.2
      have hf : 'F'.toNat = 70 := rfl
      have ha : 'A'.toNat = 65 := rfl
      omega
  · simp at h

@[simp]
theorem decimalValue?_decimal (n : ℕ) : decimalValue? (decimal n) = some n :=
  digitsValue?_toDigits (by decide) (fun _ => decimalDigit?_digitChar) n

@[simp]
theorem hexValue?_hexadecimal (n : ℕ) : hexValue? (hexadecimal n) = some n :=
  digitsValue?_toDigits (by decide) (fun _ => hexDigit?_digitChar) n

theorem hexValue?_zeroPadded (width n : ℕ) :
    hexValue? (zeroPadded width (hexadecimal n)) = some n :=
  digitsValue?_zeros_append (by decide) (fun _ => hexDigit?_digitChar) _ n

theorem hexValue?_zeroPadded_upper (width n : ℕ) :
    hexValue? (zeroPadded width (upperHexadecimal n)) = some n := by
  have hfilled : zeroPadded width (upperHexadecimal n) =
      (zeroPadded width (hexadecimal n)).map Char.toUpper := by
    simp [zeroPadded, upperHexadecimal, List.leftpad]
  have hdigit : ∀ d < 16, (hexDigit? ∘ Char.toUpper) d.digitChar = some d := by decide
  rw [hfilled, hexValue?, digitsValue?_map]
  exact digitsValue?_zeros_append (by decide) hdigit _ n

theorem decimalValue?_zeroPadded (width n : ℕ) :
    decimalValue? (zeroPadded width (decimal n)) = some n :=
  digitsValue?_zeros_append (by decide) (fun _ => decimalDigit?_digitChar) _ n

theorem hexValue?_lt (h : hexValue? numeral = some n) : n < 16 ^ numeral.length :=
  digitsValue?_lt (fun _ _ => lt_of_hexDigit?) h

theorem isDigit_of_decimalValue? (h : decimalValue? numeral = some n) :
    ∀ c ∈ numeral, c.isDigit := by
  intro c hc
  have hsome := isSome_of_mem_digits h c hc
  by_contra hdigit
  rw [decimalDigit?, if_neg hdigit] at hsome
  simp at hsome

theorem isDigit_of_mem_decimal (h : c ∈ decimal n) : c.isDigit :=
  Nat.isDigit_of_mem_toDigits (by decide) (by decide) h

theorem not_mem_decimal (h : c.isDigit = false) (n : ℕ) : c ∉ decimal n := by
  intro hc
  simpa [h] using isDigit_of_mem_decimal hc

theorem isSome_of_mem_hexadecimal (h : c ∈ hexadecimal n) : (hexDigit? c).isSome :=
  isSome_of_mem_digits (hexValue?_hexadecimal n) c h

@[simp]
theorem decimal_ne_nil (n : ℕ) : decimal n ≠ [] :=
  Nat.toDigits_ne_nil

@[simp]
theorem hexadecimal_ne_nil (n : ℕ) : hexadecimal n ≠ [] :=
  Nat.toDigits_ne_nil

theorem length_decimal_le_iff {k : ℕ} (h : 0 < k) : (decimal n).length ≤ k ↔ n < 10 ^ k :=
  Nat.length_toDigits_le_iff (by decide) h

theorem length_hexadecimal_le_iff {k : ℕ} (h : 0 < k) :
    (hexadecimal n).length ≤ k ↔ n < 16 ^ k :=
  Nat.length_toDigits_le_iff (by decide) h

/-- Only zero is written with a zero in front. -/
theorem head?_decimal_eq_zero_iff : (decimal n).head? = some '0' ↔ n = 0 := by
  rw [decimal]
  induction n using Nat.strong_induction_on with
  | _ n ih =>
      by_cases hlt : n < 10
      · simp [Nat.toDigits_of_lt_base hlt]
      · obtain ⟨c, rest, hdigits⟩ := List.exists_cons_of_ne_nil
          (Nat.toDigits_ne_nil (n := n / 10) (b := 10))
        have hfront := ih (n / 10) (by omega)
        rw [hdigits, List.head?_cons] at hfront
        rw [Nat.toDigits_of_base_le (by decide) (Nat.le_of_not_lt hlt), hdigits,
          List.cons_append, List.head?_cons, hfront]
        omega

theorem head?_decimal_ne_plus (n : ℕ) : (decimal n).head? ≠ some '+' := by
  intro hhead
  exact not_mem_decimal rfl n (List.mem_of_mem_head? hhead)

/-- A number that has no digit above nine in base sixteen is written there as some number is in
base ten. -/
theorem hexadecimal_eq_decimal {v : ℕ} (h : decimalValue? (hexadecimal n) = some v) :
    hexadecimal n = decimal v := by
  have hsmall : ∀ d < 16, ∀ e ∈ decimalDigit? d.digitChar, e = d ∧ d < 10 := by decide
  rw [decimalValue?, digitsValue?_eq_foldl (hexadecimal_ne_nil n)] at h
  rw [hexadecimal] at h ⊢
  rw [decimal]
  induction n using Nat.strong_induction_on generalizing v with
  | _ n ih =>
      by_cases hlt : n < 16
      · rw [Nat.toDigits_of_lt_base hlt, ← List.nil_append [n.digitChar]] at h
        obtain ⟨front, d, hfront, hd, rfl⟩ := foldl_readOn_concat h
        obtain rfl := Option.some.inj hfront
        obtain ⟨rfl, hdecimal⟩ := hsmall n hlt d hd
        rw [Nat.toDigits_of_lt_base hlt, Nat.zero_mul, Nat.zero_add,
          Nat.toDigits_of_lt_base hdecimal]
      · rw [Nat.toDigits_of_base_le (by decide) (Nat.le_of_not_lt hlt)] at h ⊢
        obtain ⟨front, d, hfront, hd, rfl⟩ := foldl_readOn_concat h
        obtain ⟨rfl, hdecimal⟩ := hsmall _ (Nat.mod_lt n (by decide)) d hd
        have hsame := ih (n / 16) (by omega) hfront
        -- The front is no zero, so nothing is lost in writing it out.
        have hpos : 0 < front := by
          rw [Nat.pos_iff_ne_zero]
          rintro rfl
          have hzero := hexValue?_hexadecimal (n / 16)
          rw [hexadecimal, hsame] at hzero
          have : n / 16 = 0 := (Option.some.inj hzero).symm
          omega
        rw [hsame, Nat.mul_comm, ← Nat.toDigits_append_toDigits (by decide) hpos hdecimal,
          Nat.toDigits_of_lt_base hdecimal]

/-- Without a plus sign in front, all characters are digits of the number. -/
theorem unsigned?_eq_filter {bound : ℕ} (h : numeral.head? ≠ some '+') :
    unsigned? bound numeral = (decimalValue? numeral).filter (· < bound) := by
  rw [unsigned?]
  intro rest hrest
  simp [hrest] at h

end ReceiptNotes.Text
