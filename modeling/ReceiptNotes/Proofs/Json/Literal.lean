import ReceiptNotes.Proofs.Json.Grammar

/-! # Reading numbers and strings

A written number or string is taken off the front of a text as a whole and by itself,
whatever follows it; a number must not be followed by more of it. Of a string exactly the
text is found that its units spell (`Json.content?_eq_some_iff`).
-/

namespace ReceiptNotes.Json

open Text (run? run?_append)

variable {text rest : Text}

theorem forall_mem_head?_cons {p : Char → Prop} {c : Char} :
    (∀ d ∈ (c :: rest).head?, p d) ↔ p c := by
  simp

/-! ## Numbers -/

/-- What follows a number does not go on with it. -/
def EndsNumber (rest : Text) : Prop :=
  ∀ c ∈ rest.head?, ¬ c.isDigit ∧ c ≠ '.' ∧ c ≠ 'e' ∧ c ≠ 'E'

theorem run?_digits {digits : Text} (h : Digits digits) (hrest : ∀ c ∈ rest.head?, ¬ c.isDigit) :
    run? Char.isDigit (digits ++ rest) = some (digits, rest) :=
  run?_append h.1 h.2 hrest

theorem integerPart?_append {integer : Text} (h : WrittenInteger integer)
    (hrest : ∀ c ∈ rest.head?, ¬ c.isDigit) :
    integerPart? (integer ++ rest) = some (integer, rest) := by
  obtain rfl | ⟨hdigits, hfront⟩ := h
  · rfl
  · rw [integerPart?, run?_digits hdigits hrest]
    intro later hzero
    obtain ⟨c, digits, rfl⟩ := List.exists_cons_of_ne_nil hdigits.1
    obtain ⟨rfl, -⟩ := List.cons.inj hzero
    simp at hfront

theorem fractionPart?_append {fraction : Text} (h : WrittenFraction fraction)
    (hrest : ∀ c ∈ rest.head?, ¬ c.isDigit ∧ c ≠ '.') :
    fractionPart? (fraction ++ rest) = some (fraction, rest) := by
  obtain rfl | ⟨digits, hdigits, rfl⟩ := h
  · rw [List.nil_append, fractionPart?]
    rintro later rfl
    exact (hrest '.' rfl).2 rfl
  · rw [List.cons_append, fractionPart?, run?_digits hdigits fun c hc => (hrest c hc).1]
    rfl

theorem signPart_append {isSign : Char → Bool} {sign : Text}
    (h : sign = [] ∨ ∃ c, isSign c ∧ sign = [c]) (hrest : ∀ c ∈ rest.head?, ¬ isSign c) :
    signPart isSign (sign ++ rest) = (sign, rest) := by
  obtain rfl | ⟨c, hc, rfl⟩ := h
  · cases rest with
    | nil => rfl
    | cons c rest => simp [signPart, hrest c rfl]
  · simp [signPart, hc]

theorem head?_digits_append {digits : Text} (h : Digits digits) :
    ∀ c ∈ (digits ++ rest).head?, c.isDigit := by
  obtain ⟨d, later, rfl⟩ := List.exists_cons_of_ne_nil h.1
  exact forall_mem_head?_cons.mpr (h.2 d List.mem_cons_self)

theorem exponentPart?_append {exponent : Text} (h : WrittenExponent exponent)
    (hrest : EndsNumber rest) : exponentPart? (exponent ++ rest) = some (exponent, rest) := by
  obtain rfl | ⟨mark, sign, digits, hmark, hsign, hdigits, rfl⟩ := h
  · cases rest with
    | nil => rfl
    | cons c rest =>
        obtain ⟨-, -, hsmall, hcapital⟩ := hrest c rfl
        simp [exponentPart?, hsmall, hcapital]
  · have hsplit : signPart (fun c => c = '+' || c = '-') (sign ++ (digits ++ rest)) =
        (sign, digits ++ rest) := by
      refine signPart_append ?_ ?_
      · rcases hsign with rfl | rfl | rfl
        · exact Or.inl rfl
        · exact Or.inr ⟨'+', rfl, rfl⟩
        · exact Or.inr ⟨'-', rfl, rfl⟩
      · intro c hc hsigned
        have hdigit := head?_digits_append hdigits c hc
        simp only [Bool.or_eq_true, decide_eq_true_eq] at hsigned
        rcases hsigned with rfl | rfl <;> simp at hdigit
    have hrun := run?_digits hdigits fun c hc => (hrest c hc).1
    rw [List.cons_append, List.cons_append, List.append_assoc, exponentPart?,
      if_pos (by simpa using hmark), hsplit]
    simp [hrun]

theorem head?_exponent_append {exponent : Text} (h : WrittenExponent exponent)
    (hrest : EndsNumber rest) :
    ∀ c ∈ (exponent ++ rest).head?, ¬ c.isDigit ∧ c ≠ '.' := by
  obtain rfl | ⟨mark, sign, digits, hmark, -, -, rfl⟩ := h
  · exact fun c hc => ⟨(hrest c hc).1, (hrest c hc).2.1⟩
  · refine forall_mem_head?_cons.mpr ?_
    rcases hmark with rfl | rfl <;> decide

theorem head?_fraction_append {fraction : Text} (h : WrittenFraction fraction)
    (hrest : ∀ c ∈ rest.head?, ¬ c.isDigit) :
    ∀ c ∈ (fraction ++ rest).head?, ¬ c.isDigit := by
  obtain rfl | ⟨digits, -, rfl⟩ := h
  · exact hrest
  · exact forall_mem_head?_cons.mpr (by decide)

theorem head?_integer_append {integer : Text} (h : WrittenInteger integer) :
    ∀ c ∈ (integer ++ rest).head?, c.isDigit := by
  obtain rfl | ⟨hdigits, -⟩ := h
  · exact forall_mem_head?_cons.mpr rfl
  · exact head?_digits_append hdigits

/-- A number is read as it is written. -/
theorem number?_append {literal : Text} (h : WrittenNumber literal) (hrest : EndsNumber rest) :
    number? (literal ++ rest) = some (literal, rest) := by
  obtain ⟨sign, integer, fraction, exponent, hsign, hinteger, hfraction, hexponent, rfl⟩ := h
  have hbehind := head?_exponent_append hexponent hrest
  have hsplit : signPart (· = '-') (sign ++ (integer ++ (fraction ++ (exponent ++ rest)))) =
      (sign, integer ++ (fraction ++ (exponent ++ rest))) := by
    refine signPart_append ?_ ?_
    · exact hsign.imp_right fun hminus => ⟨'-', rfl, hminus⟩
    · intro c hc hminus
      have hdigit := head?_integer_append hinteger c hc
      rw [of_decide_eq_true hminus] at hdigit
      simp at hdigit
  have hfront := integerPart?_append hinteger
    (head?_fraction_append hfraction fun c hc => (hbehind c hc).1)
  simp only [List.append_assoc] at hsplit hfront ⊢
  simp [number?, hsplit, hfront, fractionPart?_append hfraction hbehind,
    exponentPart?_append hexponent hrest]

theorem head?_number_append {literal : Text} (h : WrittenNumber literal) :
    ∀ c ∈ (literal ++ rest).head?, c = '-' ∨ c.isDigit := by
  obtain ⟨sign, integer, fraction, exponent, hsign, hinteger, -, -, rfl⟩ := h
  intro c hc
  obtain rfl | rfl := hsign
  · rw [List.nil_append, List.append_assoc, List.append_assoc] at hc
    exact Or.inr (head?_integer_append hinteger c hc)
  · exact Or.inl (Option.some.inj hc).symm

theorem WrittenNumber.ne_nil (h : WrittenNumber text) : text ≠ [] := by
  obtain ⟨sign, integer, fraction, exponent, -, hinteger, -, -, rfl⟩ := h
  obtain rfl | ⟨hdigits, -⟩ := hinteger
  · simp
  · simp [hdigits.1]

/-- A number without leading zeros is a written number. -/
theorem writtenNumber_decimal (n : ℕ) : WrittenNumber (Text.decimal n) := by
  refine ⟨[], Text.decimal n, [], [], Or.inl rfl, ?_, Or.inl rfl, Or.inl rfl, by simp⟩
  by_cases hzero : n = 0
  · exact Or.inl (by rw [hzero]; rfl)
  · exact Or.inr ⟨⟨Text.decimal_ne_nil n, fun _ => Text.isDigit_of_mem_decimal⟩,
      mt Text.head?_decimal_eq_zero_iff.mp hzero⟩

/-! ## Strings -/

variable {units : List Unit16} {body : Text}

theorem escape?_of_mem {letter c : Char} (h : (letter, c) ∈ escapes) :
    letter ≠ 'u' ∧ escape? letter = some c := by
  have hall : ∀ pair ∈ escapes, pair.1 ≠ 'u' ∧ escape? pair.1 = some pair.2 := by decide
  exact hall _ h

/-- The units of a string are read up to its closing quotation mark. -/
theorem units?_append (h : WrittenUnits units body) (rest : Text) :
    units? (body ++ '"' :: rest) = some (units, rest) := by
  induction h with
  | nil => rfl
  | @plain c units body hcontrol hquote hbackslash _ ih =>
      rw [List.cons_append, units?, if_neg, ih]
      · rfl
      · simpa [hbackslash] using hcontrol
      · simpa using hquote
      · simp [hbackslash]
      · simp [hbackslash]
  | @escape letter c units body hescape _ ih =>
      obtain ⟨hletter, hmeans⟩ := escape?_of_mem hescape
      rw [List.cons_append, List.cons_append, units?, hmeans, ih]
      · rfl
      · simp [hletter]
  | code hvalue _ ih => simp [units?, hvalue, ih]

theorem not_surrogate (c : Char) :
    isHighSurrogate c.toNat = false ∧ isLowSurrogate c.toNat = false := by
  have hvalid : c.toNat < 0xD800 ∨ 0xDFFF < c.toNat ∧ c.toNat < 0x110000 := c.valid
  simp only [isHighSurrogate, isLowSurrogate, Bool.and_eq_false_iff, decide_eq_false_iff_not]
  omega

theorem toNat_ofNat_of_lt {n : ℕ} (h : n < 0xD800 ∨ 0xDFFF < n ∧ n < 0x110000) :
    (Char.ofNat n).toNat = n := by
  rw [Char.ofNat, dif_pos h]
  rfl

/-- A number of sixteen bits that is no surrogate is a code point. -/
theorem toNat_ofNat_of_not_surrogate {n : ℕ} (h : n < 0x10000) (hhigh : ¬ isHighSurrogate n)
    (hlow : ¬ isLowSurrogate n) : (Char.ofNat n).toNat = n := by
  apply toNat_ofNat_of_lt
  simp only [isHighSurrogate, isLowSurrogate, Bool.and_eq_true, decide_eq_true_eq] at hhigh hlow
  omega

theorem content?_of_spells {spelled : Text} (h : Spells units spelled) :
    content? units = some spelled := by
  induction h with
  | nil => rfl
  | char _ ih => simp [content?, ih]
  | @code c units text _ ih =>
      obtain ⟨hhigh, hlow⟩ := not_surrogate c
      cases units with
      | nil => simp_all [content?]
      | cons unit units =>
          cases unit with
          | char d =>
              rw [content?, hhigh, hlow, ih]
              · simp
              · simp
          | code low =>
              rw [content?, hhigh, hlow, ih]
              simp
  | @pair c high low units text hhigh hlow hc _ ih =>
      rw [content?, if_pos hhigh, if_pos hlow, ih, ← hc, Char.ofNat_toNat]
      rfl

theorem spells_of_content? {spelled : Text} (hcodes : ∀ n, .code n ∈ units → n < 0x10000)
    (h : content? units = some spelled) : Spells units spelled := by
  fun_induction content? units generalizing spelled with
  | case1 =>
      obtain rfl := Option.some.inj h
      exact .nil
  | case2 c units ih =>
      obtain ⟨later, hlater, rfl⟩ := Option.map_eq_some_iff.mp h
      exact .char (ih (fun n hn => hcodes n (List.mem_cons_of_mem _ hn)) hlater)
  | case3 high low units hhigh hlow ih =>
      obtain ⟨later, hlater, rfl⟩ := Option.map_eq_some_iff.mp h
      refine .pair hhigh hlow (toNat_ofNat_of_lt ?_) (ih ?_ hlater)
      · simp only [isHighSurrogate, isLowSurrogate, Bool.and_eq_true, decide_eq_true_eq]
          at hhigh hlow
        omega
      · exact fun n hn => hcodes n (List.mem_cons_of_mem _ (List.mem_cons_of_mem _ hn))
  | case4 => simp at h
  | case5 => simp at h
  | case6 n low units hhigh hlow ih =>
      obtain ⟨later, hlater, rfl⟩ := Option.map_eq_some_iff.mp h
      have hn := toNat_ofNat_of_not_surrogate (hcodes n List.mem_cons_self) hhigh hlow
      have hspells := Spells.code (c := Char.ofNat n)
        (ih (fun m hm => hcodes m (List.mem_cons_of_mem _ hm)) hlater)
      rwa [hn] at hspells
  | case7 => simp at h
  | case8 n units _ hsurrogate ih =>
      obtain ⟨later, hlater, rfl⟩ := Option.map_eq_some_iff.mp h
      rw [Bool.or_eq_true, not_or] at hsurrogate
      have hn := toNat_ofNat_of_not_surrogate (hcodes n List.mem_cons_self) hsurrogate.1
        hsurrogate.2
      have hspells := Spells.code (c := Char.ofNat n)
        (ih (fun m hm => hcodes m (List.mem_cons_of_mem _ hm)) hlater)
      rwa [hn] at hspells

theorem WrittenUnits.code_lt (h : WrittenUnits units body) :
    ∀ n, .code n ∈ units → n < 0x10000 := by
  induction h with
  | nil => simp
  | plain _ _ _ _ ih => simpa using ih
  | escape _ _ ih => simpa using ih
  | code hvalue _ ih =>
      simp only [List.mem_cons, Unit16.code.injEq]
      rintro n (rfl | hlater)
      · simpa using Text.hexValue?_lt hvalue
      · exact ih n hlater

/-- The content of a written string is the text that its units spell, if they spell one. -/
theorem content?_eq_some_iff {spelled : Text} (h : WrittenUnits units body) :
    content? units = some spelled ↔ Spells units spelled :=
  ⟨spells_of_content? h.code_lt, content?_of_spells⟩

theorem WrittenString.content_eq {content : Content} (h : WrittenString content text) :
    ∃ units body, WrittenUnits units body ∧ text = ['"'] ++ body ++ ['"'] ∧
      content? units = content := by
  obtain ⟨units, body, hunits, htext, hcontent⟩ := h
  refine ⟨units, body, hunits, htext, Option.ext fun spelled => ?_⟩
  rw [content?_eq_some_iff hunits, hcontent spelled]

/-- Whatever is written between quotation marks is a string, with or without content. -/
theorem WrittenUnits.writtenString (h : WrittenUnits units body) :
    WrittenString (content? units) (['"'] ++ body ++ ['"']) :=
  ⟨units, body, h, rfl, fun _ => content?_eq_some_iff h⟩

end ReceiptNotes.Json
