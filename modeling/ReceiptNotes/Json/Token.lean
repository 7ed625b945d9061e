import ReceiptNotes.Json.Basic
import ReceiptNotes.Text.Numeral

/-! # JSON tokens

The smallest written units of JSON: brackets, separators, literals. A token is read
off the front of a text as far as it goes; what follows is not looked at. Reading a
token always shortens the text (`length_ofFront?`).
-/

namespace ReceiptNotes.Json

open Text (after? run?)

inductive Token where
  | openArray
  | closeArray
  | openObject
  | closeObject
  | comma
  | colon
  | null
  | bool (value : Bool)
  | number (literal : Text)
  | string (content : Content)
  deriving DecidableEq, Repr

def isSpace (c : Char) : Bool :=
  c = ' ' || c = '\t' || c = '\n' || c = '\r'

/-! ## Numbers -/

/-- The digits before the point: zero, or a row that does not start with zero. -/
def integerPart? : Text → Option (Text × Text)
  | '0' :: text => some (['0'], text)
  | text => run? Char.isDigit text

/-- A point with digits behind it, if there is a point. -/
def fractionPart? : Text → Option (Text × Text)
  | '.' :: text => (run? Char.isDigit text).map fun (digits, rest) => ('.' :: digits, rest)
  | text => some ([], text)

/-- A sign, if there is one. -/
def signPart (isSign : Char → Bool) : Text → Text × Text
  | [] => ([], [])
  | c :: text => if isSign c then ([c], text) else ([], c :: text)

/-- An exponent with its sign and digits, if there is an exponent mark. -/
def exponentPart? : Text → Option (Text × Text)
  | [] => some ([], [])
  | c :: text =>
      if c = 'e' || c = 'E' then
        let (sign, text) := signPart (fun c => c = '+' || c = '-') text
        (run? Char.isDigit text).map fun (digits, rest) => (c :: sign ++ digits, rest)
      else some ([], c :: text)

/-- A number off the front of a text, as it is written. -/
def number? (text : Text) : Option (Text × Text) := do
  let (sign, text) := signPart (· = '-') text
  let (integer, text) ← integerPart? text
  let (fraction, text) ← fractionPart? text
  let (exponent, text) ← exponentPart? text
  return (sign ++ integer ++ fraction ++ exponent, text)

/-! ## Strings -/

/-- A unit of a string as it is written: a character, or a number of sixteen bits. -/
inductive Unit16 where
  | char (c : Char)
  | code (n : Nat)
  deriving DecidableEq, Repr

/-- The character behind a backslash stands for this character. -/
def escape? : Char → Option Char
  | '"' => some '"'
  | '\\' => some '\\'
  | '/' => some '/'
  | 'b' => some '\x08'
  | 'f' => some '\x0C'
  | 'n' => some '\n'
  | 'r' => some '\r'
  | 't' => some '\t'
  | _ => none

/-- The units of a string up to its closing quotation mark, and the text behind it.
Control characters must be escaped. -/
def units? : Text → Option (List Unit16 × Text)
  | '"' :: rest => some ([], rest)
  | '\\' :: 'u' :: a :: b :: c :: d :: rest => do
      let code ← Text.hexValue? [a, b, c, d]
      let (units, rest) ← units? rest
      return (.code code :: units, rest)
  | '\\' :: c :: rest => do
      let escaped ← escape? c
      let (units, rest) ← units? rest
      return (.char escaped :: units, rest)
  | c :: rest =>
      if c.toNat < 0x20 || c = '\\' then none
      else do
        let (units, rest) ← units? rest
        return (.char c :: units, rest)
  | [] => none

def isHighSurrogate (n : Nat) : Bool := 0xD800 ≤ n && n ≤ 0xDBFF

def isLowSurrogate (n : Nat) : Bool := 0xDC00 ≤ n && n ≤ 0xDFFF

/-- The text that some units spell, if every surrogate has its partner. -/
def content? : List Unit16 → Content
  | [] => some []
  | .char c :: units => (content? units).map (c :: ·)
  | .code high :: .code low :: units =>
      if isHighSurrogate high then
        if isLowSurrogate low then
          (content? units).map
            (Char.ofNat (0x10000 + (high - 0xD800) * 0x400 + (low - 0xDC00)) :: ·)
        else none
      else if isLowSurrogate high then none
      else (content? (.code low :: units)).map (Char.ofNat high :: ·)
  | .code n :: units =>
      if isHighSurrogate n || isLowSurrogate n then none
      else (content? units).map (Char.ofNat n :: ·)

/-! ## Tokens -/

namespace Token

/-- A fixed word off the front of a text. -/
def word? (word : Text) (token : Token) (text : Text) : Option (Token × Text) :=
  (after? word text).map fun rest => (token, rest)

/-- A token off the front of a text. -/
def ofFront? : Text → Option (Token × Text)
  | [] => none
  | '[' :: text => some (.openArray, text)
  | ']' :: text => some (.closeArray, text)
  | '\x7b' :: text => some (.openObject, text)
  | '\x7d' :: text => some (.closeObject, text)
  | ',' :: text => some (.comma, text)
  | ':' :: text => some (.colon, text)
  | '"' :: text => (units? text).map fun (units, rest) => (.string (content? units), rest)
  | 'n' :: text => word? "ull".toList .null text
  | 't' :: text => word? "rue".toList (.bool true) text
  | 'f' :: text => word? "alse".toList (.bool false) text
  | text => (number? text).map fun (literal, rest) => (.number literal, rest)

end Token

/-! ## Length -/

theorem length_run? {p : Char → Bool} {text taken rest : Text}
    (h : run? p text = some (taken, rest)) : rest.length < text.length := by
  obtain ⟨hne, hsplit, -, -⟩ := Text.run?_eq h
  have hpos := List.length_pos_iff.mpr hne
  have hlength := congrArg List.length hsplit
  simp only [List.length_append] at hlength
  omega

theorem length_signPart (isSign : Char → Bool) (text : Text) :
    (signPart isSign text).2.length ≤ text.length := by
  cases text with
  | nil => simp [signPart]
  | cons c text =>
      simp only [signPart]
      split <;> simp

theorem length_integerPart? {text integer rest : Text}
    (h : integerPart? text = some (integer, rest)) : rest.length < text.length := by
  unfold integerPart? at h
  split at h
  · simp only [Option.some.injEq, Prod.mk.injEq] at h
    simp [h.2]
  · exact length_run? h

theorem length_fractionPart? {text fraction rest : Text}
    (h : fractionPart? text = some (fraction, rest)) : rest.length ≤ text.length := by
  unfold fractionPart? at h
  split at h
  · simp only [Option.map_eq_some_iff, Prod.mk.injEq, Prod.exists] at h
    obtain ⟨digits, _, hrun, -, rfl⟩ := h
    have := length_run? hrun
    simp only [List.length_cons]
    omega
  · simp only [Option.some.injEq, Prod.mk.injEq] at h
    simp [h.2]

theorem length_exponentPart? {text exponent rest : Text}
    (h : exponentPart? text = some (exponent, rest)) : rest.length ≤ text.length := by
  unfold exponentPart? at h
  split at h
  · simp only [Option.some.injEq, Prod.mk.injEq] at h
    simp [← h.2]
  next c text =>
      split at h
      · simp only [Option.map_eq_some_iff, Prod.mk.injEq, Prod.exists] at h
        obtain ⟨digits, _, hrun, -, rfl⟩ := h
        have hdigits := length_run? hrun
        have hsign := length_signPart (fun c => c = '+' || c = '-') text
        simp only [List.length_cons]
        omega
      · simp only [Option.some.injEq, Prod.mk.injEq] at h
        simp [← h.2]

theorem length_number? {text literal rest : Text}
    (h : number? text = some (literal, rest)) : rest.length < text.length := by
  simp only [number?, Option.bind_eq_bind, Option.bind_eq_some_iff, Option.pure_def,
    Option.some.injEq, Prod.mk.injEq, Prod.exists] at h
  obtain ⟨integer, _, hinteger, fraction, _, hfraction, exponent, _, hexponent, -, rfl⟩ := h
  have hsign := length_signPart (· = '-') text
  have := length_integerPart? hinteger
  have := length_fractionPart? hfraction
  have := length_exponentPart? hexponent
  omega

theorem length_units? {text rest : Text} {units : List Unit16}
    (h : units? text = some (units, rest)) : rest.length < text.length := by
  fun_induction units? text generalizing units rest with
  | case1 rest' =>
      simp only [Option.some.injEq, Prod.mk.injEq] at h
      simp [h.2]
  | case2 a b c d rest' ih =>
      simp only [Option.bind_eq_bind, Option.bind_eq_some_iff, Option.pure_def,
        Option.some.injEq, Prod.mk.injEq, Prod.exists] at h
      obtain ⟨_, -, _, _, hunits, -, rfl⟩ := h
      have := ih hunits
      simp only [List.length_cons]
      omega
  | case3 c rest' _ ih =>
      simp only [Option.bind_eq_bind, Option.bind_eq_some_iff, Option.pure_def,
        Option.some.injEq, Prod.mk.injEq, Prod.exists] at h
      obtain ⟨_, -, _, _, hunits, -, rfl⟩ := h
      have := ih hunits
      simp only [List.length_cons]
      omega
  | case4 => simp at h
  | case5 c rest' _ _ _ _ ih =>
      simp only [Option.bind_eq_bind, Option.bind_eq_some_iff, Option.pure_def,
        Option.some.injEq, Prod.mk.injEq, Prod.exists] at h
      obtain ⟨_, _, hunits, -, rfl⟩ := h
      have := ih hunits
      simp only [List.length_cons]
      omega
  | case6 => simp at h

theorem Token.length_word? {word text rest : Text} {token found : Token}
    (h : Token.word? word token text = some (found, rest)) : rest.length ≤ text.length := by
  simp only [Token.word?, Option.map_eq_some_iff, Prod.mk.injEq] at h
  obtain ⟨_, hafter, -, rfl⟩ := h
  simp [Text.after?_eq_some_iff.mp hafter]

/-- A token has at least one character. -/
theorem Token.length_ofFront? {text rest : Text} {token : Token}
    (h : Token.ofFront? text = some (token, rest)) : rest.length < text.length := by
  unfold Token.ofFront? at h
  split at h
  · simp at h
  iterate 6
    · simp only [Option.some.injEq, Prod.mk.injEq] at h
      simp [h.2]
  · simp only [Option.map_eq_some_iff, Prod.mk.injEq, Prod.exists] at h
    obtain ⟨_, _, hunits, -, rfl⟩ := h
    have := length_units? hunits
    simp only [List.length_cons]
    omega
  iterate 3
    · have := Token.length_word? h
      simp only [List.length_cons]
      omega
  · simp only [Option.map_eq_some_iff, Prod.mk.injEq, Prod.exists] at h
    obtain ⟨_, _, hnumber, -, rfl⟩ := h
    exact length_number? hnumber

end ReceiptNotes.Json
