import ReceiptNotes.Json.Token
import ReceiptNotes.Proofs.Text.Numeral

/-! # The written forms of JSON

What texts stand for a JSON value, said without regard to how they are read: the literals
of numbers, the strings with all their escapes, and arrays and objects with whitespace
anywhere between their parts (`Json.Written`).
-/

namespace ReceiptNotes.Json

/-- Whitespace between the parts of a value, perhaps none. -/
def Blank (text : Text) : Prop :=
  ∀ c ∈ text, isSpace c

instance (text : Text) : Decidable (Blank text) :=
  List.decidableBAll _ text

/-! ## Numbers -/

/-- A row of digits. -/
def Digits (text : Text) : Prop :=
  text ≠ [] ∧ ∀ c ∈ text, c.isDigit

/-- Zero, or a row of digits that does not start with zero. -/
def WrittenInteger (text : Text) : Prop :=
  text = ['0'] ∨ Digits text ∧ text.head? ≠ some '0'

/-- Nothing, or a point and digits. -/
def WrittenFraction (text : Text) : Prop :=
  text = [] ∨ ∃ digits, Digits digits ∧ text = '.' :: digits

/-- Nothing, or a mark and digits with or without a sign. -/
def WrittenExponent (text : Text) : Prop :=
  text = [] ∨ ∃ mark sign digits, (mark = 'e' ∨ mark = 'E') ∧
    (sign = [] ∨ sign = ['+'] ∨ sign = ['-']) ∧ Digits digits ∧ text = mark :: sign ++ digits

def WrittenNumber (text : Text) : Prop :=
  ∃ sign integer fraction exponent, (sign = [] ∨ sign = ['-']) ∧ WrittenInteger integer ∧
    WrittenFraction fraction ∧ WrittenExponent exponent ∧
    text = sign ++ integer ++ fraction ++ exponent

/-! ## Strings -/

/-- Characters that may stand behind a backslash, and what they then mean. -/
def escapes : List (Char × Char) :=
  [('"', '"'), ('\\', '\\'), ('/', '/'), ('b', '\x08'), ('f', '\x0C'), ('n', '\n'),
    ('r', '\r'), ('t', '\t')]

/-- Units of a string as they are written between the quotation marks. -/
inductive WrittenUnits : List Unit16 → Text → Prop where
  | nil : WrittenUnits [] []
  | plain {c : Char} {units : List Unit16} {text : Text} (hcontrol : 0x20 ≤ c.toNat)
      (hquote : c ≠ '"') (hbackslash : c ≠ '\\') (hlater : WrittenUnits units text) :
      WrittenUnits (.char c :: units) (c :: text)
  | escape {letter c : Char} {units : List Unit16} {text : Text}
      (hescape : (letter, c) ∈ escapes) (hlater : WrittenUnits units text) :
      WrittenUnits (.char c :: units) ('\\' :: letter :: text)
  | code {n : ℕ} {a b c d : Char} {units : List Unit16} {text : Text}
      (hvalue : Text.hexValue? [a, b, c, d] = some n) (hlater : WrittenUnits units text) :
      WrittenUnits (.code n :: units) ('\\' :: 'u' :: a :: b :: c :: d :: text)

/-- Units spell a text: each of its characters is there as such, or by its code point if
that fits, or by a pair of surrogates otherwise. -/
inductive Spells : List Unit16 → Text → Prop where
  | nil : Spells [] []
  | char {c : Char} {units : List Unit16} {text : Text} (hlater : Spells units text) :
      Spells (.char c :: units) (c :: text)
  | code {c : Char} {units : List Unit16} {text : Text} (hlater : Spells units text) :
      Spells (.code c.toNat :: units) (c :: text)
  | pair {c : Char} {high low : ℕ} {units : List Unit16} {text : Text}
      (hhigh : isHighSurrogate high) (hlow : isLowSurrogate low)
      (hc : c.toNat = 0x10000 + (high - 0xD800) * 0x400 + (low - 0xDC00))
      (hlater : Spells units text) :
      Spells (.code high :: .code low :: units) (c :: text)

/-- A string with its quotation marks. If it spells no text, it has no content. -/
def WrittenString (content : Content) (text : Text) : Prop :=
  ∃ units body, WrittenUnits units body ∧ text = ['"'] ++ body ++ ['"'] ∧
    ∀ spelled, content = some spelled ↔ Spells units spelled

/-! ## Values -/

/-- A string with whitespace around it. -/
def WrittenKey (key : Content) (text : Text) : Prop :=
  ∃ before label behind, Blank before ∧ WrittenString key label ∧ Blank behind ∧
    text = before ++ label ++ behind

/-- What may be written: a value, a value with whitespace around it, and one or more items
or members with commas between them. -/
inductive Phrase where
  | value (json : Json)
  | spaced (json : Json)
  | items (items : List Json)
  | members (members : List (Content × Json))

inductive Written : Phrase → Text → Prop where
  | null : Written (.value .null) "null".toList
  | true : Written (.value (.bool true)) "true".toList
  | false : Written (.value (.bool false)) "false".toList
  | number {literal : Text} (h : WrittenNumber literal) :
      Written (.value (.number literal)) literal
  | string {content : Content} {text : Text} (h : WrittenString content text) :
      Written (.value (.string content)) text
  | emptyArray {space : Text} (h : Blank space) :
      Written (.value (.array [])) (['['] ++ space ++ [']'])
  | array {items : List Json} {text : Text} (h : Written (.items items) text) :
      Written (.value (.array items)) (['['] ++ text ++ [']'])
  | emptyObject {space : Text} (h : Blank space) :
      Written (.value (.object [])) (['\x7b'] ++ space ++ ['\x7d'])
  | object {members : List (Content × Json)} {text : Text}
      (h : Written (.members members) text) :
      Written (.value (.object members)) (['\x7b'] ++ text ++ ['\x7d'])
  | spaced {json : Json} {before text behind : Text} (hbefore : Blank before)
      (h : Written (.value json) text) (hbehind : Blank behind) :
      Written (.spaced json) (before ++ text ++ behind)
  | lastItem {json : Json} {text : Text} (h : Written (.spaced json) text) :
      Written (.items [json]) text
  | item {json : Json} {items : List Json} {text later : Text}
      (h : Written (.spaced json) text) (hlater : Written (.items items) later) :
      Written (.items (json :: items)) (text ++ [','] ++ later)
  | lastMember {key : Content} {json : Json} {label text : Text}
      (hkey : WrittenKey key label) (h : Written (.spaced json) text) :
      Written (.members [(key, json)]) (label ++ [':'] ++ text)
  | member {key : Content} {json : Json} {members : List (Content × Json)}
      {label text later : Text} (hkey : WrittenKey key label)
      (h : Written (.spaced json) text) (hlater : Written (.members members) later) :
      Written (.members ((key, json) :: members)) (label ++ [':'] ++ text ++ [','] ++ later)

end ReceiptNotes.Json
