import ReceiptNotes.Markup.Rule
import ReceiptNotes.Text.Quoted

/-! # Scanning a line

A scanner is a place in one line. Every advance yields a token, or the rejection
of the character at which no rule matches; after the token for the end of the
line, and after a rejection, there is nothing more. Scanners are values: keeping
one aside and going on with it later is going back to its place.
-/

namespace ReceiptNotes.Markup

open Text (byteLength)

/-- No rule matches at byte number `position`, where `found` stands. -/
structure Rejection where
  position : Nat
  found : Char
  deriving DecidableEq, Repr

def Rejection.message (rejection : Rejection) : Text :=
  "no markup rule matches ".toList ++ Text.quoted rejection.found ++ " at byte ".toList ++
    Text.decimal rejection.position

abbrev Item := Except Rejection Token

/-- A place in a line. -/
structure Scanner where
  line : Text
  position : Nat
  rest : Text
  /-- The end of the line or a rejection has been yielded. -/
  finished : Bool
  deriving DecidableEq, Repr

namespace Scanner

def ofLine (line : Text) : Scanner :=
  ⟨line, 0, line, false⟩

def restart (scanner : Scanner) : Scanner :=
  ofLine scanner.line

/-- The item at the scanner's place and the place after it. -/
def next? (scanner : Scanner) : Option (Item × Scanner) :=
  if scanner.finished then none
  else match scanner.rest with
    | [] =>
        some (.ok ⟨.endOfInput, .nothing, scanner.position, scanner.position⟩,
          { scanner with finished := true })
    | c :: _ =>
        match firstMatch? (scanner.position == 0) scanner.rest with
        | some (kind, found) =>
            let stop := scanner.position + byteLength found.lexeme
            some (.ok ⟨kind, found.payload, scanner.position, stop⟩,
              { scanner with position := stop, rest := found.rest })
        | none => some (.error ⟨scanner.position, c⟩, { scanner with finished := true })

/-- An upper bound on the number of items still to come. -/
def remaining (scanner : Scanner) : Nat :=
  if scanner.finished then 0 else scanner.rest.length + 1

theorem remaining_next? {scanner after : Scanner} {item : Item}
    (h : scanner.next? = some (item, after)) : after.remaining < scanner.remaining := by
  unfold next? at h
  split at h
  · simp at h
  next hopen =>
      split at h
      next hrest =>
          simp only [Option.some.injEq, Prod.mk.injEq] at h
          obtain ⟨-, rfl⟩ := h
          simp [remaining, hopen]
      next c text hrest =>
          split at h
          next kind found hfound =>
              simp only [Option.some.injEq, Prod.mk.injEq] at h
              obtain ⟨-, rfl⟩ := h
              obtain ⟨hsplit, hne⟩ := firstMatch?_splits hfound
              have hlength := congrArg List.length hsplit
              have hpos := List.length_pos_iff.mpr hne
              simp only [List.length_append] at hlength
              simp [remaining, hopen]
              omega
          next =>
              simp only [Option.some.injEq, Prod.mk.injEq] at h
              obtain ⟨-, rfl⟩ := h
              simp [remaining, hopen]

def items (scanner : Scanner) : List Item :=
  match _h : scanner.next? with
  | none => []
  | some (item, after) => item :: after.items
termination_by scanner.remaining
decreasing_by exact remaining_next? _h

end Scanner

/-- The tokens of a line, the last of which is its end, or the rejection of its
first character that starts no markup. -/
def lex (line : Text) : Except Rejection (List Token) :=
  (Scanner.ofLine line).items.mapM id

end ReceiptNotes.Markup
