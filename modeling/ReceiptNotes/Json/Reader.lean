import ReceiptNotes.Json.Token

/-! # Reading JSON

A text is read token by token. The state of the reading holds, for every bracket that
is open, what has been read inside it, innermost bracket first, so values may be
nested to any depth. Only strict JSON is read: one value, and whitespace around its
tokens.
-/

namespace ReceiptNotes.Json

/-- An open bracket in which a value is being read, with what has been read before
it, last one first. -/
inductive Frame where
  | item (before : List Json)
  | member (before : List (Content × Json)) (key : Content)

/-- What may come next in a text. -/
inductive State where
  | value (stack : List Frame)
  /-- The first item of an array, or its end. -/
  | firstItem (stack : List Frame)
  /-- The first key of an object, or its end. -/
  | firstKey (stack : List Frame)
  /-- A further key of an object. -/
  | key (before : List (Content × Json)) (stack : List Frame)
  /-- The colon behind a key. -/
  | colon (before : List (Content × Json)) (key : Content) (stack : List Frame)
  /-- A comma, or the end of an array. -/
  | afterItem (items : List Json) (stack : List Frame)
  /-- A comma, or the end of an object. -/
  | afterMember (members : List (Content × Json)) (stack : List Frame)
  | done (value : Json)

namespace State

/-- A value has been read in full. -/
def complete (json : Json) : (stack : List Frame) → State
  | [] => .done json
  | .item before :: stack => .afterItem (json :: before) stack
  | .member before label :: stack => .afterMember ((label, json) :: before) stack

def begin? (token : Token) (stack : List Frame) : Option State :=
  match token with
  | .openArray => some (.firstItem stack)
  | .openObject => some (.firstKey stack)
  | .null => some (complete .null stack)
  | .bool truth => some (complete (.bool truth) stack)
  | .number literal => some (complete (.number literal) stack)
  | .string content => some (complete (.string content) stack)
  | .closeArray | .closeObject | .comma | .colon => none

def feed? : State → Token → Option State
  | .value stack, token => begin? token stack
  | .firstItem stack, .closeArray => some (complete (.array []) stack)
  | .firstItem stack, token => begin? token (.item [] :: stack)
  | .firstKey stack, .closeObject => some (complete (.object []) stack)
  | .firstKey stack, .string content => some (.colon [] content stack)
  | .key before stack, .string content => some (.colon before content stack)
  | .colon before label stack, .colon => some (.value (.member before label :: stack))
  | .afterItem items stack, .comma => some (.value (.item items :: stack))
  | .afterItem items stack, .closeArray => some (complete (.array items.reverse) stack)
  | .afterMember members stack, .comma => some (.key members stack)
  | .afterMember members stack, .closeObject =>
      some (complete (.object members.reverse) stack)
  | _, _ => none

/-- The value, if the text may end here. -/
def result? : State → Option Json
  | .done json => some json
  | _ => none

end State

theorem length_dropSpace (text : Text) : (text.dropWhile isSpace).length ≤ text.length := by
  have h := congrArg List.length (List.takeWhile_append_dropWhile (p := isSpace) (l := text))
  simp only [List.length_append] at h
  omega

def readFrom (state : State) (text : Text) : Option Json :=
  match _h : text.dropWhile isSpace with
  | [] => state.result?
  | c :: behind =>
      match _htoken : Token.ofFront? (c :: behind) with
      | none => none
      | some (token, rest) =>
          match state.feed? token with
          | none => none
          | some state => readFrom state rest
termination_by text.length
decreasing_by
  have hspace := length_dropSpace text
  have hrest := Token.length_ofFront? _htoken
  rw [_h] at hspace
  omega

def ofText? (text : Text) : Option Json :=
  readFrom (.value []) text

end ReceiptNotes.Json
